/-!
# Spans of an index range

A span is a stretch `lo, …, hi - 1` of the indices below `n`. A loop over a range that is cut
into pieces is a fold over spans: tiles of one length with the last one clipped, or whole lanes
followed by the tail that fills no lane.
-/
namespace Microbench

structure Span (n : Nat) where
  lo : Nat
  hi : Nat
  hi_le : hi ≤ n

namespace Span

variable {n : Nat}

def whole (n : Nat) : Span n := ⟨0, n, Nat.le_refl n⟩

/-- Visits the indices of the span in ascending order. -/
@[inline] def foldl (s : Span n) (f : β → Fin n → β) (init : β) : β :=
  Nat.fold (s.hi - s.lo) (fun k hk acc => f acc ⟨s.lo + k, by have := s.hi_le; omega⟩) init

/-- The starts `0, step, 2 * step, …` below `n`, each with the end of its tile. -/
def tiles (n step : Nat) : List (Span n) :=
  (List.range ((n + step - 1) / step)).map fun t =>
    ⟨t * step, min (t * step + step) n, Nat.min_le_right ..⟩

/-- As many whole pieces of the given width as fit, then the rest in one piece. A width of zero
leaves everything to the rest. -/
def lanes (n width : Nat) : List (Span n) :=
  (List.range (n / width)).map
      (fun t => ⟨t * width, min (t * width + width) n, Nat.min_le_right ..⟩)
    ++ [⟨n / width * width, n, Nat.le_refl n⟩]

/-- Visits the indices of all the spans, one span after another. -/
@[inline] def foldAll (spans : List (Span n)) (f : β → Fin n → β) (init : β) : β :=
  spans.foldl (fun acc s => s.foldl f acc) init

end Span

end Microbench
