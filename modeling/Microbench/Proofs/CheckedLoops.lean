import Microbench.Proofs.MatrixMultiply
import Microbench.Proofs.MemoryCopy
import Microbench.Proofs.ModifyInPlace
import Microbench.Proofs.VectorAdd

/-!
# The other loops with checked indices

The loops over vectors, blocks and working sets, as the matrix nests stand in
`Proofs.Square.Words`: on flat arrays, with no value where an index is not a word or lies outside
its array. Nor is there a value where blocks of unequal length are copied as one, where the
remainder by zero is taken, or where a lap makes no step and so would never end.

On operands that were accepted every loop has a value, which is that of the kernel.

Results:

* `VectorAdd.Words.whole_eq`, `VectorAdd.Words.lanes_eq`: the loops over vectors.
* `MemoryCopy.Words.bytes_eq`, `MemoryCopy.Words.registers_eq`: checked copies of one block, for
  blocks of any lengths.
* `ModifyInPlace.Words.walk_eq`, `ModifyInPlace.Words.laps_eq`: the walks through a working set.
-/
namespace Microbench

open Square.Words

namespace Loops

variable {α : Type}

/-- Writes to the indices `lo, …, hi - 1` what is read there. -/
def fill (read : Nat → Option α) (lo hi : Nat) (out : Array α) : Option (Array α) :=
  each lo hi (fun out i => do
    let value ← read i
    update? out i fun _ => value) out

/-- The same below `len`: as many whole vectors of `width` lanes as fit, then the rest. A width of
zero leaves everything to the rest. -/
def fillLanes (width : Nat) (read : Nat → Option α) (len : Nat) (out : Array α) :
    Option (Array α) := do
  let out ← each 0 (len / width) (fun out chunk => do
    let offset ← word? (chunk * width)
    fill read offset (← word? (offset + width)) out) out
  fill read (← word? (len / width * width)) len out

section Fill

variable {n m : Nat} (le : n ≤ m) {read : Nat → Option α} {f : Fin n → α}
  (reads : ∀ i : Fin n, read i = some (f i))

include reads

theorem fill_eq (s : Span n) (out : Vector α m) :
    fill read s.lo s.hi out.toArray
      = some (s.foldl
          (fun out i => out.set i (f i) (Nat.lt_of_lt_of_le i.isLt le)) out).toArray := by
  refine each_span Vector.toArray s (fun i _ c => ?_) out
  have inside : i.val < c.toArray.size := by
    rw [c.size_toArray]
    exact Nat.lt_of_lt_of_le i.isLt le
  rw [reads i, Option.bind_eq_bind, Option.bind_some, update?, dif_pos inside]
  rfl

theorem fillLanes_eq (fits : n ≤ maxWord) (width : Nat) (out : Vector α m) :
    fillLanes width read n out.toArray
      = some (Span.foldAll (Span.lanes n width)
          (fun out i => out.set i (f i) (Nat.lt_of_lt_of_le i.isLt le)) out).toArray := by
  have vectors (out : Vector α m) :
      each 0 (n / width) (fun out chunk => do
          let offset ← word? (chunk * width)
          fill read offset (← word? (offset + width)) out) out.toArray
        = some ((List.range (n / width)).foldl (fun out chunk =>
            (Span.mk (chunk * width) (min (chunk * width + width) n)
              (Nat.min_le_right ..)).foldl
              (fun out i => out.set i (f i) (Nat.lt_of_lt_of_le i.isLt le)) out) out).toArray := by
    rw [each, Nat.sub_zero, ← List.range_eq_range']
    refine Eq.trans (by rw [List.map_id]) (foldlM_map Vector.toArray id (fun q hq c => ?_) out)
    have inside := vector_le (List.mem_range.1 hq)
    have stop : min (q * width + width) n = q * width + width := Nat.min_eq_left inside
    rw [id, word?_of_le (x := q * width) (by omega), Option.bind_eq_bind, Option.bind_some,
      word?_of_le (by omega), Option.bind_some]
    exact (congrArg (fill read (q * width) · c.toArray) stop.symm).trans
      (fill_eq le reads ⟨q * width, min (q * width + width) n, Nat.min_le_right ..⟩ c)
  have start : word? (n / width * width) = some (n / width * width) := by
    have := Nat.div_mul_le_self n width
    exact word?_of_le (by omega)
  rw [fillLanes, vectors, Option.bind_eq_bind, Option.bind_some, start, Option.bind_eq_bind,
    Option.bind_some, Span.foldAll, Span.lanes, List.foldl_append, List.foldl_map]
  exact fill_eq le reads ⟨n / width * width, n, Nat.le_refl n⟩ _

end Fill

end Loops

namespace VectorAdd.Words

variable (lhs rhs out : Array Int16)

def sum? (i : Nat) : Option Int16 := do return (← lhs[i]?) + (← rhs[i]?)

/-- Element by element. -/
def whole : Option (Array Int16) := Loops.fill (sum? lhs rhs) 0 out.size out

/-- A vector of `width` lanes at a time, then the elements that fill none. -/
def lanes (width : Nat) : Option (Array Int16) :=
  Loops.fillLanes width (sum? lhs rhs) out.size out

variable {n : Nat} (lhs rhs out : Vector Int16 n)

theorem sum?_eq (i : Fin n) :
    sum? lhs.toArray rhs.toArray i = some (lhs.get i + rhs.get i) := by
  have left : lhs.toArray[i.val]? = some (lhs.get i) :=
    Array.getElem?_eq_getElem (lhs.size_toArray.symm ▸ i.isLt)
  have right : rhs.toArray[i.val]? = some (rhs.get i) :=
    Array.getElem?_eq_getElem (rhs.size_toArray.symm ▸ i.isLt)
  rw [sum?, left, right]
  rfl

theorem whole_eq :
    whole lhs.toArray rhs.toArray out.toArray
      = some (writeSums [Span.whole n] lhs rhs out).toArray := by
  rw [whole, out.size_toArray]
  exact Loops.fill_eq (Nat.le_refl n) (sum?_eq lhs rhs) (Span.whole n) out

theorem lanes_eq (fits : n ≤ maxWord) (width : Nat) :
    lanes lhs.toArray rhs.toArray out.toArray width
      = some (writeSums (Span.lanes n width) lhs rhs out).toArray := by
  rw [lanes, out.size_toArray]
  exact Loops.fillLanes_eq (Nat.le_refl n) (sum?_eq lhs rhs) fits width out

end VectorAdd.Words

namespace MemoryCopy.Words

/-- A copy of one block with checked indices. -/
abbrev CheckedCopy := (dst src : Array UInt8) → Option (Array UInt8)

/-- Byte by byte, as far as both blocks reach. -/
def bytes : CheckedCopy := fun dst src =>
  Loops.fill (src[·]?) 0 (min dst.size src.size) dst

/-- The whole block at once. -/
def slice : CheckedCopy := fun dst src => if dst.size = src.size then some src else none

/-- A register of `width` bytes at a time, then the bytes that fill none. -/
def registers (width : Nat) : CheckedCopy := fun dst src => do
  let len := min dst.size src.size
  let _ ← slice? dst 0 len
  let _ ← slice? src 0 len
  Loops.fillLanes width (src[·]?) len dst

/-- All blocks, put together. -/
def blockwise (copy : CheckedCopy) (o : Operands) : Option (Array UInt8) := do
  return join (← o.pairs.mapM fun (dst, src) => copy dst src)

/-- A checked copy that has a value on blocks of one length: the source. -/
def Copies (copy : CheckedCopy) : Prop :=
  ∀ dst src, dst.size = src.size → src.size ≤ maxWord → copy dst src = some src

theorem read_eq (src : Array UInt8) (len : Nat) (h : len ≤ src.size) (i : Fin len) :
    src[i.val]? = some (src.toVector.get ⟨i, Nat.lt_of_lt_of_le i.isLt h⟩) :=
  Array.getElem?_eq_getElem (Nat.lt_of_lt_of_le i.isLt h)

theorem bytes_eq (dst src : Array UInt8) : bytes dst src = some (overlaid dst src) := by
  have filled := Loops.fill_eq (Nat.min_le_left dst.size src.size)
    (read_eq src _ (Nat.min_le_right ..)) (Span.whole _) dst.toVector
  exact filled.trans (congrArg some (overwrite_eq Span.covers_whole))

theorem registers_eq (width : Nat) {dst src : Array UInt8}
    (fits : min dst.size src.size ≤ maxWord) :
    registers width dst src = some (overlaid dst src) := by
  have filled := Loops.fillLanes_eq (Nat.min_le_left dst.size src.size)
    (read_eq src _ (Nat.min_le_right ..)) fits width dst.toVector
  have inside {data : Array UInt8} {len : Nat} (h : len ≤ data.size) :
      slice? data 0 len = some (data.extract 0 len) := if_pos ⟨Nat.zero_le _, h⟩
  rw [registers]
  simp only [inside (Nat.min_le_left dst.size src.size),
    inside (Nat.min_le_right dst.size src.size), Option.bind_eq_bind, Option.bind_some]
  exact filled.trans (congrArg some (overwrite_eq fun n => Span.covers_lanes n width))

theorem bytes_copies : Copies bytes := fun dst src same _ => by
  rw [bytes_eq, overlaid_of_size_eq same]

theorem slice_copies : Copies slice := fun _ _ same _ => if_pos same

theorem registers_copies (width : Nat) : Copies (registers width) := fun dst src same fits => by
  rw [registers_eq width (by omega), overlaid_of_size_eq same]

/-- Blocks of data that fits a word do. -/
theorem pairs_fit {o : Operands} (fits : o.src.size ≤ maxWord) :
    ∀ p ∈ o.pairs, p.2.size ≤ maxWord := by
  rintro ⟨dst, src⟩ hp
  obtain ⟨b, -, rfl⟩ := List.mem_map.1 (List.of_mem_zip hp).2
  rw [Array.size_extract]
  omega

theorem blockwise_eq {copy : CheckedCopy} (copies : Copies copy) {o : Operands}
    (same : o.dst.size = o.src.size) (fits : o.src.size ≤ maxWord) :
    blockwise copy o = some o.src := by
  have each : ∀ p ∈ o.pairs, (fun (dst, src) => copy dst src) p = some p.2 :=
    fun p hp => copies p.1 p.2 (pairs_sizes same p hp) (pairs_fit fits p hp)
  have copied : (o.pairs.mapM fun (dst, src) => copy dst src) = some (o.pairs.map Prod.snd) :=
    (mapM_congr each).trans List.mapM_pure
  rw [pairs_snd same] at copied
  rw [blockwise, copied]
  exact congrArg some (join_blocks o.src)

end MemoryCopy.Words

namespace ModifyInPlace.Words

def remainder? (a b : Nat) : Option Nat := if b = 0 then none else some (a % b)

/-- Step by step, each at the remainder of its number. -/
def walk (steps : Nat) (data : Array Int32) : Option (Array Int32) :=
  each 0 steps (fun data step => do
    update? data (← remainder? step data.size) roundTrip) data

/-- Lap by lap. -/
def laps (remaining : Nat) (data : Array Int32) : Option (Array Int32) :=
  if remaining = 0 then
    some data
  else
    let lap := min remaining data.size
    if lap = 0 then
      none
    else do
      let _ ← slice? data 0 lap
      let data ← each 0 lap (fun data i => update? data i roundTrip) data
      laps (remaining - lap) data
termination_by remaining
decreasing_by omega

variable {n : Nat} (pos : 0 < n)

theorem update?_vector (data : Vector Int32 n) (i : Fin n) :
    update? data.toArray i roundTrip
      = some (data.set i (roundTrip (data.get i)) i.isLt).toArray := by
  rw [update?, dif_pos (data.size_toArray.symm ▸ i.isLt)]
  rfl

theorem walk_eq (steps : Nat) (data : Vector Int32 n) :
    walk steps data.toArray = some (ModifyInPlace.walk pos steps data).toArray := by
  rw [ModifyInPlace.walk, Nat.fold_eq_finRange_foldl, ← Fin.foldl_eq_finRange_foldl]
  refine each_all Vector.toArray (fun step c => ?_) data
  rw [c.size_toArray, remainder?, if_neg (by omega)]
  exact update?_vector c ⟨step % n, Nat.mod_lt _ pos⟩

theorem laps_eq (remaining : Nat) (data : Vector Int32 n) :
    laps remaining data.toArray = some (ModifyInPlace.laps pos remaining data).toArray := by
  induction remaining using Nat.strongRecOn generalizing data with
  | ind remaining ih =>
    rw [laps, ModifyInPlace.laps]
    split
    · rfl
    · have lap : each 0 (min remaining n) (fun data i => update? data i roundTrip) data.toArray
          = some ((Span.mk 0 (min remaining n) (Nat.min_le_right ..)).foldl
              (fun data i => data.set i (roundTrip (data.get i)) i.isLt) data).toArray :=
        each_span Vector.toArray ⟨0, min remaining n, Nat.min_le_right ..⟩
          (fun i _ c => update?_vector c i) data
      have inside : slice? data.toArray 0 (min remaining n)
          = some (data.toArray.extract 0 (min remaining n)) :=
        if_pos ⟨Nat.zero_le _, data.size_toArray.symm ▸ Nat.min_le_right ..⟩
      dsimp only
      rw [data.size_toArray, if_neg (by omega), inside, Option.bind_eq_bind, Option.bind_some, lap,
        Option.bind_some]
      exact ih _ (by omega) _

end ModifyInPlace.Words

end Microbench
