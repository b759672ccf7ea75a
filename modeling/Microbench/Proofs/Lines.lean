import Microbench.Proofs.Decimal.Fixed
import Microbench.Proofs.Verdict
import Microbench.Report

/-!
# Lines of a report

No number is written with a line break or with the letter that a failure starts with. So the line of
a measurement is one line, and it tells a failure from a pass, unless the name of the kernel or the
shape has that letter itself.

Results:

* `cacheLine_written`, `measurementLine_written`: the parts of the line of a measurement.
* `compare_singleLine`: what is said of a comparison that fails is one line.
* `line_single`: so is the line of a measurement.
* `line_carries_iff`: it carries a failure exactly if the measurement did not pass.
* `failures_eq`: as many lines carry one as measurements did not pass.
-/
namespace Microbench

/-! ## Texts by lines -/

/-- Lines, each with its end. -/
def unlines (lines : List String) : String := String.join (lines.map (· ++ "\n"))

@[simp] theorem unlines_cons (line : String) (lines : List String) :
    unlines (line :: lines) = line ++ "\n" ++ unlines lines := by
  rw [unlines, List.map_cons, String.join_cons, unlines]

@[simp] theorem unlines_append (lines lines' : List String) :
    unlines (lines ++ lines') = unlines lines ++ unlines lines' := by
  rw [unlines, List.map_append, String.join_append, unlines, unlines]

theorem unlines_flatMap {α : Type} (f : α → List String) (xs : List α) :
    unlines (xs.flatMap f) = String.join (xs.map fun x => unlines (f x)) := by
  induction xs with
  | nil => rfl
  | cons x xs ih => rw [List.flatMap_cons, unlines_append, ih, List.map_cons, String.join_cons]

/-! ## Texts without a character -/

def Avoids (c : Char) (s : String) : Prop := c ∉ s.toList

instance (c : Char) (s : String) : Decidable (Avoids c s) :=
  inferInstanceAs (Decidable (c ∉ s.toList))

@[simp] theorem avoids_append {c : Char} {a b : String} :
    Avoids c (a ++ b) ↔ Avoids c a ∧ Avoids c b := by
  simp [Avoids]

/-- No number is written with the character. -/
structure Foreign (c : Char) : Prop where
  digit : c.isDigit = false
  others : c ∉ ['-', '.', 'N', 'a', 'i', 'n', 'f']

theorem newline_foreign : Foreign '\n' := ⟨by decide, by decide⟩

/-- Neither a line break nor the letter that a failure starts with. -/
theorem foreign_of {c : Char} (hc : c = 'F' ∨ c = '\n') : Foreign c := by
  rcases hc with rfl | rfl
  · exact ⟨by decide, by decide⟩
  · exact newline_foreign

section Numbers

variable {c : Char} (foreign : Foreign c)
include foreign

theorem avoids_nat (n : Nat) : Avoids c (toString n) := by
  rw [Avoids, Decimal.toList_toString]
  intro among
  have digit := (Json.isDigits_toDigits n).digits c among
  exact Bool.false_ne_true (foreign.digit.symm.trans digit)

theorem avoids_int (x : Int) : Avoids c (toString x) := by
  have minus : Avoids c "-" := by simpa [Avoids] using fun same => foreign.others (by simp [same])
  cases x with
  | ofNat n => exact avoids_nat foreign n
  | negSucc n => exact avoids_append.2 ⟨minus, avoids_nat foreign (n + 1)⟩

namespace Decimal

theorem avoids_signText (negative : Bool) : Avoids c (signText negative) := by
  have minus : c ≠ '-' := fun same => foreign.others (by simp [same])
  cases negative <;> simp [Avoids, signText, minus]

theorem avoids_zeros (n : Nat) : Avoids c (zeros n) := by
  rw [Avoids, zeros, String.toList_ofList]
  intro among
  have zero : c = '0' := List.eq_of_mem_replicate among
  exact absurd foreign.digit (by rw [zero]; decide)

theorem avoids_pointed (digits places : Nat) : Avoids c (pointed digits places) := by
  have all (n : Nat) : Avoids c (zeros n ++ toString digits) :=
    avoids_append.2 ⟨avoids_zeros foreign n, avoids_nat foreign digits⟩
  have point : c ≠ '.' := fun same => foreign.others (by simp [same])
  unfold pointed
  dsimp only
  split
  · exact all _
  · rw [avoids_append, avoids_append]
    refine ⟨⟨?_, by simpa [Avoids] using point⟩, ?_⟩
    · rw [Avoids, String.Slice.toString_eq, String.toList_copy_take]
      exact fun among => all _ (List.mem_of_mem_take among)
    · rw [Avoids, String.Slice.toString_eq, String.toList_copy_drop]
      exact fun among => all _ (List.mem_of_mem_drop among)

theorem avoids_special (negative : Bool) :
    Avoids c "NaN" ∧ Avoids c (signText negative ++ "inf") := by
  have letters := foreign.others
  rw [avoids_append]
  refine ⟨?_, avoids_signText foreign negative, ?_⟩ <;>
    · simp only [List.mem_cons, not_or] at letters
      simp [Avoids, letters]

theorem HasPlaces.avoids {places : Nat} {v : Binary.Value} {text : String}
    (h : HasPlaces places v text) : Avoids c text := by
  cases h with
  | nan => exact (avoids_special foreign false).1
  | infinite negative =>
    have same : (if negative then "-inf" else "inf") = signText negative ++ "inf" := by
      cases negative <;> rfl
    rw [same]
    exact (avoids_special foreign negative).2
  | finite left right =>
    refine avoids_append.2 ⟨avoids_signText foreign _, ?_⟩
    rw [Avoids, String.toList_ofList, List.mem_append, List.mem_cons]
    have digit {ds : List Char} (digits : ∀ d ∈ ds, d.isDigit = true) : c ∉ ds :=
      fun among => Bool.false_ne_true (foreign.digit.symm.trans (digits c among))
    have point : c ≠ '.' := fun same => foreign.others (by simp [same])
    rintro (among | same | among)
    · exact digit left.digits among
    · exact point same
    · exact digit right.digits among

theorem avoids_plain (s : Scientific) : Avoids c (plain s) := by
  unfold plain
  split
  · exact avoids_pointed foreign _ _
  · exact avoids_nat foreign _

theorem avoids_display (x : Float32) : Avoids c (display x) := by
  unfold display
  split
  · exact (avoids_special foreign false).1
  · exact (avoids_special foreign _).2
  · exact avoids_append.2 ⟨avoids_signText foreign _, avoids_plain foreign _⟩

end Decimal

end Numbers

/-! ## What is said of a comparison -/

/-- The reason of a failure, if it is one, is one line. -/
def Verdict.SingleLine (v : Verdict) : Prop := ∀ reason ∈ v.reason?, Avoids '\n' reason

namespace Tally

theorem verdict_singleLine {t : Tally} (size : Nat) (error : Float)
    (texts : ∀ m ∈ t.kept, Avoids '\n' m.expected ∧ Avoids '\n' m.actual) :
    (t.verdict size error).SingleLine := by
  have number := avoids_nat newline_foreign
  unfold verdict
  split
  · exact nofun
  · rintro _ ⟨⟩
    unfold reason
    dsimp only
    split
    · next first same =>
      obtain ⟨expected, actual⟩ := texts first (Array.mem_of_getElem? same)
      simp only [avoids_append]
      exact ⟨⟨⟨⟨⟨⟨⟨⟨⟨number _, by decide⟩, number _⟩, by decide⟩, by decide⟩, number _⟩, by decide⟩,
        expected⟩, by decide⟩, actual⟩
    · simp only [avoids_append]
      exact ⟨⟨⟨number _, by decide⟩, number _⟩, by decide⟩

theorem of_singleLine {n : Nat} {text : α → String} (texts : ∀ x, Avoids '\n' (text x))
    (differ : α → α → Bool) (limit : Nat) (expected actual : Vector α n) (error : Float) :
    ((Tally.of differ text limit expected actual).verdict n error).SingleLine := by
  refine verdict_singleLine n error fun m kept => ?_
  rw [← Array.mem_toList_iff, of_kept] at kept
  obtain ⟨i, -, rfl⟩ := List.mem_map.1 (List.mem_of_mem_take kept)
  exact ⟨texts _, texts _⟩

end Tally

namespace Verifier

variable {n : Nat} (v : Verifier)

theorem compareFloats_singleLine (expected actual : Vector Float32 n) :
    (v.compareFloats expected actual).SingleLine :=
  Tally.of_singleLine (Decimal.avoids_display newline_foreign) _ _ expected actual _

theorem compareExactly_singleLine [BEq α] {text : α → String}
    (texts : ∀ x, Avoids '\n' (text x)) (expected actual : Vector α n) :
    (v.compareExactly text expected actual).SingleLine :=
  Tally.of_singleLine texts _ _ expected actual _

/-- What is said of a comparison is one line. -/
theorem compare_singleLine (reference candidate : Buffer) :
    (v.compare reference candidate).SingleLine := by
  have number := avoids_nat newline_foreign
  have int := avoids_int newline_foreign
  have name (e : ElementType) : Avoids '\n' e.name := by cases e <;> decide
  unfold compare
  split
  · split
    · exact v.compareFloats_singleLine _ _
    · exact v.compareExactly_singleLine (fun x => int _) _ _
    · exact v.compareExactly_singleLine (fun x => int _) _ _
    · exact v.compareExactly_singleLine (fun x => number _) _ _
    · rintro _ ⟨⟩
      simp only [avoids_append]
      exact ⟨⟨⟨by decide, name _⟩, by decide⟩, name _⟩
  · rintro _ ⟨⟩
    simp only [avoids_append]
    exact ⟨⟨⟨by decide, number _⟩, by decide⟩, number _⟩

end Verifier

/-! ## The line of a measurement -/

namespace Report

/-- The line of a measurement, in a cache sweep or in another one. -/
def line (cache : Bool) : Measurement → String := if cache then cacheLine else measurementLine

/-- The line of a cache sweep: the kernel, the working set, the seconds to eight places and, if it
did not pass, the reason. -/
inductive CacheLine (m : Measurement) : String → Prop where
  | passed {error : Float} {seconds : String} (verdict : m.verdict = .passed error)
      (places : Decimal.HasPlaces 8 (Binary.ofFloat m.seconds) seconds) :
      CacheLine m (m.kernel ++ " [" ++ m.shape ++ "]: " ++ (seconds ++ " sec."))
  | failed {reason : String} {mismatches : List Mismatch} {total : Nat} {seconds : String}
      (verdict : m.verdict = .failed reason mismatches total)
      (places : Decimal.HasPlaces 8 (Binary.ofFloat m.seconds) seconds) :
      CacheLine m (m.kernel ++ " [" ++ m.shape ++ "]: " ++ (seconds ++ " sec.")
        ++ (" FAIL: " ++ reason))

/-- The line of another command: the kernel, the shape, the ticks in their unit, the seconds to
eight places, and whether it passed. -/
inductive PlainLine (m : Measurement) : String → Prop where
  | passed {error : Float} {seconds : String} (verdict : m.verdict = .passed error)
      (places : Decimal.HasPlaces 8 (Binary.ofFloat m.seconds) seconds) :
      PlainLine m (m.kernel ++ ": n=" ++ m.shape ++ " "
        ++ (match m.precision with | .cycle => "cycles" | .wall => "ns") ++ "="
        ++ toString m.ticks.toNat ++ " (" ++ (seconds ++ " sec.") ++ ") " ++ "PASS")
  | failed {reason : String} {mismatches : List Mismatch} {total : Nat} {seconds : String}
      (verdict : m.verdict = .failed reason mismatches total)
      (places : Decimal.HasPlaces 8 (Binary.ofFloat m.seconds) seconds) :
      PlainLine m (m.kernel ++ ": n=" ++ m.shape ++ " "
        ++ (match m.precision with | .cycle => "cycles" | .wall => "ns") ++ "="
        ++ toString m.ticks.toNat ++ " (" ++ (seconds ++ " sec.") ++ ") " ++ ("FAIL: " ++ reason))

theorem cacheLine_written (m : Measurement) : CacheLine m (cacheLine m) := by
  have places := Decimal.fixed_hasPlaces (by decide : 0 < 8) (Binary.ofFloat m.seconds)
  cases verdict : m.verdict with
  | passed =>
    rw [cacheLine, verdict, Verdict.reason?, String.append_empty]
    exact .passed verdict places
  | failed reason =>
    rw [cacheLine, verdict]
    exact .failed verdict places

theorem measurementLine_written (m : Measurement) : PlainLine m (measurementLine m) := by
  have places := Decimal.fixed_hasPlaces (by decide : 0 < 8) (Binary.ofFloat m.seconds)
  cases verdict : m.verdict with
  | passed =>
    rw [measurementLine, verdict]
    exact .passed verdict places
  | failed reason =>
    rw [measurementLine, verdict]
    exact .failed verdict places

/-- A failure stands in the line. -/
def CarriesFailure (line : String) : Prop := "FAIL".toList <:+: line.toList

instance : DecidablePred CarriesFailure := fun line =>
  inferInstanceAs (Decidable ("FAIL".toList <:+: line.toList))

theorem not_carriesFailure {line : String} (h : Avoids 'F' line) : ¬CarriesFailure line :=
  fun failure => h (failure.subset (by decide))

theorem carriesFailure_append (front reason : String) :
    CarriesFailure (front ++ ("FAIL: " ++ reason)) :=
  ⟨front.toList, ": ".toList ++ reason.toList, by simp [String.toList_append]⟩

/-- What a line ends with. -/
def ending (v : Verdict) : String :=
  match v.reason? with
  | some reason => "FAIL: " ++ reason
  | none => ""

variable {m : Measurement}

section Front

variable {c : Char} (hc : c = 'F' ∨ c = '\n') (kernel : Avoids c m.kernel)
  (shape : Avoids c m.shape)
include hc

theorem avoids_words : ∀ word ∈ [": n=", " ", "=", " (", ") ", " [", "]: ", " sec.", "PASS"],
    Avoids c word := by
  rcases hc with rfl | rfl <;> decide

theorem avoids_unit (p : Precision) : Avoids c (unit p) := by
  rcases hc with rfl | rfl <;> cases p <;> decide

theorem avoids_secondsText (seconds : Float) : Avoids c (secondsText seconds) :=
  avoids_append.2 ⟨(Decimal.fixed_hasPlaces (by decide) _).avoids (foreign_of hc),
    avoids_words hc _ (by decide)⟩

include kernel shape

theorem avoids_measurementFront : Avoids c (m.kernel ++ ": n=" ++ m.shape ++ " " ++ unit m.precision
    ++ "=" ++ toString m.ticks.toNat ++ " (" ++ secondsText m.seconds ++ ") ") := by
  have words := avoids_words hc
  have ticks := avoids_nat (foreign_of hc) m.ticks.toNat
  simp only [List.forall_mem_cons] at words
  simp only [avoids_append, kernel, shape, ticks, avoids_unit hc, avoids_secondsText hc, words,
    and_self]

theorem avoids_cacheFront :
    Avoids c (m.kernel ++ " [" ++ m.shape ++ "]: " ++ secondsText m.seconds) := by
  have words := avoids_words hc
  simp only [List.forall_mem_cons] at words
  simp only [avoids_append, kernel, shape, avoids_secondsText hc, words, and_self]

/-- The line up to the failure, if there is one, has neither a line break nor the letter that a
failure starts with. -/
theorem line_eq (cache : Bool) :
    ∃ front, Avoids c front ∧ line cache m = front ++ ending m.verdict := by
  have front := avoids_measurementFront hc kernel shape
  have cacheFront := avoids_cacheFront hc kernel shape
  -- A plain line says that it passed. That of a cache sweep says nothing, and has a blank more in
  -- front of a failure.
  cases verdict : m.verdict with
  | passed =>
    cases cache with
    | false =>
      refine ⟨_, avoids_append.2 ⟨front, avoids_words hc "PASS" (by decide)⟩, ?_⟩
      simp [line, measurementLine, verdictLabel, verdict, ending, Verdict.reason?]
    | true =>
      refine ⟨_, cacheFront, ?_⟩
      simp [line, cacheLine, verdict, ending, Verdict.reason?]
  | failed reason =>
    cases cache with
    | false =>
      refine ⟨_, front, ?_⟩
      simp [line, measurementLine, verdictLabel, verdict, ending, Verdict.reason?]
    | true =>
      have gap : " FAIL: " = " " ++ "FAIL: " := rfl
      refine ⟨_, avoids_append.2 ⟨cacheFront, avoids_words hc " " (by decide)⟩, ?_⟩
      simp only [line, if_true, cacheLine, verdict, ending, Verdict.reason?, gap,
        String.append_assoc]

end Front

/-- The line carries a failure exactly if the measurement did not pass. -/
theorem line_carries_iff (kernel : Avoids 'F' m.kernel) (shape : Avoids 'F' m.shape)
    (cache : Bool) : CarriesFailure (line cache m) ↔ m.passed = false := by
  obtain ⟨front, avoids, same⟩ := line_eq (.inl rfl) kernel shape cache
  rw [same, ending, passed_eq]
  cases m.verdict.reason? with
  | none => simpa using not_carriesFailure avoids
  | some reason => simpa using carriesFailure_append front reason

/-- It is one line if what is said of a failure is. -/
theorem line_single (kernel : Avoids '\n' m.kernel) (shape : Avoids '\n' m.shape)
    (single : m.verdict.SingleLine) (cache : Bool) : Avoids '\n' (line cache m) := by
  obtain ⟨front, avoids, same⟩ := line_eq (.inr rfl) kernel shape cache
  rw [same, avoids_append]
  refine ⟨avoids, ?_⟩
  unfold ending
  split
  · next reason some => exact avoids_append.2 ⟨by decide, single reason some⟩
  · decide

/-- As many lines carry a failure as measurements did not pass. -/
theorem failures_eq {r : Report} (cache : Bool)
    (names : ∀ m ∈ r.measurements, Avoids 'F' m.kernel ∧ Avoids 'F' m.shape) :
    (r.measurements.map (line cache)).countP (decide <| CarriesFailure ·) = r.failures := by
  rw [List.countP_map, failures]
  refine List.countP_congr fun m hm => ?_
  simp [line_carries_iff (names m hm).1 (names m hm).2 cache]

end Report

end Microbench
