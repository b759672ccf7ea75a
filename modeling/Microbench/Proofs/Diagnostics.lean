import Mathlib.Order.Bounds.Defs
import Microbench.Proofs.Tolerance

/-!
# What a comparison says

A comparison looks at the lengths first, then at the types, then at the elements. It lists the
elements that are rejected in ascending order, cuts the list off where enough are reported, and
still counts them all. If none is rejected it gives the largest finite error of the floats.

Results:

* `maxAbsError_isGreatest`: the largest error, over the list of errors.
* `verdict_diagnosis`: what is said of elements of one type.
* `compare_diagnosis`: what is said of any two outputs.
-/
namespace Microbench

/-! ## Elements of outputs -/

/-- An element of an output, with its type. -/
inductive Element where
  | f32 (x : Float32)
  | i16 (x : Int16)
  | i32 (x : Int32)
  | byte (x : UInt8)

def Element.text : Element → String
  | .f32 x => Decimal.display x
  | .i16 x => toString x.toInt
  | .i32 x => toString x.toInt
  | .byte x => toString x.toNat

/-- A float has to be within the band, any other element has to be equal. -/
def Tolerance.rejects (t : Tolerance) : Element → Element → Bool
  | .f32 expected, .f32 actual => !t.accepts expected actual
  | .i16 expected, .i16 actual => expected != actual
  | .i32 expected, .i32 actual => expected != actual
  | .byte expected, .byte actual => expected != actual
  | _, _ => true

namespace Buffer

def element? : Buffer → Nat → Option Element
  | .f32 data, i => data[i]?.map .f32
  | .i16 data, i => data[i]?.map .i16
  | .i32 data, i => data[i]?.map .i32
  | .bytes data, i => data[i]?.map .byte

def textAt (b : Buffer) (i : Nat) : String := (b.element? i).elim "" Element.text

/-- The finite errors of the floats of two outputs. Other elements have none. -/
def finiteErrors : Buffer → Buffer → List Float
  | .f32 expected, .f32 actual =>
    (List.zipWith absError expected.toList actual.toList).filter Float.isFinite
  | _, _ => []

end Buffer

namespace Verifier

/-- The indices of all elements that are rejected, in ascending order. -/
def rejected (v : Verifier) (reference candidate : Buffer) : List Nat :=
  (List.range reference.size).filter fun i =>
    match reference.element? i, candidate.element? i with
    | some expected, some actual => v.tolerance.rejects expected actual
    | _, _ => false

/-- How many elements are rejected, and which is the first if any is reported. -/
def reason (v : Verifier) (reference candidate : Buffer) (first total : Nat) : String :=
  let count := toString total ++ " of " ++ toString reference.size ++ " elements differ"
  if v.maxReported = 0 then count
  else
    count ++ "; first at [" ++ toString first ++ "]: expected " ++ reference.textAt first
      ++ ", got " ++ candidate.textAt first

/-- What is said of two outputs. -/
inductive Diagnosis (v : Verifier) (reference candidate : Buffer) : Verdict → Prop where
  | shape (lengths : reference.size ≠ candidate.size) :
      Diagnosis v reference candidate
        (.failed ("shape mismatch: reference has " ++ toString reference.size
          ++ " elements, candidate has " ++ toString candidate.size) [] 0)
  | type (lengths : reference.size = candidate.size)
      (types : reference.elementType ≠ candidate.elementType) :
      Diagnosis v reference candidate
        (.failed ("element type mismatch: reference is " ++ reference.elementType.name
          ++ ", candidate is " ++ candidate.elementType.name) [] 0)
  | pass {error : Float} (lengths : reference.size = candidate.size)
      (types : reference.elementType = candidate.elementType)
      (none : v.rejected reference candidate = [])
      (largest : IsGreatest {e | e ∈ 0 :: reference.finiteErrors candidate} error) :
      Diagnosis v reference candidate (.passed error)
  | differ {first : Nat} {others : List Nat} (lengths : reference.size = candidate.size)
      (types : reference.elementType = candidate.elementType)
      (some : v.rejected reference candidate = first :: others) :
      Diagnosis v reference candidate
        (.failed (v.reason reference candidate first (first :: others).length)
          (((first :: others).take v.maxReported).map fun i =>
            ⟨i, reference.textAt i, candidate.textAt i⟩)
          (first :: others).length)

end Verifier

/-! ## The largest error -/

theorem foldl_keepLarger_mem (errors : List Float) (largest : Float) :
    errors.foldl keepLarger largest ∈ largest :: errors.filter Float.isFinite := by
  induction errors generalizing largest with
  | nil => exact List.mem_singleton.2 rfl
  | cons error errors ih =>
    rw [List.foldl_cons, List.filter_cons]
    have later := ih (keepLarger largest error)
    by_cases finite : error.isFinite = true
    · rw [if_pos finite]
      by_cases larger : largest < error
      · have kept : keepLarger largest error = error := by simp [keepLarger, finite, larger]
        rw [kept] at later ⊢
        exact List.mem_cons_of_mem _ later
      · have kept : keepLarger largest error = largest := by simp [keepLarger, larger]
        rw [kept] at later ⊢
        rcases List.mem_cons.1 later with same | among
        · exact List.mem_cons.2 (.inl same)
        · exact List.mem_cons_of_mem _ (List.mem_cons_of_mem _ among)
    · have kept : keepLarger largest error = largest := by simp [keepLarger, finite]
      rw [if_neg finite]
      rwa [kept] at later ⊢

theorem maxAbsError_isGreatest {n : Nat} (expected actual : Vector Float32 n) :
    IsGreatest {e | e ∈ 0 :: (Buffer.f32 expected.toArray).finiteErrors (.f32 actual.toArray)}
      (maxAbsError expected actual) := by
  let errors := (List.finRange n).map fun i => absError (expected.get i) (actual.get i)
  have listed : List.zipWith absError expected.toArray.toList actual.toArray.toList = errors := by
    apply List.ext_getElem
    · simp [errors]
    · intro i _ _
      simp [errors, Vector.get]
  have found : (Buffer.f32 expected.toArray).finiteErrors (.f32 actual.toArray)
      = errors.filter Float.isFinite := by
    rw [Buffer.finiteErrors, listed]
  rw [found, maxAbsError_eq]
  obtain ⟨nonneg, bound⟩ := foldl_keepLarger errors (show (0 : Float).isNaN = false from rfl)
  refine ⟨foldl_keepLarger_mem errors 0, ?_⟩
  rintro error among
  rcases List.mem_cons.1 among with rfl | among
  · exact nonneg
  · obtain ⟨among, finite⟩ := List.mem_filter.1 among
    exact bound error among finite

/-! ## Elements of one type -/

/-- The buffer holds these elements. -/
structure Buffer.Shows {n : Nat} (wrap : α → Element) (b : Buffer) (data : Vector α n) : Prop where
  size : b.size = n
  element : ∀ i : Fin n, b.element? i = some (wrap (data.get i))

namespace Verifier

section Typed

variable {n : Nat} {v : Verifier} {reference candidate : Buffer} {wrap : α → Element}
  {expected actual : Vector α n} {differ : α → α → Bool} {text : α → String}
  (he : reference.Shows wrap expected) (ha : candidate.Shows wrap actual)
include he ha

theorem rejected_eq (rejects : ∀ x y, v.tolerance.rejects (wrap x) (wrap y) = differ x y) :
    v.rejected reference candidate = (Tally.differences differ expected actual).map Fin.val := by
  rw [rejected, he.size, ← List.map_coe_finRange_eq_range, List.filter_map, Tally.differences]
  refine congrArg (List.map Fin.val) (List.filter_congr fun i _ => ?_)
  simp only [Function.comp_apply, he.element, ha.element, rejects]

theorem mismatches_eq (rejects : ∀ x y, v.tolerance.rejects (wrap x) (wrap y) = differ x y)
    (texts : ∀ x, (wrap x).text = text x) :
    Tally.mismatches differ text expected actual
      = (v.rejected reference candidate).map fun i =>
          ⟨i, reference.textAt i, candidate.textAt i⟩ := by
  rw [rejected_eq he ha rejects, Tally.mismatches, List.map_map]
  refine List.map_congr_left fun i _ => ?_
  simp only [Function.comp_apply, Buffer.textAt, he.element, ha.element, Option.elim_some, texts]

theorem verdict_diagnosis (types : reference.elementType = candidate.elementType)
    (rejects : ∀ x y, v.tolerance.rejects (wrap x) (wrap y) = differ x y)
    (texts : ∀ x, (wrap x).text = text x) {error : Float}
    (largest : IsGreatest {e | e ∈ 0 :: reference.finiteErrors candidate} error) :
    v.Diagnosis reference candidate
      ((Tally.of differ text v.maxReported expected actual).verdict n error) := by
  have lengths : reference.size = candidate.size := he.size.trans ha.size.symm
  have listed := mismatches_eq he ha rejects texts
  cases found : v.rejected reference candidate with
  | nil =>
    have none : (Tally.of differ text v.maxReported expected actual).total = 0 := by
      rw [Tally.of_total, listed, found]
      rfl
    rw [Tally.verdict, if_pos none]
    exact .pass lengths types found largest
  | cons first others =>
    have total : (Tally.of differ text v.maxReported expected actual).total
        = (first :: others).length := by
      rw [Tally.of_total, listed, found, List.length_map]
    have kept : (Tally.of differ text v.maxReported expected actual).kept.toList
        = ((first :: others).take v.maxReported).map fun i =>
            ⟨i, reference.textAt i, candidate.textAt i⟩ := by
      rw [Tally.of_kept, listed, found, List.map_take]
    have reported : (Tally.of differ text v.maxReported expected actual).reason n
        = v.reason reference candidate first (first :: others).length := by
      have head := congrArg (·[0]?) kept
      rw [Array.getElem?_toList] at head
      rw [Tally.reason, head, total, reason, he.size]
      cases v.maxReported <;> rfl
    rw [Tally.verdict, if_neg (by rw [total]; exact Nat.succ_ne_zero _), reported, kept, total]
    exact .differ lengths types found

end Typed

end Verifier

/-! ## Any two outputs -/

/-- There is nothing but zero to be the largest. -/
theorem zero_isGreatest : IsGreatest {e | e ∈ [(0 : Float)]} 0 := by
  refine ⟨List.mem_singleton.2 rfl, fun error only => ?_⟩
  rw [List.mem_singleton.1 only]
  exact double_le_refl rfl

/-- A type of buffers, by its constructor and that of its elements. -/
structure Buffer.Typed (mk : Array α → Buffer) (wrap : α → Element) : Prop where
  size : ∀ data, (mk data).size = data.size
  element : ∀ data i, (mk data).element? i = data[i]?.map wrap
  type : ∀ e a, (mk e).elementType = (mk a).elementType

/-- A type of buffers whose elements have to be equal and have no errors. -/
structure Buffer.Discrete [BEq α] (mk : Array α → Buffer) (wrap : α → Element) : Prop
    extends Buffer.Typed mk wrap where
  rejects : ∀ (t : Tolerance) x y, t.rejects (wrap x) (wrap y) = (x != y)
  errors : ∀ e a, (mk e).finiteErrors (mk a) = []

namespace Buffer

theorem typed_f32 : Typed .f32 .f32 := ⟨fun _ => rfl, fun _ _ => rfl, fun _ _ => rfl⟩

theorem discrete_i16 : Discrete .i16 .i16 :=
  ⟨⟨fun _ => rfl, fun _ _ => rfl, fun _ _ => rfl⟩, fun _ _ _ => rfl, fun _ _ => rfl⟩

theorem discrete_i32 : Discrete .i32 .i32 :=
  ⟨⟨fun _ => rfl, fun _ _ => rfl, fun _ _ => rfl⟩, fun _ _ _ => rfl, fun _ _ => rfl⟩

theorem discrete_bytes : Discrete .bytes .byte :=
  ⟨⟨fun _ => rfl, fun _ _ => rfl, fun _ _ => rfl⟩, fun _ _ _ => rfl, fun _ _ => rfl⟩

theorem Typed.shows {mk : Array α → Buffer} {wrap : α → Element} (typed : Typed mk wrap) {n : Nat}
    (data : Vector α n) : (mk data.toArray).Shows wrap data where
  size := by rw [typed.size, data.size_toArray]
  element i := by
    rw [typed.element, Array.getElem?_eq_getElem (data.size_toArray.symm ▸ i.isLt)]
    rfl

end Buffer

theorem Verifier.compareExactly_diagnosis [BEq α] (v : Verifier) {mk : Array α → Buffer}
    {wrap : α → Element} (discrete : Buffer.Discrete mk wrap) {text : α → String}
    (texts : ∀ x, (wrap x).text = text x) {n : Nat} (expected actual : Vector α n) :
    v.Diagnosis (mk expected.toArray) (mk actual.toArray)
      (v.compareExactly text expected actual) := by
  refine verdict_diagnosis (discrete.shows expected) (discrete.shows actual) (discrete.type _ _)
    (discrete.rejects _) texts ?_
  rw [discrete.errors]
  exact zero_isGreatest

/-- Whatever the tolerance and the number of mismatches to report. -/
theorem compare_diagnosis (v : Verifier) (reference candidate : Buffer) :
    v.Diagnosis reference candidate (v.compare reference candidate) := by
  by_cases lengths : reference.size = candidate.size
  · unfold Verifier.compare
    rw [dif_pos lengths]
    cases reference with
    | f32 e =>
      cases candidate with
      | f32 a =>
        exact Verifier.verdict_diagnosis (Buffer.typed_f32.shows ⟨e, lengths⟩)
          (Buffer.typed_f32.shows a.toVector) rfl (fun _ _ => rfl) (fun _ => rfl)
          (maxAbsError_isGreatest ⟨e, lengths⟩ a.toVector)
      | _ => exact .type lengths nofun
    | i16 e =>
      cases candidate with
      | i16 a =>
        exact v.compareExactly_diagnosis Buffer.discrete_i16 (fun _ => rfl) ⟨e, lengths⟩ a.toVector
      | _ => exact .type lengths nofun
    | i32 e =>
      cases candidate with
      | i32 a =>
        exact v.compareExactly_diagnosis Buffer.discrete_i32 (fun _ => rfl) ⟨e, lengths⟩ a.toVector
      | _ => exact .type lengths nofun
    | bytes e =>
      cases candidate with
      | bytes a =>
        exact v.compareExactly_diagnosis Buffer.discrete_bytes (fun _ => rfl) ⟨e, lengths⟩
          a.toVector
      | _ => exact .type lengths nofun
  · rw [v.compare_of_size_ne lengths]
    exact .shape lengths

end Microbench
