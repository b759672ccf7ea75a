import Mathlib.Data.List.Find
import Microbench.Proofs.Kernel
import Microbench.Proofs.Registry

/-!
# Selecting kernels

A selection registers its kernels one by one in a registry of its own, and then looks the names it
was given up in it. Names are unique in the registry it is made from, so no registration is refused,
and a name that was given is found exactly if a kernel of the capability has it.

Results:

* `registerAll_kernels`, `select_kernels`: what a registration and a selection that succeed hold.
* `Reachable.nodup`: registrations and selections lead to registries of unique names only.
* `select_eq`, `select_eq_ok`, `select_eq_error`: when a selection succeeds, and what it is.
* `wanted_congr`, `wanted_wanted`, `referenceFor_wanted`, `wanted_lineup`: only the set of names
  counts, a selection is its own selection, and it keeps the reference in its place.
* `selection_settled`: all of this about any selection from any registry.
-/
namespace Microbench.Registry

variable {m : Type → Type} {r g : Registry m} {kernels : List (Kernel m)} {c : Capability}
  {names : List String}

/-! ## Registering kernels one by one -/

theorem registerAll_kernels (h : r.registerAll kernels = .ok g) :
    g.kernels = r.kernels ++ kernels := by
  induction kernels generalizing r with
  | nil =>
    cases h
    exact (List.append_nil _).symm
  | cons k kernels ih =>
    obtain ⟨r', registered, h⟩ := ok_of_bind h
    unfold register at registered
    split at registered
    · cases registered
    · cases registered
      rw [ih h, List.append_assoc]
      rfl

theorem select_kernels (h : r.select c names = .ok g) :
    g.kernels = (r.kernelsFor c).filter fun k =>
      names.isEmpty || k.isReference || names.contains k.name := by
  obtain ⟨selected, registered, h⟩ := ok_of_bind h
  split at h
  · cases h
  · cases h
    exact registerAll_kernels registered

theorem registerAll_eq_ok (nodup : ((r.kernels ++ kernels).map (·.name)).Nodup) :
    r.registerAll kernels = .ok ⟨r.kernels ++ kernels⟩ := by
  induction kernels generalizing r with
  | nil => rw [List.append_nil]; rfl
  | cons k kernels ih =>
    have new : r.find? k.name = none := by
      rw [find?, List.find?_eq_none]
      intro k' hk' same
      rw [List.map_append, List.nodup_append] at nodup
      exact nodup.2.2 _ (List.mem_map_of_mem hk') _ List.mem_cons_self (beq_iff_eq.1 same)
    rw [List.append_cons] at nodup
    rw [registerAll, List.foldlM_cons, register_eq_ok new]
    show registerAll ⟨r.kernels ++ [k]⟩ kernels = _
    rw [ih nodup, ← List.append_cons]

/-! ## Which kernels are selected -/

/-- The kernels of a selection: references, and the others by name if names are given. -/
def wanted (r : Registry m) (c : Capability) (names : List String) : List (Kernel m) :=
  (r.kernelsFor c).filter fun k => names.isEmpty || k.isReference || names.contains k.name

/-- A name is found in a selection exactly if a kernel of the capability has it. -/
theorem find_wanted {name : String} (h : name ∈ names) :
    ((⟨r.wanted c names⟩ : Registry m).find? name).isNone = true ↔
      name ∉ (r.kernelsFor c).map (·.name) := by
  rw [find?, Option.isNone_iff_eq_none, List.find?_eq_none, List.mem_map, not_exists]
  constructor
  · rintro none k ⟨hk, rfl⟩
    refine none k (List.mem_filter.2 ⟨hk, ?_⟩) BEq.rfl
    simp [h]
  · intro none k hk same
    exact none k ⟨(List.mem_filter.1 hk).1, beq_iff_eq.1 same⟩

/-- The names of a selection stand in it as they do in the registry. -/
theorem wanted_names_sublist :
    ((⟨r.wanted c names⟩ : Registry m).names).Sublist r.names :=
  (List.filter_sublist.trans List.filter_sublist).map _

/-- If names are unique, a selection fails exactly for a name that no kernel of the capability
has. -/
theorem select_eq (nodup : r.names.Nodup) :
    r.select c names =
      match names.find? fun name => decide (name ∉ (r.kernelsFor c).map (·.name)) with
      | some name => .error (.unknownKernel c name)
      | none => .ok ⟨r.wanted c names⟩ := by
  have registered : empty.registerAll (r.wanted c names) = .ok ⟨r.wanted c names⟩ :=
    registerAll_eq_ok (wanted_names_sublist.nodup nodup)
  have unknown : (names.find? fun name =>
        ((⟨r.wanted c names⟩ : Registry m).find? name).isNone)
      = names.find? fun name => decide (name ∉ (r.kernelsFor c).map (·.name)) :=
    List.find?_congr fun name h => by rw [Bool.eq_iff_iff, find_wanted h, decide_eq_true_iff]
  rw [← unknown, select]
  show (empty.registerAll (r.wanted c names) >>= _) = _
  rw [registered]
  rfl

/-- Only the set of names counts. -/
theorem wanted_congr {names' : List String} (same : ∀ name, name ∈ names' ↔ name ∈ names) :
    r.wanted c names' = r.wanted c names := by
  have empty : names'.isEmpty = names.isEmpty := by
    rw [Bool.eq_iff_iff, List.isEmpty_iff, List.isEmpty_iff, List.eq_nil_iff_forall_not_mem,
      List.eq_nil_iff_forall_not_mem]
    simp only [same]
  have contains (name : String) : names'.contains name = names.contains name := by
    rw [Bool.eq_iff_iff, List.contains_iff_mem, List.contains_iff_mem, same]
  simp only [wanted, empty, contains]

/-- All kernels of a selection are of its capability. -/
theorem wanted_kernelsFor :
    (⟨r.wanted c names⟩ : Registry m).kernelsFor c = r.wanted c names := by
  refine List.filter_eq_self.2 fun k hk => ?_
  exact (List.mem_filter.1 (List.mem_filter.1 hk).1).2

/-- A selection of kernels that start with their reference starts with it too. -/
theorem wanted_lineup {reference : Kernel m} {rest : List (Kernel m)}
    (kernels : r.kernelsFor c = reference :: rest) (variant : reference.isReference = true) :
    ∃ others, (⟨r.wanted c names⟩ : Registry m).Lineup c reference others ∧
      r.wanted c names = reference :: others := by
  have split : r.wanted c names = reference :: rest.filter fun k =>
      names.isEmpty || k.isReference || names.contains k.name := by
    rw [wanted, kernels, List.filter_cons_of_pos (by simp [variant])]
  refine ⟨_, lineup_iff.2 ⟨?_, ?_⟩, split⟩
  · rw [referenceFor, wanted_kernelsFor, split, List.find?_cons_of_pos variant]
  · rw [candidatesFor, wanted_kernelsFor, split, List.eraseP_cons_of_pos variant]

/-- Every kernel of a selection is selected again. -/
theorem wanted_wanted :
    (⟨r.wanted c names⟩ : Registry m).wanted c names = r.wanted c names := by
  rw [wanted, wanted_kernelsFor]
  exact List.filter_eq_self.2 fun k hk => (List.mem_filter.1 hk).2

/-- A selection keeps the references, so the earliest of them is the same. -/
theorem referenceFor_wanted :
    (⟨r.wanted c names⟩ : Registry m).referenceFor c = r.referenceFor c := by
  rw [referenceFor, wanted_kernelsFor, wanted, List.find?_filter, referenceFor]
  refine List.find?_congr fun k _ => ?_
  cases k.isReference <;> simp

/-! ## Registries of unique names -/

/-- The registries that registrations and selections lead to from the empty one. Those that are
refused lead nowhere. -/
inductive Reachable : Registry m → Prop where
  | empty : Reachable empty
  | registered {r g : Registry m} {k : Kernel m} (reached : r.Reachable)
      (done : r.register k = .ok g) : Reachable g
  | selected {r g : Registry m} {c : Capability} {names : List String} (reached : r.Reachable)
      (done : r.select c names = .ok g) : Reachable g

theorem register_nodup {k : Kernel m} (nodup : r.names.Nodup) (done : r.register k = .ok g) :
    g.names.Nodup := by
  unfold register at done
  split at done
  · cases done
  · next new =>
    cases done
    rw [Bool.not_eq_true, Option.isSome_eq_false_iff, Option.isNone_iff_eq_none, find?,
      List.find?_eq_none] at new
    rw [names, List.map_append]
    refine List.nodup_append.2 ⟨nodup, by simp, ?_⟩
    rintro taken htaken _ hname rfl
    obtain ⟨k', hk', same⟩ := List.mem_map.1 htaken
    exact new k' hk' (beq_iff_eq.2 (same.trans (List.mem_singleton.1 hname)))

theorem select_nodup (nodup : r.names.Nodup) (done : r.select c names = .ok g) :
    g.names.Nodup := by
  obtain ⟨selected⟩ := g
  obtain rfl : selected = r.wanted c names := select_kernels done
  exact wanted_names_sublist.nodup nodup

theorem Reachable.nodup (reached : r.Reachable) : r.names.Nodup := by
  induction reached with
  | empty => exact List.nodup_nil
  | registered _ done ih => exact register_nodup ih done
  | selected _ done ih => exact select_nodup ih done

/-! ## What a selection comes to -/

/-- A kernel of the capability has the name. -/
def Offers (r : Registry m) (c : Capability) (name : String) : Prop :=
  ∃ k ∈ r.kernels, k.capability = c ∧ k.name = name

theorem offers_iff {name : String} : r.Offers c name ↔ name ∈ (r.kernelsFor c).map (·.name) := by
  simp only [Offers, kernelsFor, List.mem_map, List.mem_filter, beq_iff_eq, and_assoc]

section Outcome

variable (nodup : r.names.Nodup)
include nodup

theorem select_eq_ok :
    r.select c names = .ok g ↔ (∀ name ∈ names, r.Offers c name) ∧ g = ⟨r.wanted c names⟩ := by
  rw [select_eq nodup]
  cases unknown : names.find? fun name => decide (name ∉ (r.kernelsFor c).map (·.name)) with
  | some name =>
    have missing : name ∉ (r.kernelsFor c).map (·.name) := by
      simpa only [decide_eq_true_eq] using List.find?_some unknown
    refine iff_of_false nofun fun ok => missing (offers_iff.1 (ok.1 name ?_))
    exact List.mem_of_find?_eq_some unknown
  | none =>
    have known : ∀ name ∈ names, r.Offers c name := fun name h => by
      have found := List.find?_eq_none.1 unknown name h
      rwa [decide_eq_true_iff, not_not, ← offers_iff] at found
    rw [Except.ok.injEq, eq_comm, and_iff_right known]

theorem select_eq_error {failure : Failure} : r.select c names = .error failure ↔
    ∃ before name after, names = before ++ name :: after ∧ (∀ known ∈ before, r.Offers c known) ∧
      ¬r.Offers c name ∧ failure = .unknownKernel c name := by
  have first {name : String} :
      (names.find? fun name => decide (name ∉ (r.kernelsFor c).map (·.name))) = some name ↔
        ¬r.Offers c name ∧ ∃ before after, names = before ++ name :: after ∧
          ∀ known ∈ before, r.Offers c known := by
    simp only [List.find?_eq_some_iff_append, decide_eq_true_eq, Bool.not_eq_true',
      decide_eq_false_iff_not, not_not, offers_iff]
  rw [select_eq nodup]
  constructor
  · intro failed
    split at failed
    · next name unknown =>
      cases failed
      obtain ⟨missing, before, after, split, known⟩ := first.1 unknown
      exact ⟨before, name, after, split, known, missing, rfl⟩
    · cases failed
  · rintro ⟨before, name, after, split, known, missing, rfl⟩
    rw [first.2 ⟨missing, before, after, split, known⟩]

end Outcome

/-- A selection from any registry that registrations and selections lead to. It fails exactly if
some name is not that of a kernel of the capability, and then for the first such name, which is a
mistake of the caller and never a name that is taken. Else it holds the references and the kernels
that were named, or all if none was named, as they were registered. The reference is the same,
selecting again changes nothing, and of the names only their set counts. -/
theorem selection_settled (reached : r.Reachable) (c : Capability) (names : List String) :
    ((∃ failure, r.select c names = .error failure) ↔ ∃ name ∈ names, ¬r.Offers c name) ∧
    (∀ failure, r.select c names = .error failure →
      failure.isUsage = true ∧ (∀ name, failure ≠ .duplicateKernel name) ∧
      ∃ before name after, names = before ++ name :: after ∧
        (∀ known ∈ before, r.Offers c known) ∧ ¬r.Offers c name ∧
        failure = .unknownKernel c name) ∧
    ∀ g, r.select c names = .ok g →
      g.kernels = r.kernels.filter (fun k =>
        k.capability = c ∧ (names = [] ∨ k.variant = .reference ∨ k.name ∈ names)) ∧
      g.referenceFor c = r.referenceFor c ∧
      g.select c names = .ok g ∧
      ∀ names', (∀ name, name ∈ names' ↔ name ∈ names) → r.select c names' = .ok g := by
  have nodup := reached.nodup
  refine ⟨⟨?_, ?_⟩, fun failure failed => ?_, fun g done => ?_⟩
  · rintro ⟨failure, failed⟩
    obtain ⟨before, name, after, rfl, -, missing, -⟩ := (select_eq_error nodup).1 failed
    exact ⟨name, List.mem_append_right _ List.mem_cons_self, missing⟩
  · rintro ⟨name, given, missing⟩
    cases result : r.select c names with
    | error failure => exact ⟨failure, rfl⟩
    | ok g => exact absurd (((select_eq_ok nodup).1 result).1 name given) missing
  · obtain ⟨before, name, after, split, known, missing, rfl⟩ := (select_eq_error nodup).1 failed
    exact ⟨rfl, nofun, before, name, after, split, known, missing, rfl⟩
  · obtain ⟨known, rfl⟩ := (select_eq_ok nodup).1 done
    refine ⟨?_, referenceFor_wanted, ?_, fun names' same => ?_⟩
    · rw [wanted, kernelsFor, List.filter_filter]
      refine List.filter_congr fun k _ => ?_
      rw [Bool.eq_iff_iff]
      simp only [decide_eq_true_eq, Bool.and_eq_true, Bool.or_eq_true, beq_iff_eq,
        List.isEmpty_iff, List.contains_iff_mem, isReference_iff, or_assoc, and_comm]
    · refine (select_eq_ok (select_nodup nodup done)).2 ⟨fun name h => ?_, ?_⟩
      · obtain ⟨k, hk, capability, rfl⟩ := known name h
        refine ⟨k, List.mem_filter.2 ⟨List.mem_filter.2 ⟨hk, beq_iff_eq.2 capability⟩, ?_⟩,
          capability, rfl⟩
        simp [h]
      · rw [wanted_wanted]
    · refine (select_eq_ok nodup).2 ⟨fun name h => known name ((same name).1 h), ?_⟩
      rw [wanted_congr same]

/-- A second reference is kept without being named, and a name may be given twice. The name of a
kernel of another capability is refused, though it is registered. -/
theorem selection_settled_two_references :
    let second : Kernel Id := { VectorAdd.reference with name := "vadd-second" }
    let r : Registry Id := ⟨[VectorAdd.simd, VectorAdd.reference, MemoryCopy.reference,
      VectorAdd.unrolled, second]⟩
    let g : Registry Id := ⟨[VectorAdd.simd, VectorAdd.reference, second]⟩
    r.Reachable ∧
    r.select .vectorAdd ["vadd-simd", "vadd-second", "vadd-simd"] = .ok g ∧
    g.select .vectorAdd ["vadd-simd", "vadd-second", "vadd-simd"] = .ok g ∧
    r.select .vectorAdd ["vadd-second", "vadd-simd"] = .ok g ∧
    ∃ failure, r.select .vectorAdd ["vadd-simd", "memcpy-reference"] = .error failure := by
  intro second r g
  have reached : r.Reachable := by
    have first := Reachable.empty.registered (k := (VectorAdd.simd : Kernel Id)) rfl
    have second' := first.registered (k := VectorAdd.reference) rfl
    have third := second'.registered (k := MemoryCopy.reference) rfl
    have fourth := third.registered (k := VectorAdd.unrolled) rfl
    exact fourth.registered (k := second) rfl
  have done : r.select .vectorAdd ["vadd-simd", "vadd-second", "vadd-simd"] = .ok g := rfl
  obtain ⟨-, -, again, unordered⟩ := (selection_settled reached .vectorAdd _).2.2 g done
  have refused := (selection_settled reached .vectorAdd ["vadd-simd", "memcpy-reference"]).1
  have names : (r.kernelsFor .vectorAdd).map (·.name)
      = ["vadd-simd", "vadd-reference", "vadd-unrolled", "vadd-second"] := rfl
  refine ⟨reached, done, again, unordered _ (by simp), refused.2 ⟨"memcpy-reference", by simp, ?_⟩⟩
  rw [offers_iff, names]
  decide

end Microbench.Registry
