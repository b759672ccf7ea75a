import Mathlib.Data.List.Nodup
import Microbench.Proofs.Selection

/-!
# What a registry goes through

A registry that is held in one place is changed by registrations and by selections that take its
place, in any order. What is refused leaves it as it was. Names are unique after any history, and
whatever is said of a registry by names or by references rests on that.

Results:

* `perform_register`, `perform_select`: changes in place, by what is registered and selected.
* `after_reachable`: a history leads to a registry of unique names only.
* `enrolled_kernels`: registrations add the first kernel of each name that is new.
* `orderly_after`: what holds of a registry after any history.
-/
namespace Microbench.Registry

variable {m : Type → Type} {r : Registry m} {k reference : Kernel m} {kernels : List (Kernel m)}
  {c : Capability} {name : String}

/-! ## Changes in place -/

/-- A change to a registry that is held in one place. -/
abbrev Change (m : Type → Type) := ExceptT Failure (StateM (Registry m))

/-- Looks the name up, then adds the kernel at the end. -/
def enroll (k : Kernel m) : Change m Unit := do
  if ((← get).find? k.name).isSome then throw (.duplicateKernel k.name)
  modify fun r => ⟨r.kernels ++ [k]⟩

/-- Puts a selection in the place of the registry. -/
def narrow (c : Capability) (names : List String) : Change m Unit := do
  let selection ← ofExcept ((← get).select c names)
  set selection

inductive Operation (m : Type → Type) where
  | register (k : Kernel m)
  | select (c : Capability) (names : List String)

/-- What an operation answers, and the registry it leaves. -/
def perform (r : Registry m) : Operation m → Except Failure Unit × Registry m
  | .register k => (enroll k).run.run r
  | .select c names => (narrow c names).run.run r

/-- The registry that is left by operations one after another. -/
def after (r : Registry m) (history : List (Operation m)) : Registry m :=
  history.foldl (fun r operation => (r.perform operation).2) r

/-- The registry that is left by registrations one after another, refused or not. -/
def enrolled (r : Registry m) (kernels : List (Kernel m)) : Registry m :=
  r.after (kernels.map .register)

theorem names_concat : (⟨r.kernels ++ [k]⟩ : Registry m).names = r.names ++ [k.name] :=
  List.map_append

theorem find?_isSome : (r.find? name).isSome = true ↔ name ∈ r.names := by
  simp [find?, names, List.find?_isSome]

theorem register_eq : r.register k =
    if k.name ∈ r.names then .error (.duplicateKernel k.name) else .ok ⟨r.kernels ++ [k]⟩ := by
  simp only [register, find?_isSome]

theorem perform_register : r.perform (.register k) =
    if k.name ∈ r.names then (.error (.duplicateKernel k.name), r)
    else (.ok (), ⟨r.kernels ++ [k]⟩) := by
  show (if (r.find? k.name).isSome = true then _ else _ : Change m Unit) r = _
  simp only [find?_isSome]
  split <;> rfl

theorem perform_select {names : List String} : r.perform (.select c names) =
    match r.select c names with
    | .ok g => (.ok (), g)
    | .error failure => (.error failure, r) := by
  show ((ofExcept (r.select c names) : Change m (Registry m)) >>= set : Change m Unit) r = _
  cases r.select c names <;> rfl

/-! ## Histories -/

theorem perform_reachable (reached : r.Reachable) (operation : Operation m) :
    (r.perform operation).2.Reachable := by
  cases operation with
  | register k =>
    rw [perform_register]
    split
    · exact reached
    · next new => exact reached.registered (k := k) (by rw [register_eq, if_neg new])
  | select c names =>
    rw [perform_select]
    cases selected : r.select c names with
    | error failure => exact reached
    | ok g => exact reached.selected selected

theorem after_reachable (reached : r.Reachable) (history : List (Operation m)) :
    (r.after history).Reachable := by
  induction history generalizing r with
  | nil => exact reached
  | cons operation history ih => exact ih (perform_reachable reached operation)

/-- Registrations add the first kernel of each name that is not there yet. -/
theorem enrolled_kernels (r : Registry m) (kernels : List (Kernel m)) :
    (r.enrolled kernels).kernels
      = r.kernels ++ (kernels.filter (·.name ∉ r.names)).eraseDupsBy (·.name == ·.name) := by
  induction kernels generalizing r with
  | nil => simp [enrolled, after]
  | cons k kernels ih =>
    show ((r.perform (.register k)).2.enrolled kernels).kernels = _
    rw [ih, perform_register]
    by_cases taken : k.name ∈ r.names
    · simp [taken]
    · -- Later kernels of the same name are passed over from now on.
      let added : Registry m := ⟨r.kernels ++ [k]⟩
      have later : (kernels.filter fun k' => decide (k'.name ∉ r.names)).filter
            (fun k' => (k'.name == k.name) = false)
          = kernels.filter fun k' => decide (k'.name ∉ added.names) := by
        rw [List.filter_filter]
        refine List.filter_congr fun k' _ => ?_
        simp [added, names_concat, and_comm]
      rw [if_neg taken, List.filter_cons_of_pos (by simpa using taken), List.eraseDupsBy_cons,
        later, List.append_assoc]
      rfl

/-! ## What is found -/

/-- With unique names, the kernel that is found is the one that has the name. -/
theorem find?_eq_some (nodup : r.names.Nodup) :
    r.find? name = some k ↔ k ∈ r.kernels ∧ k.name = name := by
  constructor
  · intro found
    exact ⟨List.mem_of_find?_eq_some found, by simpa using List.find?_some found⟩
  · rintro ⟨among, rfl⟩
    obtain ⟨k', found⟩ := Option.isSome_iff_exists.1 (find?_isSome.2 (List.mem_map_of_mem among))
    have same := List.inj_on_of_nodup_map nodup (List.mem_of_find?_eq_some found) among
      (by simpa using List.find?_some found)
    rw [found, same]

theorem find?_enrolled (found : r.find? name = some k) (kernels : List (Kernel m)) :
    (r.enrolled kernels).find? name = some k := by
  rw [find?, enrolled_kernels, List.find?_append]
  rw [find?] at found
  rw [found]
  rfl

theorem referenceFor_enrolled (known : r.referenceFor c = some reference)
    (kernels : List (Kernel m)) :
    (r.enrolled kernels).referenceFor c = some reference := by
  rw [referenceFor, kernelsFor] at known
  rw [referenceFor, kernelsFor, enrolled_kernels, List.filter_append, List.find?_append, known]
  rfl

/-! ## The kernels of each capability -/

theorem mem_kernelsFor : k ∈ r.kernelsFor c ↔ k ∈ r.kernels ∧ k.capability = c := by
  simp [kernelsFor]

/-- The lists of the capabilities, one behind another, are the registry in another order. -/
theorem kernelsFor_perm (r : Registry m) :
    (Capability.all.flatMap r.kernelsFor).Perm r.kernels := by
  obtain ⟨kernels⟩ := r
  induction kernels with
  | nil => rfl
  | cons k kernels ih =>
    simp only [Capability.all, kernelsFor, List.flatMap_cons, List.flatMap_nil, List.append_nil,
      List.filter_cons] at ih ⊢
    have second := (List.perm_middle (a := k)).trans (ih.cons k)
    have third := ((List.perm_middle (a := k)).append_left _).trans second
    have fourth := (((List.perm_middle (a := k)).append_left _).append_left _).trans third
    cases k.capability with
    | matrixMultiply => exact ih.cons k
    | vectorAdd => exact second
    | memoryCopy => exact third
    | modifyInPlace => exact fourth

/-! ## After any history -/

/-- What holds of a registry that is held in one place. -/
structure Orderly (r : Registry m) : Prop where
  /-- Whatever the capabilities of the kernels. -/
  nodup : r.names.Nodup
  /-- A name that is taken is refused, and nothing changes. -/
  registering : ∀ k,
    (r.register k =
      if k.name ∈ r.names then .error (.duplicateKernel k.name) else .ok ⟨r.kernels ++ [k]⟩) ∧
    r.perform (.register k) =
      if k.name ∈ r.names then (.error (.duplicateKernel k.name), r)
      else (.ok (), ⟨r.kernels ++ [k]⟩)
  selecting : ∀ c names, r.perform (.select c names) =
    match r.select c names with
    | .ok g => (.ok (), g)
    | .error failure => (.error failure, r)
  /-- Of the kernels that are registered one after another, the first of each name is added if
  its name is new. -/
  registrations : ∀ kernels, (r.enrolled kernels).kernels
    = r.kernels ++ (kernels.filter (·.name ∉ r.names)).eraseDupsBy (·.name == ·.name)
  unreplaced : ∀ name k, r.find? name = some k →
    ∀ kernels, (r.enrolled kernels).find? name = some k
  found : ∀ name k, r.find? name = some k ↔ k ∈ r.kernels ∧ k.name = name
  /-- Every kernel stands in the list of its capability, and those keep the order. -/
  parts : (Capability.all.flatMap r.kernelsFor).Perm r.kernels ∧
    ∀ c, (r.kernelsFor c).Sublist r.kernels ∧
      ∀ k, k ∈ r.kernelsFor c ↔ k ∈ r.kernels ∧ k.capability = c
  /-- The earliest reference of the capability. -/
  reference : ∀ c k, r.referenceFor c = some k ↔
    ∃ before after, r.kernels = before ++ k :: after ∧ k.capability = c ∧ k.variant = .reference ∧
      ∀ k' ∈ before, k'.capability = c → k'.variant ≠ .reference
  constant : ∀ c k, r.referenceFor c = some k →
    ∀ kernels, (r.enrolled kernels).referenceFor c = some k

theorem Reachable.orderly (reached : r.Reachable) : r.Orderly where
  nodup := reached.nodup
  registering _ := ⟨register_eq, perform_register⟩
  selecting _ _ := perform_select
  registrations := enrolled_kernels r
  unreplaced _ _ := find?_enrolled
  found _ _ := find?_eq_some reached.nodup
  parts := ⟨kernelsFor_perm r, fun _ => ⟨List.filter_sublist, fun _ => mem_kernelsFor⟩⟩
  reference _ _ := referenceFor_eq_some
  constant _ _ := referenceFor_enrolled

/-- After any registrations and selections, some of them refused, the registry is in order. What
is registered from the start on is the first kernel of each name. -/
theorem orderly_after (history : List (Operation m)) :
    ((empty : Registry m).after history).Orderly ∧
      ∀ kernels : List (Kernel m), ((empty : Registry m).enrolled kernels).kernels
        = kernels.eraseDupsBy (·.name == ·.name) := by
  refine ⟨(after_reachable .empty history).orderly, fun kernels => ?_⟩
  have none : ∀ k ∈ kernels, decide (k.name ∉ (empty : Registry m).names) = true := by
    simp [empty, names]
  rw [enrolled_kernels, List.filter_eq_self.2 none]
  rfl

/-- A name that is taken, one that no kernel of the capability has, and a selection. -/
example : ((empty : Registry Id).after [.register VectorAdd.simd, .register VectorAdd.reference,
      .register { MemoryCopy.simd with name := "vadd-simd" }, .select .memoryCopy ["vadd-simd"],
      .select .vectorAdd ["vadd-reference"], .register MemoryCopy.slice]).names
    = ["vadd-reference", "memcpy-slice"] := rfl

end Microbench.Registry
