import Microbench.Registry

/-!
# Who stands in a registry

Results:

* `lineup_iff`: the reference and the candidates of a capability, by where they stand.
* `referenceFor_eq_none`: when there is no reference.
-/
namespace Microbench.Registry

variable {m : Type → Type} {g : Registry m} {c : Capability} {reference : Kernel m}
  {others : List (Kernel m)}

/-- The earliest reference of the capability, and its other kernels as they were registered. -/
def Lineup (g : Registry m) (c : Capability) (reference : Kernel m) (others : List (Kernel m)) :
    Prop :=
  ∃ before after, g.kernels = before ++ reference :: after ∧
    reference.capability = c ∧ reference.variant = .reference ∧
    (∀ k ∈ before, k.capability = c → k.variant ≠ .reference) ∧
    others = (before ++ after).filter (·.capability == c)

theorem isReference_iff {k : Kernel m} : k.isReference = true ↔ k.variant = .reference := beq_iff_eq

theorem referenceFor_eq_some : g.referenceFor c = some reference ↔
    ∃ before after, g.kernels = before ++ reference :: after ∧
      reference.capability = c ∧ reference.variant = .reference ∧
      ∀ k ∈ before, k.capability = c → k.variant ≠ .reference := by
  rw [referenceFor, kernelsFor, List.find?_filter, List.find?_eq_some_iff_append]
  simp only [beq_iff_eq, isReference_iff, Bool.not_eq_eq_eq_not, Bool.not_true,
    decide_eq_false_iff_not, decide_eq_true_eq, not_and]
  constructor
  · intro h
    obtain ⟨⟨capability, variant⟩, before, after, split, earlier⟩ := h
    exact ⟨before, after, split, capability, variant, earlier⟩
  · intro h
    obtain ⟨before, after, split, capability, variant, earlier⟩ := h
    exact ⟨⟨capability, variant⟩, before, after, split, earlier⟩

/-- Taking out the reference takes out one kernel. -/
theorem candidatesFor_eq {before after : List (Kernel m)}
    (split : g.kernels = before ++ reference :: after) (capability : reference.capability = c)
    (variant : reference.variant = .reference)
    (earlier : ∀ k ∈ before, k.capability = c → k.variant ≠ .reference) :
    g.candidatesFor c = (before ++ after).filter (·.capability == c) := by
  have first : ∀ k ∈ before.filter (·.capability == c), ¬k.isReference = true := by
    intro k hk
    rw [List.mem_filter, beq_iff_eq] at hk
    rw [isReference_iff]
    exact earlier k hk.1 hk.2
  rw [candidatesFor, kernelsFor, split, List.filter_append, List.filter_cons_of_pos (by simpa),
    List.eraseP_append_right _ first, List.eraseP_cons_of_pos (isReference_iff.2 variant),
    List.filter_append]

theorem lineup_iff : g.Lineup c reference others ↔
    g.referenceFor c = some reference ∧ g.candidatesFor c = others := by
  rw [referenceFor_eq_some]
  constructor
  · intro h
    obtain ⟨before, after, split, capability, variant, earlier, rfl⟩ := h
    exact ⟨⟨before, after, split, capability, variant, earlier⟩,
      candidatesFor_eq split capability variant earlier⟩
  · intro h
    obtain ⟨⟨before, after, split, capability, variant, earlier⟩, rfl⟩ := h
    exact ⟨before, after, split, capability, variant, earlier,
      candidatesFor_eq split capability variant earlier⟩

theorem referenceFor_eq_none : g.referenceFor c = none ↔
    ∀ k ∈ g.kernels, k.capability = c → k.variant ≠ .reference := by
  rw [referenceFor, kernelsFor, List.find?_filter, List.find?_eq_none]
  simp [isReference_iff]

end Microbench.Registry
