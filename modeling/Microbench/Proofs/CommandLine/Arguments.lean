import Microbench.CommandLine.Arguments
import Microbench.Proofs.Kernel

/-!
# What the command line accepts

A size is checked when it is read, so no command is run with a size of zero. Sizes come from the
operand, from lists of sizes and from defaults.

Results:

* `config_capability`, `config_sizes`, `kernels_eq`: the sweep of a command is the one it asks for.
* `step_sized`: what is read keeps its sizes positive, argument by argument.
* `parse_admitted`: the sizes of a command line that is accepted are positive.
-/
namespace Microbench.CommandLine

open Sweep (cacheSizes)

/-! ## What a command asks for -/

/-- A capability, its sizes in order, and the names of kernels. -/
structure Request where
  capability : Capability
  sizes : List Nat
  names : List String

/-- What a command asks for, by its own arguments. -/
def Command.request : Command → Request
  | .cache kilobytes _ names => ⟨.modifyInPlace, [kilobytes], names⟩
  | .memcpy blocks _ names => ⟨.memoryCopy, [blocks], names⟩
  | .matmul n _ _ names => ⟨.matrixMultiply, [n], names⟩
  | .vectorAdd len _ names => ⟨.vectorAdd, [len], names⟩
  | .sweep sizes _ names => ⟨.modifyInPlace, sizes, names⟩

namespace Command

variable (c : Command)

/-- The sweep of a command has the capability and the sizes that it asks for. -/
theorem config_capability : c.config.capability = c.request.capability := by cases c <;> rfl

theorem config_sizes : c.config.sizes = c.request.sizes := by cases c <;> rfl

theorem kernels_eq : c.kernels = c.request.names := by cases c <;> rfl

end Command

/-- The sizes of an invocation are positive. -/
def Invocation.Admitted (i : Invocation) : Prop := ∀ size ∈ i.command.request.sizes, 0 < size

/-! ## Sizes that are read -/

theorem parsePositive_pos {s : String} {n : Nat} (h : parsePositive s = .ok n) : 0 < n := by
  obtain ⟨k, -, h⟩ := ok_of_bind h
  split at h
  · cases h
  · next positive =>
    cases h
    exact Nat.pos_of_ne_zero positive

namespace Draft

/-- The sizes read so far are positive. -/
structure Sized (d : Draft) : Prop where
  operand : ∀ n, d.operand = some n → 0 < n
  sizes : ∀ n ∈ d.sizes, 0 < n

theorem empty_sized : Sized {} := ⟨nofun, nofun⟩

variable {level : Topic} {a : Argument} {d d' : Draft} {value : String}

theorem number_pos {n : Nat} (h : number level a parsePositive value = .ok n) : 0 < n := by
  unfold number at h
  split at h
  · next parsed =>
    cases h
    exact parsePositive_pos parsed
  · cases h

theorem once_pos {old new : Option Nat} (h : once level a parsePositive old value = .ok new) :
    ∀ n, new = some n → 0 < n := by
  unfold once at h
  split at h
  · cases h
  · cases parsed : number level a parsePositive value with
    | error refusal => rw [parsed] at h; cases h
    | ok k =>
      rw [parsed] at h
      cases h
      rintro _ ⟨⟩
      exact number_pos parsed

theorem mapM_pos {values : List String} {ns : List Nat}
    (h : values.mapM (number level a parsePositive) = .ok ns) : ∀ n ∈ ns, 0 < n := by
  induction values generalizing ns with
  | nil =>
    cases h
    exact nofun
  | cons value values ih =>
    rw [List.mapM_cons] at h
    obtain ⟨n, first, h⟩ := ok_of_bind h
    obtain ⟨rest, later, h⟩ := ok_of_bind h
    cases h
    exact List.forall_mem_cons.2 ⟨number_pos first, ih later⟩

theorem Sized.setValue (h : d.Sized) (taken : d.setValue level a value = .ok d') : d'.Sized := by
  cases a with
  | operand =>
    obtain ⟨operand, read, taken⟩ := ok_of_bind taken
    cases taken
    exact ⟨once_pos read, h.sizes⟩
  | sizes =>
    obtain ⟨sizes, read, taken⟩ := ok_of_bind taken
    cases taken
    exact ⟨h.operand, List.forall_mem_append.2 ⟨h.sizes, mapM_pos read⟩⟩
  | iterations | steps | seed =>
    obtain ⟨_, -, taken⟩ := ok_of_bind taken
    cases taken
    exact ⟨h.operand, h.sizes⟩
  | _ =>
    cases taken
    exact ⟨h.operand, h.sizes⟩

theorem Sized.setFlag (h : d.Sized) (taken : d.setFlag level a = .ok d') : d'.Sized := by
  cases a with
  | json | monotonic | trace | print =>
    unfold Draft.setFlag at taken
    dsimp only at taken
    split at taken
    · cases taken
    · cases taken
      exact ⟨h.operand, h.sizes⟩
  | help | version => cases taken
  | _ =>
    cases taken
    exact h

end Draft

namespace Parse

variable {level : Topic} {p p' : Parse}

theorem settle_sized (h : p.draft.Sized) (settled : p.settle level = .ok p') : p'.draft.Sized := by
  unfold settle at settled
  split at settled
  · cases settled; exact h
  · cases settled
  · obtain ⟨d, taken, settled⟩ := ok_of_bind settled
    cases settled
    exact h.setValue taken

theorem named_sized {name : String} {value : Option String} (h : p.draft.Sized)
    (taken : p.named level name value = .ok p') : p'.draft.Sized := by
  unfold named at taken
  split at taken
  · cases taken
  split at taken
  · obtain ⟨q, settled, taken⟩ := ok_of_bind taken
    have hq := settle_sized h settled
    split at taken
    · obtain ⟨d, set, taken⟩ := ok_of_bind taken
      cases taken
      exact hq.setValue set
    · cases taken
      exact hq
  · split at taken
    · cases taken
    · obtain ⟨q, settled, taken⟩ := ok_of_bind taken
      obtain ⟨d, set, taken⟩ := ok_of_bind taken
      cases taken
      exact (settle_sized h settled).setFlag set

theorem operand_sized {arg : String} (h : p.draft.Sized)
    (taken : p.operand level arg = .ok p') : p'.draft.Sized := by
  unfold operand at taken
  split at taken
  · obtain ⟨q, settled, taken⟩ := ok_of_bind taken
    have hq := settle_sized h settled
    cases taken
    exact hq
  · split at taken <;> cases taken

/-- Letters only ask for help or the version. -/
theorem short_fails {letter : Char} : p.short level letter ≠ .ok p' := by
  intro taken
  unfold short at taken
  split at taken
  · obtain ⟨q, -, taken⟩ := ok_of_bind taken
    cases taken
  split at taken
  · obtain ⟨q, -, taken⟩ := ok_of_bind taken
    cases taken
  · cases taken

theorem step_sized {arg : String} (h : p.draft.Sized) (taken : p.step level arg = .ok p') :
    p'.draft.Sized := by
  unfold step at taken
  split at taken
  · exact operand_sized h taken
  split at taken
  · cases taken; exact h
  · exact named_sized h taken
  · exact absurd taken short_fails
  · split at taken
    · cases taken; exact h
    · exact operand_sized h taken

end Parse

/-- By induction on the arguments still to be read. -/
theorem steps_sized {level : Topic} {args : List String} {p p' : Parse} (h : p.draft.Sized)
    (read : args.foldlM (Parse.step level) p = .ok p') : p'.draft.Sized := by
  induction args generalizing p with
  | nil => cases read; exact h
  | cons arg args ih =>
    rw [List.foldlM_cons] at read
    obtain ⟨q, taken, read⟩ := ok_of_bind read
    exact ih (Parse.step_sized h taken) read

theorem parseCommand_sized {command : Topic} {args : List String} {d : Draft}
    (read : parseCommand command args = .ok d) : d.Sized := by
  obtain ⟨p, steps, read⟩ := ok_of_bind read
  obtain ⟨q, settled, read⟩ := ok_of_bind read
  cases read
  exact Parse.settle_sized (steps_sized Draft.empty_sized steps) settled

theorem Draft.command_sizes {d : Draft} (h : d.Sized) {topic : Topic} {c : Command}
    (made : d.command topic = .ok c) : ∀ size ∈ c.request.sizes, 0 < size := by
  have getD_pos {default : Nat} (positive : 0 < default) : 0 < d.operand.getD default := by
    cases operand : d.operand with
    | none => exact positive
    | some n => exact h.operand n operand
  cases topic with
  | cache =>
    unfold command at made
    dsimp only at made
    split at made
    · next n operand => cases made; exact List.forall_mem_singleton.2 (h.operand n operand)
    · cases made
  | memcpy =>
    unfold command at made
    dsimp only at made
    split at made
    · next n operand => cases made; exact List.forall_mem_singleton.2 (h.operand n operand)
    · cases made
  | matmul =>
    cases made
    exact List.forall_mem_singleton.2 (getD_pos (by decide))
  | vectorAdd =>
    cases made
    exact List.forall_mem_singleton.2 (getD_pos (by decide))
  | sweep =>
    cases made
    show ∀ size ∈ (if d.sizes.isEmpty then cacheSizes else d.sizes), 0 < size
    split
    · decide
    · exact h.sizes
  | program => cases made
  | help => cases made

theorem parse_admitted {args : List String} {i : Invocation} (h : parse args = .ok i) :
    i.Admitted := by
  obtain ⟨⟨p, command⟩, -, h⟩ := ok_of_bind h
  cases command with
  | none =>
    obtain ⟨q, -, h⟩ := ok_of_bind h
    cases h
  | some command =>
    obtain ⟨topic, rest⟩ := command
    obtain ⟨inner, read, h⟩ := ok_of_bind h
    obtain ⟨c, made, h⟩ := ok_of_bind h
    obtain ⟨q, -, h⟩ := ok_of_bind h
    cases h
    exact Draft.command_sizes (parseCommand_sized read) made

end Microbench.CommandLine
