import Microbench.Proofs.Generation

/-!
# Inputs from one stream

Of a generator no more is used here than that its state after a seed is passed on from one 64-bit
output to the next, and that a draw of a float takes one output or more. Integers are cut from
single outputs, and bytes are the eight bytes of each output in order.

Whatever such a generator is, the elements of all inputs have their places in the one stream of its
outputs: vectors follow each other without a gap, bytes neither skip nor split an output, and the
floats of the second matrix are drawn on from the last of the first. What stands at a place does
not depend on how much is drawn, so larger workloads begin as smaller ones do.

Results:

* `drawn_eq`: what a row of draws gives, and the state after it.
* `flatMap_littleEndian`: the places of bytes.
* `Stream.fractions_in_order`: where the draws of floats begin and end.
* `inputs_from_one_stream`: the places of all elements, and how sizes agree.
-/
namespace Microbench

/-! ## Draws in a row -/

section Draws

variable {σ α : Type} (one : σ → α × σ)

/-- The draw with this number, from zero. -/
def nth (s : σ) (number : Nat) : α := (one (after one number s)).1

theorem after_add (m count : Nat) (s : σ) :
    after one (count + m) s = after one m (after one count s) := by
  induction count generalizing s with
  | zero => rw [Nat.zero_add, after_zero]
  | succ count ih =>
    rw [Nat.succ_add]
    exact ih (one s).2

/-- Draws that pass the same state on end in the same state. -/
theorem after_congr {β : Type} {one : σ → α × σ} {other : σ → β × σ}
    (same : ∀ s, (one s).2 = (other s).2) (count : Nat) (s : σ) :
    after one count s = after other count s := by
  induction count generalizing s with
  | zero => rfl
  | succ count ih => rw [after_cons, after_cons, same, ih]

theorem nth_after (count number : Nat) (s : σ) :
    nth one (after one count s) number = nth one s (count + number) := by
  rw [nth, nth, after_add]

theorem drawn_eq (count : Nat) (s : σ) :
    drawn one count s = (Array.ofFn fun i : Fin count => nth one s i, after one count s) := by
  induction count with
  | zero => rfl
  | succ count ih =>
    rw [drawn, Nat.fold_succ, ← drawn, ih, Array.ofFn_succ, after_succ]
    rfl

end Draws

/-! ## Places of bytes -/

/-- Byte `i` of an output, the lowest first. -/
def byteOf (output : UInt64) (i : Nat) : UInt8 := UInt8.ofNat (output.toNat / 256 ^ i)

theorem littleEndian_eq (output : UInt64) :
    Stream.littleEndian output = Array.ofFn fun i : Fin 8 => byteOf output i := by
  rw [Stream.littleEndian]
  congr 1
  funext i
  have places : (UInt64.ofNat (8 * i.val)).toNat % 64 = 8 * i.val := by
    rw [UInt64.toNat_ofNat', Nat.mod_eq_of_lt (by omega), Nat.mod_eq_of_lt (by omega)]
  refine UInt8.toNat_inj.1 ?_
  rw [byteOf, UInt64.toNat_toUInt8, UInt64.toNat_shiftRight, UInt8.toNat_ofNat', places,
    Nat.shiftRight_eq_div_pow, Nat.pow_mul]

/-- All bytes of a row of outputs. -/
theorem flatMap_littleEndian (output : Nat → UInt64) (count : Nat) :
    (Array.ofFn fun i : Fin count => output i).flatMap Stream.littleEndian
      = Array.ofFn fun t : Fin (count * 8) => byteOf (output (t / 8)) (t % 8) := by
  induction count with
  | zero => rfl
  | succ count ih =>
    have last (i : Fin 8) : (count * 8 + i.val) / 8 = count ∧ (count * 8 + i.val) % 8 = i.val := by
      omega
    rw [Array.ofFn_succ, Array.flatMap_push, littleEndian_eq]
    refine (congrArg (· ++ _) ih).trans ?_
    have split : (Array.ofFn fun t : Fin (count * 8 + 8) => byteOf (output (t / 8)) (t % 8))
        = (Array.ofFn fun t : Fin (count * 8) => byteOf (output (t / 8)) (t % 8))
          ++ Array.ofFn fun i : Fin 8 => byteOf (output count) i := by
      rw [Array.ofFn_add]
      congr 2
      funext i
      exact congrArg₂ (fun q r => byteOf (output q) r) (last i).1 (last i).2
    rw [Nat.succ_mul]
    exact split.symm

/-! ## Places -/

namespace Stream

variable {σ : Type} (d : Stream σ)

/-- The output with this number after a seed, from zero. -/
def output (seed : UInt64) (number : Nat) : UInt64 := nth d.next (d.seeded seed) number

/-- The draw of a float with this number after a seed, from zero. -/
def float (seed : UInt64) (number : Nat) : Float32 := nth d.fraction (d.seeded seed) number

end Stream

/-- What stands at each place, for every type of elements. -/
structure Places where
  f32 : Nat → Float32
  i16 : Nat → Int16
  i32 : Nat → Int32
  bytes : Nat → UInt8

namespace Places

/-- The first elements. -/
def buffer (p : Places) (element : ElementType) (len : Nat) : Buffer :=
  match element with
  | .f32 => .f32 (Array.ofFn fun i : Fin len => p.f32 i)
  | .i16 => .i16 (Array.ofFn fun i : Fin len => p.i16 i)
  | .i32 => .i32 (Array.ofFn fun i : Fin len => p.i32 i)
  | .bytes => .bytes (Array.ofFn fun i : Fin len => p.bytes i)

def counted : Places where
  f32 i := (UInt64.ofNat i).toFloat32
  i16 := Int16.ofNat
  i32 := Int32.ofNat
  bytes := UInt8.ofNat

end Places

/-- The first `count` elements of a buffer. -/
def Buffer.first (count : Nat) : Buffer → Buffer
  | .f32 data => .f32 (data.extract 0 count)
  | .i16 data => .i16 (data.extract 0 count)
  | .i32 data => .i32 (data.extract 0 count)
  | .bytes data => .bytes (data.extract 0 count)

theorem extract_ofFn {α : Type} (f : Nat → α) {len len' : Nat} (h : len ≤ len') :
    (Array.ofFn fun i : Fin len' => f i).extract 0 len = Array.ofFn fun i : Fin len => f i := by
  refine Array.ext ?_ fun i hi _ => ?_
  · rw [Array.size_extract, Array.size_ofFn, Array.size_ofFn]
    omega
  · rw [Array.getElem_extract, Array.getElem_ofFn, Array.getElem_ofFn]
    exact congrArg f (Nat.zero_add i)

theorem Places.buffer_first (p : Places) (element : ElementType) {len len' : Nat} (h : len ≤ len') :
    (p.buffer element len').first len = p.buffer element len := by
  cases element with
  | f32 => exact congrArg Buffer.f32 (extract_ofFn p.f32 h)
  | i16 => exact congrArg Buffer.i16 (extract_ofFn p.i16 h)
  | i32 => exact congrArg Buffer.i32 (extract_ofFn p.i32 h)
  | bytes => exact congrArg Buffer.bytes (extract_ofFn p.bytes h)

theorem Places.buffer_size (p : Places) (element : ElementType) (len : Nat) :
    (p.buffer element len).size = len := by
  cases element <;> exact Array.size_ofFn

namespace Stream

variable {σ : Type} (d : Stream σ)

/-- What stands at each place after a state. -/
def places (s : σ) : Places where
  f32 := nth d.fraction s
  i16 j := (nth d.next s j).toUInt16.toInt16
  i32 j := (nth d.next s j).toUInt32.toInt32
  bytes t := byteOf (nth d.next s (t / 8)) (t % 8)

theorem bytes_eq (count : Nat) (s : σ) : (d.bytes count s).1
    = Array.ofFn fun t : Fin count => byteOf (nth d.next s (t / 8)) (t % 8) := by
  rw [bytes, drawn_eq]
  have all := flatMap_littleEndian (nth d.next s) ((count + 7) / 8)
  refine (congrArg (·.extract 0 count) all).trans ?_
  exact extract_ofFn (fun t => byteOf (nth d.next s (t / 8)) (t % 8)) (by omega)

/-- Draws that are cut from single outputs. -/
theorem drawn_cut {α : Type} (cut : UInt64 → α) (len : Nat) (s : σ) :
    drawn (fun s => (cut (d.next s).1, (d.next s).2)) len s
      = (Array.ofFn fun i : Fin len => cut (nth d.next s i), after d.next len s) := by
  have states := @after_congr _ _ _ (fun s => (cut (d.next s).1, (d.next s).2)) d.next fun _ => rfl
  rw [drawn_eq, states]
  refine congrArg (·, _) (congrArg Array.ofFn (funext fun i => ?_))
  rw [nth, states, nth]

theorem buffer_fst (element : ElementType) (len : Nat) (s : σ) :
    (d.buffer element len s).1 = (d.places s).buffer element len := by
  cases element with
  | f32 => exact congrArg (fun drawn => Buffer.f32 drawn.1) (drawn_eq d.fraction len s)
  | i16 => exact congrArg (fun drawn => Buffer.i16 drawn.1) (d.drawn_cut (·.toUInt16.toInt16) len s)
  | i32 => exact congrArg (fun drawn => Buffer.i32 drawn.1) (d.drawn_cut (·.toUInt32.toInt32) len s)
  | bytes => exact congrArg Buffer.bytes (d.bytes_eq len s)

theorem take_fst (element : ElementType) (len : Nat) (source : Option σ) :
    (d.take element len source).1 = (source.elim .counted d.places).buffer element len := by
  cases source with
  | none => cases element <;> rfl
  | some s => exact d.buffer_fst element len s

theorem buffersOf_first {element : ElementType} {len count : Nat} (source : Option σ)
    (h : count ≠ 0) : (d.buffersOf element len count source)[0]?
      = some ((source.elim .counted d.places).buffer element len) := by
  obtain ⟨rest, rfl⟩ := Nat.exists_eq_succ_of_ne_zero h
  exact congrArg some (d.take_fst element len source)

/-! ### Where a second buffer goes on -/

theorem buffersOf_two (element : ElementType) (len : Nat) (source : Option σ) :
    d.buffersOf element len 2 source = [(d.take element len source).1,
      (d.take element len (d.take element len source).2).1] := rfl

theorem take_i16_snd (len : Nat) (s : σ) :
    (d.take .i16 len (some s)).2 = some (after d.next len s) :=
  congrArg (fun drawn : Array Int16 × σ => some drawn.2) (d.drawn_cut (·.toUInt16.toInt16) len s)

theorem take_f32_snd (len : Nat) (s : σ) :
    (d.take .f32 len (some s)).2 = some (after d.fraction len s) :=
  congrArg (fun drawn : Array Float32 × σ => some drawn.2) (drawn_eq d.fraction len s)

theorem vectors_eq (len : Nat) (s : σ) : d.buffersOf .i16 len 2 (some s)
    = (List.range 2).map fun b =>
        .i16 (Array.ofFn fun j : Fin len => (nth d.next s (b * len + j)).toUInt16.toInt16) := by
  have first : (d.take .i16 len (some s)).1
      = .i16 (Array.ofFn fun j : Fin len => (nth d.next s (0 * len + j)).toUInt16.toInt16) := by
    rw [take_fst, Nat.zero_mul]
    simp only [Nat.zero_add]
    rfl
  have second : (d.take .i16 len (some (after d.next len s))).1
      = .i16 (Array.ofFn fun j : Fin len => (nth d.next s (1 * len + j)).toUInt16.toInt16) := by
    rw [take_fst, Nat.one_mul]
    simp only [← nth_after]
    rfl
  rw [buffersOf_two, take_i16_snd, first, second]
  rfl

theorem matrices_eq (len : Nat) (s : σ) : ∃ lhs rhs,
    d.buffersOf .f32 len 2 (some s) = [.f32 lhs, .f32 rhs] ∧ lhs.size = len ∧ rhs.size = len ∧
      lhs ++ rhs = Array.ofFn fun k : Fin (2 * len) => nth d.fraction s k := by
  refine ⟨Array.ofFn fun k : Fin len => nth d.fraction s k,
    Array.ofFn fun k : Fin len => nth d.fraction s (len + k), ?_, Array.size_ofFn, Array.size_ofFn,
    ?_⟩
  · rw [buffersOf_two, take_f32_snd, take_fst, take_fst]
    simp only [← nth_after]
    rfl
  · rw [Nat.two_mul, Array.ofFn_add]
    rfl

/-- Where the draws of floats begin, if a draw from a state takes so many outputs. -/
def position (taken : σ → Nat) (s : σ) : Nat → Nat
  | 0 => 0
  | number + 1 => position taken s number + taken (after d.next (position taken s number) s)

/-- Each draw of a float begins at the output at which the one before has ended. -/
theorem fractions_in_order (s : σ) : ∃ position : Nat → Nat, position 0 = 0 ∧ StrictMono position ∧
    ∀ number, d.fraction (after d.next (position number) s)
      = (nth d.fraction s number, after d.next (position (number + 1)) s) := by
  choose taken pos lands using d.fraction_takes
  have lands' (number : Nat) : (d.fraction (after d.next (d.position taken s number) s)).2
      = after d.next (d.position taken s (number + 1)) s := by
    rw [lands, position, after_add]
  have same (number : Nat) :
      after d.fraction number s = after d.next (d.position taken s number) s := by
    induction number with
    | zero => rfl
    | succ number ih => rw [after_succ, ih, lands']
  refine ⟨d.position taken s, rfl, strictMono_nat_of_lt_succ fun number => ?_, fun number => ?_⟩
  · exact Nat.lt_add_of_pos_right (pos _)
  · exact Prod.ext (by rw [nth, same]) (lands' number)

end Stream

/-! ## One stream -/

theorem Capability.length_mono (c : Capability) {n m : Nat} (h : n ≤ m) :
    c.length n ≤ c.length m := by
  cases c with
  | matrixMultiply => exact Nat.mul_le_mul h h
  | vectorAdd => exact h
  | memoryCopy => exact Nat.mul_le_mul_left 512 h
  | modifyInPlace => exact Nat.mul_le_mul_left 256 h

section OneStream

variable {σ : Type} (d : Stream σ)

/-- Whatever else there is to a workload, its first input begins as that of a larger one does. -/
theorem Stream.first_input {a a' : Allocator} {fill : Fill} {s t : Shape} {w w' : Workload}
    (same : s.capability = t.capability) (some_inputs : s.inputCount ≠ 0) (le : s.size ≤ t.size)
    (small : Workload.generate ⟨a, d⟩ fill s = .ok w)
    (large : Workload.generate ⟨a', d⟩ fill t = .ok w') :
    ∃ b b', w.inputs.buffers[0]? = some b ∧ w'.inputs.buffers[0]? = some b' ∧
      b = b'.first b.size := by
  let places := (d.source fill).elim .counted d.places
  have type : t.elementType = s.elementType := congrArg Capability.elementType same.symm
  have inputs : t.inputCount ≠ 0 := by
    rw [Shape.inputCount, ← same]
    exact some_inputs
  have length : s.elements ≤ t.elements := by
    rw [Shape.elements_eq_length, Shape.elements_eq_length, Shape.length, Shape.length, ← same]
    exact s.capability.length_mono le
  obtain ⟨-, -, rfl⟩ := Workload.generate_eq_ok.1 small
  obtain ⟨-, -, rfl⟩ := Workload.generate_eq_ok.1 large
  refine ⟨_, _, d.buffersOf_first _ some_inputs, d.buffersOf_first _ inputs, ?_⟩
  rw [Places.buffer_size, type]
  exact (places.buffer_first s.elementType length).symm

/-- Every element of an input has its place in the stream of outputs. -/
theorem inputs_from_one_stream :
    (∀ a seed len steps w,
      Workload.generate ⟨a, d⟩ (.seeded seed) ⟨.vectorAdd, len, steps⟩ = .ok w →
      w.inputs.buffers = (List.range 2).map fun b =>
        .i16 (Array.ofFn fun j : Fin len => (d.output seed (b * len + j)).toUInt16.toInt16)) ∧
    (∀ a seed blocks steps w,
      Workload.generate ⟨a, d⟩ (.seeded seed) ⟨.memoryCopy, blocks, steps⟩ = .ok w →
      w.inputs.buffers = [.bytes (Array.ofFn fun t : Fin (512 * blocks) =>
        byteOf (d.output seed (t / 8)) (t % 8))]) ∧
    (∀ a seed n steps w,
      Workload.generate ⟨a, d⟩ (.seeded seed) ⟨.matrixMultiply, n, steps⟩ = .ok w →
      ∃ lhs rhs, w.inputs.buffers = [.f32 lhs, .f32 rhs] ∧ lhs.size = n * n ∧ rhs.size = n * n ∧
        lhs ++ rhs = Array.ofFn fun k : Fin (2 * (n * n)) => d.float seed k) ∧
    (∀ seed, ∃ position : Nat → Nat, position 0 = 0 ∧ StrictMono position ∧
      ∀ number, d.fraction (after d.next (position number) (d.seeded seed))
        = (d.float seed number, after d.next (position (number + 1)) (d.seeded seed))) ∧
    ∀ a a' fill s t w w', s.capability = t.capability → s.inputCount ≠ 0 → s.size ≤ t.size →
      Workload.generate ⟨a, d⟩ fill s = .ok w → Workload.generate ⟨a', d⟩ fill t = .ok w' →
      ∃ b b', w.inputs.buffers[0]? = some b ∧ w'.inputs.buffers[0]? = some b' ∧
        b = b'.first b.size := by
  refine ⟨?_, ?_, ?_, fun seed => d.fractions_in_order (d.seeded seed),
    fun a a' fill s t w w' => d.first_input⟩
  · intro a seed len steps w made
    obtain ⟨-, -, rfl⟩ := Workload.generate_eq_ok.1 made
    exact d.vectors_eq len (d.seeded seed)
  · intro a seed blocks steps w made
    obtain ⟨-, -, rfl⟩ := Workload.generate_eq_ok.1 made
    rw [Stream.filled, Shape.elements_eq_length]
    exact congrArg (fun data => [Buffer.bytes data]) (d.bytes_eq (512 * blocks) (d.seeded seed))
  · intro a seed n steps w made
    obtain ⟨-, -, rfl⟩ := Workload.generate_eq_ok.1 made
    exact d.matrices_eq (n * n) (d.seeded seed)

end OneStream

/-- The outputs count up from the seed, and a float takes two of them. -/
def Stream.ascending : Stream UInt64 where
  seeded := id
  next word := (word, word + 1)
  fraction word := (Generator.fraction word, word + 1 + 1)
  fraction_takes _ := ⟨2, Nat.two_pos, rfl⟩

/-- The second vector goes on where the first has ended. -/
theorem inputs_from_one_stream_ascending :
    ∃ w, Workload.generate ⟨.machine, Stream.ascending⟩ (.seeded 65534) ⟨.vectorAdd, 3, 0⟩ = .ok w ∧
      w.inputs.buffers = [.i16 #[-2, -1, 0], .i16 #[1, 2, 3]] := by
  have fits : Shape.Fits .machine ⟨.vectorAdd, 3, 0⟩ := ⟨by decide, by decide⟩
  have made : Workload.generate ⟨.machine, Stream.ascending⟩ (.seeded 65534) ⟨.vectorAdd, 3, 0⟩
      = .ok (Stream.ascending.filled (.seeded 65534) ⟨.vectorAdd, 3, 0⟩) :=
    Workload.generate_eq_ok.2 ⟨by decide, fits, rfl⟩
  refine ⟨_, made, ((inputs_from_one_stream Stream.ascending).1 _ _ _ _ _ made).trans ?_⟩
  have first : (Array.ofFn fun j : Fin 3 =>
      (Stream.ascending.output 65534 (0 * 3 + j)).toUInt16.toInt16) = #[-2, -1, 0] := by decide
  have second : (Array.ofFn fun j : Fin 3 =>
      (Stream.ascending.output 65534 (1 * 3 + j)).toUInt16.toInt16) = #[1, 2, 3] := by decide
  exact congrArg₂ (fun lhs rhs => [Buffer.i16 lhs, Buffer.i16 rhs]) first second

end Microbench
