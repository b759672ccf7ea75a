import Microbench.Proofs.Decimal.Shortest
import Microbench.Proofs.Json.Number

/-!
# A written decimal keeps its value

However a decimal is written, as a number without an exponent or as a digit with an exponent, the
text has the parts of a number, and the parts spell the sign and the value of the decimal: zeros in
front of the digits do not count, and the places behind the point are taken off the exponent.

Results:

* `valueOf_toDigits`: digits spell their number.
* `write_spells`: what is written spells the decimal.
* `Spells.determines`: a text spells one decimal only.
-/
namespace Microbench

open Json (Lexeme IsDigits IsWhole isDigits_toDigits isWhole_toDigits)

namespace Json.Lexeme

/-! ## What digits spell -/

theorem valueOf_append (ds es : List Char) :
    valueOf (ds ++ es) = valueOf ds * 10 ^ es.length + valueOf es := by
  have step (n : Nat) (es : List Char) :
      es.foldl (fun n c => n * 10 + digitValue c) n = n * 10 ^ es.length + valueOf es := by
    induction es generalizing n with
    | nil => simp [valueOf]
    | cons e es ih =>
      rw [valueOf, List.foldl_cons, List.foldl_cons, ih, ih (0 * 10 + digitValue e),
        List.length_cons, Nat.pow_succ]
      ring
  rw [valueOf, List.foldl_append, step]
  rfl

theorem valueOf_zeros (n : Nat) : valueOf (List.replicate n '0') = 0 := by
  induction n with
  | zero => rfl
  | succ n ih =>
    rw [List.replicate_succ]
    exact ih

/-- Digits spell their number. -/
theorem valueOf_toDigits (n : Nat) : valueOf (Nat.toDigits 10 n) = n := by
  have same : (fun (n : Nat) (c : Char) => n * 10 + digitValue c)
      = fun (n : Nat) (c : Char) => 10 * n + (c.toNat - '0'.toNat) := by
    funext n c
    rw [Nat.mul_comm, digitValue]
  rw [valueOf, same]
  exact Nat.ofDigitChars_ten_toDigits

/-- The power of ten behind the letter. -/
def power : Option (Bool × List Char) → Int
  | none => 0
  | some (down, ds) => if down then -(valueOf ds : Int) else valueOf ds

/-- All digits, and the exponent of the last one. -/
def decimal (l : Lexeme) : Decimal.Scientific :=
  ⟨valueOf (l.whole ++ l.places.getD []), power l.exponent - (l.places.getD []).length⟩

end Json.Lexeme

namespace Decimal

/-- The text is a number with this sign and this value. -/
structure Spells (text : String) (negative : Bool) (value : ℚ) : Prop where
  number : Json.IsNumber text
  sign : (Lexeme.split text).negative = negative
  magnitude : (Lexeme.split text).decimal.value = value

theorem Spells.of_chars {text : String} {l : Lexeme} (valid : l.Valid)
    (chars : text.toList = l.chars) {value : ℚ} (magnitude : l.decimal.value = value) :
    Spells text l.negative value := by
  obtain rfl : text = String.ofList l.chars := by rw [← chars, String.ofList_toList]
  refine ⟨valid.isNumber, ?_, ?_⟩
  · rw [valid.split]
  · rw [valid.split, magnitude]

/-- A text spells one decimal only. -/
theorem Spells.determines {text : String} {negative negative' : Bool} {value value' : ℚ}
    (h : Spells text negative value) (h' : Spells text negative' value') :
    negative = negative' ∧ value = value' :=
  ⟨h.sign.symm.trans h'.sign, h.magnitude.symm.trans h'.magnitude⟩

/-! ## Digits with a point -/

theorem toList_toString (n : Nat) : (toString n).toList = Nat.toDigits 10 n := by
  rw [Nat.toString_eq_ofList_toDigits, String.toList_ofList]

theorem isDigits_append {ds es : List Char} (h : ∀ c ∈ ds, c.isDigit = true) (h' : IsDigits es) :
    IsDigits (ds ++ es) where
  digits c hc := (List.mem_append.1 hc).elim (h c) (h'.digits c)
  nonempty := List.append_ne_nil_of_right_ne_nil ds h'.nonempty

/-- The first digits of a number are a whole part. -/
theorem isWhole_take (n : Nat) {k : Nat} (pos : 0 < k) : IsWhole ((Nat.toDigits 10 n).take k) where
  digits c hc := (isDigits_toDigits n).digits c (List.mem_of_mem_take hc)
  nonempty := by
    rw [Ne, List.take_eq_nil_iff]
    exact not_or.2 ⟨Nat.ne_of_gt pos, Nat.toDigits_ne_nil⟩
  first h := by
    rw [List.head?_take, if_neg (Nat.ne_of_gt pos)] at h
    rw [(isWhole_toDigits n).first h, List.take_of_length_le pos]

theorem toList_pointed (digits : Nat) {places : Nat} (pos : 0 < places) :
    ∃ zeros count, (zeros = 0 ∨ count = 1) ∧ 0 < count
      ∧ zeros + (Nat.toDigits 10 digits).length = count + places
      ∧ (pointed digits places).toList
        = (List.replicate zeros '0' ++ Nat.toDigits 10 digits).take count
          ++ '.' :: (List.replicate zeros '0' ++ Nat.toDigits 10 digits).drop count := by
  let zeros := places + 1 - (Nat.toDigits 10 digits).length
  refine ⟨zeros, zeros + (Nat.toDigits 10 digits).length - places, ?_, ?_, ?_, ?_⟩
  · omega
  · omega
  · omega
  · have some : places ≠ 0 := by omega
    simp [pointed, some, Decimal.zeros, ← String.length_toList, zeros,
      String.Slice.toString_eq, String.toList_copy_take, String.toList_copy_drop]

/-- The digits on both sides of the point are those of the number with zeros in front, and as many
as there are places stand behind it. -/
theorem pointed_chars (digits : Nat) {places : Nat} (pos : 0 < places) :
    ∃ whole behind zeros, (pointed digits places).toList = whole ++ '.' :: behind
      ∧ whole ++ behind = List.replicate zeros '0' ++ Nat.toDigits 10 digits
      ∧ behind.length = places ∧ IsWhole whole ∧ IsDigits behind := by
  obtain ⟨zeros, count, padded, some, total, text⟩ := toList_pointed digits pos
  have all : IsDigits (List.replicate zeros '0' ++ Nat.toDigits 10 digits) :=
    isDigits_append (fun c hc => by rw [List.eq_of_mem_replicate hc]; decide)
      (isDigits_toDigits digits)
  have length : ((List.replicate zeros '0' ++ Nat.toDigits 10 digits).drop count).length
      = places := by
    rw [List.length_drop, List.length_append, List.length_replicate]
    omega
  refine ⟨_, _, zeros, text, List.take_append_drop .., length, ?_, ?_, ?_⟩
  · rcases padded with none | one
    · rw [none, List.replicate_zero, List.nil_append]
      exact isWhole_take digits some
    · cases zeros with
      | zero =>
        rw [List.replicate_zero, List.nil_append]
        exact isWhole_take digits some
      | succ zeros =>
        rw [one]
        exact isWhole_toDigits 0
  · exact fun c hc => all.digits c (List.mem_of_mem_drop hc)
  · rw [← List.length_pos_iff, length]
    exact pos

/-! ## The three ways of writing -/

theorem signText_toList (negative : Bool) :
    (signText negative).toList = if negative then ['-'] else [] := by
  cases negative <;> rfl

/-- A decimal with places behind the point. -/
theorem pointed_spells (negative : Bool) {s : Scientific} (below : s.exponent < 0) :
    Spells (signText negative ++ pointed s.digits (-s.exponent).toNat) negative s.value := by
  obtain ⟨whole, behind, zeros, text, digits, length, left, right⟩ :=
    pointed_chars s.digits (show 0 < (-s.exponent).toNat by omega)
  let l : Lexeme := ⟨negative, whole, some behind, none⟩
  have valid : l.Valid := ⟨left, fun ds same => Option.some.inj same ▸ right, nofun⟩
  have decimal : l.decimal = s := by
    show Scientific.mk (Lexeme.valueOf (whole ++ behind)) (0 - behind.length) = s
    rw [digits, Lexeme.valueOf_append, Lexeme.valueOf_zeros, Lexeme.valueOf_toDigits, length,
      Nat.zero_mul, Nat.zero_add, show 0 - ((-s.exponent).toNat : Int) = s.exponent by omega]
  refine Spells.of_chars valid ?_ (congrArg Scientific.value decimal)
  rw [String.toList_append, signText_toList, text]
  show _ = (if negative then ['-'] else []) ++ (whole ++ ('.' :: behind ++ []))
  rw [List.append_nil]

/-- A whole number, with one place. -/
theorem plain_spells (negative : Bool) {s : Scientific} (whole : 0 ≤ s.exponent) :
    Spells (signText negative ++ (plain s ++ ".0")) negative s.value := by
  let all := s.digits * Nat.pow 10 s.exponent.toNat
  let l : Lexeme := ⟨negative, Nat.toDigits 10 all, some ['0'], none⟩
  have valid : l.Valid :=
    ⟨isWhole_toDigits all, fun ds same => Option.some.inj same ▸ isDigits_toDigits 0, nofun⟩
  have value : l.decimal.value = s.value := by
    have digits : Lexeme.valueOf (Nat.toDigits 10 all ++ ['0']) = all * 10 := by
      rw [Lexeme.valueOf_append, Lexeme.valueOf_toDigits]
      rfl
    have power : (10 : ℚ) ^ s.exponent = 10 ^ s.exponent.toNat := by
      rw [← zpow_natCast, Int.toNat_of_nonneg whole]
    show Scientific.value ⟨Lexeme.valueOf (Nat.toDigits 10 all ++ ['0']), 0 - 1⟩ = s.value
    rw [digits, Scientific.value, Scientific.value, power]
    simp [all]
  refine Spells.of_chars valid ?_ value
  rw [plain, if_neg (Int.not_lt.2 whole), String.toList_append, String.toList_append,
    signText_toList, toList_toString]
  rfl

/-- The digits of a decimal, with or without a point among them, and the exponent of the last
digit in front of the point. -/
theorem mantissa_spells (negative : Bool) {s : Scientific} {leading : Int} {mantissa : String}
    (whole : List Char) (places : Option (List Char)) (left : IsWhole whole)
    (right : ∀ ds ∈ places, IsDigits ds)
    (digits : whole ++ places.getD [] = Nat.toDigits 10 s.digits)
    (exponent : leading = s.exponent + (places.getD []).length)
    (text : mantissa.toList = whole ++ Lexeme.placesChars places) :
    Spells (signText negative ++ (mantissa ++ "e" ++ (if leading < 0 then "-" else "+")
      ++ toString leading.natAbs)) negative s.value := by
  let l : Lexeme :=
    ⟨negative, whole, places, some (decide (leading < 0), Nat.toDigits 10 leading.natAbs)⟩
  have valid : l.Valid :=
    ⟨left, right, fun e same => Option.some.inj same ▸ isDigits_toDigits leading.natAbs⟩
  have power : Lexeme.power l.exponent = leading := by
    simp only [l, Lexeme.power, Lexeme.valueOf_toDigits, decide_eq_true_eq]
    split <;> omega
  have decimal : l.decimal = s := by
    rw [Lexeme.decimal, power]
    show Scientific.mk (Lexeme.valueOf (whole ++ places.getD []))
      (leading - (places.getD []).length) = s
    rw [digits, Lexeme.valueOf_toDigits, exponent, Int.add_sub_cancel]
  refine Spells.of_chars valid ?_ (congrArg Scientific.value decimal)
  simp only [String.toList_append, signText_toList, toList_toString, text]
  by_cases down : leading < 0 <;>
    simp [l, Lexeme.chars, Lexeme.unsignedChars, Lexeme.exponentChars, down]

/-- A digit, the others behind the point if there are any, and an exponent. -/
theorem exponential_spells (negative : Bool) (s : Scientific) {leading : Int}
    (h : leading = s.exponent + (toString s.digits).length - 1) :
    Spells (signText negative ++ exponential s leading) negative s.value := by
  have digits : (toString s.digits).toList = Nat.toDigits 10 s.digits := toList_toString _
  have length : (toString s.digits).length = (Nat.toDigits 10 s.digits).length := by
    rw [← String.length_toList, digits]
  rw [length] at h
  unfold exponential
  dsimp only
  split
  · next one =>
    refine mantissa_spells negative (Nat.toDigits 10 s.digits) none (isWhole_toDigits _) nofun
      (List.append_nil _) ?_ ?_
    · rw [h, ← length, one]
      simp
    · rw [digits, Lexeme.placesChars, List.append_nil]
  · next more =>
    have count := List.length_pos_iff.2 (isDigits_toDigits s.digits).nonempty
    have rest : ((Nat.toDigits 10 s.digits).drop 1).length
        = (Nat.toDigits 10 s.digits).length - 1 := List.length_drop
    refine mantissa_spells negative ((Nat.toDigits 10 s.digits).take 1)
      (some ((Nat.toDigits 10 s.digits).drop 1)) (isWhole_take _ Nat.one_pos) ?_
      (List.take_append_drop 1 _) ?_ ?_
    · rintro _ ⟨⟩
      refine ⟨fun c hc => (isDigits_toDigits _).digits c (List.mem_of_mem_drop hc), ?_⟩
      rw [← List.length_pos_iff]
      omega
    · rw [Option.getD_some, rest]
      omega
    · simp [Lexeme.placesChars, String.Slice.toString_eq, String.toList_copy_take,
        String.toList_copy_drop]

/-- What is written spells the decimal. -/
theorem write_spells (style : JsonStyle) (negative : Bool) (s : Scientific) :
    Spells (signText negative ++ style.write s) negative s.value := by
  unfold JsonStyle.write
  dsimp only
  split
  · exact exponential_spells negative s rfl
  split
  · next below => exact pointed_spells negative below
  · next whole => exact plain_spells negative (Int.not_lt.1 whole)

end Decimal

end Microbench
