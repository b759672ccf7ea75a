import Mathlib.Algebra.Order.Field.Basic
import Mathlib.Data.Rat.Cast.Order
import Microbench.Proofs.Json.Scan

/-!
# Numbers from their parts

A lexeme in parts is written as its sign, its whole digits, a point and its places, and an
exponent. If every part has the form it should, the writing is a number and splits into these
parts again.

Results:

* `Lexeme.Valid.isNumber`, `Lexeme.Valid.split`: what is written is a number of these parts.
* `isNumber_nat`: decimal digits are a number.
-/
namespace Microbench.Json

/-! ## Digits -/

theorem scanDigits_digits {ds rest : List Char} (h : ∀ c ∈ ds, c.isDigit = true)
    (stops : ∀ c ∈ rest.head?, c.isDigit = false) : scanDigits (ds ++ rest) = (ds, rest) := by
  have all : scanDigits ds = (ds, []) := by
    rw [scanDigits, List.span_eq_takeWhile_dropWhile, List.takeWhile_eq_self_iff.2 h,
      List.dropWhile_eq_nil_iff.2 h]
  rw [scanDigits_append stops, all, List.nil_append]

/-- Digits, at least one. -/
structure IsDigits (ds : List Char) : Prop where
  digits : ∀ c ∈ ds, c.isDigit = true
  nonempty : ds ≠ []

theorem IsDigits.scan {ds rest : List Char} (h : IsDigits ds)
    (stops : ∀ c ∈ rest.head?, c.isDigit = false) :
    scanDigits (ds ++ rest) = (ds, rest) ∧ ds.isEmpty = false := by
  refine ⟨scanDigits_digits h.digits stops, ?_⟩
  rw [List.isEmpty_eq_false_iff]
  exact h.nonempty

/-- Digits of which the first is a zero only if there is no other. -/
structure IsWhole (ds : List Char) : Prop extends IsDigits ds where
  first : ds.head? = some '0' → ds = ['0']

theorem isDigits_toDigits (n : Nat) : IsDigits (Nat.toDigits 10 n) where
  digits _ := Nat.isDigit_of_mem_toDigits (by decide) (by decide)
  nonempty := Nat.toDigits_ne_nil

theorem digitChar_ne_zero : ∀ d < 10, d ≠ 0 → Nat.digitChar d ≠ '0' := by decide

/-- The first digit is zero only for zero. -/
theorem head?_toDigits {n : Nat} (h : n ≠ 0) : (Nat.toDigits 10 n).head? ≠ some '0' := by
  induction n using Nat.strongRecOn with
  | ind n ih =>
    rw [Nat.toDigits_eq_if (by decide)]
    split
    · next small => simpa using digitChar_ne_zero n small h
    · next large =>
      have before := ih (n / 10) (by omega) (by omega)
      obtain ⟨c, cs, same⟩ :=
        List.exists_cons_of_ne_nil (Nat.toDigits_ne_nil : Nat.toDigits 10 (n / 10) ≠ [])
      rwa [same] at before ⊢

theorem isWhole_toDigits (n : Nat) : IsWhole (Nat.toDigits 10 n) where
  toIsDigits := isDigits_toDigits n
  first h := by
    by_cases zero : n = 0
    · rw [zero, Nat.toDigits_zero]
    · exact absurd h (head?_toDigits zero)

theorem IsWhole.scan {ds rest : List Char} (h : IsWhole ds)
    (stops : ∀ c ∈ rest.head?, c.isDigit = false) : scanWhole (ds ++ rest) = some (ds, rest) := by
  rw [scanWhole.eq_def]
  split
  · next same =>
    cases ds with
    | nil => exact absurd rfl h.nonempty
    | cons c cs =>
      cases same
      cases h.first rfl
      rfl
  · obtain ⟨scanned, nonempty⟩ := h.toIsDigits.scan stops
    rw [scanned]
    exact if_neg (by rw [nonempty]; decide)

/-! ## Lexemes -/

namespace Lexeme

/-- A point and the places behind it. -/
def placesChars : Option (List Char) → List Char
  | none => []
  | some ds => '.' :: ds

/-- The letter of an exponent, its sign and its digits. -/
def exponentChars : Option (Bool × List Char) → List Char
  | none => []
  | some (down, ds) => 'e' :: (if down then '-' else '+') :: ds

def unsignedChars (l : Lexeme) : List Char :=
  l.whole ++ (placesChars l.places ++ exponentChars l.exponent)

def chars (l : Lexeme) : List Char := (if l.negative then ['-'] else []) ++ l.unsignedChars

/-- Every part has the form it should. -/
structure Valid (l : Lexeme) : Prop where
  whole : IsWhole l.whole
  places : ∀ ds ∈ l.places, IsDigits ds
  exponent : ∀ e ∈ l.exponent, IsDigits e.2

theorem exponentChars_head (e : Option (Bool × List Char)) :
    ∀ c ∈ (exponentChars e).head?, c = 'e' := by
  cases e with
  | none => nofun
  | some e =>
    intro c hc
    cases hc
    rfl

theorem exponentChars_stops (e : Option (Bool × List Char)) :
    ∀ c ∈ (exponentChars e).head?, c.isDigit = false := by
  intro c hc
  rw [exponentChars_head e c hc]
  decide

theorem splitExponent_chars (e : Option (Bool × List Char)) :
    splitExponent (exponentChars e) = e := by
  cases e with
  | none => rfl
  | some e =>
    obtain ⟨down, ds⟩ := e
    cases down <;> rfl

theorem placesChars_stops (l : Lexeme) :
    ∀ c ∈ (placesChars l.places ++ exponentChars l.exponent).head?, c.isDigit = false := by
  cases l.places with
  | none => exact exponentChars_stops l.exponent
  | some ds =>
    intro c hc
    cases hc
    decide

namespace Valid

variable {l : Lexeme} (h : l.Valid)

include h

theorem scanPlaces : Json.scanPlaces (placesChars l.places ++ exponentChars l.exponent)
    = some (placesChars l.places, exponentChars l.exponent) := by
  have digits := h.places
  cases same : l.places with
  | none =>
    rw [placesChars, List.nil_append, scanPlaces.eq_def]
    split
    · next point =>
      have first := exponentChars_head l.exponent '.' (by rw [point]; rfl)
      exact absurd first (by decide)
    · rfl
  | some ds =>
    obtain ⟨scanned, nonempty⟩ := (digits ds same).scan (exponentChars_stops l.exponent)
    show Json.scanPlaces ('.' :: (ds ++ exponentChars l.exponent)) = _
    rw [Json.scanPlaces, scanned]
    exact if_neg (by rw [nonempty]; decide)

theorem scanExponent :
    Json.scanExponent (exponentChars l.exponent) = some (exponentChars l.exponent, []) := by
  have digits := h.exponent
  cases same : l.exponent with
  | none => rfl
  | some e =>
    obtain ⟨down, ds⟩ := e
    have stops : ∀ c ∈ ([] : List Char).head?, c.isDigit = false := nofun
    obtain ⟨scanned, nonempty⟩ := (digits (down, ds) same).scan stops
    rw [List.append_nil] at scanned
    rw [exponentChars, scanExponent_cons (by decide)]
    cases down <;> simp [signed, scanned, nonempty]

theorem scanUnsigned : Json.scanUnsigned l.unsignedChars = some (l.unsignedChars, []) := by
  simp [Json.scanUnsigned, unsignedChars, h.whole.scan l.placesChars_stops, h.scanPlaces,
    h.scanExponent]

theorem first : ∃ c rest, l.unsignedChars = c :: rest ∧ c ≠ '-' := by
  obtain ⟨c, cs, same⟩ := List.exists_cons_of_ne_nil h.whole.nonempty
  refine ⟨c, cs ++ _, by rw [unsignedChars, same, List.cons_append], ?_⟩
  rintro rfl
  exact absurd (h.whole.digits '-' (by rw [same]; exact List.mem_cons_self)) (by decide)

/-- What is written is a number. -/
theorem isNumber : IsNumber (String.ofList l.chars) := by
  have scanned := h.scanUnsigned
  obtain ⟨c, rest, same, other⟩ := h.first
  rw [IsNumber, String.toList_ofList, chars]
  split
  · show (Json.scanUnsigned l.unsignedChars).map _ = _
    rw [scanned]
    rfl
  · rw [List.nil_append]
    rw [same] at scanned ⊢
    rw [scanNumber.eq_def]
    split
    · next minus => exact absurd (List.cons.inj minus).1 other
    · exact scanned

theorem splitUnsigned (negative : Bool) :
    Lexeme.splitUnsigned negative l.unsignedChars = { l with negative } := by
  have scanned := (h.whole.toIsDigits.scan l.placesChars_stops).1
  obtain ⟨minus, digits, places, exponent⟩ := l
  rw [Lexeme.splitUnsigned, unsignedChars, scanned]
  cases places with
  | none =>
    cases exponent with
    | none => rfl
    | some e =>
      have parts := splitExponent_chars (some e)
      rw [exponentChars] at parts
      simp [placesChars, exponentChars, parts]
  | some ds =>
    have scanned := ((h.places ds rfl).scan (exponentChars_stops exponent)).1
    simp [placesChars, scanned, splitExponent_chars]

/-- What is written splits into its parts again. -/
theorem split : Lexeme.split (String.ofList l.chars) = l := by
  obtain ⟨c, rest, same, other⟩ := h.first
  have parts : Lexeme.splitUnsigned l.negative l.unsignedChars = l := h.splitUnsigned l.negative
  rw [Lexeme.split, String.toList_ofList, chars]
  split
  · next minus =>
    split at minus
    · next negative =>
      cases minus
      rwa [negative] at parts
    · rw [List.nil_append, same] at minus
      exact absurd (List.cons.inj minus).1 other
  · next minus =>
    split at minus
    · exact (minus _ rfl).elim
    · next negative =>
      rw [Bool.not_eq_true] at negative
      rw [if_neg (by simp [negative]), List.nil_append]
      rwa [negative] at parts

end Valid

end Lexeme

/-- Decimal digits are a number. -/
theorem isNumber_nat (n : Nat) : IsNumber (toString n) := by
  have valid : Lexeme.Valid ⟨false, Nat.toDigits 10 n, none, none⟩ :=
    ⟨isWhole_toDigits n, nofun, nofun⟩
  simpa [Lexeme.chars, Lexeme.unsignedChars, Lexeme.placesChars, Lexeme.exponentChars,
    ← Nat.toString_eq_ofList_toDigits] using valid.isNumber

end Microbench.Json
