import Mathlib.Data.List.TakeWhile
import Mathlib.Data.List.TakeDrop
import Microbench.Json.Access

/-!
# Strings and numbers in a text

A scan takes from a text what it would take if the text ended there, as long as what follows could
not go on with it. A string ends at its quote, so anything may follow; a number ends where neither
a digit, a point nor the letter of an exponent follows.

Results:

* `scanString_append`, `scanNumber_append`: scans of a text that goes on.
* `isString_escape`, `unescape_escape`: an escaped text is a string that spells the text.
* `IsNumber.first`: how a number starts.
-/
namespace Microbench.Json

/-! ## Strings -/

/-- What may stand between quotes. -/
def IsString (quoted : String) : Prop :=
  scanString (quoted.toList ++ ['"']) = some (quoted.toList, [])

theorem scanString_plain {c : Char} (quote : c ≠ '"') (backslash : c ≠ '\\')
    (shown : ¬ c.toNat < 0x20) (rest : List Char) :
    scanString (c :: rest) = (scanString rest).map fun (s, after) => (c :: s, after) := by
  rw [scanString.eq_def]
  split
  · next h => cases h
  · next h => cases h; exact absurd rfl quote
  · next h => cases h; exact absurd rfl backslash
  · next h => cases h; exact absurd rfl backslash
  · next h =>
    cases h
    rw [if_neg]
    simp [backslash, shown]

theorem scanString_short {e : Char} (h : "\"\\/bfnrt".toList.contains e = true)
    (rest : List Char) :
    scanString ('\\' :: e :: rest)
      = (scanString rest).map fun (s, after) => ('\\' :: e :: s, after) := by
  have notUnicode : e ≠ 'u' := by
    rintro rfl
    exact absurd h (by decide)
  rw [scanString.eq_def]
  split
  · next same => cases same
  · next same => cases same
  · next same => cases same; exact absurd rfl notUnicode
  · next same => cases same; exact if_pos h
  · next other same => cases same; exact (other _ _ rfl rfl).elim

theorem scanString_unicode {a b c d : Char}
    (h : (isHexDigit a && isHexDigit b && isHexDigit c && isHexDigit d) = true)
    (rest : List Char) :
    scanString ('\\' :: 'u' :: a :: b :: c :: d :: rest)
      = (scanString rest).map fun (s, after) => ('\\' :: 'u' :: a :: b :: c :: d :: s, after) := by
  rw [scanString.eq_def]
  exact if_pos h

theorem scanString_append {cs s after : List Char} (h : scanString cs = some (s, after))
    (rest : List Char) : scanString (cs ++ rest) = some (s, after ++ rest) := by
  fun_induction scanString cs generalizing s after with
  | case1 => cases h
  | case2 =>
    cases h
    rfl
  | case3 a b c d cs digits ih =>
    obtain ⟨⟨s, after⟩, scanned, same⟩ := Option.map_eq_some_iff.1 h
    cases same
    exact (scanString_unicode digits (cs ++ rest)).trans (by rw [ih scanned]; rfl)
  | case4 => cases h
  | case5 e cs _ letter ih =>
    obtain ⟨⟨s, after⟩, scanned, same⟩ := Option.map_eq_some_iff.1 h
    cases same
    exact (scanString_short letter (cs ++ rest)).trans (by rw [ih scanned]; rfl)
  | case6 => cases h
  | case7 => cases h
  | case8 c cs quote _ _ plain ih =>
    obtain ⟨⟨s, after⟩, scanned, same⟩ := Option.map_eq_some_iff.1 h
    cases same
    rw [Bool.or_eq_true, not_or, beq_iff_eq, decide_eq_true_eq] at plain
    exact (scanString_plain quote plain.1 plain.2 (cs ++ rest)).trans (by rw [ih scanned]; rfl)

theorem IsString.scan {quoted : String} (h : IsString quoted) (rest : List Char) :
    scanString (quoted.toList ++ '"' :: rest) = some (quoted.toList, rest) := by
  have scanned := scanString_append h rest
  rwa [List.append_assoc, List.singleton_append, List.nil_append] at scanned

/-! ### Escapes -/

/-- The escape of a control character. -/
theorem hex4_eq :
    ∀ n < 32, hex4 n = ['0', '0', Nat.digitChar (n / 16), Nat.digitChar (n % 16)] := by
  decide

theorem isHexDigit_digitChar : ∀ d < 16, isHexDigit (Nat.digitChar d) = true := by decide

theorem hexValue4_eq :
    ∀ n < 32, hexValue4 '0' '0' (Nat.digitChar (n / 16)) (Nat.digitChar (n % 16)) = n := by decide

/-- The three forms of an escaped character. -/
theorem escapeChar_cases (c : Char) :
    (∃ e, escapeChar c = ['\\', e] ∧ "\"\\/bfnrt".toList.contains e = true ∧
      ∀ rest, unescape ('\\' :: e :: rest) = (unescape rest).map (c :: ·)) ∨
    (c.toNat < 0x20 ∧ escapeChar c = '\\' :: 'u' :: hex4 c.toNat) ∨
    (c ≠ '"' ∧ c ≠ '\\' ∧ ¬ c.toNat < 0x20 ∧ escapeChar c = [c]) := by
  unfold escapeChar
  split
  · next h => subst h; exact .inl ⟨'"', rfl, by decide, fun _ => rfl⟩
  split
  · next h => subst h; exact .inl ⟨'\\', rfl, by decide, fun _ => rfl⟩
  split
  · next h => subst h; exact .inl ⟨'b', rfl, by decide, fun _ => rfl⟩
  split
  · next h => subst h; exact .inl ⟨'f', rfl, by decide, fun _ => rfl⟩
  split
  · next h => subst h; exact .inl ⟨'n', rfl, by decide, fun _ => rfl⟩
  split
  · next h => subst h; exact .inl ⟨'r', rfl, by decide, fun _ => rfl⟩
  split
  · next h => subst h; exact .inl ⟨'t', rfl, by decide, fun _ => rfl⟩
  split
  · next h => exact .inr (.inl ⟨h, rfl⟩)
  · next quote backslash _ _ _ _ _ shown => exact .inr (.inr ⟨quote, backslash, shown, rfl⟩)

theorem scanString_escapeChar (c : Char) (rest : List Char) :
    scanString (escapeChar c ++ rest)
      = (scanString rest).map fun (s, after) => (escapeChar c ++ s, after) := by
  rcases escapeChar_cases c with
    ⟨e, form, letter, -⟩ | ⟨control, form⟩ | ⟨quote, backslash, shown, form⟩
  · rw [form]
    exact scanString_short letter rest
  · have first := isHexDigit_digitChar (c.toNat / 16) (by omega)
    have second := isHexDigit_digitChar (c.toNat % 16) (by omega)
    rw [form, hex4_eq _ control]
    exact scanString_unicode (by simp only [first, second]; rfl) rest
  · rw [form]
    exact scanString_plain quote backslash shown rest

theorem unescape_escapeChar (c : Char) (rest : List Char) :
    unescape (escapeChar c ++ rest) = (unescape rest).map (c :: ·) := by
  rcases escapeChar_cases c with ⟨e, form, -, spells⟩ | ⟨control, form⟩ | ⟨-, backslash, -, form⟩
  · rw [form]
    exact spells rest
  · have value := hexValue4_eq _ control
    have low : isLowSurrogate c.toNat = false := by
      rw [isLowSurrogate, Bool.and_eq_false_iff]
      exact .inl (decide_eq_false (by omega))
    have high : isHighSurrogate c.toNat = false := by
      rw [isHighSurrogate, Bool.and_eq_false_iff]
      exact .inl (decide_eq_false (by omega))
    rw [form, hex4_eq _ control]
    show unescape ('\\' :: 'u' :: '0' :: '0' :: _ :: _ :: rest) = _
    rw [unescape.eq_def]
    simp only [value, low, high, Bool.false_eq_true, if_false, Char.ofNat_toNat]
  · rw [form]
    exact unescape_cons backslash rest

theorem scanString_escape (s rest : List Char) :
    scanString (escape s ++ '"' :: rest) = some (escape s, rest) := by
  induction s with
  | nil => rfl
  | cons c s ih =>
    rw [escape, List.flatMap_cons, List.append_assoc, scanString_escapeChar]
    show (scanString (escape s ++ '"' :: rest)).map _ = _
    rw [ih]
    rfl

/-- An escaped text may stand between quotes. -/
theorem isString_escape (s : List Char) : IsString (String.ofList (escape s)) := by
  rw [IsString, String.toList_ofList]
  exact scanString_escape s []

/-- An escaped text spells the text. -/
theorem unescape_escape (s : List Char) : unescape (escape s) = some s := by
  induction s with
  | nil => rfl
  | cons c s ih =>
    rw [escape, List.flatMap_cons, unescape_escapeChar]
    show (unescape (escape s)).map _ = _
    rw [ih]
    rfl

theorem text_injective {s t : String} (h : text s = text t) : s = t := by
  have escaped : escape s.toList = escape t.toList := String.ofList_injective (Json.string.inj h)
  have spelled := (unescape_escape s.toList).symm.trans (escaped ▸ unescape_escape t.toList)
  exact String.toList_inj.1 (Option.some.inj spelled)

/-! ## Numbers -/

/-- A number from the first character to the last. -/
def IsNumber (lexeme : String) : Prop := scanNumber lexeme.toList = some (lexeme.toList, [])

/-- No number goes on with this. -/
def Stops (rest : List Char) : Prop :=
  ∀ c ∈ rest.head?, c.isDigit = false ∧ c ≠ '.' ∧ c ≠ 'e' ∧ c ≠ 'E'

theorem stops_nil : Stops [] := nofun

theorem stops_cons {c : Char} (h : c.isDigit = false ∧ c ≠ '.' ∧ c ≠ 'e' ∧ c ≠ 'E')
    (rest : List Char) : Stops (c :: rest) := by
  intro d hd
  cases hd
  exact h

theorem Stops.digit {rest : List Char} (h : Stops rest) :
    ∀ c ∈ rest.head?, c.isDigit = false := fun c hc => (h c hc).1

theorem scanDigits_append {rest : List Char} (h : ∀ c ∈ rest.head?, c.isDigit = false)
    (cs : List Char) :
    scanDigits (cs ++ rest) = ((scanDigits cs).1, (scanDigits cs).2 ++ rest) := by
  simp only [scanDigits, List.span_eq_takeWhile_dropWhile]
  induction cs with
  | nil =>
    cases rest with
    | nil => rfl
    | cons c rest =>
      have other : c.isDigit = false := h c rfl
      simp [other]
  | cons c cs ih => by_cases digit : c.isDigit = true <;> simp_all

section Scan

variable {rest : List Char} (stops : Stops rest)

include stops

theorem scanWhole_append {cs s after : List Char} (h : scanWhole cs = some (s, after)) :
    scanWhole (cs ++ rest) = some (s, after ++ rest) := by
  unfold scanWhole at h
  split at h
  · cases h
    rfl
  · next zero =>
    split at h
    · cases h
    · next digits =>
      cases cs with
      | nil => exact absurd rfl digits
      | cons c cs =>
        have first : c ≠ '0' := by
          rintro rfl
          exact zero cs rfl
        have scanned := scanDigits_append stops.digit (c :: cs)
        rw [List.cons_append] at scanned ⊢
        rw [scanWhole.eq_def]
        split
        · next same => cases same; exact absurd rfl first
        · rw [scanned, if_neg digits]
          rw [Option.some.injEq] at h
          rw [h]

theorem scanPlaces_append {cs s after : List Char} (h : scanPlaces cs = some (s, after)) :
    scanPlaces (cs ++ rest) = some (s, after ++ rest) := by
  unfold scanPlaces at h
  split at h
  · next cs =>
    split at h
    · cases h
    · next digits =>
      cases h
      show scanPlaces ('.' :: (cs ++ rest)) = _
      rw [scanPlaces, scanDigits_append stops.digit, if_neg digits]
  · next point =>
    cases h
    rw [scanPlaces.eq_def]
    split
    · next after same =>
      cases cs with
      | nil =>
        obtain rfl : rest = '.' :: after := same
        exact absurd rfl (stops '.' rfl).2.1
      | cons c cs =>
        cases same
        exact (point cs rfl).elim
    · rfl

/-- The sign of an exponent and what follows it. -/
def signed : List Char → List Char × List Char
  | '+' :: rest => (['+'], rest)
  | '-' :: rest => (['-'], rest)
  | rest => ([], rest)

omit stops in
theorem scanExponent_cons {c : Char} (h : (c == 'e' || c == 'E') = true) (cs : List Char) :
    scanExponent (c :: cs) =
      let (digits, after) := scanDigits (signed cs).2
      if digits.isEmpty then none else some (c :: (signed cs).1 ++ digits, after) := by
  rw [scanExponent.eq_def]
  simp only [h, if_true]
  split
  · rfl
  · rfl
  · next plus minus =>
    rw [signed.eq_3 cs plus minus]

omit stops in
theorem scanExponent_none {c : Char} (h : ¬(c == 'e' || c == 'E') = true) (cs : List Char) :
    scanExponent (c :: cs) = some ([], c :: cs) := by
  rw [scanExponent.eq_def]
  exact if_neg h

omit stops in
theorem signed_append {cs : List Char} (h : (scanDigits (signed cs).2).1 ≠ []) :
    signed (cs ++ rest) = ((signed cs).1, (signed cs).2 ++ rest) := by
  cases cs with
  | nil => exact absurd rfl h
  | cons c cs =>
    rw [List.cons_append]
    unfold signed
    split
    · next same => cases same; rfl
    · next same => cases same; rfl
    · next plus minus =>
      split
      · next same => cases same; exact (plus _ rfl).elim
      · next same => cases same; exact (minus _ rfl).elim
      · rfl

theorem scanExponent_append {cs s after : List Char} (h : scanExponent cs = some (s, after)) :
    scanExponent (cs ++ rest) = some (s, after ++ rest) := by
  cases cs with
  | nil =>
    cases h
    cases rest with
    | nil => rfl
    | cons c rest =>
      obtain ⟨-, -, e, E⟩ := stops c rfl
      exact scanExponent_none (by simp [e, E]) rest
  | cons c cs =>
    by_cases letter : (c == 'e' || c == 'E') = true
    · rw [scanExponent_cons letter] at h
      dsimp only at h
      split at h
      · cases h
      · next digits =>
        have goes : signed (cs ++ rest) = ((signed cs).1, (signed cs).2 ++ rest) :=
          signed_append (by simpa using digits)
        cases h
        rw [List.cons_append, scanExponent_cons letter, goes, scanDigits_append stops.digit]
        exact if_neg digits
    · rw [scanExponent_none letter] at h
      cases h
      exact scanExponent_none letter (cs ++ rest)

theorem scanUnsigned_append {cs s after : List Char} (h : scanUnsigned cs = some (s, after)) :
    scanUnsigned (cs ++ rest) = some (s, after ++ rest) := by
  obtain ⟨⟨whole, cs₁⟩, first, h⟩ := Option.bind_eq_some_iff.1 h
  obtain ⟨⟨places, cs₂⟩, second, h⟩ := Option.bind_eq_some_iff.1 h
  obtain ⟨⟨exponent, cs₃⟩, third, h⟩ := Option.bind_eq_some_iff.1 h
  cases h
  simp [scanUnsigned, scanWhole_append stops first, scanPlaces_append stops second,
    scanExponent_append stops third]

theorem scanNumber_append {cs s after : List Char} (h : scanNumber cs = some (s, after)) :
    scanNumber (cs ++ rest) = some (s, after ++ rest) := by
  unfold scanNumber at h
  split at h
  · next cs =>
    obtain ⟨⟨s, after⟩, scanned, same⟩ := Option.map_eq_some_iff.1 h
    cases same
    show (scanUnsigned (cs ++ rest)).map _ = _
    rw [scanUnsigned_append stops scanned]
    rfl
  · next minus =>
    have scanned := scanUnsigned_append stops h
    rw [scanNumber.eq_def]
    split
    · next same =>
      -- What starts with a sign is no number without one.
      rw [same] at scanned
      cases scanned
    · exact scanned

theorem IsNumber.scan {lexeme : String} (h : IsNumber lexeme) :
    scanNumber (lexeme.toList ++ rest) = some (lexeme.toList, rest) := by
  have scanned := scanNumber_append stops h
  rwa [List.nil_append] at scanned

end Scan

theorem scanWhole_first {cs s after : List Char} (h : scanWhole cs = some (s, after)) :
    ∃ c rest, cs = c :: rest ∧ c.isDigit = true := by
  unfold scanWhole at h
  split at h
  · exact ⟨_, _, rfl, rfl⟩
  · split at h
    · cases h
    · next digits =>
      cases cs with
      | nil => exact absurd rfl digits
      | cons c cs =>
        refine ⟨c, cs, rfl, ?_⟩
        by_contra other
        exact digits (by simp [scanDigits, List.span_eq_takeWhile_dropWhile, other])

/-- The first character of a number. -/
theorem IsNumber.first {lexeme : String} (h : IsNumber lexeme) :
    ∃ c rest, lexeme.toList = c :: rest ∧ (c = '-' ∨ c.isDigit = true) := by
  unfold IsNumber scanNumber at h
  split at h
  · next cs same => exact ⟨_, cs, same, .inl rfl⟩
  · obtain ⟨_, whole, -⟩ := Option.bind_eq_some_iff.1 h
    obtain ⟨c, rest, same, digit⟩ := scanWhole_first whole
    exact ⟨c, rest, same, .inr digit⟩

end Microbench.Json
