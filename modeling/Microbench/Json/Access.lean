import Microbench.Json.Number

/-!
# Reading values from a document

Each reader refuses what is not a value of its type. A record may be an object, whose unknown
members are skipped, or the list of its fields in order. A choice is a name, or an object that
maps the name to null.

Results:

* `unescape_cons`: a character that starts no escape stands for itself.
-/
namespace Microbench.Json

/-! ## Text -/

def hexValue (c : Char) : Nat :=
  if c.isDigit then c.toNat - '0'.toNat
  else if 'a' ≤ c then c.toNat - 'a'.toNat + 10
  else c.toNat - 'A'.toNat + 10

def hexValue4 (a b c d : Char) : Nat :=
  ((hexValue a * 16 + hexValue b) * 16 + hexValue c) * 16 + hexValue d

def isHighSurrogate (n : Nat) : Bool := 0xd800 ≤ n && n < 0xdc00

def isLowSurrogate (n : Nat) : Bool := 0xdc00 ≤ n && n < 0xe000

/-- The characters that the inside of a string spells. Surrogates have to come in pairs. -/
def unescape : List Char → Option (List Char)
  | [] => some []
  | '\\' :: 'u' :: a :: b :: c :: d :: rest =>
    let n := hexValue4 a b c d
    if isLowSurrogate n then none
    else if isHighSurrogate n then
      match rest with
      | '\\' :: 'u' :: a :: b :: c :: d :: rest =>
        let low := hexValue4 a b c d
        if isLowSurrogate low then
          (unescape rest).map (Char.ofNat (0x10000 + (n - 0xd800) * 0x400 + (low - 0xdc00)) :: ·)
        else none
      | _ => none
    else (unescape rest).map (Char.ofNat n :: ·)
  | '\\' :: e :: rest =>
    let c :=
      match e with
      | 'b' => '\x08'
      | 'f' => '\x0c'
      | 'n' => '\n'
      | 'r' => '\r'
      | 't' => '\t'
      | e => e
    (unescape rest).map (c :: ·)
  | c :: rest => (unescape rest).map (c :: ·)

def spelled? (quoted : String) : Option String := (unescape quoted.toList).map String.ofList

theorem unescape_cons {c : Char} (h : c ≠ '\\') (rest : List Char) :
    unescape (c :: rest) = (unescape rest).map (c :: ·) := by
  rw [unescape.eq_def]
  split <;> simp_all

def text? : Json → Option String
  | .string quoted => spelled? quoted
  | _ => none

/-! ## Numbers -/

def word? : Json → Option Nat
  | .number lexeme => (Lexeme.split lexeme).word?
  | _ => none

def double? : Json → Option Float
  | .number lexeme => (Lexeme.split lexeme).double?
  | _ => none

def single? : Json → Option Float32
  | .number lexeme => (Lexeme.split lexeme).single?
  | _ => none

/-! ## Lists, choices and records -/

def list? (item : Json → Option α) : Json → Option (List α)
  | .array items => items.mapM item
  | _ => none

/-- One of several values by name. -/
def choice? (options : List α) (name : α → String) (j : Json) : Option α :=
  match j with
  | .string quoted => named quoted
  | .object [(quoted, .null)] => named quoted
  | _ => none
where
  named (quoted : String) : Option α := do
    let s ← spelled? quoted
    options.find? (name · == s)

/-- The members of an object with their keys as text. -/
def spelledMembers? (members : List (String × Json)) : Option (List (String × Json)) :=
  members.mapM fun (key, value) => (spelled? key).map (·, value)

/-- The fields of a record, in the order of their names; a field that is not there is `none`. A
name may not be repeated. -/
def fields? (names : List String) : Json → Option (List (Option Json))
  | .array items =>
    if items.length ≤ names.length then
      some (items.map some ++ List.replicate (names.length - items.length) none)
    else none
  | .object members => do
    let members ← spelledMembers? members
    names.mapM fun name =>
      match members.filter (·.1 == name) with
      | [] => some none
      | [(_, value)] => some (some value)
      | _ => none
  | _ => none

/-- The fields of a record, all of them present. -/
def record? (names : List String) (j : Json) : Option (List Json) := do
  (← fields? names j).mapM id

/-! ## Documents held back

A value whose type is told by one of its own members is held back until the type is known. All
its leaves have to be readable, and it may not be nested too deep. -/

mutual

/-- Levels of containers. -/
def depth : Json → Nat
  | .array items => depthItems items + 1
  | .object members => depthMembers members + 1
  | _ => 0

def depthItems : List Json → Nat
  | [] => 0
  | item :: items => max (depth item) (depthItems items)

def depthMembers : List (String × Json) → Nat
  | [] => 0
  | (_, value) :: members => max (depth value) (depthMembers members)

end

mutual

/-- Every string spells a text and every number is in range. -/
def readable : Json → Bool
  | .number lexeme => (Lexeme.split lexeme).double?.isSome
  | .string quoted => (spelled? quoted).isSome
  | .array items => readableItems items
  | .object members => readableMembers members
  | _ => true

def readableItems : List Json → Bool
  | [] => true
  | item :: items => readable item && readableItems items

def readableMembers : List (String × Json) → Bool
  | [] => true
  | (key, value) :: members =>
    (spelled? key).isSome && readable value && readableMembers members

end

/-- The deepest nesting that is held back. -/
def maxDepth : Nat := 127

/-- A record whose type is named by the member `tag`, or by the first item of a list: the name,
and the record without it. `outer` counts the containers around it. -/
def tagged? (tag : String) (outer : Nat) (j : Json) : Option (String × Json) :=
  if readable j && depth j + outer ≤ maxDepth then
    match j with
    | .array (first :: rest) => (text? first).map (·, .array rest)
    | .object members => do
      let members ← spelledMembers? members
      match members.filter (·.1 == tag) with
      | [(_, name)] =>
        (text? name).map (·, .object ((members.filter (·.1 != tag)).map fun (key, value) =>
          (String.ofList (escape key.toList), value)))
      | _ => none
    | _ => none
  else none

end Microbench.Json
