import Microbench.Decimal.Text

/-!
# JSON documents

A document keeps its leaves as they are written: a number is its lexeme and a string is the
characters between its quotes, escapes included. Writing a document is then putting its parts
together, and reading one loses nothing.
-/
namespace Microbench

inductive Json where
  | null
  | bool (value : Bool)
  /-- A number as written. -/
  | number (lexeme : String)
  /-- What is written between the quotes. -/
  | string (quoted : String)
  | array (items : List Json)
  | object (members : List (String × Json))

namespace Json

/-! ## Escapes -/

/-- Four hexadecimal digits. -/
def hex4 (n : Nat) : List Char :=
  let digits := Nat.toDigits 16 n
  List.replicate (4 - digits.length) '0' ++ digits

def escapeChar (c : Char) : List Char :=
  if c = '"' then ['\\', '"']
  else if c = '\\' then ['\\', '\\']
  else if c = '\x08' then ['\\', 'b']
  else if c = '\x0c' then ['\\', 'f']
  else if c = '\n' then ['\\', 'n']
  else if c = '\r' then ['\\', 'r']
  else if c = '\t' then ['\\', 't']
  else if c.toNat < 0x20 then '\\' :: 'u' :: hex4 c.toNat
  else [c]

def escape (s : List Char) : List Char := s.flatMap escapeChar

/-- A string leaf for a text. -/
def text (s : String) : Json := .string (String.ofList (escape s.toList))

def nat (n : Nat) : Json := .number (toString n)

def word (n : UInt64) : Json := nat n.toNat

/-- A number with the fewest digits that read back; what is not finite has no number. -/
def double (x : Float) : Json :=
  match Decimal.jsonNumber? Binary.double Decimal.doubleStyle (Binary.ofFloat x) with
  | some lexeme => .number lexeme
  | none => .null

def single (x : Float32) : Json :=
  match Decimal.jsonNumber? Binary.single Decimal.singleStyle (Binary.ofFloat32 x) with
  | some lexeme => .number lexeme
  | none => .null

/-! ## Writing -/

def quoted (s : String) : String := "\"" ++ s ++ "\""

mutual

/-- Without blanks. -/
def compact : Json → String
  | .null => "null"
  | .bool b => toString b
  | .number lexeme => lexeme
  | .string s => quoted s
  | .array items => "[" ++ String.intercalate "," (compactItems items) ++ "]"
  | .object members => "\x7b" ++ String.intercalate "," (compactMembers members) ++ "\x7d"

def compactItems : List Json → List String
  | [] => []
  | item :: items => compact item :: compactItems items

def compactMembers : List (String × Json) → List String
  | [] => []
  | (key, value) :: members => (quoted key ++ ":" ++ compact value) :: compactMembers members

end

/-- A line break and two blanks per level. -/
def newline (level : Nat) : String := "\n" ++ String.ofList (List.replicate (2 * level) ' ')

/-- Parts on lines of their own between two brackets, or the bare brackets. -/
def block (opening closing : String) (level : Nat) (parts : List String) : String :=
  if parts.isEmpty then opening ++ closing
  else
    opening ++ String.intercalate "," (parts.map (newline (level + 1) ++ ·)) ++ newline level
      ++ closing

mutual

/-- One item per line, two blanks per level. -/
def prettyAt (level : Nat) : Json → String
  | .null => "null"
  | .bool b => toString b
  | .number lexeme => lexeme
  | .string s => quoted s
  | .array items => block "[" "]" level (prettyItems (level + 1) items)
  | .object members => block "\x7b" "\x7d" level (prettyMembers (level + 1) members)

def prettyItems (level : Nat) : List Json → List String
  | [] => []
  | item :: items => prettyAt level item :: prettyItems level items

def prettyMembers (level : Nat) : List (String × Json) → List String
  | [] => []
  | (key, value) :: members =>
    (quoted key ++ ": " ++ prettyAt level value) :: prettyMembers level members

end

def pretty (j : Json) : String := prettyAt 0 j

end Json

end Microbench
