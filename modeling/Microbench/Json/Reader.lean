import Microbench.Json

/-!
# Reading JSON documents

Text is cut into tokens, and a machine with a stack of open containers turns the tokens into a
document. Strings are checked for the form of their escapes only; what they spell is decided
when they are read as text.
-/
namespace Microbench.Json

inductive Token where
  | openArray
  | closeArray
  | openObject
  | closeObject
  | comma
  | colon
  | leaf (value : Json)

/-! ## Tokens -/

def isBlank (c : Char) : Bool := c == ' ' || c == '\n' || c == '\r' || c == '\t'

def isHexDigit (c : Char) : Bool :=
  c.isDigit || ('a' ≤ c && c ≤ 'f') || ('A' ≤ c && c ≤ 'F')

/-- The characters up to the closing quote, and what follows it. Controls may not stand in a
string, and an escape has one of the nine forms. -/
def scanString : List Char → Option (List Char × List Char)
  | [] => none
  | '"' :: rest => some ([], rest)
  | '\\' :: 'u' :: a :: b :: c :: d :: rest =>
    if isHexDigit a && isHexDigit b && isHexDigit c && isHexDigit d then
      (scanString rest).map fun (s, rest) => ('\\' :: 'u' :: a :: b :: c :: d :: s, rest)
    else none
  | '\\' :: e :: rest =>
    if "\"\\/bfnrt".toList.contains e then
      (scanString rest).map fun (s, rest) => ('\\' :: e :: s, rest)
    else none
  | c :: rest =>
    if c == '\\' || c.toNat < 0x20 then none
    else (scanString rest).map fun (s, rest) => (c :: s, rest)

/-- Digits in front of the rest. -/
def scanDigits (cs : List Char) : List Char × List Char := cs.span Char.isDigit

/-- A whole part: a zero alone, or digits that do not start with zero. -/
def scanWhole : List Char → Option (List Char × List Char)
  | '0' :: rest => some (['0'], rest)
  | cs => if (scanDigits cs).1.isEmpty then none else some (scanDigits cs)

/-- A point and at least one digit, if there is a point. -/
def scanPlaces : List Char → Option (List Char × List Char)
  | '.' :: rest =>
    if (scanDigits rest).1.isEmpty then none
    else some ('.' :: (scanDigits rest).1, (scanDigits rest).2)
  | cs => some ([], cs)

/-- The letter of an exponent, a sign that may be absent, and at least one digit. -/
def scanExponent : List Char → Option (List Char × List Char)
  | c :: rest =>
    if c == 'e' || c == 'E' then
      let (sign, rest) :=
        match rest with
        | '+' :: rest => (['+'], rest)
        | '-' :: rest => (['-'], rest)
        | _ => ([], rest)
      if (scanDigits rest).1.isEmpty then none
      else some (c :: sign ++ (scanDigits rest).1, (scanDigits rest).2)
    else some ([], c :: rest)
  | [] => some ([], [])

/-- A number without its sign. -/
def scanUnsigned (cs : List Char) : Option (List Char × List Char) := do
  let (whole, cs) ← scanWhole cs
  let (places, cs) ← scanPlaces cs
  let (exponent, cs) ← scanExponent cs
  return (whole ++ places ++ exponent, cs)

def scanNumber : List Char → Option (List Char × List Char)
  | '-' :: rest => (scanUnsigned rest).map fun (s, rest) => ('-' :: s, rest)
  | cs => scanUnsigned cs

/-- The first token of a text that does not start with a blank, and the rest of the text. -/
def scanToken (cs : List Char) : Option (Token × List Char) :=
  match cs with
  | '[' :: rest => some (.openArray, rest)
  | ']' :: rest => some (.closeArray, rest)
  | '\x7b' :: rest => some (.openObject, rest)
  | '\x7d' :: rest => some (.closeObject, rest)
  | ',' :: rest => some (.comma, rest)
  | ':' :: rest => some (.colon, rest)
  | '"' :: rest =>
    (scanString rest).map fun (s, rest) => (.leaf (.string (String.ofList s)), rest)
  | 'n' :: 'u' :: 'l' :: 'l' :: rest => some (.leaf .null, rest)
  | 't' :: 'r' :: 'u' :: 'e' :: rest => some (.leaf (.bool true), rest)
  | 'f' :: 'a' :: 'l' :: 's' :: 'e' :: rest => some (.leaf (.bool false), rest)
  | _ => (scanNumber cs).map fun (s, rest) => (.leaf (.number (String.ofList s)), rest)

/-- All tokens of a text. Every token takes at least one character, so the rest is shorter than
the text; a scan that took none would end the reading. -/
def tokens? (cs : List Char) : Option (List Token) :=
  match cs with
  | [] => some []
  | c :: rest =>
    if isBlank c then tokens? rest
    else
      match scanToken (c :: rest) with
      | none => none
      | some (token, after) =>
        if _shorter : after.length < (c :: rest).length then (tokens? after).map (token :: ·)
        else none
termination_by cs.length
decreasing_by
  · exact Nat.lt_succ_self _
  · assumption

/-! ## Documents -/

/-- A container that is not closed yet, with its parts so far, the last one first. -/
inductive Frame where
  | items (done : List Json)
  /-- The key of the member that is being read comes after the finished members. -/
  | members (done : List (String × Json)) (key : String)

/-- What may come next. -/
inductive Expect where
  /-- A value; in an array that was just opened, also its end. -/
  | value (orClose : Bool)
  /-- A key; in an object that was just opened, also its end. -/
  | key (done : List (String × Json)) (orClose : Bool)
  | colon (done : List (String × Json)) (key : String)
  /-- The value is complete: a comma, the end of its container, or the end of the text. -/
  | after (value : Json)

structure Reading where
  stack : List Frame
  expect : Expect

/-- One token. Keys are held in the expectation until their value begins. -/
def Reading.step (r : Reading) (token : Token) : Option Reading :=
  match r.expect, token with
  | .value _, .leaf value => some ⟨r.stack, .after value⟩
  | .value _, .openArray => some ⟨.items [] :: r.stack, .value true⟩
  | .value _, .openObject => some ⟨r.stack, .key [] true⟩
  | .value true, .closeArray =>
    match r.stack with
    | .items _ :: stack => some ⟨stack, .after (.array [])⟩
    | _ => none
  | .key done _, .leaf (.string key) => some ⟨r.stack, .colon done key⟩
  | .key _ true, .closeObject => some ⟨r.stack, .after (.object [])⟩
  | .colon done key, .colon => some ⟨.members done key :: r.stack, .value false⟩
  | .after value, .comma =>
    match r.stack with
    | .items done :: stack => some ⟨.items (value :: done) :: stack, .value false⟩
    | .members done key :: stack => some ⟨stack, .key ((key, value) :: done) false⟩
    | [] => none
  | .after value, .closeArray =>
    match r.stack with
    | .items done :: stack => some ⟨stack, .after (.array (value :: done).reverse)⟩
    | _ => none
  | .after value, .closeObject =>
    match r.stack with
    | .members done key :: stack =>
      some ⟨stack, .after (.object ((key, value) :: done).reverse)⟩
    | _ => none
  | _, _ => none

/-- The document, if all containers are closed. -/
def Reading.finish (r : Reading) : Option Json :=
  match r.stack, r.expect with
  | [], .after value => some value
  | _, _ => none

def ofTokens (tokens : List Token) : Option Json := do
  (← tokens.foldlM Reading.step ⟨[], .value false⟩).finish

/-- The one document a text consists of, with blanks around it allowed. -/
def parse (s : String) : Option Json := do ofTokens (← tokens? s.toList)

end Microbench.Json
