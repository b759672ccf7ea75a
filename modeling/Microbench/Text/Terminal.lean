/-!
# Text on a terminal

A text may hold characters that a terminal obeys and does not show: control characters, and
sequences that an escape character introduces. `strip` is what is shown of a text. A sequence that
is not finished takes the rest of the text with it.
-/
namespace Microbench.Text.Terminal

/-- Where a terminal stands in a text. -/
inductive Mode where
  /-- Outside of every sequence. -/
  | plain
  /-- After an escape character. -/
  | escape
  /-- After an escape character and an intermediate. -/
  | escapeIntermediate
  /-- In a control sequence, before its final character. -/
  | sequence
  /-- In a device string, before anything of its head. -/
  | device
  /-- In the parameters of a device string. -/
  | deviceParameters
  /-- In the intermediates of a device string. -/
  | deviceIntermediate
  /-- In a string, which ends with a string terminator or with an escape character. -/
  | string
  /-- In a command to the system, which ends with a bell. -/
  | command
  deriving DecidableEq, Repr

/-! ## Characters -/

/-- Control characters that lay a text out; they are shown. -/
def isLayout (c : Char) : Bool := c = '\t' || c = '\n' || c = '\x0c' || c = '\r'

/-- Neither a control character of one byte nor a deletion. -/
def isPrintable (c : Char) : Bool := ' ' ≤ c && c ≠ '\x7f'

def isIntermediate (c : Char) : Bool := ' ' ≤ c && c ≤ '/'

def isParameter (c : Char) : Bool := '0' ≤ c && c ≤ '?'

def isFinal (c : Char) : Bool := '@' ≤ c && c ≤ '~'

/-- A string ends in a character one of whose bytes is the string terminator. -/
def holdsTerminator (c : Char) : Bool := (String.utf8EncodeChar c).contains 0x9c

/-! ## Modes -/

namespace Mode

/-- What a character right after an escape character introduces. -/
def introducedBy (c : Char) : Mode :=
  if c = '[' then .sequence
  else if c = ']' then .command
  else if c = 'P' then .device
  else if c = 'X' || c = '^' || c = '_' then .string
  else if isIntermediate c then .escapeIntermediate
  else if isParameter c || isFinal c || isLayout c then .plain
  else .escape

/-- The mode after a character. An escape character starts anew wherever it stands, and a
cancellation ends every sequence. -/
def next (m : Mode) (c : Char) : Mode :=
  if c = '\x1b' then .escape
  else if c = '\x18' || c = '\x1a' then .plain
  else
    match m with
    | .plain => .plain
    | .escape => introducedBy c
    | .escapeIntermediate =>
      if isParameter c || isFinal c || isLayout c then .plain else .escapeIntermediate
    | .sequence => if isFinal c || isLayout c then .plain else .sequence
    | .device =>
      if isIntermediate c then .deviceIntermediate
      else if isParameter c then .deviceParameters
      else if isFinal c then .string
      else .device
    | .deviceParameters =>
      if isIntermediate c then .deviceIntermediate
      else if '<' ≤ c && c ≤ '~' then .string
      else .deviceParameters
    | .deviceIntermediate => if isParameter c || isFinal c then .string else .deviceIntermediate
    | .string => if holdsTerminator c then .plain else .string
    | .command => if c = '\x07' then .plain else .command

/-- Whether a character is shown. A sequence that is no string lets layout through. -/
def shows (m : Mode) (c : Char) : Bool :=
  match m with
  | .plain => isLayout c || isPrintable c
  | .escape => isLayout c
  | .escapeIntermediate => isLayout c
  | .sequence => isLayout c
  | _ => false

end Mode

/-! ## Texts -/

/-- The characters that are shown from a mode on. -/
def shown (m : Mode) : List Char → List Char
  | [] => []
  | c :: rest => if m.shows c then c :: shown (m.next c) rest else shown (m.next c) rest

/-- What a terminal shows of a text. -/
def strip (s : String) : String := String.ofList (shown .plain s.toList)

end Microbench.Text.Terminal
