import Microbench.CommandLine.Help
import Microbench.CommandLine.Invocation
import Microbench.Text.Terminal

/-!
# Reading the command line

Arguments are read from left to right at two levels: the program's, up to the name of a command,
and the command's. A value is checked only when the next argument begins or the arguments end, so
an argument that is not known at all is reported before an earlier value that is wrong.

Results:

* `parseWord_le`: a number that is accepted fits one word.
-/
namespace Microbench.CommandLine

/-! ## Numbers -/

inductive NumberFault where
  | empty
  | digit
  | tooLarge
  /-- Zero, where at least one is asked for. -/
  | zero
  deriving DecidableEq, Repr

def NumberFault.text : NumberFault → String
  | .empty => "cannot parse integer from empty string"
  | .digit => "invalid digit found in string"
  | .tooLarge => "number too large to fit in target type"
  | .zero => "0 is not in 1.." ++ toString maxWord

/-- Digits after those read so far; the first fault from the left counts. -/
def parseDigits (value : Nat) : List Char → Except NumberFault Nat
  | [] => .ok value
  | c :: rest =>
    if !c.isDigit then .error .digit
    else
      let value := value * 10 + (c.toNat - '0'.toNat)
      if maxWord < value then .error .tooLarge else parseDigits value rest

/-- A word in decimal; a plus sign may stand in front of the digits. -/
def parseWord (s : String) : Except NumberFault Nat :=
  match s.toList with
  | [] => .error .empty
  | ['+'] => .error .digit
  | '+' :: digits => parseDigits 0 digits
  | digits => parseDigits 0 digits

/-- A word other than zero. -/
def parsePositive (s : String) : Except NumberFault Nat := do
  let n ← parseWord s
  if n = 0 then throw .zero else return n

theorem parseDigits_le {value n : Nat} (h : value ≤ maxWord) (cs : List Char)
    (hp : parseDigits value cs = .ok n) : n ≤ maxWord := by
  induction cs generalizing value with
  | nil => simp only [parseDigits, Except.ok.injEq] at hp; omega
  | cons c rest ih =>
    simp only [parseDigits] at hp
    split at hp
    · cases hp
    · split at hp
      · cases hp
      · exact ih (by omega) hp

theorem parseWord_le {s : String} {n : Nat} (h : parseWord s = .ok n) : n ≤ maxWord := by
  unfold parseWord at h
  split at h
  · cases h
  · cases h
  · exact parseDigits_le (Nat.zero_le _) _ h
  · exact parseDigits_le (Nat.zero_le _) _ h

/-! ## Arguments -/

inductive Argument where
  | json
  | monotonic
  | iterations
  | steps
  | kernel
  | trace
  | seed
  | print
  | sizes
  | help
  | version
  /-- The one argument without a name. -/
  | operand
  deriving DecidableEq, Repr

namespace Argument

/-- The name after two dashes. -/
def name : Argument → String
  | .json => "json"
  | .monotonic => "monotonic"
  | .iterations => "repeat"
  | .steps => "steps"
  | .kernel => "kernel"
  | .trace => "trace"
  | .seed => "seed"
  | .print => "print"
  | .sizes => "sizes"
  | .help => "help"
  | .version => "version"
  | .operand => ""

def takesValue : Argument → Bool
  | .iterations => true
  | .steps => true
  | .kernel => true
  | .seed => true
  | .sizes => true
  | .operand => true
  | _ => false

/-- The named arguments of the program or of a command. -/
def named : Topic → List Argument
  | .program => [.json, .monotonic, .iterations, .help, .version]
  | .cache => [.json, .monotonic, .iterations, .help, .steps, .kernel]
  | .memcpy => [.json, .monotonic, .iterations, .help, .trace, .kernel]
  | .matmul => [.json, .monotonic, .iterations, .help, .seed, .print, .kernel]
  | .vectorAdd => [.json, .monotonic, .iterations, .help, .print, .kernel]
  | .sweep => [.json, .monotonic, .iterations, .help, .sizes, .steps, .kernel]
  | .help => []

/-- How a command shows its operand, if it has one. -/
def operandText? : Topic → Option String
  | .cache => some "<KB>"
  | .memcpy => some "<ITERATIONS>"
  | .matmul => some "[N]"
  | .vectorAdd => some "[LEN]"
  | _ => none

/-- How an argument is shown in messages. -/
def text (level : Topic) : Argument → String
  | .iterations => "--repeat <REPEAT>"
  | .steps => "--steps <STEPS>"
  | .kernel => "--kernel <KERNELS>"
  | .seed => "--seed <SEED>"
  | .sizes => "--sizes <SIZES>"
  | .operand => (operandText? level).getD ""
  | a => "--" ++ a.name

end Argument

/-! ## Refusals -/

/-- Why no command is run. Help and version are refusals of a kind. -/
inductive Refusal where
  | help (topic : Topic)
  | version
  /-- There are no arguments at all. -/
  | nothingGiven
  | missingCommand
  | invalidValue (value argument : String) (fault : NumberFault)
  | missingValue (argument : String)
  | missingArgument (argument : String)
  | unknownArgument (argument : String)
  | unknownCommand (name : String)
  | repeated (argument : String)
  | unneededValue (value argument : String)
  deriving DecidableEq, Repr

namespace Refusal

open Text.Terminal (strip)

/-- What was given on the command line is repeated as a terminal shows it. -/
def message : Refusal → String
  | .help topic => topic.helpText
  | .version => versionText
  | .nothingGiven => Topic.program.helpText
  | .missingCommand =>
    "error: 'cyclebench' requires a subcommand but one was not provided\n  [subcommands: "
      ++ String.intercalate ", " (Topic.commands.map Topic.name) ++ "]"
  | .invalidValue value argument fault =>
    "error: invalid value '" ++ strip value ++ "' for '" ++ argument ++ "': " ++ fault.text
  | .missingValue argument =>
    "error: a value is required for '" ++ argument ++ "' but none was supplied"
  | .missingArgument argument =>
    "error: the following required arguments were not provided:\n  " ++ argument
  | .unknownArgument argument =>
    "error: unexpected argument '" ++ strip argument ++ "' found"
  | .unknownCommand name => "error: unrecognized subcommand '" ++ strip name ++ "'"
  | .repeated argument => "error: the argument '" ++ argument ++ "' cannot be used multiple times"
  | .unneededValue value argument =>
    "error: unexpected value '" ++ strip value ++ "' for '" ++ argument
      ++ "' found; no more were expected"

/-- Whether the message is an answer and not a complaint. -/
def isAnswer : Refusal → Bool
  | .help _ => true
  | .version => true
  | _ => false

/-- Whether the message is a text of its own, and not the first paragraph of a complaint. -/
def isText : Refusal → Bool
  | .nothingGiven => true
  | r => r.isAnswer

def exitCode (r : Refusal) : Nat := if r.isAnswer then 0 else 1

end Refusal

/-! ## What has been read -/

structure Draft where
  json : Bool := false
  monotonic : Bool := false
  trace : Bool := false
  print : Bool := false
  iterations : Option Nat := none
  steps : Option Nat := none
  seed : Option Nat := none
  operand : Option Nat := none
  sizes : List Nat := []
  kernels : List String := []
  deriving DecidableEq, Repr

namespace Draft

/-- A number, or the refusal that names value and argument. -/
def number (level : Topic) (a : Argument) (parse : String → Except NumberFault Nat)
    (value : String) : Except Refusal Nat :=
  match parse value with
  | .ok n => .ok n
  | .error fault => .error (.invalidValue value (a.text level) fault)

/-- A number for an argument that may be given once. -/
def once (level : Topic) (a : Argument) (parse : String → Except NumberFault Nat)
    (old : Option Nat) (value : String) : Except Refusal (Option Nat) :=
  if old.isSome then .error (.repeated (a.text level))
  else (number level a parse value).map some

/-- Takes a value of an argument. -/
def setValue (level : Topic) (d : Draft) (a : Argument) (value : String) : Except Refusal Draft :=
  match a with
  | .iterations => do
    return { d with iterations := ← once level a parsePositive d.iterations value }
  | .steps => do return { d with steps := ← once level a parseWord d.steps value }
  | .seed => do return { d with seed := ← once level a parseWord d.seed value }
  | .operand => do return { d with operand := ← once level a parsePositive d.operand value }
  | .sizes => do
    let sizes ← (value.splitOn ",").mapM (number level a parsePositive)
    return { d with sizes := d.sizes ++ sizes }
  | .kernel => .ok { d with kernels := d.kernels ++ [value] }
  | _ => .ok d

/-- Takes an argument without a value. -/
def setFlag (level : Topic) (d : Draft) (a : Argument) : Except Refusal Draft :=
  match a with
  | .json => if d.json then repeatedFlag else .ok { d with json := true }
  | .monotonic => if d.monotonic then repeatedFlag else .ok { d with monotonic := true }
  | .trace => if d.trace then repeatedFlag else .ok { d with trace := true }
  | .print => if d.print then repeatedFlag else .ok { d with print := true }
  | .help => .error (.help level)
  | .version => .error .version
  | _ => .ok d
where
  repeatedFlag : Except Refusal Draft := .error (.repeated (a.text level))

end Draft

/-- The last argument with a value, which has not been checked yet. -/
structure Pending where
  argument : Argument
  /-- `none` as long as the value is still to come. -/
  value : Option String
  deriving DecidableEq, Repr

structure Parse where
  draft : Draft := {}
  pending : Option Pending := none
  /-- After a bare `--`: everything is an operand. -/
  trailing : Bool := false
  operandSeen : Bool := false
  /-- The arguments given so far, as often as they were. -/
  given : List Argument := []
  deriving DecidableEq, Repr

namespace Parse

/-- Checks and takes the pending value. -/
def settle (level : Topic) (p : Parse) : Except Refusal Parse :=
  match p.pending with
  | none => .ok p
  | some ⟨a, none⟩ => .error (.missingValue (a.text level))
  | some ⟨a, some value⟩ => do
    return { p with draft := ← p.draft.setValue level a value, pending := none }

/-- Whether the next argument is the value of a named one. -/
def awaitsValue (p : Parse) : Bool :=
  match p.pending with
  | some ⟨_, none⟩ => true
  | _ => false

/-- `--name` or `--name=value`. -/
def named (level : Topic) (p : Parse) (name : String) (value : Option String) :
    Except Refusal Parse :=
  match (Argument.named level).find? (·.name == name) with
  | none => .error (.unknownArgument ("--" ++ name))
  | some a =>
    if a.takesValue then do
      let p ← p.settle level
      match value with
      | some value =>
        return { p with draft := ← p.draft.setValue level a value, given := p.given ++ [a] }
      | none => return { p with pending := some ⟨a, none⟩, given := p.given ++ [a] }
    else
      match value with
      | some value => .error (.unneededValue value (a.text level))
      | none => do
        let p ← p.settle level
        return { p with draft := ← p.draft.setFlag level a, given := p.given ++ [a] }

/-- A dash and letters. The letters are help and, for the program, version. -/
def short (level : Topic) (p : Parse) (letter : Char) : Except Refusal Parse :=
  if letter = 'h' then do
    let _ ← p.settle level
    throw (.help level)
  else if letter = 'V' && level = .program then do
    let _ ← p.settle level
    throw .version
  else .error (.unknownArgument ("-" ++ letter.toString))

/-- An argument without a name. -/
def operand (level : Topic) (p : Parse) (arg : String) : Except Refusal Parse :=
  if (Argument.operandText? level).isSome && !p.operandSeen then do
    let p ← p.settle level
    return { p with
      pending := some ⟨.operand, some arg⟩, operandSeen := true, given := p.given ++ [.operand] }
  else if level = .program && !(p.trailing && (Topic.ofName? arg).isSome) then
    .error (.unknownCommand arg)
  else .error (.unknownArgument arg)

/-- The name and the value of an argument that starts with two dashes, without the dashes. -/
def splitValue (cs : List Char) : String × Option String :=
  let (name, rest) := cs.span (· != '=')
  (String.ofList name,
    match rest with
    | [] => none
    | _ :: value => some (String.ofList value))

/-- One argument that is not the name of a command. -/
def step (level : Topic) (p : Parse) (arg : String) : Except Refusal Parse :=
  if p.trailing then p.operand level arg
  else
    match arg.toList with
    | ['-', '-'] => .ok { p with trailing := true }
    | '-' :: '-' :: long =>
      let (name, value) := splitValue long
      p.named level name value
    | '-' :: letter :: _ => p.short level letter
    | _ =>
      match p.pending with
      | some ⟨a, none⟩ => .ok { p with pending := some ⟨a, some arg⟩ }
      | _ => p.operand level arg

end Parse

/-! ## The two levels -/

/-- The topic that the arguments of the help command name. -/
def helpTopic : List String → Refusal
  | [] => .help .program
  | [name] =>
    match Topic.ofName? name with
    | some topic => .help topic
    | none => .unknownCommand name
  | name :: extra :: _ =>
    match Topic.ofName? name with
    | some _ => .unknownCommand extra
    | none => .unknownCommand name

/-- The program's own arguments, up to the name of a command: what was read, and the command
with its arguments. -/
def parseProgram (p : Parse) : List String → Except Refusal (Parse × Option (Topic × List String))
  | [] => .ok (p, none)
  | arg :: rest =>
    match if p.trailing || p.awaitsValue then none else Topic.ofName? arg with
    | some .help => .error (helpTopic rest)
    | some command => .ok (p, some (command, rest))
    | none => do parseProgram (← p.step .program arg) rest

/-- The arguments of a command, all of them. -/
def parseCommand (command : Topic) (args : List String) : Except Refusal Draft := do
  let p ← args.foldlM (Parse.step command) {}
  let p ← p.settle command
  return p.draft

/-- The command of a draft. The working set and the number of blocks have no default. -/
def Draft.command (d : Draft) : Topic → Except Refusal Command
  | .cache =>
    match d.operand with
    | some kilobytes => .ok (.cache kilobytes (d.steps.getD defaultSteps) d.kernels)
    | none => .error (.missingArgument (Argument.operand.text .cache))
  | .memcpy =>
    match d.operand with
    | some blocks => .ok (.memcpy blocks d.trace d.kernels)
    | none => .error (.missingArgument (Argument.operand.text .memcpy))
  | .matmul => .ok (.matmul (d.operand.getD 4) d.seed d.print d.kernels)
  | .vectorAdd => .ok (.vectorAdd (d.operand.getD 256) d.print d.kernels)
  | .sweep =>
    .ok (.sweep (if d.sizes.isEmpty then Sweep.cacheSizes else d.sizes)
      (d.steps.getD defaultSteps) d.kernels)
  | topic => .error (.help topic)

/-- The invocation that the arguments spell. An option given on both levels takes the value given
after the command. -/
def parse (args : List String) : Except Refusal Invocation := do
  let (p, command) ← parseProgram {} args
  match command with
  | none =>
    let p ← p.settle .program
    throw (if p.given.isEmpty then .nothingGiven else .missingCommand)
  | some (topic, rest) =>
    let inner ← parseCommand topic rest
    let command ← inner.command topic
    let outer := (← p.settle .program).draft
    return {
      json := outer.json || inner.json
      monotonic := outer.monotonic || inner.monotonic
      iterations := (inner.iterations <|> outer.iterations).getD 1
      command }

/-! ## The usage below a complaint -/

/-- The usage line of the program or of a command, with these options in it. -/
def usage (level : Topic) (options : List String) : String :=
  let (called, asked) := match level with
    | .program => (["cyclebench"], some "<COMMAND>")
    | command => (["cyclebench", command.name], Argument.operandText? command)
  String.intercalate " " ("Usage:" :: called ++ options ++ asked.toList)

def anyOptions : List String := ["[OPTIONS]"]

/-- It is the line that the help text shows. -/
example : ∀ t ∈ [.program, .cache, .memcpy, .matmul, .vectorAdd, .sweep],
    usage t anyOptions ∈ t.helpLines := by
  decide

/-- What was read when an argument was refused. -/
def Parse.readable (level : Topic) (p : Parse) : List String → Parse
  | [] => p
  | arg :: rest =>
    match p.step level arg with
    | .ok p => p.readable level rest
    | .error _ => p

/-- The options given so far, each once. -/
def Parse.options (level : Topic) (p : Parse) : List String :=
  (p.given.filter (· != .operand)).eraseDups.map (Argument.text level)

/-- The usage line below a complaint, if there is one. A missing operand and an option that is not
known are put beside the options given before, a wrong value speaks for itself. -/
def Refusal.usage? (level : Topic) (p : Parse) : Refusal → Option String
  | .invalidValue .. => none
  | .missingValue _ => none
  | .missingArgument _ => some (usage level (p.options level))
  | .unknownArgument argument =>
    match argument.toList with
    | '-' :: '-' :: _ =>
      some (usage level (if p.trailing || p.given.isEmpty then anyOptions else p.options level))
    | _ => some (usage level anyOptions)
  | _ => some (usage level anyOptions)

/-- The level whose arguments are refused, with these arguments. -/
def refusedLevel (args : List String) : Topic × List String :=
  match parseProgram {} args with
  | .ok (_, some (topic, rest)) =>
    if (parseCommand topic rest >>= (·.command topic)).isOk then (.program, args) else (topic, rest)
  | _ => (.program, args)

end Microbench.CommandLine
