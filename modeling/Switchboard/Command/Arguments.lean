import Switchboard.Command

/-!
An engine, the one the program runs with here. What is proved about command lines holds with every
engine that keeps a few promises, of which this is one; the faults it reports are its own.

Arguments are read from the left and the first fault is the one reported. Flags may stand anywhere
after the command, also between operands, and after a lone `--` everything is an operand.

A value that stands as an argument of its own waits until the next flag or operand is recognised, and
is judged only then. So a bad value is reported before anything that follows it, except that an
argument which is not recognised at all is reported in place of the value that waits.
-/

namespace Switchboard.Command

/-- What waits to be judged. -/
inductive Waiting
  | nothing
  /-- A flag that has no value yet. -/
  | flag (id : ArgumentId) (kind : ValueKind id.type)
  | value (id : ArgumentId) (kind : ValueKind id.type) (text : String)
  /-- A word for an operand whose turn has passed. -/
  | word (id : ArgumentId) (kind : ValueKind id.type) (text : String)
  /-- Words for the operand whose turn it is. -/
  | words (texts : List String)

/-- How far a command line has been read. -/
structure Reader where
  found : Matches := .none
  waiting : Waiting := .nothing
  /-- The operands whose turn has not passed. -/
  operands : List Operand
  /-- Whether everything is an operand from here on. -/
  operandsOnly : Bool := false

namespace Reader

/-- The largest number that is a value. -/
def numberBound : Nat := 1 <<< 64 - 1

def judge {type : ValueType} : ValueKind type → String → Except UsageFault type.Carrier
  | .text, text => .ok text
  | .path, text => if text = "" then .error .invalidValue else .ok ⟨text⟩
  | .oneOf names, text => if names.contains text then .ok text else .error .invalidValue
  | .atLeast least, text =>
    match Text.decimal numberBound text with
    | .error fault => .error (.refusedValue fault.message)
    | .ok n =>
      if n < least then
        .error (.refusedValue (toString n ++ " is not in " ++ toString least ++ ".." ++
          toString numberBound))
      else .ok n
  | .own read, text =>
    match read text with
    | .ok value => .ok value
    | .error reason => .error (.refusedValue reason)

/-- Gives a flag its value; it has only one. -/
def give (found : Matches) (id : ArgumentId) (kind : ValueKind id.type) (text : String) :
    Except UsageFault Matches :=
  if (found.values id).isEmpty then (judge kind text).map fun value => found.set id [value]
  else .error .repeated

/-- Adds the values of words to those of an operand. -/
def add (found : Matches) (id : ArgumentId) (kind : ValueKind id.type) (texts : List String) :
    Except UsageFault Matches :=
  (texts.mapM (judge kind)).map fun values => found.set id (found.values id ++ values)

/-- The values after what waits has been judged. -/
def settled (reader : Reader) : Except UsageFault Matches :=
  match reader.waiting with
  | .nothing => .ok reader.found
  | .flag _ _ => .error .invalidValue
  | .value id kind text => give reader.found id kind text
  | .word id kind text => add reader.found id kind [text]
  | .words texts =>
    match reader.operands with
    | [] => .ok reader.found
    | operand :: _ => add reader.found operand.id operand.kind texts

def settle (reader : Reader) : Except UsageFault Reader := do
  return { reader with found := ← reader.settled, waiting := .nothing }

/-- Reads a flag that comes with its value in the same argument. -/
def flagWithValue (reader : Reader) (flag : Flag) (value : String) : Except UsageFault Reader := do
  let reader ← reader.settle
  return { reader with found := ← give reader.found flag.id flag.kind value }

/-- Reads a flag whose value is the next argument. -/
def flagAlone (reader : Reader) (flag : Flag) : Except UsageFault Reader := do
  return { ← reader.settle with waiting := .flag flag.id flag.kind }

def counter (reader : Reader) (counter : Counter) : Except UsageFault Reader := do
  let reader ← reader.settle
  return { reader with found := reader.found.count counter.id }

def help (reader : Reader) : Except UsageFault Reader := do
  let _ ← reader.settle
  .error .help

/-- A long flag and the value behind its first `=`. -/
def splitValue (text : List Char) : String × Option String :=
  let name := text.takeWhile (· != '=')
  match text.drop name.length with
  | [] => (String.ofList name, none)
  | _ :: value => (String.ofList name, some (String.ofList value))

def long (signature : Signature) (reader : Reader) (text : List Char) : Except UsageFault Reader :=
  match splitValue text with
  | ("help", none) => reader.help
  | ("help", some _) => .error .surplusValue
  | (name, value?) =>
    match signature.flags.find? (·.long == name), value? with
    | none, _ => .error .unknownArgument
    | some flag, none => reader.flagAlone flag
    | some flag, some value => reader.flagWithValue flag value

/-- Reads what follows one dash: letters of counters, and of one flag that takes the rest of the
argument, if there is any, as its value. -/
def shorts (signature : Signature) (reader : Reader) : List Char → Except UsageFault Reader
  | [] => .ok reader
  | 'h' :: _ => reader.help
  | letter :: rest =>
    match signature.counters.find? (·.short == letter) with
    | some counter => do shorts signature (← reader.counter counter) rest
    | none =>
      match signature.flags.find? (·.short? == some letter), rest with
      | none, _ => .error .unknownArgument
      | some flag, [] => reader.flagAlone flag
      | some flag, '=' :: value => reader.flagWithValue flag (String.ofList value)
      | some flag, value => reader.flagWithValue flag (String.ofList value)

/-- Reads a word as an operand. Words for one operand are judged together. -/
def word (reader : Reader) (text : String) : Except UsageFault Reader :=
  match reader.operands with
  | [] => .error .unknownArgument
  | operand :: rest =>
    if operand.several then
      match reader.waiting with
      | .words texts => .ok { reader with waiting := .words (texts ++ [text]) }
      | _ => do return { ← reader.settle with waiting := .words [text] }
    else do
      return { ← reader.settle with
        waiting := .word operand.id operand.kind text, operands := rest }

/-- Reads a word that may be the value of a flag. -/
def value (reader : Reader) (text : String) : Except UsageFault Reader :=
  match reader.waiting with
  | .flag id kind => .ok { reader with waiting := .value id kind text }
  | _ => reader.word text

def argument (signature : Signature) (reader : Reader) (text : String) : Except UsageFault Reader :=
  if reader.operandsOnly then reader.word text
  else
    match text.toList with
    | ['-', '-'] => .ok { reader with operandsOnly := true }
    | '-' :: '-' :: rest => reader.long signature rest
    | '-' :: letter :: rest => reader.shorts signature (letter :: rest)
    | _ => reader.value text

/-- The value of a flag that is not given. -/
def standardValue (flag : Flag) : List flag.id.Value :=
  match flag.standard? with
  | some text => (judge flag.kind text).toOption.toList
  | none => []

/-- Gives a flag its standard value, if it has no other. -/
def complete (found : Matches) (flag : Flag) : Matches :=
  if (found.values flag.id).isEmpty then found.set flag.id (standardValue flag) else found

/-- What has been found when all arguments are read. -/
def finish (signature : Signature) (found : Matches) : Except UsageFault Matches :=
  if signature.operands.all fun operand =>
      !operand.required || !(found.values operand.id).isEmpty then
    .ok (signature.flags.foldl complete found)
  else .error .missingArgument

def arguments (signature : Signature) (texts : List String) : Except UsageFault Matches := do
  let reader ← texts.foldlM (argument signature) { operands := signature.operands }
  finish signature (← reader.settled)

def isCommandWord (signatures : List Signature) (word : String) : Bool :=
  word == "help" || signatures.any (·.name == word)

def helpOn (signatures : List Signature) : List String → UsageFault
  | [] => .help
  | [word] => if isCommandWord signatures word then .help else .unknownCommand
  | _ => .unknownCommand

def commandLine : Engine
  | _, [] => .error .noCommand
  | signatures, word :: rest =>
    match word.toList with
    | ['-', '-'] =>
      match rest with
      | [] => .error .noCommand
      | next :: _ =>
        .error (if isCommandWord signatures next then .unknownArgument else .unknownCommand)
    | '-' :: '-' :: text =>
      match splitValue text with
      | ("help", none) => .error .help
      | ("help", some _) => .error .surplusValue
      | _ => .error .unknownArgument
    | '-' :: 'h' :: _ => .error .help
    | '-' :: _ :: _ => .error .unknownArgument
    | _ =>
      if word = "help" then .error (helpOn signatures rest)
      else
        match signatures.find? (·.name == word) with
        | none => .error .unknownCommand
        | some signature => do return (word, ← arguments signature rest)

end Reader

/-- The command on a command line, as the program reads it. -/
def parse (arguments : List String) : Except UsageFault Command := do
  match ← read Reader.commandLine arguments with
  | some command => .ok command
  | none => .error .missingArgument

end Switchboard.Command
