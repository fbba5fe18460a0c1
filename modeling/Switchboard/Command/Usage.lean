import Switchboard.Command.Arguments
import Switchboard.Command.Report

/-!
What is printed when arguments are not a command: help, or a line that tells what is wrong.
-/

namespace Switchboard.Command

def UsageFault.message : UsageFault → String
  | help => "help was asked for"
  | noCommand => "no command is given"
  | unknownCommand => "there is no such command"
  | unknownArgument => "an argument is not recognised"
  | invalidValue => "a value is missing or not one of the possible values"
  | refusedValue reason => reason
  | repeated => "an option is given twice"
  | missingArgument => "a required argument is missing"
  | surplusValue => "a value is given to an option that takes none"

/-- The values of an argument, as help shows them. -/
def ArgumentId.shown : ArgumentId → String
  | mapping => "<mapping>"
  | directory => "[directory]"
  | strategy => "<if|switch|array>"
  | identifiers => "<identifier>..."
  | width => "<u8|u16|u32>"
  | marker => "<text>"
  | outRoot => "<directory>"
  | indent => "<tab|1-255>"
  | tableLimit => "<number>"
  | color => "<auto|always|never>"
  | verbose => ""

def Flag.shown (flag : Flag) : String :=
  let short := match flag.short? with
    | some letter => String.ofList ['-', letter, ',', ' ']
    | none => ""
  short ++ "--" ++ flag.long ++ " " ++ flag.id.shown

def Counter.shown (counter : Counter) : String :=
  String.ofList ['-', counter.short]

def Signature.shown (signature : Signature) : String :=
  let flags := signature.flags.filter fun flag => !signature.hidden.contains flag.id
  let lines := flags.map Flag.shown ++ signature.counters.map Counter.shown
  "  " ++ " ".intercalate (signature.name :: signature.operands.map (·.id.shown)) ++ "\n" ++
    String.join (lines.map fun line => "      " ++ line ++ "\n")

def usage : String :=
  "Commands:\n" ++ String.join (signatures.map Signature.shown)

/-- The outcome of arguments that are not a command. Only help that was asked for is a success. -/
def UsageFault.outcome : UsageFault → Outcome
  | help => { output := usage }
  | noCommand => { diagnostics := usage, exit := 2 }
  | fault => { diagnostics := "error: " ++ fault.message ++ "\n", exit := 2 }

end Switchboard.Command
