import Netfilter.CommandLine.Reading
import Netfilter.Queue.Numbers
import Netfilter.Settings.Basic

/-!
# Invocations

What a command line asks for: a command with its settings, the form of the
output, and how much is to be told besides. A switch that is known everywhere
may stand before or behind the command.
-/

namespace Netfilter.CommandLine

inductive Format
  | text
  | json
  deriving DecidableEq, Repr

structure QueueArguments where
  number : UInt16
  maxLength : UInt32 := ({} : QueueSettings).maxLength
  copyRange : UInt32 := ({} : QueueSettings).copyRange
  ruling : Ruling := .accept
  /-- The mark to be set with the verdict. -/
  mark : Option UInt32 := none
  /-- Packets are accepted while the queue is full. -/
  failOpen : Bool := false
  deriving DecidableEq, Repr

structure LogArguments where
  groups : List UInt16
  copyRange : UInt32 := ({} : LogSettings).copyRange
  /-- Only the texts that the rules put in front are shown. -/
  prefixOnly : Bool := false
  deriving DecidableEq, Repr

namespace QueueArguments

def adjust (a : QueueArguments) : Setting → QueueArguments
  | .number number => { a with number }
  | .maxLength maxLength => { a with maxLength }
  | .copyRange copyRange => { a with copyRange }
  | .ruling ruling => { a with ruling }
  | .mark mark => { a with mark := some mark }
  | .failOpen => { a with failOpen := true }
  | _ => a

def ofSettings (settings : List Setting) : Except Rejection QueueArguments :=
  let number? := settings.findSome? fun s =>
    match s with
    | .number number => some number
    | _ => none
  match number? with
  | some number => .ok (settings.foldl adjust { number })
  | none => .error .missingSwitch

def settings (a : QueueArguments) : QueueSettings where
  number := a.number
  maxLength := a.maxLength
  copyRange := a.copyRange
  flags := if a.failOpen then some Queue.Flag.failOpen.bit else none

end QueueArguments

namespace LogArguments

def adjust (a : LogArguments) : Setting → LogArguments
  | .group number => { a with groups := a.groups ++ [number] }
  | .copyRange copyRange => { a with copyRange }
  | .prefixOnly => { a with prefixOnly := true }
  | _ => a

def ofSettings (settings : List Setting) : Except Rejection LogArguments :=
  let a := settings.foldl adjust { groups := [] }
  if a.groups.isEmpty then .error .missingSwitch else .ok a

def settings (a : LogArguments) : LogSettings where
  groups := a.groups
  copyRange := a.copyRange

end LogArguments

inductive Command
  | queue (arguments : QueueArguments)
  | log (arguments : LogArguments)
  deriving DecidableEq, Repr

structure Invocation where
  /-- How often more to be told was asked for. -/
  verbosity : Nat := 0
  format : Format := .text
  command : Command
  deriving DecidableEq, Repr

namespace Invocation

inductive CommandName
  | queue
  | log
  | help
  deriving DecidableEq, Repr

def commandName? (word : String) : Option CommandName :=
  match word with
  | "queue" => some .queue
  | "log" => some .log
  | "help" => some .help
  | _ => none

/-- The answer to a question about commands. No command has commands of its own. -/
def aboutCommands (words : List String) : Rejection :=
  match words with
  | [] => .help
  | [word] => if (commandName? word).isSome then .help else .unknownCommand
  | _ => .unknownCommand

def maxVerbosity : Nat := 255

/-- How often more to be told was asked for. What stands behind the command counts alone, if there
is any. -/
def verbosityOf (leading behind : List Setting) : Nat :=
  let count (settings : List Setting) : Nat := min (settings.count .verbose) maxVerbosity
  if behind.contains .verbose then count behind else count leading

def formatOf (leading behind : List Setting) : Format :=
  if leading.contains .json || behind.contains .json then .json else .text

def readCommand (leading : Reading) (switches : List Switch)
    (make : List Setting → Except Rejection Command) (words : List String) :
    Except Rejection Invocation :=
  match Reading.readAll switches {} words with
  | .error rejection => .error rejection
  | .ok behind =>
      (make behind.settings).map fun command =>
        { verbosity := verbosityOf leading.settings behind.settings
          format := formatOf leading.settings behind.settings
          command }

def withoutCommand (leading : Reading) : Rejection :=
  if leading.given.isEmpty then .nothingAsked else .missingCommand

/-- The rejection of the words behind two hyphens, where no command can stand. -/
def behindHyphens (leading : Reading) : List String → Rejection
  | [] => withoutCommand leading
  | word :: _ => if (commandName? word).isSome then .unknownWord else .unknownCommand

def readFrom : Reading → List String → Except Rejection Invocation
  | leading, [] => .error (withoutCommand leading)
  | leading, word :: words =>
      match commandName? word with
      | some .queue =>
          readCommand leading Switch.queue (fun s => (QueueArguments.ofSettings s).map .queue) words
      | some .log =>
          readCommand leading Switch.log (fun s => (LogArguments.ofSettings s).map .log) words
      | some .help => .error (aboutCommands words)
      | none =>
          if word = "--" then .error (behindHyphens leading words)
          else
            match leading.readWord Switch.leading .unknownCommand word with
            | .error rejection => .error rejection
            | .ok leading => readFrom leading words

def read (words : List String) : Except Rejection Invocation := readFrom {} words

end Invocation

end Netfilter.CommandLine
