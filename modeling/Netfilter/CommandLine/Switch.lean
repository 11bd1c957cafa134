import Netfilter.Queue.Disposition

/-!
# Switches

The switches a command line may hold, what each of them says, and which of them
each command knows. The value of a switch is read as soon as the switch is
complete.
-/

namespace Netfilter.CommandLine

inductive Rejection
  | help
  | version
  | nothingAsked
  | missingCommand
  | unknownCommand
  /-- A word that is neither a switch of the command nor the value of one. -/
  | unknownWord
  /-- A switch that the command needs was not given. -/
  | missingSwitch
  /-- A switch was given once more. -/
  | repeatedSwitch
  /-- A switch that has no value was given one. -/
  | unwantedValue
  /-- A switch came without its value, or with a value that is not one of its words. -/
  | unsuitableValue
  /-- The value of a switch is no number, or one out of range. -/
  | unsuitableNumber
  deriving DecidableEq, Repr

namespace Rejection

def exitCode : Rejection → Nat
  | help | version => 0
  | _ => 2

def message : Rejection → String
  | help => "usage: (queue | log) [switches], with recorded traffic as input"
  | version => "1"
  | nothingAsked | missingCommand => "no command"
  | unknownCommand => "unknown command"
  | unknownWord => "unexpected word"
  | missingSwitch => "a switch is missing"
  | repeatedSwitch => "a switch was given twice"
  | unwantedValue => "a value for a switch that has none"
  | unsuitableValue => "the value of a switch is missing or unknown"
  | unsuitableNumber => "the value of a switch is not a number in range"

end Rejection

inductive Ruling
  | accept
  | drop
  deriving DecidableEq, Repr

namespace Ruling

def name : Ruling → String
  | accept => "accept"
  | drop => "drop"

def named? (text : String) : Option Ruling := [accept, drop].find? (·.name = text)

def disposition : Ruling → Queue.Disposition
  | accept => .accept
  | drop => .drop

end Ruling

inductive Setting
  | verbose
  | json
  | number (number : UInt16)
  | maxLength (length : UInt32)
  | copyRange (range : UInt32)
  | ruling (ruling : Ruling)
  | mark (mark : UInt32)
  | failOpen
  | group (number : UInt16)
  | prefixOnly
  deriving DecidableEq, Repr

def readDigits? (digits : List Char) : Option Nat :=
  if digits.isEmpty || !digits.all Char.isDigit then none
  else some (digits.foldl (fun n c => 10 * n + (c.toNat - '0'.toNat)) 0)

def readInteger? (text : String) : Option Int :=
  match text.toList with
  | '+' :: digits => (readDigits? digits).map Int.ofNat
  | '-' :: digits => (readDigits? digits).map fun n => -Int.ofNat n
  | digits => (readDigits? digits).map Int.ofNat

def readNumber (bound : Nat) (text : String) : Except Rejection Nat :=
  match readInteger? text with
  | none => .error .unsuitableNumber
  | some n => if 0 ≤ n ∧ n < bound then .ok n.toNat else .error .unsuitableNumber

def readNumber16 (text : String) : Except Rejection UInt16 :=
  (readNumber UInt16.size text).map UInt16.ofNat

def readNumber32 (text : String) : Except Rejection UInt32 :=
  (readNumber UInt32.size text).map UInt32.ofNat

def readRuling (text : String) : Except Rejection Ruling :=
  match Ruling.named? text with
  | some ruling => .ok ruling
  | none => .error .unsuitableValue

inductive Usage
  /-- It may be given once and has no value. -/
  | once (setting : Setting)
  /-- It may be given any number of times and has no value. -/
  | counted (setting : Setting)
  /-- It may be given once and has a value. -/
  | valued (read : String → Except Rejection Setting)
  /-- It may be given any number of times, each time with a value. -/
  | listed (read : String → Except Rejection Setting)
  /-- It ends the command line. -/
  | final (rejection : Rejection)

namespace Usage

def hasValue : Usage → Bool
  | valued _ | listed _ => true
  | once _ | counted _ | final _ => false

def isSingle : Usage → Bool
  | once _ | valued _ => true
  | counted _ | listed _ | final _ => false

def setting : Usage → Option String → Except Rejection Setting
  | once s, _ | counted s, _ => .ok s
  | valued read, some value | listed read, some value => read value
  | valued _, none | listed _, none => .error .unsuitableValue
  | final rejection, _ => .error rejection

end Usage

structure Switch where
  long : String
  short : Option Char := none
  usage : Usage

namespace Switch

def common : List Switch := [
  { long := "verbose", short := some 'v', usage := .counted .verbose },
  { long := "json", short := some 'j', usage := .once .json },
  { long := "help", short := some 'h', usage := .final .help }]

def leading : List Switch :=
  common ++ [{ long := "version", short := some 'V', usage := .final .version }]

def queue : List Switch := common ++ [
  { long := "num", short := some 'n', usage := .valued fun v => (readNumber16 v).map .number },
  { long := "max-len", usage := .valued fun v => (readNumber32 v).map .maxLength },
  { long := "copy-range", usage := .valued fun v => (readNumber32 v).map .copyRange },
  { long := "verdict", usage := .valued fun v => (readRuling v).map .ruling },
  { long := "mark", usage := .valued fun v => (readNumber32 v).map .mark },
  { long := "fail-open", usage := .once .failOpen }]

def log : List Switch := common ++ [
  { long := "group", short := some 'g', usage := .listed fun v => (readNumber16 v).map .group },
  { long := "copy-range", usage := .valued fun v => (readNumber32 v).map .copyRange },
  { long := "prefix-only", usage := .once .prefixOnly }]

end Switch

end Netfilter.CommandLine
