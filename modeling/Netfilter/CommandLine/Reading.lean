import Netfilter.CommandLine.Switch

/-!
# Reading switches

A command line is read word by word. A switch whose value is the next word stays
pending until another switch is complete or the words end; only then is its
value read. A word that is no switch at all is refused at once, whatever is
pending.
-/

namespace Netfilter.CommandLine

structure Reading where
  /-- The long names of the switches given so far. -/
  given : List String := []
  /-- What they say, in order. -/
  settings : List Setting := []
  /-- The switch that is read next, with its value if that was read already. -/
  pending : Option (Switch × Option String) := none

namespace Reading

def accept (r : Reading) (s : Switch) (value : Option String) : Except Rejection Reading :=
  if s.usage.hasValue && value.isNone then .error .unsuitableValue
  else if s.usage.isSingle && r.given.contains s.long then .error .repeatedSwitch
  else
    match s.usage.setting value with
    | .error rejection => .error rejection
    | .ok setting =>
        .ok { r with given := s.long :: r.given, settings := r.settings ++ [setting] }

/-- Takes in the switch that is pending. -/
def settle (r : Reading) : Except Rejection Reading :=
  match r.pending with
  | none => .ok r
  | some (s, value) => { r with pending := none }.accept s value

def act (r : Reading) (s : Switch) (value : Option String) : Except Rejection Reading :=
  match r.settle with
  | .error rejection => .error rejection
  | .ok r => r.accept s value

def await (r : Reading) (s : Switch) : Except Rejection Reading :=
  r.settle.map fun r => { r with pending := some (s, none) }

def readLong (switches : List Switch) (r : Reading) (name : List Char)
    (value : Option (List Char)) : Except Rejection Reading :=
  match switches.find? (·.long.toList = name) with
  | none => .error .unknownWord
  | some s =>
      match s.usage.hasValue, value with
      | true, some value => r.act s (some (String.ofList value))
      | true, none => r.await s
      | false, some _ => .error .unwantedValue
      | false, none => r.act s none

/-- The value that follows a short name in the same word. A sign of equality may come first. -/
def attached : List Char → Option String
  | [] => none
  | '=' :: value => some (String.ofList value)
  | value => some (String.ofList value)

/-- Reads switches by their short names, one after the other. What follows the name of a switch that
has a value is its value. -/
def readShort (switches : List Switch) (r : Reading) : List Char → Except Rejection Reading
  | [] => .ok r
  | c :: cs =>
      match switches.find? (·.short = some c) with
      | none => .error .unknownWord
      | some s =>
          if s.usage.hasValue then
            match attached cs with
            | some value => r.act s (some value)
            | none => r.await s
          else
            match r.act s none with
            | .error rejection => .error rejection
            | .ok r => r.readShort switches cs

/-- Reads a word that is no switch: a value that is waited for, or else refused as `stray`. -/
def readValue (r : Reading) (stray : Rejection) (word : String) : Except Rejection Reading :=
  match r.pending with
  | some (s, none) => .ok { r with pending := some (s, some word) }
  | _ => .error stray

def splitEquality (cs : List Char) : List Char × Option (List Char) :=
  (cs.takeWhile (· ≠ '='),
    match cs.dropWhile (· ≠ '=') with
    | [] => none
    | _ :: value => some value)

def readWord (switches : List Switch) (stray : Rejection) (r : Reading) (word : String) :
    Except Rejection Reading :=
  match word.toList with
  | '-' :: '-' :: cs =>
      let (name, value) := splitEquality cs
      r.readLong switches name value
  | '-' :: c :: cs => r.readShort switches (c :: cs)
  | _ => r.readValue stray word

/-- Reads the words after a command. Behind two hyphens no word has a meaning. -/
def readAll (switches : List Switch) : Reading → List String → Except Rejection Reading
  | r, [] => r.settle
  | r, word :: words =>
      if word = "--" then
        if words.isEmpty then r.settle else .error .unknownWord
      else
        match r.readWord switches .unknownWord word with
        | .error rejection => .error rejection
        | .ok r => readAll switches r words

end Reading

end Netfilter.CommandLine
