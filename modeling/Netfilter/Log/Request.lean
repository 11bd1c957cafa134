import Netfilter.Log.Numbers
import Netfilter.Settings.Basic
import Netfilter.Wire.Draft

/-!
# Requests about log groups

The requests by which log groups are bound and set up, and the message of each.
An operation on a list of groups is one request for each group, in order.
-/

namespace Netfilter.Log

inductive Tunable
  | mode (mode : CopyMode) (range : UInt32)
  | bufferSize (size : UInt32)
  | timeout (hundredths : UInt32)
  | threshold (count : UInt32)
  | flags (flags : UInt16)
  deriving DecidableEq, Repr

inductive Request
  | unbindFamily
  | bindFamily
  | bind (group : UInt16)
  | unbind (group : UInt16)
  | set (group : UInt16) (tunable : Tunable)
  deriving DecidableEq, Repr

inductive GroupOperation
  | unbindFamily
  | bindFamily
  | bindAll
  | unbindAll
  | setAll (tunable : Tunable)
  deriving DecidableEq, Repr

namespace Tunable

def label : Tunable → String
  | mode _ _ => "set log copy mode"
  | bufferSize _ => "set log buffer size"
  | timeout _ => "set log timeout"
  | threshold _ => "set log queue threshold"
  | flags _ => "set log flags"

def addTo (d : Draft) : Tunable → Draft
  | mode m range => d.short Setting.mode.rawType (Bytes.big 4 range.toNat ++ [m.number, 0])
  | bufferSize n => d.word32 Setting.bufferSize.rawType n
  | timeout n => d.word32 Setting.timeout.rawType n
  | threshold n => d.word32 Setting.threshold.rawType n
  | flags n => d.word16 Setting.flags.rawType n

def applyTo (s : LogSettings) : Tunable → LogSettings
  | mode copyMode copyRange => { s with copyMode, copyRange }
  | bufferSize n => { s with bufferSize := some n }
  | timeout n => { s with timeout := some n }
  | threshold n => { s with threshold := some n }
  | flags n => { s with flags := some n }

end Tunable

namespace Request

def label : Request → String
  | unbindFamily => "unbind protocol family"
  | bindFamily => "bind protocol family"
  | bind _ => "bind log group"
  | unbind _ => "unbind log group"
  | set _ tunable => tunable.label

def blank (family : UInt8) (group : UInt16) : Draft :=
  .netfilter Subsystem.log Operation.configure.number 0 family group

/-- The message of a request. Only binding names the family, by its low byte. -/
def draft (family : UInt16) : Request → Draft
  | unbindFamily =>
      (blank family.toUInt8 0).word8 Setting.command.rawType Command.unbindFamily.number
  | bindFamily => (blank family.toUInt8 0).word8 Setting.command.rawType Command.bindFamily.number
  | bind group => (blank family.toUInt8 group).word8 Setting.command.rawType Command.bind.number
  | unbind group =>
      (blank FamilyHeader.unspecified group).word8 Setting.command.rawType Command.unbind.number
  | set group tunable => tunable.addTo (blank FamilyHeader.unspecified group)

end Request

namespace GroupOperation

def requests (groups : List UInt16) : GroupOperation → List Request
  | unbindFamily => [.unbindFamily]
  | bindFamily => [.bindFamily]
  | bindAll => groups.map .bind
  | unbindAll => groups.map .unbind
  | setAll tunable => groups.map fun group => .set group tunable

def acknowledged (s : LogSettings) : GroupOperation → LogSettings
  | setAll tunable => tunable.applyTo s
  | _ => s

def bringUp (s : LogSettings) : List GroupOperation :=
  [unbindFamily, bindFamily, bindAll, setAll (.mode s.copyMode s.copyRange)]
    ++ (s.bufferSize.map fun n => setAll (.bufferSize n)).toList
    ++ (s.timeout.map fun n => setAll (.timeout n)).toList
    ++ (s.threshold.map fun n => setAll (.threshold n)).toList
    ++ (s.flags.map fun n => setAll (.flags n)).toList

end GroupOperation

end Netfilter.Log
