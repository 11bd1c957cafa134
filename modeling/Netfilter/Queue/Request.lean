import Netfilter.Queue.Numbers
import Netfilter.Settings.Basic
import Netfilter.Wire.Draft

/-!
# Requests about a queue

The requests by which a queue is bound and set up, and the message of each.
Commands about a protocol family name no queue.
-/

namespace Netfilter.Queue

inductive Request
  | unbindFamily
  | bindFamily
  | bind (number : UInt16)
  | setMode (mode : CopyMode) (range : UInt32)
  | setMaxLength (length : UInt32)
  /-- Change the flags selected by `mask` to those of `flags`. -/
  | setFlags (mask flags : UInt32)
  | unbind
  deriving DecidableEq, Repr

namespace Request

def label : Request → String
  | unbindFamily => "unbind protocol family"
  | bindFamily => "bind protocol family"
  | bind _ => "bind queue"
  | setMode _ _ => "set copy mode"
  | setMaxLength _ => "set queue length"
  | setFlags _ _ => "set queue flags"
  | unbind => "unbind queue"

def blank (number : UInt16) : Draft :=
  .netfilter Subsystem.queue Operation.configure.number 0 FamilyHeader.unspecified number

/-- The value of a command: its number, a zero byte, and a protocol family. -/
def command (c : Command) (family : UInt16) : Bytes := [c.number, 0] ++ Bytes.big 2 family.toNat

def draft (s : QueueSettings) : Request → Draft
  | unbindFamily => (blank 0).short Setting.command.rawType (command .unbindFamily s.family)
  | bindFamily => (blank 0).short Setting.command.rawType (command .bindFamily s.family)
  | bind number => (blank number).short Setting.command.rawType (command .bind 0)
  | setMode mode range =>
      (blank s.number).short Setting.parameters.rawType (Bytes.big 4 range.toNat ++ [mode.number])
  | setMaxLength length => (blank s.number).word32 Setting.maxLength.rawType length
  | setFlags mask flags =>
      ((blank s.number).word32 Setting.mask.rawType mask).word32 Setting.flags.rawType flags
  | unbind => (blank s.number).short Setting.command.rawType (command .unbind 0)

def bringUp (s : QueueSettings) : List Request :=
  [unbindFamily, bindFamily, bind s.number, setMode s.copyMode s.copyRange,
    setMaxLength s.maxLength] ++ (s.flags.map fun f => setFlags f f).toList

end Request

end Netfilter.Queue
