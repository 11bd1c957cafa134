import Netfilter.Bytes

/-!
# Dispositions

What the kernel is to do with a queued packet, and the number that says so. A
packet handed to another queue carries that queue's number in the upper half.
-/

namespace Netfilter.Queue

inductive Disposition
  | drop
  | accept
  /-- Forget about it: it was taken over. -/
  | stolen
  | queue (number : UInt16)
  /-- Send it through the current hook again. -/
  | again
  /-- Let it continue and skip the rest of the current hook. -/
  | stop
  deriving DecidableEq, Repr

namespace Disposition

def number : Disposition → UInt32
  | drop => 0
  | accept => 1
  | stolen => 2
  | queue n => UInt32.ofNat (n.toNat * 65536 + 3)
  | again => 4
  | stop => 5

/-- The disposition a number stands for. Only its lower half tells which one it is. -/
def ofNumber? (number : UInt32) : Option Disposition :=
  match number.toNat % 65536 with
  | 0 => some drop
  | 1 => some accept
  | 2 => some stolen
  | 3 => some (queue (UInt16.ofNat (number.toNat / 65536)))
  | 4 => some again
  | 5 => some stop
  | _ => none

/-- The disposition with this name; `queue` is the number that goes with the name `Queue`. -/
def named? (name : String) (queue : UInt16) : Option Disposition :=
  match name with
  | "Drop" => some drop
  | "Accept" => some accept
  | "Stolen" => some stolen
  | "Queue" => some (.queue queue)
  | "Repeat" => some again
  | "Stop" => some stop
  | _ => none

def describe : Disposition → String
  | drop => "Drop"
  | accept => "Accept"
  | stolen => "Stolen"
  | queue n => s!"Queue({n})"
  | again => "Repeat"
  | stop => "Stop"

end Disposition

end Netfilter.Queue
