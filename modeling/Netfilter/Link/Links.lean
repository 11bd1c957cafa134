import Netfilter.Link.Channel
import Netfilter.Settings.Basic

/-!
# The links of a handle

A handle may be opened again and again. All channels it ever opened are kept,
by number; at most one of them is in use. Opening closes the channel that was
in use.
-/

namespace Netfilter

structure Links where
  channels : List Channel := []
  current : Option Nat := none
  deriving Repr

namespace Links

def channel? (l : Links) : Option Channel := l.current.bind (l.channels[·]?)

def isOpen (l : Links) : Bool := l.channel?.any (·.isOpen)

def openNumber? (l : Links) : Option Nat := l.current.filter fun i => l.channels[i]?.any (·.isOpen)

def onChannel {α : Type} (l : Links) (i : Nat) (absent : α) (f : Channel → α × Channel) :
    α × Links :=
  match l.channels[i]? with
  | none => (absent, l)
  | some c =>
      let (a, c) := f c
      (a, { l with channels := l.channels.set i c })

def modify (l : Links) (i : Nat) (f : Channel → Channel) : Links :=
  { l with channels := l.channels.modify i f }

def query (l : Links) (d : Draft) : Outcome Unit × Links :=
  match l.openNumber? with
  | none => (.error .notOpen, l)
  | some i => l.onChannel i (.error .notOpen) (·.query d)

def close (l : Links) : Links :=
  match l.current with
  | none => l
  | some i => { l.modify i fun c => c.close.2 with current := none }

/-- No channel is in use any more; the one that was stays as it is. -/
def release (l : Links) : Links := { l with current := none }

/-- Sets the options that can be set; one that cannot is passed over. -/
def tune (options : List (Int × Int × Int)) (c : Channel) : Channel :=
  options.foldl (fun c (level, name, value) => (c.setOption level name value).2) c

def openWith (l : Links) (settings : SocketSettings) (socket : Socket) : Links :=
  let fresh := tune settings.options { socket }
  let l := l.close
  { channels := l.channels ++ [fresh], current := some l.channels.length }

/-- Channels that nobody refers to any more are let go of. -/
def sweep (l : Links) (isUsed : Nat → Bool) : Links :=
  { l with channels := l.channels.mapIdx fun i c =>
      if c.owned && !isUsed i && l.current ≠ some i then c.disown else c }

def abandon (l : Links) : Links := l.release.sweep fun _ => false

end Links

end Netfilter
