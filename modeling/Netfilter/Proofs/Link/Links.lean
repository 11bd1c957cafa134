import Mathlib.Data.List.Infix
import Netfilter.Link.Links

/-!
# Operations on one channel among many

An operation on channel `i` is that operation on the channel found there, and the
channel it gives is found there afterwards. A request goes to the channel in use,
and is then awaited there.
-/

namespace Netfilter

namespace Links

variable {l : Links} {i : Nat} {c : Channel}

def put (l : Links) (i : Nat) (c : Channel) : Links := { l with channels := l.channels.set i c }

theorem channels_put (h : l.channels[i]? = some c) (c' : Channel) :
    (l.put i c').channels[i]? = some c' := by
  obtain ⟨hi, -⟩ := List.getElem?_eq_some_iff.1 h
  simp [put, hi]

theorem put_put (l : Links) (i : Nat) (c c' : Channel) : (l.put i c).put i c' = l.put i c' := by
  simp [put]

theorem onChannel_of_channel {α : Type} (h : l.channels[i]? = some c) (absent : α)
    (f : Channel → α × Channel) : l.onChannel i absent f = ((f c).1, l.put i (f c).2) := by
  simp only [onChannel, h, put]

theorem channels_modify (h : l.channels[i]? = some c) (f : Channel → Channel) :
    (l.modify i f).channels[i]? = some (f c) := by
  simp [modify, h]

theorem length_channels_close (l : Links) : l.close.channels.length = l.channels.length := by
  unfold close
  cases l.current with
  | none => rfl
  | some i => exact List.length_modify _ _ _

def request (l : Links) (d : Draft) : Except Error UInt32 × Links :=
  match l.openNumber? with
  | none => (.error .notOpen, l)
  | some i => l.onChannel i (.error .notOpen) (·.request d)

def await (l : Links) (seq : UInt32) : Outcome Unit × Links :=
  match l.current with
  | none => (.error .notOpen, l)
  | some i => l.onChannel i (.error .notOpen) (·.await seq)

structure Uses (l : Links) (i : Nat) (c : Channel) : Prop where
  current : l.current = some i
  channel : l.channels[i]? = some c

theorem Uses.put (h : l.Uses i c) (c' : Channel) : (l.put i c').Uses i c' :=
  ⟨h.current, channels_put h.channel c'⟩

theorem Uses.openNumber? (h : l.Uses i c) (hopen : c.isOpen = true) : l.openNumber? = some i := by
  simp [Links.openNumber?, h.current, h.channel, hopen]

theorem Uses.request (h : l.Uses i c) (hopen : c.isOpen = true) (d : Draft) :
    l.request d = ((c.request d).1, l.put i (c.request d).2) := by
  rw [Links.request, h.openNumber? hopen]
  exact onChannel_of_channel h.channel _ _

theorem Uses.query (h : l.Uses i c) (hopen : c.isOpen = true) (d : Draft) :
    l.query d = ((c.query d).1, l.put i (c.query d).2) := by
  rw [Links.query, h.openNumber? hopen]
  exact onChannel_of_channel h.channel _ _

theorem Uses.await (h : l.Uses i c) (seq : UInt32) :
    l.await seq = ((c.await seq).1, l.put i (c.await seq).2) := by
  rw [Links.await, h.current]
  exact onChannel_of_channel h.channel _ _

theorem Uses.close (h : l.Uses i c) :
    l.close.current = none ∧ l.close.channels[i]? = some c.close.2 := by
  rw [Links.close, h.current]
  exact ⟨rfl, channels_modify h.channel _⟩

theorem uses_openWith (l : Links) (settings : SocketSettings) (socket : Socket) :
    (l.openWith settings socket).Uses l.close.channels.length
      (tune settings.options { socket }) := by
  refine ⟨rfl, ?_⟩
  simp [openWith]

end Links

end Netfilter
