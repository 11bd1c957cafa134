import Netfilter.Proofs.Log.Intake
import Netfilter.Proofs.Queue.Serving

/-!
# Batches make no difference

How messages are grouped into datagrams makes no difference to what a receiver
reports and to what a feed gives: it is what the messages give one by one. So
nothing of a message, not even of a defective one, gets into what the next one
gives, although they share a table, and their packets share buffers.
-/

namespace Netfilter

open Queue (isFatal)

def batched (batches : List (List Message)) : List Receipt :=
  batches.map fun batch => .ok (Message.join batch)

def Socket.TakesWhole (s : Socket) (batches : List (List Message)) : Prop :=
  ∀ r ∈ batched batches, cut s.room r = r

variable {batches : List (List Message)}

theorem calm_batched : ∀ r ∈ batched batches, isFatal r = false := by
  intro r hr
  obtain ⟨batch, -, rfl⟩ := List.mem_map.1 hr
  rfl

theorem Socket.handsOut_batched {s : Socket} (h : s.TakesWhole batches) :
    s.handsOut (batched batches) = batched batches := by
  induction batches with
  | nil => rfl
  | cons batch batches ih =>
      have hfirst : cut s.room (.ok (Message.join batch)) = .ok (Message.join batch) :=
        h _ List.mem_cons_self
      have hlater := ih fun r hr => h r (List.mem_cons_of_mem _ hr)
      change s.handsOut (.ok (Message.join batch) :: batched batches) = _
      rw [handsOut_cons, hfirst, hlater]
      rfl

/-- What is read message by message out of one datagram is so read out of several. -/
theorem flatMap_batched {α : Type} {read : Receipt → List α} {readMessage : Message → Option α}
    (hjoin : ∀ ms : List Message, (∀ m ∈ ms, m.Framed) →
      read (.ok (Message.join ms)) = ms.filterMap readMessage)
    (h : ∀ m ∈ batches.flatten, m.Framed) :
    (batched batches).flatMap read = batches.flatten.filterMap readMessage := by
  induction batches with
  | nil => rfl
  | cons batch batches ih =>
      rw [List.flatten_cons] at h ⊢
      have hbatch := hjoin batch fun m hm => h m (List.mem_append_left _ hm)
      have hlater := ih fun m hm => h m (List.mem_append_right _ hm)
      rw [List.filterMap_append, ← hbatch, ← hlater]
      rfl

namespace Queue

theorem Report.ofReceipt_join {handle : VerdictHandle} {ms : List Message}
    (h : ∀ m ∈ ms, m.Framed) :
    ofReceipt handle (.ok (Message.join ms)) = ms.filterMap (ofMessage? handle) := by
  rw [ofReceipt, ofDatagram, Message.walk_join h]
  exact List.append_nil _

/-- A session over `l` whose handler frees every packet and wants more. -/
def Session.freeing (settings : QueueSettings) (l : Links) : Session where
  binding := { settings, links := l }
  otherwise := { action := .free, flow := .proceed }

theorem serving_start (settings : QueueSettings) {l : Links} {link : Nat} {c : Channel}
    (hnumber : l.openNumber? = some link) (hc : l.channels[link]? = some c)
    (hopen : c.isOpen = true) :
    Serving .free ((Session.freeing settings l).start []).2
      { handle := ⟨link, settings.number⟩
        pool := Pool.ofCount settings.poolSize.toNat settings.bufferSize } c :=
  Session.serving_start rfl hnumber hc hopen

end Queue

namespace Log

theorem Item.ofReceipt_join {ms : List Message} (h : ∀ m ∈ ms, m.Framed) :
    ofReceipt (.ok (Message.join ms)) = ms.filterMap ofMessage? := by
  rw [ofReceipt, ofDatagram, Message.walk_join h]
  exact List.append_nil _

def Incident.arrival? : Incident → Option Receipt
  | .arrival r => some r
  | .poll | .close => none

theorem Intake.run_arrivals {w : Intake} {incidents : List Incident}
    (h : ∀ i ∈ incidents, i ≠ .close) :
    (w.run incidents).arrived = w.arrived ++ incidents.filterMap Incident.arrival? ∧
      (w.run incidents).wasClosed = w.wasClosed := by
  induction incidents generalizing w with
  | nil => exact ⟨(List.append_nil _).symm, rfl⟩
  | cons incident later ih =>
      have hlater := ih (w := w.after incident) fun i hi => h i (List.mem_cons_of_mem _ hi)
      cases incident with
      | arrival r =>
          refine ⟨hlater.1.trans ?_, hlater.2⟩
          exact List.append_assoc w.arrived [r] _
      | poll => exact hlater
      | close => exact absurd rfl (h _ List.mem_cons_self)

end Log

/-- Messages arrive over channel `link`, which is `c`, and each time some batches have arrived a
receiver runs, or a feed is polled at any time. What is reported and what is given is what the
messages give one by one. -/
structure OneByOne (settings : QueueSettings) (l : Links) (link : Nat) (c : Channel)
    (ms : List Message) (arrivals : List (List (List Message))) : Prop where
  reports : (((Queue.Session.freeing settings l).start []).2.serve link
      (arrivals.map batched)).1.filterMap Queue.Session.Event.report? =
    ms.filterMap (Queue.Report.ofMessage? ⟨link, settings.number⟩)
  /-- After so many more polls, so many more items are given, as long as there are any. -/
  items : ∀ incidents : List Log.Incident, (∀ i ∈ incidents, i ≠ .close) →
    incidents.filterMap Log.Incident.arrival? = batched arrivals.flatten →
    ∀ n, (((Log.Intake.start link l c).run incidents).run (List.replicate n .poll)).given =
      (ms.filterMap Log.Item.ofMessage?).take
        (((Log.Intake.start link l c).run incidents).given.length + n)

/-- Framed messages that arrive whole are reported and given one by one, in whatever batches and
whenever they arrive. -/
theorem batching_irrelevant (settings : QueueSettings) (l : Links) (link : Nat) (c : Channel)
    (hnumber : l.openNumber? = some link) (hc : l.channels[link]? = some c)
    (hempty : c.socket.inbox = []) (ms : List Message) (hframed : ∀ m ∈ ms, m.Framed)
    (arrivals : List (List (List Message))) (hms : arrivals.flatten.flatten = ms)
    (hwhole : c.socket.TakesWhole arrivals.flatten) :
    OneByOne settings l link c ms arrivals := by
  have hopen : c.isOpen = true := by
    have hfilter := (Option.filter_eq_some_iff.1 hnumber).2
    simpa [hc] using hfilter
  have hands := Socket.handsOut_batched hwhole
  subst hms
  refine ⟨?_, fun incidents hclose harrivals n => ?_⟩
  · have hflatten : (arrivals.map batched).flatten = batched arrivals.flatten :=
      List.map_flatten.symm
    have hserve := (Queue.serving_start settings hnumber hc hopen).serve rfl hempty
      (arrivals.map batched)
    rw [hflatten, hands] at hserve
    rw [hserve calm_batched]
    exact flatMap_batched (fun ms => Queue.Report.ofReceipt_join) hframed
  · obtain ⟨taken, c', h⟩ := (Log.accounted_start hc hopen).run incidents
    obtain ⟨harrived, hclosed⟩ := Log.Intake.run_arrivals (w := Log.Intake.start link l c) hclose
    have hall : ((Log.Intake.start link l c).run incidents).arrived = batched arrivals.flatten := by
      rw [harrived, harrivals]
      exact congrArg (· ++ _) hempty
    have hpolls := h.given_polls hclosed (by rw [hall, hands]; exact calm_batched) n
    rw [hall, hands] at hpolls
    rw [hpolls, flatMap_batched (fun ms => Log.Item.ofReceipt_join) hframed]

def samplePacket : Message where
  header := ⟨32, Message.typeOf Subsystem.queue Queue.Operation.packet.number, 0, 0, 0⟩
  payload := FamilyHeader.encode { family := 2, resource := 7 }
    ++ Attribute.encode ⟨Queue.Field.packetHeader.rawType, [0, 0, 0, 42, 8, 0, 1]⟩

/-- A notification for queue 7 whose attribute does not cover its own header. -/
def sampleDefect : Message where
  header := ⟨24, Message.typeOf Subsystem.queue Queue.Operation.packet.number, 0, 0, 0⟩
  payload := FamilyHeader.encode { family := 2, resource := 7 } ++ [1, 0, 1, 0]

def sampleQuiet : Channel where
  socket := { port := 4242 }

/-- A defective message stands between two packets, first in one datagram with them. -/
def sampleArrivals : List (List (List Message)) :=
  [[[samplePacket, sampleDefect, samplePacket]], [[sampleDefect], [samplePacket]]]

theorem batching_irrelevant_sampleArrivals :
    Links.openNumber? { channels := [sampleQuiet], current := some 0 } = some 0 ∧
      (∀ m ∈ sampleArrivals.flatten.flatten, m.Framed) ∧
      sampleQuiet.socket.TakesWhole sampleArrivals.flatten ∧
      OneByOne { number := 7 } { channels := [sampleQuiet], current := some 0 } 0 sampleQuiet
        sampleArrivals.flatten.flatten sampleArrivals := by
  have hframed : ∀ m ∈ sampleArrivals.flatten.flatten, m.Framed := by
    have hpacket : samplePacket.Framed := ⟨rfl, rfl⟩
    have hdefect : sampleDefect.Framed := ⟨rfl, rfl⟩
    simp [sampleArrivals, hpacket, hdefect]
  have hwhole : sampleQuiet.socket.TakesWhole sampleArrivals.flatten := by
    intro r _
    cases r <;> rfl
  exact ⟨rfl, hframed, hwhole, batching_irrelevant { number := 7 } _ 0 sampleQuiet rfl rfl rfl _
    hframed sampleArrivals rfl hwhole⟩

example : sampleArrivals.flatten.flatten.map (fun m => (Queue.Report.ofMessage? ⟨0, 7⟩ m).isSome) =
    [true, true, true, true, true] := by cbv

end Netfilter
