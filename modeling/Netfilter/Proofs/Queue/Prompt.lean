import Netfilter.Proofs.Link.Links
import Netfilter.Proofs.Link.Receiving
import Netfilter.Proofs.Queue.Verdict
import Netfilter.Queue.Session

/-!
# Prompt handlers

A prompt handler is done with a packet before it wants the next one: it frees the
packet or sends a verdict about it, and the buffer goes back whatever comes of
that. What it does to the channel does not depend on what will be received there.
-/

namespace Netfilter

theorem Links.put_self {l : Links} {i : Nat} {c : Channel} (h : l.channels[i]? = some c) :
    l.put i c = l := by
  obtain ⟨hi, rfl⟩ := List.getElem?_eq_some_iff.1 h
  rw [put, List.set_getElem_self]

theorem Socket.gather_withInbox (s : Socket) (inbox : List Receipt) (pieces : List Bytes) :
    gather { s with inbox } pieces =
      ((s.gather pieces).1, { (s.gather pieces).2 with inbox }) := by
  unfold gather
  rcases nextFault s.gatherFaults with ⟨_ | e, faults⟩ <;> rfl

theorem Channel.gather_withInbox (c : Channel) (inbox : List Receipt) (pieces : List Bytes) :
    (c.withInbox inbox).gather pieces =
      ((c.gather pieces).1, (c.gather pieces).2.withInbox inbox) := by
  have hsocket : (c.withInbox inbox).socket = { c.socket with inbox } := rfl
  have hsame : (c.withInbox inbox).isOpen = c.isOpen := rfl
  simp only [gather, withSocket, hsocket, hsame, Socket.gather_withInbox]
  split_ifs <;> rfl

namespace Queue

namespace Verdict

theorem send_frame (v : Verdict) (queue : UInt16) (payload : Bytes) (c : Channel) :
    (v.send queue payload c).2.isOpen = c.isOpen ∧
      (v.send queue payload c).2.socket.inbox = c.socket.inbox ∧
      (v.send queue payload c).2.socket.handsOut = c.socket.handsOut := by
  rcases v.send_cases queue payload c with ⟨_, hs⟩ | ⟨_, _, -, hs⟩ <;>
    rw [hs] <;> exact ⟨rfl, rfl, rfl⟩

theorem send_withInbox (v : Verdict) (queue : UInt16) (payload : Bytes) (c : Channel)
    (inbox : List Receipt) :
    v.send queue payload (c.withInbox inbox) =
      ((v.send queue payload c).1, (v.send queue payload c).2.withInbox inbox) := by
  have hseq : (c.withInbox inbox).takeSeq = (c.takeSeq.1, c.takeSeq.2.withInbox inbox) := rfl
  unfold send
  rw [hseq]
  dsimp only
  cases v.pieces queue payload c.takeSeq.1 with
  | error e => rfl
  | ok pieces => simp only [Channel.gather_withInbox]

end Verdict

namespace Action

def isPrompt : Action → Bool
  | .decide _ _ | .sendBack _ _ | .free => true
  | .hold | .breakDown => false

def verdict? (a : Action) (p : Packet) : Option (Verdict × Bytes) :=
  match a with
  | .decide disposition mark => some ({ packet := p.info.id, disposition, mark }, [])
  | .sendBack disposition edit =>
      some ({ packet := p.info.id, disposition }, edit.apply p.payload)
  | .hold | .free | .breakDown => none

def answer (a : Action) (p : Packet) (c : Channel) : Done × Channel :=
  match a.verdict? p with
  | none => (.freed, c)
  | some (v, payload) =>
      let ((result, _), c) := v.send p.handle.queue payload c
      (.sent result, c)

theorem answer_frame (a : Action) (p : Packet) (c : Channel) :
    (a.answer p c).2.isOpen = c.isOpen ∧ (a.answer p c).2.socket.inbox = c.socket.inbox ∧
      (a.answer p c).2.socket.handsOut = c.socket.handsOut := by
  unfold answer
  cases a.verdict? p with
  | none => exact ⟨rfl, rfl, rfl⟩
  | some sent => exact sent.1.send_frame p.handle.queue sent.2 c

theorem answer_withInbox (a : Action) (p : Packet) (c : Channel) (inbox : List Receipt) :
    a.answer p (c.withInbox inbox) = ((a.answer p c).1, (a.answer p c).2.withInbox inbox) := by
  unfold answer
  cases a.verdict? p with
  | none => rfl
  | some sent =>
      dsimp only
      rw [sent.1.send_withInbox]

def answerAll (a : Action) : List Packet → Channel → List Session.Event × Channel
  | [], c => ([], c)
  | p :: packets, c =>
      let (done, c) := a.answer p c
      let (events, c) := a.answerAll packets c
      (.packet p :: .done done :: events, c)

theorem answerAll_append (a : Action) (packets later : List Packet) (c : Channel) :
    a.answerAll (packets ++ later) c =
      ((a.answerAll packets c).1 ++ (a.answerAll later (a.answerAll packets c).2).1,
        (a.answerAll later (a.answerAll packets c).2).2) := by
  induction packets generalizing c with
  | nil => rfl
  | cons p packets ih =>
      rw [List.cons_append]
      simp only [answerAll, ih, List.cons_append]

theorem answerAll_withInbox (a : Action) (packets : List Packet) (c : Channel)
    (inbox : List Receipt) :
    a.answerAll packets (c.withInbox inbox) =
      ((a.answerAll packets c).1, (a.answerAll packets c).2.withInbox inbox) := by
  induction packets generalizing c with
  | nil => rfl
  | cons p packets ih => simp only [answerAll, answer_withInbox, ih]

theorem answerAll_frame (a : Action) (packets : List Packet) (c : Channel) :
    (a.answerAll packets c).2.isOpen = c.isOpen ∧
      (a.answerAll packets c).2.socket.handsOut = c.socket.handsOut := by
  induction packets generalizing c with
  | nil => exact ⟨rfl, rfl⟩
  | cons p packets ih =>
      obtain ⟨hopen, -, hands⟩ := a.answer_frame p c
      obtain ⟨hopen', hands'⟩ := ih (a.answer p c).2
      exact ⟨hopen'.trans hopen, hands'.trans hands⟩

end Action

namespace Session.Event

def packet? : Session.Event → Option Packet
  | .packet p => some p
  | .failed _ | .done _ => none

def isFailure : Session.Event → Bool
  | .failed _ => true
  | .packet _ | .done _ => false

end Session.Event

def packetsOf (events : List Session.Event) : List Packet :=
  events.filterMap Session.Event.packet?

theorem packetsOf_append (events later : List Session.Event) :
    packetsOf (events ++ later) = packetsOf events ++ packetsOf later := List.filterMap_append

/-- All packets of these events came through this handle and were answered in turn. So the channel
`c` became `c'`; what will be received there may have changed besides. -/
structure Answered (a : Action) (handle : VerdictHandle) (c : Channel)
    (events : List Session.Event) (c' : Channel) : Prop where
  handles : ∀ p ∈ packetsOf events, p.handle = handle
  answers : events.filter (fun event => !event.isFailure) = (a.answerAll (packetsOf events) c).1
  channel : c' = (a.answerAll (packetsOf events) c).2.withInbox c'.socket.inbox

namespace Answered

variable {a : Action} {handle : VerdictHandle} {c c' c'' : Channel}
  {events later : List Session.Event}

theorem of_packetsOf_nil (hnone : packetsOf events = [])
    (hfailures : events.filter (fun event => !event.isFailure) = []) (inbox : List Receipt) :
    Answered a handle c events (c.withInbox inbox) where
  handles := by rw [hnone]; exact nofun
  answers := by rw [hnone, hfailures]; rfl
  channel := by rw [hnone]; rfl

theorem nil (inbox : List Receipt) : Answered a handle c [] (c.withInbox inbox) :=
  of_packetsOf_nil rfl rfl inbox

theorem failed (cause : Error) (inbox : List Receipt) :
    Answered a handle c [.failed cause] (c.withInbox inbox) := of_packetsOf_nil rfl rfl inbox

theorem packet (a : Action) (p : Packet) (c : Channel) :
    Answered a p.handle c [.packet p, .done (a.answer p c).1] (a.answer p c).2 where
  handles q hq := by
    obtain rfl := List.mem_singleton.1 hq
    rfl
  answers := rfl
  channel := rfl

theorem trans (h : Answered a handle c events c') (h' : Answered a handle c' later c'') :
    Answered a handle c (events ++ later) c'' := by
  have hlater := h'.answers
  have hchannel := h'.channel
  rw [h.channel, Action.answerAll_withInbox] at hlater hchannel
  refine ⟨fun p hp => ?_, ?_, ?_⟩
  · rw [packetsOf_append] at hp
    rcases List.mem_append.1 hp with hp | hp
    · exact h.handles p hp
    · exact h'.handles p hp
  · rw [packetsOf_append, Action.answerAll_append, List.filter_append, h.answers, hlater]
  · rw [packetsOf_append, Action.answerAll_append]
    exact hchannel

theorem isOpen (h : Answered a handle c events c') : c'.isOpen = c.isOpen := by
  rw [h.channel]
  exact (a.answerAll_frame _ c).1

theorem handsOut (h : Answered a handle c events c') :
    c'.socket.handsOut = c.socket.handsOut := by
  rw [h.channel]
  exact (a.answerAll_frame _ c).2

end Answered

namespace Session

variable {s : Session} {a : Action} {p : Packet} {c : Channel}

theorem act_of_isPrompt (ha : a.isPrompt = true)
    (hc : s.links.channels[p.handle.link]? = some c) :
    s.act p a = (some (a.answer p c).1,
      (s.withLinks (s.links.put p.handle.link (a.answer p c).2)).release p) := by
  cases a with
  | decide disposition mark =>
      simp only [act, conclude, VerdictHandle.send, Links.onChannel_of_channel hc]
      rfl
  | sendBack disposition edit =>
      simp only [act, conclude, VerdictHandle.send, Links.onChannel_of_channel hc]
      rfl
  | free =>
      change (some Done.freed, s.release p) = (some Done.freed,
        (s.withLinks (s.links.put p.handle.link c)).release p)
      rw [Links.put_self hc]
      rfl
  | hold | breakDown => cases ha

/-- The receiver goes on where it was, with the buffer of the packet taken back. -/
theorem handle_of_isPrompt {r : Receiver} {rest : Bytes} {table : FieldTable}
    (ha : a.isPrompt = true) (hplan : s.plan = [])
    (hother : s.otherwise = { action := a, flow := .proceed }) (hr : s.receiver = some r)
    (hphase : r.phase = .handling rest table)
    (hc : s.links.channels[p.handle.link]? = some c) :
    s.handle p = ([.packet p, .done (a.answer p c).1],
      { s.withLinks (s.links.put p.handle.link (a.answer p c).2) with
        receiver := some { r.takeBack p.lease with phase := .reading rest table } }) := by
  obtain ⟨binding, holder, receiver, plan, otherwise, handles, held⟩ := s
  obtain rfl : plan = [] := hplan
  obtain rfl : otherwise = { action := a, flow := .proceed } := hother
  obtain rfl : receiver = some r := hr
  have hresume : (r.takeBack p.lease).phase = .handling rest table := hphase
  simp only [handle, List.headD_nil, List.tail_nil, act_of_isPrompt ha hc, release, withLinks,
    Option.map_some, Receiver.resume, hresume]
  rfl

end Session

end Queue

end Netfilter
