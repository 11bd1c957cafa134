import Netfilter.Proofs.Link.Stalling
import Netfilter.Proofs.Traffic.Answers
import Netfilter.Proofs.Traffic.Calls

/-!
# The traffic of a channel

The traffic of a channel is the channel with a record of what has happened on it.
Queries and posts begin, are gone on with and are given up at any time. When one
is gone on with, the socket may be too busy to take its message, which has its
number by then and is sent later or never. Posts and verdicts are sent in between,
and answers arrive whenever the other side likes.
-/

namespace Netfilter

structure Traffic where
  channel : Channel
  /-- Everything that ever was in the inbox. -/
  arrived : List Receipt := []
  /-- How many numbers were given out. -/
  assigned : Nat := 0
  /-- How many calls have begun; the name of the next one. -/
  started : Nat := 0
  /-- The datagrams that calls have sent, each with the name of its call. -/
  authored : List (Nat × Bytes) := []
  /-- The calls that were given up before they waited for an acknowledgement. -/
  withdrawn : List Nat := []
  /-- The results of queries, each with the name of its call. -/
  concluded : List (Nat × Except Error Answer) := []

inductive Deed
  | query (d : Draft)
  /-- A post begins, to be gone on with later. -/
  | message (d : Draft)
  /-- A call is gone on with, while the socket may be too busy to take data. -/
  | poll (name : Nat) (busy : Bool)
  | cancel (name : Nat)
  | post (d : Draft)
  | verdict (v : Queue.Verdict) (queue : UInt16) (payload : Bytes)
  | arrival (r : Receipt)
  | close

/-- The datagrams sent between two moments. -/
def newlySent (before after : Channel) : List Bytes :=
  after.socket.sent.drop before.socket.sent.length

def resultOfQuery? : Call → Option (Outcome Answer) → Option (Except Error Answer)
  | .query _, some (.ok a) => some (.ok a)
  | .query _, some (.error e) => some (.error e)
  | _, _ => none

namespace Traffic

def start (s : Socket) : Traffic where
  channel := { socket := { s with inbox := [], sent := [], gathered := [] } }

def pass (w : Traffic) (c : Channel) : Traffic := { w with
  channel := c
  arrived := w.arrived ++ (newlySent w.channel c).flatMap w.channel.socket.answerTo
  assigned := w.assigned + if c.nextSeq = w.channel.nextSeq then 0 else 1 }

def call? (w : Traffic) (name : Nat) : Option Running := w.channel.calls.find? (·.name = name)

def after (w : Traffic) : Deed → Traffic
  | .query d => { w.pass (w.channel.start w.started (.query d)) with started := w.started + 1 }
  | .message d => { w.pass (w.channel.start w.started (.post d)) with started := w.started + 1 }
  | .poll name busy =>
      let (answer, c) := w.channel.pollWhile busy name
      { w.pass c with
        authored := w.authored ++ (newlySent w.channel c).map (Prod.mk name)
        concluded := w.concluded ++
          ((w.call? name).bind fun r => resultOfQuery? r.call answer).toList.map (Prod.mk name) }
  | .cancel name =>
      { w.pass (w.channel.cancel name) with
        withdrawn := w.withdrawn ++ ((w.call? name).filter (·.isSilent)).toList.map (·.name) }
  | .post d => w.pass (w.channel.post d).2
  | .verdict v queue payload => w.pass (v.send queue payload w.channel).2
  | .arrival r => { w with
      channel := w.channel.withInbox (w.channel.socket.inbox ++ [r])
      arrived := w.arrived ++ [r] }
  | .close => w.pass w.channel.close.2

def run (w : Traffic) (deeds : List Deed) : Traffic := deeds.foldl after w

/-- Each error message in the receipt answers a datagram that was sent and has not been answered. -/
def Permits (w : Traffic) (r : Receipt) : Prop :=
  (∀ m ∈ errorMessagesOf r, m.header.seq ∈ w.channel.socket.numbers) ∧
    ((errorMessages (w.arrived ++ [r])).map (·.header.seq)).Nodup

def Allows (w : Traffic) : Deed → Prop
  | .arrival r => w.Permits r
  | _ => True

def Lawful : Traffic → List Deed → Prop
  | _, [] => True
  | w, deed :: deeds => w.Allows deed ∧ Lawful (w.after deed) deeds

theorem newlySent_eq {before after : Channel} {new : List Bytes}
    (h : after.socket.sent = before.socket.sent ++ new) : newlySent before after = new := by
  rw [newlySent, h, List.drop_left]

theorem newlySent_cases {before after : Channel} {n n' : UInt32}
    (h : Emission before.socket n after.socket n') :
    (newlySent before after = [] ∨ ∃ data, newlySent before after = [data]) ∧
      after.socket.sent = before.socket.sent ++ newlySent before after := by
  have hnone (hs : after.socket.sent = before.socket.sent) :
      (newlySent before after = [] ∨ ∃ data, newlySent before after = [data]) ∧
        after.socket.sent = before.socket.sent ++ newlySent before after := by
    have hnew : newlySent before after = [] := newlySent_eq (hs.trans (List.append_nil _).symm)
    exact ⟨.inl hnew, by rw [hnew, hs, List.append_nil]⟩
  cases h with
  | quiet rest => exact hnone rest.sent
  | wasted rest => exact hnone rest.sent
  | gathered pieces number sent gathered inbox => exact hnone sent
  | sent data number sent gathered inbox =>
      have hnew := newlySent_eq sent
      exact ⟨.inr ⟨data, hnew⟩, by rw [hnew, sent]⟩

theorem assigned_le_after (w : Traffic) (deed : Deed) : w.assigned ≤ (w.after deed).assigned := by
  cases deed with
  | arrival r => exact Nat.le_refl _
  | _ => exact Nat.le_add_right _ _

theorem assigned_le_run (w : Traffic) (deeds : List Deed) :
    w.assigned ≤ (w.run deeds).assigned := by
  induction deeds generalizing w with
  | nil => exact Nat.le_refl _
  | cons deed deeds ih => exact (w.assigned_le_after deed).trans (ih (w.after deed))

end Traffic

end Netfilter
