import Netfilter.Proofs.Link.Decision
import Netfilter.Proofs.Link.Receiving
import Netfilter.Proofs.Link.Sending

/-!
# Queries follow the first decision

A query that has sent its request looks through the inbox in order, ignores what
says nothing about the request, and ends with the first receipt that decides it;
without one it waits, and the inbox is used up. What is ignored can be left out
of the inbox or put into it at will.
-/

namespace Netfilter

namespace Acknowledgement

/-- The receipt never gets past the socket, or is skipped once it is cut to the room there is. -/
def Ignored (s : Socket) (seq : UInt32) (r : Receipt) : Prop :=
  Socket.isPassedOver s.patient r = true ∨ Skips seq (Socket.cut s.room r)

/-- The receipt gets past the socket, and what is left of it there decides the request. -/
def Settles (s : Socket) (seq : UInt32) (r : Receipt) (x : Except Error Unit) : Prop :=
  Socket.isPassedOver s.patient r = false ∧ Decides seq (Socket.cut s.room r) x

/-- What becomes of request `seq` when socket `s` has this inbox, and which receipts are left:
the first one that is not ignored decides. -/
inductive Decision (s : Socket) (seq : UInt32) : List Receipt → Outcome Unit → List Receipt → Prop
  | waits {inbox : List Receipt} (ignored : ∀ r ∈ inbox, Ignored s seq r) :
      Decision s seq inbox .pending []
  | settled (before after : List Receipt) {r : Receipt} {x : Except Error Unit}
      (ignored : ∀ b ∈ before, Ignored s seq b) (settles : Settles s seq r x) :
      Decision s seq (before ++ r :: after) (.ofExcept x) after

theorem ignored_or_settles (s : Socket) (seq : UInt32) (r : Receipt) :
    Ignored s seq r ∨ ∃ x, Settles s seq r x := by
  cases hp : Socket.isPassedOver s.patient r with
  | true => exact .inl (.inl hp)
  | false =>
      rcases skips_or_decides seq (Socket.cut s.room r) with hs | ⟨x, hx⟩
      · exact .inl (.inr hs)
      · exact .inr ⟨x, hp, hx⟩

theorem not_ignored_of_settles {s : Socket} {seq : UInt32} {r : Receipt} {x : Except Error Unit}
    (h : Settles s seq r x) : ¬ Ignored s seq r := by
  rintro (hp | hs)
  · rw [h.1] at hp
    cases hp
  · have hn := decide?_of_decides h.2
    rw [decide?_of_skips hs] at hn
    cases hn

theorem settles_unique {s : Socket} {seq : UInt32} {r : Receipt} {x y : Except Error Unit}
    (hx : Settles s seq r x) (hy : Settles s seq r y) : x = y :=
  Option.some.inj ((decide?_of_decides hx.2).symm.trans (decide?_of_decides hy.2))

section Search
variable {s : Socket} {seq : UInt32}

theorem search_cons_of_ignored {r : Receipt} (h : Ignored s seq r) (inbox : List Receipt) :
    search s.patient s.room seq (r :: inbox) = search s.patient s.room seq inbox := by
  rw [search]
  rcases h with hp | hs
  · rw [if_pos hp]
  · split_ifs
    · rfl
    · rw [decide?_of_skips hs]

theorem search_cons_of_settles {r : Receipt} {x : Except Error Unit} (h : Settles s seq r x)
    (inbox : List Receipt) :
    search s.patient s.room seq (r :: inbox) = (.ofExcept x, inbox) := by
  rw [search, h.1, decide?_of_decides h.2]
  rfl

theorem search_append_of_ignored {before : List Receipt} (h : ∀ b ∈ before, Ignored s seq b)
    (inbox : List Receipt) :
    search s.patient s.room seq (before ++ inbox) = search s.patient s.room seq inbox := by
  induction before with
  | nil => rfl
  | cons b before ih =>
      rw [List.cons_append, search_cons_of_ignored (h b List.mem_cons_self)]
      exact ih fun c hc => h c (List.mem_cons_of_mem b hc)

theorem search_of_decision {inbox left : List Receipt} {outcome : Outcome Unit}
    (h : Decision s seq inbox outcome left) :
    search s.patient s.room seq inbox = (outcome, left) := by
  cases h with
  | waits ignored =>
      have hs := search_append_of_ignored ignored []
      rwa [List.append_nil] at hs
  | settled before after ignored settles =>
      rw [search_append_of_ignored ignored, search_cons_of_settles settles]

theorem exists_decision (s : Socket) (seq : UInt32) (inbox : List Receipt) :
    ∃ outcome left, Decision s seq inbox outcome left := by
  induction inbox with
  | nil => exact ⟨_, _, .waits (by simp)⟩
  | cons r inbox ih =>
      rcases ignored_or_settles s seq r with hr | ⟨x, hx⟩
      · obtain ⟨outcome, left, h⟩ := ih
        refine ⟨outcome, left, ?_⟩
        cases h with
        | waits ignored => exact .waits (List.forall_mem_cons.2 ⟨hr, ignored⟩)
        | settled before _ ignored settles =>
            exact .settled (r :: before) _ (List.forall_mem_cons.2 ⟨hr, ignored⟩) settles
      · exact ⟨_, _, .settled [] inbox (by simp) hx⟩

theorem search_eq_iff {inbox left : List Receipt} {outcome : Outcome Unit} :
    search s.patient s.room seq inbox = (outcome, left) ↔ Decision s seq inbox outcome left := by
  constructor
  · intro h
    obtain ⟨outcome', left', hd⟩ := exists_decision s seq inbox
    rw [search_of_decision hd] at h
    obtain ⟨rfl, rfl⟩ := Prod.mk.inj h
    exact hd
  · exact search_of_decision

/-- An ignored receipt anywhere in the inbox does not change the outcome. -/
theorem search_insert_ignored {r : Receipt} (h : Ignored s seq r) (before after : List Receipt) :
    (search s.patient s.room seq (before ++ r :: after)).1 =
      (search s.patient s.room seq (before ++ after)).1 := by
  induction before with
  | nil => rw [List.nil_append, search_cons_of_ignored h, List.nil_append]
  | cons b before ih =>
      rw [List.cons_append, List.cons_append]
      rcases ignored_or_settles s seq b with hb | ⟨x, hx⟩
      · rw [search_cons_of_ignored hb, search_cons_of_ignored hb, ih]
      · rw [search_cons_of_settles hx, search_cons_of_settles hx]

end Search

def answerOf : Outcome Unit → Outcome Answer
  | .ok () => .ok .done
  | .error e => .error e
  | .pending => .pending

end Acknowledgement

namespace Channel

open Acknowledgement

/-- Call `r` has sent its request under number `seq`, before or as soon as it is gone on with;
`sent` is the channel after the sending. -/
inductive Sends (c : Channel) (r : Running) : UInt32 → Channel → Prop
  | before {seq : UInt32} (stage : r.stage = .awaiting seq) : Sends c r seq c
  | now {d : Draft} {seq : UInt32} {sent : Channel} (call : r.call = .query d)
      (stage : ∀ sought, r.stage ≠ .awaiting sought)
      (turn : (c.turn.request r.name).isOf r.name = true)
      (request : request { c with turn := c.turn.request r.name } d = (.ok seq, sent)) :
      Sends c r seq sent

theorem await_of_decision {c : Channel} {seq : UInt32} {outcome : Outcome Unit}
    {left : List Receipt} (h : Decision c.socket seq c.socket.inbox outcome left) :
    c.await seq = (outcome, c.withInbox left) := by
  simp only [await, Acknowledgement.await, search_of_decision h]
  rfl

theorem decision_of_await (c : Channel) (seq : UInt32) :
    Decision c.socket seq c.socket.inbox (c.await seq).1 (c.await seq).2.socket.inbox :=
  search_eq_iff.1 rfl

/-- A request that waits has used up the inbox. -/
theorem await_of_pending {c c' : Channel} {seq : UInt32} (h : c.await seq = (.pending, c')) :
    c'.await seq = (.pending, c') := by
  obtain ⟨outcome, left, hdecision⟩ :=
    Acknowledgement.exists_decision c.socket seq c.socket.inbox
  rw [await_of_decision hdecision] at h
  obtain ⟨hpending, rfl⟩ := Prod.mk.inj h
  generalize c.socket.inbox = inbox at hdecision
  cases hdecision with
  | waits ignored => rfl
  | @settled before after r x => cases x <;> cases hpending

theorem query_of_request {c sent : Channel} {d : Draft} {seq : UInt32}
    (hfree : c.turn.holder = none) (hreq : c.request d = (.ok seq, sent)) :
    c.query d = sent.await seq := by
  rw [query, hfree, hreq]
  rfl

theorem goOn_of_waits {c : Channel} {r : Running} {d : Draft} (hcall : r.call = .query d)
    (hstage : ∀ sought, r.stage ≠ .awaiting sought) :
    c.goOn r =
      let c := { c with turn := c.turn.request r.name }
      if c.turn.isOf r.name then
        match c.request d with
        | (.error e, c) => (.inl (.error e), c)
        | (.ok seq, c) => c.goOnAwaiting seq
      else (.inr .inLine, c) := by
  obtain ⟨name, call, stage⟩ := r
  obtain rfl : call = .query d := hcall
  cases stage with
  | awaiting seq => exact absurd rfl (hstage seq)
  | fresh => rfl
  | inLine => rfl
  | receiving => rfl

theorem goOn_of_sends {c sent : Channel} {r : Running} {d : Draft} {seq : UInt32}
    (hcall : r.call = .query d) (h : Sends c r seq sent) :
    c.goOn r = sent.goOnAwaiting seq := by
  cases h with
  | before stage => simp only [goOn, hcall, stage]
  | now call stage turn request =>
      obtain rfl := Call.query.inj (hcall.symm.trans call)
      rw [goOn_of_waits call stage]
      simp only [turn, if_true, request]

theorem calls_of_request {c sent : Channel} {d : Draft} {seq : UInt32}
    (h : c.request d = (.ok seq, sent)) : sent.calls = c.calls := by
  rcases c.request_cases d with ⟨e, faults, next, hr, -⟩ | ⟨faults, codes, hr⟩
  · rw [hr] at h
    cases h
  · rw [hr] at h
    rw [← (Prod.mk.inj h).2]

theorem calls_of_sends {c sent : Channel} {r : Running} {seq : UInt32} (h : Sends c r seq sent) :
    sent.calls = c.calls := by
  cases h with
  | before stage => rfl
  | now call stage turn request =>
      exact calls_of_request (c := { c with turn := c.turn.request r.name }) request

theorem inbox_endCall (before c : Channel) (name : Nat) :
    (endCall before c name).socket.inbox = c.socket.inbox := by
  obtain ⟨isOpen, drops, he⟩ := endCall_eq before c name
  rw [he]

def restage (calls : List Running) (name : Nat) (stage : Stage) : List Running :=
  calls.map fun r => if r.name = name then { r with stage } else r

section Poll
variable {c sent : Channel} {name : Nat} {r : Running} {d : Draft} {seq : UInt32}
  {left : List Receipt}

theorem poll_of_settled {x : Except Error Unit}
    (hfind : c.calls.find? (·.name = name) = some r) (hcall : r.call = .query d)
    (hsent : Sends c r seq sent)
    (hdec : Decision sent.socket seq sent.socket.inbox (.ofExcept x) left) :
    c.poll name = (some (.ofExcept (x.map fun _ => .done)),
      endCall c (sent.withInbox left) name) := by
  have hgo : c.goOn r = sent.goOnAwaiting seq := goOn_of_sends hcall hsent
  have hawait := await_of_decision hdec
  cases x with
  | ok u =>
      simp only [poll, hfind, hgo, goOnAwaiting, hawait, Outcome.ofExcept]
      rfl
  | error e =>
      simp only [poll, hfind, hgo, goOnAwaiting, hawait, Outcome.ofExcept]
      rfl

theorem poll_of_waiting (hfind : c.calls.find? (·.name = name) = some r)
    (hcall : r.call = .query d) (hsent : Sends c r seq sent)
    (hdec : Decision sent.socket seq sent.socket.inbox .pending left) :
    c.poll name = (some .pending, { sent.withInbox left with
      calls := restage c.calls name (.awaiting seq) }) := by
  have hgo : c.goOn r = sent.goOnAwaiting seq := goOn_of_sends hcall hsent
  have hawait := await_of_decision hdec
  simp only [poll, hfind, hgo, goOnAwaiting, hawait]
  rw [← calls_of_sends hsent]
  rfl

theorem find?_restage (hfind : c.calls.find? (·.name = name) = some r) (stage : Stage) :
    (restage c.calls name stage).find? (·.name = name) = some { r with stage } := by
  have hname : r.name = name := by simpa using List.find?_some hfind
  have hsame : ((fun q : Running => decide (q.name = name)) ∘
      fun q : Running => if q.name = name then { q with stage } else q) =
      fun q => decide (q.name = name) := by
    funext q
    by_cases hq : q.name = name <;> simp [hq]
  rw [restage, List.find?_map, hsame, hfind]
  simp [hname]

/-- Going on with a query that has sent its request gives what was decided, and a query that
still waits has used up the inbox and goes on waiting for the same number. -/
theorem poll_of_decision {outcome : Outcome Unit}
    (hfind : c.calls.find? (·.name = name) = some r) (hcall : r.call = .query d)
    (hsent : Sends c r seq sent)
    (hdec : Decision sent.socket seq sent.socket.inbox outcome left) :
    (c.poll name).1 = some (answerOf outcome) ∧ (c.poll name).2.socket.inbox = left ∧
      (outcome = .pending → (c.poll name).2.calls.find? (·.name = name) =
        some { r with stage := .awaiting seq }) := by
  cases outcome with
  | ok u =>
      rw [poll_of_settled (x := .ok u) hfind hcall hsent hdec]
      exact ⟨rfl, inbox_endCall c _ name, nofun⟩
  | error e =>
      rw [poll_of_settled (x := .error e) hfind hcall hsent hdec]
      exact ⟨rfl, inbox_endCall c _ name, nofun⟩
  | pending =>
      rw [poll_of_waiting hfind hcall hsent hdec]
      exact ⟨rfl, rfl, fun _ => find?_restage hfind _⟩

end Poll

/-- The law of queries. A receipt is ignored exactly if it does not settle the request, and it
settles it in one way only. A query that has sent its request under number `seq`, whether it is
given up when it waits or is gone on with again and again, ends with the first receipt that is not
ignored and leaves the ones after it; if all are ignored, it waits and the inbox is used up. A
receipt that is ignored makes no difference to the outcome, wherever it stands. -/
theorem query_decision_law :
    (∀ (s : Socket) (seq : UInt32) (r : Receipt),
      (¬ Ignored s seq r ↔ ∃ x, Settles s seq r x) ∧
        ∀ x y, Settles s seq r x → Settles s seq r y → x = y) ∧
      (∀ (c sent : Channel) (d : Draft) (seq : UInt32), c.turn.holder = none →
        c.request d = (.ok seq, sent) →
        ∃ outcome left, Decision sent.socket seq sent.socket.inbox outcome left ∧
          c.query d = (outcome, sent.withInbox left)) ∧
      (∀ (c sent : Channel) (name : Nat) (r : Running) (d : Draft) (seq : UInt32),
        c.calls.find? (·.name = name) = some r → r.call = .query d → Sends c r seq sent →
        ∃ outcome left, Decision sent.socket seq sent.socket.inbox outcome left ∧
          (c.poll name).1 = some (answerOf outcome) ∧ (c.poll name).2.socket.inbox = left ∧
          (outcome = .pending → (c.poll name).2.calls.find? (·.name = name) =
            some { r with stage := .awaiting seq })) ∧
      (∀ (s : Socket) (seq : UInt32) (inbox left left' : List Receipt) (o o' : Outcome Unit),
        Decision s seq inbox o left → Decision s seq inbox o' left' → o = o' ∧ left = left') ∧
      (∀ (s : Socket) (seq : UInt32) (before after left left' : List Receipt) (r : Receipt)
        (o o' : Outcome Unit), Ignored s seq r → Decision s seq (before ++ r :: after) o left →
        Decision s seq (before ++ after) o' left' → o = o') := by
  refine ⟨?_, ?_, ?_, ?_, ?_⟩
  · intro s seq r
    refine ⟨⟨(ignored_or_settles s seq r).resolve_left, ?_⟩, fun x y => settles_unique⟩
    rintro ⟨x, hx⟩
    exact not_ignored_of_settles hx
  · intro c sent d seq hfree hreq
    obtain ⟨outcome, left, h⟩ := exists_decision sent.socket seq sent.socket.inbox
    exact ⟨outcome, left, h, (query_of_request hfree hreq).trans (await_of_decision h)⟩
  · intro c sent name r d seq hfind hcall hsent
    obtain ⟨outcome, left, h⟩ := exists_decision sent.socket seq sent.socket.inbox
    exact ⟨outcome, left, h, poll_of_decision hfind hcall hsent h⟩
  · intro s seq inbox left left' o o' h h'
    exact Prod.mk.inj ((search_of_decision h).symm.trans (search_of_decision h'))
  · intro s seq before after left left' r o o' hr h h'
    have hs := search_insert_ignored hr before after
    rwa [search_of_decision h, search_of_decision h'] at hs

def sampleRefusal (seq : UInt32) : Message :=
  ⟨⟨36, Message.errorType, 0, seq, 0⟩, Bytes.little 4 4294967280 ++ List.replicate 16 0⟩

def sampleBytes (seq : UInt32) : Bytes :=
  (sampleRefusal seq).header.encode ++ (sampleRefusal seq).payload

/-- A late refusal of another request, the refusal of request 1, and a failure will be received by
a query that has not been gone on with. -/
def sampleChannel : Channel :=
  { socket := {
      port := 4242
      acknowledges := false
      inbox := [.ok (sampleBytes 7), .ok (sampleBytes 1), .error (.os 4)] }
    calls := [⟨5, .query (.netfilter 3 2 0 0 7), .fresh⟩] }

theorem next_sampleBytes (seq : UInt32) :
    Message.next (sampleBytes seq) = some (.ok (sampleRefusal seq), []) := by
  have h := Message.next_encode_append (sampleRefusal seq) rfl (by simp [sampleRefusal]) []
  rwa [List.append_nil] at h

theorem sample_decision (s : Socket) (hp : s.patient = false) (hr : s.room = none)
    (after : List Receipt) :
    Decision s 1 (.ok (sampleBytes 7) :: .ok (sampleBytes 1) :: after) (.error (.kernel 16)) after := by
  have hlate : Ignored s 1 (.ok (sampleBytes 7)) := by
    rw [Ignored, hr]
    refine .inr (.datagram (by decide) (.cons (next_sampleBytes 7) (.nil [])) ?_ nofun nofun)
    intro m hm
    rw [List.mem_singleton.1 hm]
    exact fun h => absurd h.2 (by decide)
  have hcode : Message.errorCode (sampleRefusal 1).payload = .ok (-16) := by
    have hsplit : Bytes.split? 4 (sampleRefusal 1).payload =
        some (Bytes.little 4 4294967280, List.replicate 16 0) := rfl
    have hlittle : Bytes.ofLittle (Bytes.little 4 4294967280) = 4294967280 :=
      Bytes.ofLittle_little_of_lt (by decide)
    simp only [Message.errorCode, hsplit, hlittle]
    rfl
  have hown : Settles s 1 (.ok (sampleBytes 1)) (.error (.kernel 16)) := by
    rw [Settles, hp, hr]
    exact ⟨rfl, .refused (by decide) (.nil (sampleBytes 1)) (by simp) (next_sampleBytes 1)
      ⟨rfl, rfl⟩ hcode (by decide)⟩
  exact .settled [.ok (sampleBytes 7)] after (by simpa using hlate) hown

theorem query_decision_law_sampleChannel :
    sampleChannel.turn.holder = none ∧
      (sampleChannel.request (.netfilter 3 2 0 0 7)).1 = .ok 1 ∧
      sampleChannel.query (.netfilter 3 2 0 0 7) = (.error (.kernel 16),
        (sampleChannel.request (.netfilter 3 2 0 0 7)).2.withInbox [.error (.os 4)]) ∧
      (sampleChannel.poll 5).1 = some (.error (.kernel 16)) := by
  obtain ⟨-, hquery, hpoll, hunique, -⟩ := query_decision_law
  obtain ⟨o, left, ho, hq⟩ := hquery sampleChannel
    (sampleChannel.request (.netfilter 3 2 0 0 7)).2 (.netfilter 3 2 0 0 7) 1 rfl rfl
  obtain ⟨rfl, rfl⟩ := hunique _ _ _ _ _ _ _ ho (sample_decision _ rfl rfl [.error (.os 4)])
  obtain ⟨o, left, ho, hp, -⟩ := hpoll sampleChannel
    (request { sampleChannel with turn := sampleChannel.turn.request 5 } (.netfilter 3 2 0 0 7)).2
    5 _ _ 1 rfl rfl (.now rfl nofun rfl rfl)
  obtain ⟨rfl, rfl⟩ := hunique _ _ _ _ _ _ _ ho (sample_decision _ rfl rfl [.error (.os 4)])
  exact ⟨rfl, rfl, hq, hp⟩

end Channel

end Netfilter
