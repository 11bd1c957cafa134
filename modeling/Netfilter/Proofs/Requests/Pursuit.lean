import Netfilter.Proofs.Requests.Letters
import Netfilter.Proofs.Traffic.Answers

/-!
# Pursuing a request

A request that is pursued is gone on with again and again, until it is over or
is given up. Between two looks anything may happen to the channel in which its
owner has no hand. Whatever comes of a request, the channel stays open or closed
as it was, and it has sent one datagram at most. A query is a request that is
looked at twice and then given up.
-/

namespace Netfilter

/-- One moment of a request: it is gone on with, or the channel becomes as `world` in everything
in which its owner has no hand. -/
inductive Moment
  | look
  | meanwhile (world : Channel)

inductive Headway
  | unsent
  /-- The request was sent under this number. -/
  | awaiting (seq : UInt32)
  /-- The request is over. It was sent under this number, if it was sent. -/
  | ended (seq? : Option UInt32) (result : Except Error Unit)

namespace Headway

def seq? : Headway → Option UInt32
  | unsent => none
  | awaiting seq => some seq
  | ended seq? _ => seq?

/-- What comes of a request that is given up now, if it is not over. -/
def outcome : Headway → Outcome Unit
  | ended _ result => .ofExcept result
  | unsent | awaiting _ => .pending

def answer (operation : String) (h : Headway) : Outcome Unit :=
  h.outcome.mapError (·.during operation)

def isAcknowledged : Headway → Bool
  | ended _ (.ok ()) => true
  | _ => false

theorem isAcknowledged_iff (h : Headway) : h.isAcknowledged = true ↔ h.outcome = .ok () := by
  cases h with
  | unsent | awaiting seq => exact ⟨nofun, nofun⟩
  | ended seq? result =>
      cases result with
      | ok u => exact ⟨fun _ => rfl, fun _ => rfl⟩
      | error e => exact ⟨nofun, nofun⟩

theorem isAcknowledged_iff_answer (operation : String) (h : Headway) :
    h.isAcknowledged = true ↔ h.answer operation = .ok () := by
  rw [isAcknowledged_iff, answer]
  cases h.outcome with
  | ok u => exact iff_of_true rfl rfl
  | error e | pending => exact iff_of_false nofun nofun

def datagrams (d : Draft) (port : UInt32) (h : Headway) : List Bytes :=
  (h.seq?.map fun seq => { Channel.asking d with seq, port }.finish).toList

end Headway

namespace Channel

def advance (c : Channel) (d : Draft) : Headway → Headway × Channel
  | .unsent =>
      if c.turn.holder.isSome then (.unsent, c)
      else
        match c.request d with
        | (.error e, c) => (.ended none (.error e), c)
        | (.ok seq, c) => (.awaiting seq, c)
  | .awaiting seq =>
      match c.await seq with
      | (.ok (), c) => (.ended (some seq) (.ok ()), c)
      | (.error e, c) => (.ended (some seq) (.error e), c)
      | (.pending, c) => (.awaiting seq, c)
  | .ended seq? result => (.ended seq? result, c)

def live (d : Draft) (p : Headway × Channel) : Moment → Headway × Channel
  | .look => p.2.advance d p.1
  | .meanwhile world => (p.1, p.2.amid world)

def pursue (c : Channel) (d : Draft) (course : List Moment) : Headway × Channel :=
  course.foldl (live d) (.unsent, c)

inductive Advances (c : Channel) (d : Draft) : Headway → Headway × Channel → Prop
  | done {seq? : Option UInt32} {result : Except Error Unit} :
      Advances c d (.ended seq? result) (.ended seq? result, c)
  | busy : Advances c d .unsent (.unsent, c)
  | refused {e : Error} {c' : Channel} (request : c.request d = (.error e, c')) :
      Advances c d .unsent (.ended none (.error e), c')
  | sent {seq : UInt32} {c' : Channel} (free : c.turn.holder = none)
      (request : c.request d = (.ok seq, c')) : Advances c d .unsent (.awaiting seq, c')
  | waits {seq : UInt32} {c' : Channel} (await : c.await seq = (.pending, c')) :
      Advances c d (.awaiting seq) (.awaiting seq, c')
  | settled {seq : UInt32} {result : Except Error Unit} {c' : Channel}
      (await : c.await seq = (.ofExcept result, c')) :
      Advances c d (.awaiting seq) (.ended (some seq) result, c')

theorem advances (c : Channel) (d : Draft) (h : Headway) :
    Advances c d h (c.advance d h) := by
  cases h with
  | ended seq? result => exact .done
  | awaiting seq =>
      rcases hawait : c.await seq with ⟨outcome, c'⟩
      simp only [advance, hawait]
      cases outcome with
      | ok u =>
          have hsettled : c.await seq = (.ofExcept (.ok u), c') := hawait
          exact .settled hsettled
      | error e =>
          have hsettled : c.await seq = (.ofExcept (.error e), c') := hawait
          exact .settled hsettled
      | pending => exact .waits hawait
  | unsent =>
      cases hholder : c.turn.holder with
      | some i =>
          simp only [advance, hholder, Option.isSome_some, if_true]
          exact .busy
      | none =>
          rcases hrequest : c.request d with ⟨result, c'⟩
          simp only [advance, hholder, Option.isSome_none, Bool.false_eq_true, if_false, hrequest]
          cases result with
          | error e => exact .refused hrequest
          | ok seq => exact .sent hholder hrequest

theorem isOpen_of_request {c c' : Channel} {d : Draft} {seq : UInt32}
    (h : c.request d = (.ok seq, c')) : c.isOpen = true := by
  unfold request at h
  split at h
  · assumption
  · cases h

structure Bears (before : Channel) (d : Draft) (h : Headway) (c : Channel) : Prop where
  isOpen : c.isOpen = before.isOpen
  owned : c.owned = before.owned
  turn : c.turn = before.turn
  calls : c.calls = before.calls
  port : c.socket.port = before.socket.port
  drops : c.socket.drops = before.socket.drops
  sent : c.socket.sent = before.socket.sent ++ h.datagrams d before.port
  /-- Only a request that was sent is acknowledged. -/
  acknowledged : h.isAcknowledged = true → h.seq?.isSome = true
  /-- A request is sent on an open channel, when it is nobody's turn. -/
  free : h.seq?.isSome = true → before.isOpen = true ∧ before.turn.holder = none

section

variable {before c : Channel} {d : Draft} {h : Headway}

theorem bears_unsent (c : Channel) (d : Draft) : c.Bears d .unsent c :=
  ⟨rfl, rfl, rfl, rfl, rfl, rfl, (List.append_nil _).symm, nofun, nofun⟩

theorem Bears.amid (hb : before.Bears d h c) (world : Channel) : before.Bears d h (c.amid world) :=
  ⟨hb.isOpen, hb.owned, hb.turn, hb.calls, hb.port, hb.drops, hb.sent, hb.acknowledged, hb.free⟩

theorem Bears.await {seq : UInt32} (hb : before.Bears d (.awaiting seq) c) :
    before.Bears d (.awaiting seq) (c.await seq).2 :=
  hb.amid { c with socket := (c.await seq).2.socket }

theorem Bears.advance (hb : before.Bears d h c) :
    before.Bears d (c.advance d h).1 (c.advance d h).2 := by
  have hadvances := c.advances d h
  generalize c.advance d h = advanced at hadvances ⊢
  -- a request sends once at most, when it is gone on with for the first time
  cases hadvances with
  | done => exact hb
  | busy => exact hb
  | refused request =>
      rcases c.request_cases d with ⟨e', faults, next, hr, -, -⟩ | ⟨faults, codes, hr⟩
      · obtain ⟨-, rfl⟩ := Prod.mk.inj (request.symm.trans hr)
        exact ⟨hb.isOpen, hb.owned, hb.turn, hb.calls, hb.port, hb.drops, hb.sent, nofun, nofun⟩
      · cases request.symm.trans hr
  | sent free request =>
      have hopen := isOpen_of_request request
      rcases c.request_cases d with ⟨e', faults, next, hr, -, -⟩ | ⟨faults, codes, hr⟩
      · cases request.symm.trans hr
      · cases request.symm.trans hr
        have hsent : c.socket.sent = before.socket.sent := by
          rw [hb.sent]
          exact List.append_nil _
        refine ⟨hb.isOpen, hb.owned, hb.turn, hb.calls, hb.port, hb.drops, ?_, nofun,
          fun _ => ⟨hb.isOpen ▸ hopen, hb.turn ▸ free⟩⟩
        change c.socket.sent ++ [c.stamped (asking d)] = _
        rw [hsent, stamped, Channel.port, hb.port]
        rfl
  | waits await =>
      have hawait := hb.await
      rwa [await] at hawait
  | settled await =>
      have hawait := hb.await
      rw [await] at hawait
      exact ⟨hawait.isOpen, hawait.owned, hawait.turn, hawait.calls, hawait.port, hawait.drops,
        hawait.sent, fun _ => rfl, hawait.free⟩

theorem bears_pursue (c : Channel) (d : Draft) (course : List Moment) :
    c.Bears d (c.pursue d course).1 (c.pursue d course).2 := by
  have hrun (p : Headway × Channel) (hp : c.Bears d p.1 p.2) :
      c.Bears d (course.foldl (live d) p).1 (course.foldl (live d) p).2 := by
    induction course generalizing p with
    | nil => exact hp
    | cons moment course ih =>
        refine ih _ ?_
        cases moment with
        | look => exact hp.advance
        | meanwhile world => exact hp.amid world
  exact hrun (.unsent, c) (c.bears_unsent d)

end

/-- Request `d` has come so far on channel `before`, and nothing else has happened to it: a number
may have been taken, the socket has taken the datagram of the request if it was sent, and some of
what was received has been read. -/
structure Spends (before : Channel) (d : Draft) (h : Headway) (c : Channel) : Prop where
  same : ∃ nextSeq sendFaults codes sent inbox, c = { before with
    nextSeq
    socket := { before.socket with sendFaults, codes, sent, inbox } }
  nextSeq : c.nextSeq = before.nextSeq ∨ c.nextSeq = before.nextSeq + 1
  fresh : h = .unsent → c = before
  sent : c.socket.sent = before.socket.sent ++ h.datagrams d before.port
  inbox : ∃ read, before.socket.inbox ++
    (h.datagrams d before.port).flatMap before.socket.answerTo = read ++ c.socket.inbox

section

variable {before c : Channel} {d : Draft} {h : Headway}

theorem spends_unsent (c : Channel) (d : Draft) : c.Spends d .unsent c :=
  ⟨⟨c.nextSeq, c.socket.sendFaults, c.socket.codes, c.socket.sent, c.socket.inbox, rfl⟩, .inl rfl,
    fun _ => rfl, (List.append_nil _).symm, [], by simp [Headway.datagrams, Headway.seq?]⟩

/-- Waiting reads a beginning of the inbox. -/
theorem exists_read (c : Channel) (seq : UInt32) :
    ∃ read left, c.socket.inbox = read ++ left ∧ (c.await seq).2 = c.withInbox left := by
  obtain ⟨outcome, left, hdecision⟩ :=
    Acknowledgement.exists_decision c.socket seq c.socket.inbox
  have hawait := congrArg Prod.snd (await_of_decision hdecision)
  generalize c.socket.inbox = inbox at hdecision ⊢
  cases hdecision with
  | waits ignored => exact ⟨inbox, [], (List.append_nil _).symm, hawait⟩
  | @settled front after r x ignored settles => exact ⟨front ++ [r], left, by simp, hawait⟩

theorem Spends.await {seq : UInt32} (hs : before.Spends d (.awaiting seq) c) :
    before.Spends d (.awaiting seq) (c.await seq).2 := by
  obtain ⟨more, left, hmore, hawait⟩ := c.exists_read seq
  obtain ⟨read, hread⟩ := hs.inbox
  obtain ⟨nextSeq, sendFaults, codes, sent, inbox, rfl⟩ := hs.same
  rw [hawait]
  refine ⟨⟨nextSeq, sendFaults, codes, sent, left, rfl⟩, hs.nextSeq, nofun, hs.sent,
    read ++ more, ?_⟩
  rw [hread, hmore, List.append_assoc]
  rfl

theorem Spends.advance (hs : before.Spends d h c) :
    before.Spends d (c.advance d h).1 (c.advance d h).2 := by
  have hadvances := c.advances d h
  generalize c.advance d h = advanced at hadvances ⊢
  cases hadvances with
  | done => exact hs
  | busy => exact hs
  | refused request =>
      obtain rfl := hs.fresh rfl
      rcases c.request_cases d with ⟨e', faults, next, hr, hnext, -⟩ | ⟨faults, codes, hr⟩
      · obtain ⟨-, rfl⟩ := Prod.mk.inj (request.symm.trans hr)
        exact ⟨⟨next, faults, _, _, _, rfl⟩, hnext, nofun, hs.sent, hs.inbox⟩
      · cases request.symm.trans hr
  | sent free request =>
      obtain rfl := hs.fresh rfl
      rcases c.request_cases d with ⟨e', faults, next, hr, -, -⟩ | ⟨faults, codes, hr⟩
      · cases request.symm.trans hr
      · cases request.symm.trans hr
        refine ⟨⟨_, faults, codes, _, _, rfl⟩, .inr rfl, nofun, rfl, [], ?_⟩
        exact congrArg (c.socket.inbox ++ ·) (List.flatMap_singleton _ _)
  | waits await =>
      have hawait := hs.await
      rwa [await] at hawait
  | settled await =>
      have hawait := hs.await
      rw [await] at hawait
      exact ⟨hawait.same, hawait.nextSeq, nofun, hawait.sent, hawait.inbox⟩

theorem spends_pursue (c : Channel) (d : Draft) (looks : Nat) :
    c.Spends d (c.pursue d (List.replicate looks .look)).1
      (c.pursue d (List.replicate looks .look)).2 := by
  have hrun (p : Headway × Channel) (hp : c.Spends d p.1 p.2) :
      c.Spends d ((List.replicate looks Moment.look).foldl (live d) p).1
        ((List.replicate looks Moment.look).foldl (live d) p).2 := by
    induction looks generalizing p with
    | zero => exact hp
    | succ looks ih => exact ih _ hp.advance
  exact hrun (.unsent, c) (c.spends_unsent d)

end

def undisturbed : List Moment := [.look, .look]

/-- A query is a request that is given up after two looks: to be sent, and to be acknowledged. -/
theorem query_eq_pursue (c : Channel) (d : Draft) :
    c.query d = ((c.pursue d undisturbed).1.outcome, (c.pursue d undisturbed).2) := by
  change c.query d = (((c.advance d .unsent).2.advance d (c.advance d .unsent).1).1.outcome,
    ((c.advance d .unsent).2.advance d (c.advance d .unsent).1).2)
  cases hholder : c.turn.holder with
  | some i => simp [query, advance, hholder, Headway.outcome]
  | none =>
      rcases hrequest : c.request d with ⟨result, c'⟩
      cases result with
      | error e => simp [query, advance, hholder, hrequest, Headway.outcome, Outcome.ofExcept]
      | ok seq =>
          rw [query_of_request hholder hrequest]
          rcases hawait : c'.await seq with ⟨outcome, c''⟩
          cases outcome <;>
            simp [advance, hholder, hrequest, hawait, Headway.outcome, Outcome.ofExcept]

def quiet : Channel := { socket := { port := 0 } }

def obliging : Channel :=
  { socket := { port := 0, inbox := [.ok (Socket.acknowledgement (Bytes.little 4 1) 0)] } }

def granted : List Moment := [.meanwhile quiet, .look, .meanwhile obliging, .look]

theorem await_obliging (c : Channel) : ((c.amid obliging).await 1).1 = .ok () := by
  have hnext := next_acknowledgement 1 0
  have hcode : Message.errorCode (acknowledging 1 0).payload = .ok 0 := by decide
  have hdecides : Acknowledgement.Decides 1
      (.ok (Socket.acknowledgement (Bytes.little 4 1) 0)) (.ok ()) :=
    .accepted (by decide) (.nil _) nofun hnext ⟨rfl, rfl⟩ hcode
  have hdecision : Acknowledgement.Decision (c.amid obliging).socket 1
      (c.amid obliging).socket.inbox (.ok ()) [] :=
    .settled (x := .ok ()) [] [] nofun ⟨rfl, hdecides⟩
  rw [await_of_decision hdecision]

theorem request_quiet {c : Channel} (hopen : c.isOpen = true) (d : Draft) :
    ((c.amid quiet).request d).1 = .ok 1 := by
  have hopen' : (c.amid quiet).isOpen = true := hopen
  simp only [request, post, takeSeq, send, withSocket, hopen', if_true]
  rfl

theorem pursue_granted (c : Channel) (hopen : c.isOpen = true) (hfree : c.turn.holder = none)
    (d : Draft) : (c.pursue d granted).1 = .ended (some 1) (.ok ()) := by
  have hfree' : (c.amid quiet).turn.holder = none := hfree
  have hsent := request_quiet hopen d
  rcases hrequest : (c.amid quiet).request d with ⟨result, c'⟩
  obtain rfl : result = .ok 1 := by rwa [hrequest] at hsent
  have hlooked : (c.amid quiet).advance d .unsent = (.awaiting 1, c') := by
    simp only [advance, hfree', hrequest]
    rfl
  have hawait := await_obliging c'
  rcases hawaited : (c'.amid obliging).await 1 with ⟨outcome, c''⟩
  obtain rfl : outcome = .ok () := by rwa [hawaited] at hawait
  have hsettled :
      (c'.amid obliging).advance d (.awaiting 1) = (.ended (some 1) (.ok ()), c'') := by
    simp only [advance, hawaited]
  simp only [pursue, granted, List.foldl_cons, List.foldl_nil, live, hlooked, hsettled]

end Channel

namespace Links

def pursue (l : Links) (d : Draft) (course : List Moment) : Headway × Links :=
  match l.openNumber? with
  | none => (.ended none (.error .notOpen), l)
  | some i => l.onChannel i (.ended none (.error .notOpen)) (·.pursue d course)

variable {l : Links} {i : Nat} {c : Channel}

theorem isSome_openNumber? (l : Links) : l.openNumber?.isSome = l.isOpen := by
  obtain ⟨channels, current⟩ := l
  cases current with
  | none => rfl
  | some i =>
      simp only [openNumber?, isOpen, channel?, Option.filter_some, Option.bind_some]
      split <;> simp_all

theorem Uses.isOpen (h : l.Uses i c) : l.isOpen = c.isOpen := by
  simp [Links.isOpen, channel?, h.current, h.channel]

theorem Uses.pursue (h : l.Uses i c) (hopen : c.isOpen = true) (d : Draft) (course : List Moment) :
    l.pursue d course = ((c.pursue d course).1, l.put i (c.pursue d course).2) := by
  rw [Links.pursue, h.openNumber? hopen]
  exact onChannel_of_channel h.channel _ _

inductive Pursues (l : Links) (d : Draft) (course : List Moment) : Headway × Links → Prop
  | refused (isOpen : l.isOpen = false) : Pursues l d course (.ended none (.error .notOpen), l)
  | carried {i : Nat} {c : Channel} (uses : l.Uses i c) (isOpen : c.isOpen = true) :
      Pursues l d course ((c.pursue d course).1, l.put i (c.pursue d course).2)

theorem pursues (l : Links) (d : Draft) (course : List Moment) :
    l.Pursues d course (l.pursue d course) := by
  cases hnumber : l.openNumber? with
  | none =>
      have hclosed : l.isOpen = false := by rw [← isSome_openNumber?, hnumber]; rfl
      rw [pursue, hnumber]
      exact .refused hclosed
  | some i =>
      obtain ⟨c, huses, hopen⟩ := exists_of_openNumber? hnumber
      rw [huses.pursue hopen]
      exact .carried huses hopen

theorem query_eq_pursue (l : Links) (d : Draft) :
    l.query d = ((l.pursue d Channel.undisturbed).1.outcome,
      (l.pursue d Channel.undisturbed).2) := by
  cases hnumber : l.openNumber? with
  | none =>
      rw [query, pursue, hnumber]
      rfl
  | some i =>
      obtain ⟨c, huses, hopen⟩ := exists_of_openNumber? hnumber
      rw [huses.query hopen, huses.pursue hopen, c.query_eq_pursue]

/-- The links after request `d` has come so far: the same channels are there, the same one is in use
and open, and only that one may have changed, as a request changes it. -/
structure Bears (before : Links) (d : Draft) (h : Headway) (l : Links) : Prop where
  current : l.current = before.current
  isOpen : l.isOpen = before.isOpen
  length : l.channels.length = before.channels.length
  others : ∀ i, before.current ≠ some i → l.channels[i]? = before.channels[i]?
  inUse : ∀ i c, before.Uses i c → ∃ c', l.Uses i c' ∧ c.Bears d h c'

theorem bears_pursue (l : Links) (d : Draft) (course : List Moment) :
    l.Bears d (l.pursue d course).1 (l.pursue d course).2 := by
  have hpursues := l.pursues d course
  generalize l.pursue d course = pursued at hpursues ⊢
  cases hpursues with
  | refused hclosed =>
      refine ⟨rfl, rfl, rfl, fun _ _ => rfl, fun i c huses => ⟨c, huses, ?_⟩⟩
      exact { c.bears_unsent d with acknowledged := nofun, free := nofun }
  | @carried i c huses hopen =>
      have hbears := c.bears_pursue d course
      refine ⟨rfl, ?_, List.length_set, fun j hj => ?_, fun j c' huses' => ?_⟩
      · rw [(huses.put _).isOpen, huses.isOpen, hbears.isOpen]
      · have hne : i ≠ j := fun h => hj (h ▸ huses.current)
        exact List.getElem?_set_ne hne
      · obtain rfl : i = j := Option.some.inj (huses.current.symm.trans huses'.current)
        obtain rfl : c = c' := Option.some.inj (huses.channel.symm.trans huses'.channel)
        exact ⟨_, huses.put _, hbears⟩

def isFree (l : Links) : Bool := l.channel?.any fun c => c.isOpen && c.turn.holder.isNone

theorem isFree_eq_true_iff (l : Links) : l.isFree = true ↔
    ∃ i c, l.Uses i c ∧ c.isOpen = true ∧ c.turn.holder = none := by
  simp only [isFree, channel?, Option.any_eq_true, Option.bind_eq_some_iff, Bool.and_eq_true,
    Option.isNone_iff_eq_none]
  constructor
  · rintro ⟨c, ⟨i, hcurrent, hchannel⟩, hopen, hholder⟩
    exact ⟨i, c, ⟨hcurrent, hchannel⟩, hopen, hholder⟩
  · rintro ⟨i, c, huses, hopen, hholder⟩
    exact ⟨c, ⟨i, huses.current, huses.channel⟩, hopen, hholder⟩

theorem Bears.isFree {before : Links} {d : Draft} {h : Headway} (hb : before.Bears d h l) :
    l.isFree = before.isFree := by
  cases hcurrent : before.current with
  | none => simp [Links.isFree, channel?, hb.current, hcurrent]
  | some i =>
      cases hchannel : before.channels[i]? with
      | none =>
          have hnone : l.channels[i]? = none := by
            rw [List.getElem?_eq_none_iff, hb.length, ← List.getElem?_eq_none_iff, hchannel]
          simp [Links.isFree, channel?, hb.current, hcurrent, hchannel, hnone]
      | some c =>
          obtain ⟨c', huses, hbears⟩ := hb.inUse i c ⟨hcurrent, hchannel⟩
          simp [Links.isFree, channel?, huses.current, huses.channel, hcurrent, hchannel,
            hbears.isOpen, hbears.turn]

theorem isFree_of_isAcknowledged {d : Draft} {course : List Moment}
    (h : (l.pursue d course).1.isAcknowledged = true) : l.isFree = true := by
  have hpursues := l.pursues d course
  generalize l.pursue d course = pursued at h hpursues
  cases hpursues with
  | refused hclosed => cases h
  | @carried i c huses hopen =>
      have hbears := c.bears_pursue d course
      obtain ⟨-, hholder⟩ := hbears.free (hbears.acknowledged h)
      exact (isFree_eq_true_iff l).2 ⟨i, c, huses, hopen, hholder⟩

theorem isAcknowledged_granted (h : l.isFree = true) (d : Draft) :
    (l.pursue d Channel.granted).1.isAcknowledged = true := by
  obtain ⟨i, c, huses, hopen, hholder⟩ := (isFree_eq_true_iff l).1 h
  rw [huses.pursue hopen, c.pursue_granted hopen hholder]
  rfl

theorem Uses.spends_pursue (h : l.Uses i c) (d : Draft) (looks : Nat) :
    ∃ c', (l.pursue d (List.replicate looks .look)).2.Uses i c' ∧
      c.Spends d (l.pursue d (List.replicate looks .look)).1 c' := by
  have hpursues := l.pursues d (List.replicate looks .look)
  generalize l.pursue d (List.replicate looks .look) = pursued at hpursues ⊢
  cases hpursues with
  | refused hclosed => exact ⟨c, h, { c.spends_unsent d with fresh := nofun }⟩
  | @carried j c' huses hopen =>
      obtain rfl : i = j := Option.some.inj (h.current.symm.trans huses.current)
      obtain rfl : c = c' := Option.some.inj (h.channel.symm.trans huses.channel)
      exact ⟨_, huses.put _, c.spends_pursue d looks⟩

end Links

end Netfilter
