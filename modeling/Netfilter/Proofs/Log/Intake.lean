import Mathlib
import Netfilter.Proofs.Log.Next

/-!
# Feeds give every item once, and in order

While a feed is polled, and closed at some time or never, receipts arrive in the
inbox of its channel. What was given so far, followed by what is kept, are at any
moment all items of what the feed was handed out. After a receipt that is fatal,
and after the close, no more are taken; what is kept is given, and then the feed
has ended for good.
-/

namespace Netfilter.Log

open Queue (isFatal untilFatal untilFatal_append untilFatal_of_calm)

structure Intake where
  feed : Feed
  links : Links
  /-- All receipts there ever were in the inbox. -/
  arrived : List Receipt
  given : List Item := []
  wasClosed : Bool := false

inductive Incident
  | arrival (r : Receipt)
  | poll
  | close

def Incident.polls : Incident → Nat
  | .poll => 1
  | .arrival _ | .close => 0

def Next.item? : Next → Option Item
  | .item given => some given
  | .ended | .pending => none

namespace Intake

def start (link : Nat) (links : Links) (c : Channel) : Intake :=
  { feed := { link }, links, arrived := c.socket.inbox }

def after (w : Intake) : Incident → Intake
  | .arrival r =>
      { w with
        links := w.links.modify w.feed.link fun c => c.withInbox (c.socket.inbox ++ [r])
        arrived := w.arrived ++ [r] }
  | .poll =>
      let (answer, feed, links) := w.feed.next w.links
      { w with feed, links, given := w.given ++ answer.item?.toList }
  | .close =>
      let (feed, links) := w.feed.close w.links
      { w with feed, links, wasClosed := true }

def run (w : Intake) (incidents : List Incident) : Intake := incidents.foldl after w

/-- The items that are still to be given, if nothing else arrives. -/
def ahead (w : Intake) (c : Channel) : List Item :=
  w.feed.kept ++
    if w.feed.isDone then [] else (c.socket.handsOut c.socket.inbox).flatMap Item.ofReceipt

end Intake

def Next.ofItems (isDone : Bool) : List Item → Next
  | first :: _ => .item first
  | [] => if isDone then .ended else .pending

/-- The items of the receipts taken are given or kept. Nothing is taken after a fatal receipt, and
the feed is done, with its channel closed, after such a receipt or when it was told to close. The
socket hands out what it handed out `before`. -/
structure Accounted (link : Nat) (before : Socket) (w : Intake) (taken : List Receipt)
    (c : Channel) : Prop where
  link_eq : w.feed.link = link
  channel : w.links.channels[link]? = some c
  same : c.socket.handsOut = before.handsOut
  arrived : w.arrived = taken ++ c.socket.inbox
  items : w.given ++ w.feed.kept = (c.socket.handsOut taken).flatMap Item.ofReceipt
  /-- Only what was read is kept, and no failed receive. -/
  quiet : ∀ item ∈ w.feed.kept, Item.notes item = []
  calm : untilFatal (c.socket.handsOut taken) = c.socket.handsOut taken
  isDone : w.feed.isDone = (w.wasClosed || (c.socket.handsOut taken).any isFatal)
  isOpen : c.isOpen = !w.feed.isDone

namespace Accounted

variable {link : Nat} {before : Socket} {w : Intake} {taken : List Receipt} {c : Channel}

theorem arrival (h : Accounted link before w taken c) (r : Receipt) :
    Accounted link before (w.after (.arrival r)) taken (c.withInbox (c.socket.inbox ++ [r])) where
  link_eq := h.link_eq
  channel := by
    obtain rfl := h.link_eq
    exact Links.channels_modify h.channel _
  same := h.same
  arrived := by
    change w.arrived ++ [r] = taken ++ (c.socket.inbox ++ [r])
    rw [h.arrived, List.append_assoc]
  items := h.items
  quiet := h.quiet
  calm := h.calm
  isDone := h.isDone
  isOpen := h.isOpen

theorem close (h : Accounted link before w taken c) :
    ∃ c', Accounted link before (w.after .close) taken c' := by
  obtain rfl := h.link_eq
  obtain ⟨drops, hclose⟩ := c.close_eq
  have hchannel := Links.channels_modify h.channel fun c => c.close.2
  rw [hclose] at hchannel
  exact ⟨_, rfl, hchannel, h.same, h.arrived, h.items, h.quiet, h.calm, rfl, rfl⟩

theorem calm_of_going (h : Accounted link before w taken c) (hgoing : w.feed.isDone = false) :
    w.wasClosed = false ∧ ∀ r ∈ c.socket.handsOut taken, isFatal r = false := by
  have hdone := h.isDone
  rw [hgoing] at hdone
  simpa using hdone.symm

theorem poll_of_kept (h : Accounted link before w taken c) {item : Item} {kept : List Item}
    (hkept : w.feed.kept = item :: kept) :
    w.feed.next w.links = (.item item, { w.feed with kept, notes := item.notes }, w.links) ∧
      Accounted link before (w.after .poll) taken c := by
  have hquiet := h.quiet
  rw [hkept] at hquiet
  have hnext : w.feed.next w.links =
      (.item item, { w.feed with kept, notes := item.notes }, w.links) := by
    rw [hquiet item List.mem_cons_self]
    simp only [Feed.next, Feed.withNotes, hkept]
  refine ⟨hnext, ?_⟩
  simp only [Intake.after, hnext]
  refine ⟨h.link_eq, h.channel, h.same, h.arrived, ?_,
    fun k hk => hquiet k (List.mem_cons_of_mem item hk), h.calm, h.isDone, h.isOpen⟩
  rw [← h.items, hkept]
  exact List.append_assoc w.given [item] kept

theorem poll_of_done (h : Accounted link before w taken c) (hkept : w.feed.kept = [])
    (hdone : w.feed.isDone = true) :
    w.feed.next w.links = (.ended, w.feed.withNotes [], w.links) ∧
      Accounted link before (w.after .poll) taken c := by
  have hnext : w.feed.next w.links = (.ended, w.feed.withNotes [], w.links) := by
    simp only [Feed.next, Feed.withNotes, hkept, hdone, if_true]
  refine ⟨hnext, ?_⟩
  simp only [Intake.after, hnext]
  refine ⟨h.link_eq, h.channel, h.same, h.arrived, ?_, h.quiet, h.calm, h.isDone, h.isOpen⟩
  rw [← h.items]
  exact congrArg (· ++ w.feed.kept) (List.append_nil w.given)

theorem received (h : Accounted link before w taken c) (hkept : w.feed.kept = [])
    (hgoing : w.feed.isDone = false) :
    Feed.Received (w.feed.withNotes []) w.links c (w.feed.next w.links) := by
  obtain rfl := h.link_eq
  have hwaiting : (w.feed.withNotes []).waiting w.links = c.socket.inbox.length := by
    simp only [Feed.waiting, Feed.withNotes, h.channel]
    rfl
  have hopen : c.isOpen = true := by rw [h.isOpen, hgoing]; rfl
  have hnext : w.feed.next w.links =
      Feed.receiveFor (c.socket.inbox.length + 1) (w.feed.withNotes []) w.links := by
    have hkept' : (w.feed.withNotes []).kept = [] := hkept
    have hgoing' : (w.feed.withNotes []).isDone = false := hgoing
    simp only [Feed.next, hkept', hgoing', hwaiting]
    rfl
  rw [hnext]
  exact Feed.received_receiveFor h.channel hopen hkept rfl (Nat.lt_succ_self _)

theorem took (h : Accounted link before w taken c) (hkept : w.feed.kept = [])
    (hgoing : w.feed.isDone = false)
    {now later : List Receipt} (hinbox : c.socket.inbox = now ++ later) {w' : Intake} {c' : Channel}
    (hlink : w'.feed.link = w.feed.link) (hchannel : w'.links.channels[link]? = some c')
    (hsocket : ∃ drops, c'.socket = { c.socket with inbox := later, drops })
    (harrived : w'.arrived = w.arrived) (hclosed : w'.wasClosed = w.wasClosed)
    (hitems : w'.given ++ w'.feed.kept =
      w.given ++ (c.socket.handsOut now).flatMap Item.ofReceipt)
    (hquiet : ∀ item ∈ w'.feed.kept, Item.notes item = [])
    (hcalm : untilFatal (c.socket.handsOut now) = c.socket.handsOut now)
    (hdone : w'.feed.isDone = (c.socket.handsOut now).any isFatal)
    (hopen : c'.isOpen = !w'.feed.isDone) : Accounted link before w' (taken ++ now) c' := by
  obtain ⟨drops, hsocket⟩ := hsocket
  obtain ⟨hnot, hbefore⟩ := h.calm_of_going hgoing
  have hands : c'.socket.handsOut (taken ++ now) =
      c.socket.handsOut taken ++ c.socket.handsOut now := by
    rw [hsocket]
    exact c.socket.handsOut_append taken now
  have hgiven := h.items
  rw [hkept, List.append_nil] at hgiven
  refine ⟨hlink.trans h.link_eq, hchannel, ?_, ?_, ?_, hquiet, ?_, ?_, hopen⟩
  · rw [hsocket, ← h.same]
    rfl
  · rw [harrived, h.arrived, hinbox, hsocket, List.append_assoc]
  · rw [hitems, hgiven, hands, List.flatMap_append]
  · rw [hands, untilFatal_append hbefore, hcalm]
  · have hnone : (c.socket.handsOut taken).any isFatal = false := by simpa using hbefore
    rw [hdone, hclosed, hnot, hands, List.any_append, hnone]
    rfl

theorem poll_of_going (h : Accounted link before w taken c) (hkept : w.feed.kept = [])
    (hdone : w.feed.isDone = false) :
    ∃ taken' c', Accounted link before (w.after .poll) taken' c' := by
  obtain rfl := h.link_eq
  have hreceived := h.received hkept hdone
  generalize hnext : w.feed.next w.links = result at hreceived
  -- what was taken for this poll joins what was taken before, and either gives nothing, or gives
  -- items without a fatal receipt, or ends with one
  cases hreceived with
  | nothing none =>
      have hcalm := Item.calm_of_nil none
      have hnofatal : (c.socket.handsOut c.socket.inbox).any isFatal = false := by
        simpa using hcalm
      refine ⟨_, c.withInbox [], h.took hkept hdone (List.append_nil _).symm ?_ ?_
        ⟨c.socket.drops, rfl⟩ rfl rfl ?_ ?_ (untilFatal_of_calm hcalm) ?_ ?_⟩ <;>
        simp only [Intake.after, hnext, Feed.withNotes]
      · exact Links.channels_put h.channel _
      · rw [none, hkept]
        exact List.append_nil _
      · exact h.quiet
      · rw [hdone, hnofatal]
      · exact h.isOpen
  | @item now later item kept inbox gives calm quiet =>
      have hnofatal : (c.socket.handsOut now).any isFatal = false := by simpa using calm
      refine ⟨_, c.withInbox later, h.took hkept hdone inbox ?_ ?_
        ⟨c.socket.drops, rfl⟩ rfl rfl ?_ ?_ (untilFatal_of_calm calm) ?_ ?_⟩ <;>
        simp only [Intake.after, hnext, Feed.withNotes]
      · exact Links.channels_put h.channel _
      · rw [gives]
        exact List.append_assoc w.given [item] kept
      · exact quiet
      · rw [hdone, hnofatal]
      · exact h.isOpen
  | @broke now front later r item inbox gives last calm fatal =>
      obtain ⟨drops, hclose⟩ := (c.withInbox later).close_eq
      have hfatal : (c.socket.handsOut now).any isFatal = true := by simp [last, fatal]
      have huntil : untilFatal (c.socket.handsOut now) = c.socket.handsOut now := by
        rw [last, untilFatal_append calm, untilFatal, if_pos fatal]
      have hsocket : (c.withInbox later).close.2.socket =
          { c.socket with inbox := later, drops } := by rw [hclose]; rfl
      refine ⟨_, (c.withInbox later).close.2, h.took hkept hdone inbox ?_ ?_
        ⟨drops, hsocket⟩ rfl rfl ?_ ?_ huntil ?_ ?_⟩ <;>
        simp only [Intake.after, hnext, Feed.withNotes]
      · rfl
      · exact Links.channels_modify (Links.channels_put h.channel _) _
      · rw [gives]
        change w.given ++ [item] ++ w.feed.kept = _
        rw [hkept, List.append_nil]
      · exact h.quiet
      · exact hfatal.symm
      · rw [hclose]
        rfl

theorem poll (h : Accounted link before w taken c) :
    ∃ taken' c', Accounted link before (w.after .poll) taken' c' := by
  cases hkept : w.feed.kept with
  | cons item kept => exact ⟨taken, c, (h.poll_of_kept hkept).2⟩
  | nil =>
      cases hdone : w.feed.isDone with
      | true => exact ⟨taken, c, (h.poll_of_done hkept hdone).2⟩
      | false => exact h.poll_of_going hkept hdone

theorem after (h : Accounted link before w taken c) (incident : Incident) :
    ∃ taken' c', Accounted link before (w.after incident) taken' c' := by
  cases incident with
  | arrival r => exact ⟨taken, _, h.arrival r⟩
  | poll => exact h.poll
  | close =>
      obtain ⟨c', h'⟩ := h.close
      exact ⟨taken, c', h'⟩

theorem run (h : Accounted link before w taken c) (incidents : List Incident) :
    ∃ taken' c', Accounted link before (w.run incidents) taken' c' := by
  induction incidents generalizing w taken c with
  | nil => exact ⟨taken, c, h⟩
  | cons incident later ih =>
      obtain ⟨taken', c', h'⟩ := h.after incident
      exact ih h'

theorem after_of_done (h : Accounted link before w taken c) (hdone : w.feed.isDone = true)
    (incident : Incident) : ∃ c', Accounted link before (w.after incident) taken c' ∧
      (w.after incident).feed.isDone = true ∧
      (w.after incident).given = w.given ++ w.feed.kept.take incident.polls ∧
      (w.after incident).feed.kept = w.feed.kept.drop incident.polls := by
  cases incident with
  | arrival r => exact ⟨_, h.arrival r, hdone, (List.append_nil _).symm, rfl⟩
  | close =>
      obtain ⟨c', h'⟩ := h.close
      exact ⟨c', h', rfl, (List.append_nil _).symm, rfl⟩
  | poll =>
      cases hkept : w.feed.kept with
      | cons item kept =>
          obtain ⟨hnext, h'⟩ := h.poll_of_kept hkept
          refine ⟨c, h', ?_⟩
          simp only [Intake.after, hnext]
          exact ⟨hdone, rfl, rfl⟩
      | nil =>
          obtain ⟨hnext, h'⟩ := h.poll_of_done hkept hdone
          refine ⟨c, h', ?_⟩
          simp only [Intake.after, hnext]
          exact ⟨hdone, rfl, hkept⟩

/-- A feed that is done takes nothing more and gives what it has kept. -/
theorem run_of_done (h : Accounted link before w taken c) (hdone : w.feed.isDone = true)
    (incidents : List Incident) : ∃ c', Accounted link before (w.run incidents) taken c' ∧
      (w.run incidents).feed.isDone = true ∧
      (w.run incidents).given = w.given ++ w.feed.kept.take (incidents.map Incident.polls).sum ∧
      (w.run incidents).feed.kept = w.feed.kept.drop (incidents.map Incident.polls).sum := by
  induction incidents generalizing w c with
  | nil => exact ⟨c, h, hdone, (List.append_nil _).symm, rfl⟩
  | cons incident later ih =>
      obtain ⟨c', h', hdone', hgiven, hkept⟩ := h.after_of_done hdone incident
      obtain ⟨c'', h'', hdone'', hgiven', hkept'⟩ := ih h' hdone'
      refine ⟨c'', h'', hdone'', hgiven'.trans ?_, hkept'.trans ?_⟩
      · rw [hgiven, hkept, List.append_assoc, List.map_cons, List.sum_cons, List.take_add]
      · rw [hkept, List.drop_drop, List.map_cons, List.sum_cons]

/-- The answer to a poll is the next item. Without any, a feed that is not done waits, and it has
emptied its inbox then. -/
theorem next (h : Accounted link before w taken c) :
    (w.feed.next w.links).1 = Next.ofItems w.feed.isDone (w.ahead c) ∧
      ((w.feed.next w.links).1 = .pending → w.feed.kept = [] ∧
        (w.feed.next w.links).2.2.channels[link]? = some (c.withInbox [])) := by
  unfold Intake.ahead
  cases hkept : w.feed.kept with
  | cons item kept =>
      rw [(h.poll_of_kept hkept).1]
      exact ⟨rfl, nofun⟩
  | nil =>
      cases hdone : w.feed.isDone with
      | true =>
          rw [(h.poll_of_done hkept hdone).1]
          exact ⟨rfl, nofun⟩
      | false =>
          obtain rfl := h.link_eq
          have hreceived := h.received hkept hdone
          generalize w.feed.next w.links = result at hreceived ⊢
          cases hreceived with
          | nothing none =>
              rw [none]
              exact ⟨rfl, fun _ => ⟨rfl, Links.channels_put h.channel _⟩⟩
          | @item now later item kept inbox gives =>
              rw [inbox, Socket.handsOut_append, List.flatMap_append, gives]
              exact ⟨rfl, nofun⟩
          | @broke now front later r item inbox gives last calm fatal =>
              rw [inbox, Socket.handsOut_append, List.flatMap_append, gives]
              exact ⟨rfl, nofun⟩

theorem going (h : Accounted link before w taken c) (hclosed : w.wasClosed = false)
    (hcalm : ∀ r ∈ before.handsOut w.arrived, isFatal r = false) : w.feed.isDone = false := by
  rw [h.arrived, Socket.handsOut_append, ← h.same] at hcalm
  have hnone : (c.socket.handsOut taken).any isFatal = false := by
    simpa using fun r hr => hcalm r (List.mem_append_left _ hr)
  rw [h.isDone, hclosed, hnone]
  rfl

/-- What was given and what is ahead are all items of what has arrived. -/
theorem given_append_ahead (h : Accounted link before w taken c) (hgoing : w.feed.isDone = false) :
    w.given ++ w.ahead c = (before.handsOut w.arrived).flatMap Item.ofReceipt := by
  rw [Intake.ahead, hgoing, ← List.append_assoc, h.items, h.arrived, ← h.same,
    Socket.handsOut_append, List.flatMap_append]
  rfl

theorem given_poll (h : Accounted link before w taken c) :
    (w.after .poll).given = w.given ++ (w.ahead c).take 1 := by
  change w.given ++ (w.feed.next w.links).1.item?.toList = _
  rw [h.next.1]
  cases w.ahead c with
  | nil => cases w.feed.isDone <;> rfl
  | cons item later => rfl

/-- Each poll gives one more item of what has arrived, as long as there is one. -/
theorem given_polls (h : Accounted link before w taken c) (hclosed : w.wasClosed = false)
    (hcalm : ∀ r ∈ before.handsOut w.arrived, isFatal r = false) (n : Nat) :
    (w.run (List.replicate n .poll)).given =
      ((before.handsOut w.arrived).flatMap Item.ofReceipt).take (w.given.length + n) := by
  have htotal := h.given_append_ahead (h.going hclosed hcalm)
  induction n generalizing w taken c with
  | zero =>
      rw [← htotal, Nat.add_zero, List.take_left]
      rfl
  | succ n ih =>
      obtain ⟨taken', c', h'⟩ := h.after .poll
      -- nothing arrives between the polls, so the items of what has arrived stay the same
      have hlater := ih h' hclosed hcalm (h'.given_append_ahead (h'.going hclosed hcalm))
      rw [List.replicate_succ]
      refine hlater.trans ?_
      change ((before.handsOut w.arrived).flatMap Item.ofReceipt).take _ = _
      rw [h.given_poll, ← htotal]
      cases w.ahead c with
      | nil =>
          rw [List.take_nil, List.append_nil, List.take_of_length_le (Nat.le_add_right _ _),
            List.take_of_length_le (Nat.le_add_right _ _)]
      | cons item later =>
          rw [List.length_append, List.take_succ_cons, List.take_zero, List.length_singleton,
            Nat.add_assoc, Nat.add_comm 1 n]

end Accounted

theorem accounted_start {link : Nat} {links : Links} {c : Channel}
    (hc : links.channels[link]? = some c) (hopen : c.isOpen = true) :
    Accounted link c.socket (Intake.start link links c) [] c where
  link_eq := rfl
  channel := hc
  same := rfl
  arrived := rfl
  items := rfl
  quiet _ hitem := absurd hitem List.not_mem_nil
  calm := rfl
  isDone := rfl
  isOpen := hopen

/-- A feed over channel `link` gives exactly the items of what it takes. `taken` are the receipts it
has taken from the inbox of its channel, which is `c` now, and whose socket was `before`. -/
structure Exact (link : Nat) (before : Socket) (w : Intake) (taken : List Receipt) (c : Channel) :
    Prop where
  channel : w.links.channels[link]? = some c
  arrived : w.arrived = taken ++ c.socket.inbox
  /-- No item is lost, repeated or out of order. -/
  items : w.given ++ w.feed.kept = (before.handsOut taken).flatMap Item.ofReceipt
  /-- Nothing is taken after a fatal receipt. -/
  calm : untilFatal (before.handsOut taken) = before.handsOut taken
  /-- The feed is done after the close or a fatal receipt, and then the channel is closed. -/
  isDone : w.feed.isDone = (w.wasClosed || (before.handsOut taken).any isFatal)
  isOpen : c.isOpen = !w.feed.isDone
  /-- The answer to a poll is the next of the items that are kept or in the inbox. -/
  next : (w.feed.next w.links).1 = Next.ofItems w.feed.isDone (w.ahead c)
  /-- The feed waits only if nothing is kept, and with an empty inbox. -/
  waiting : (w.feed.next w.links).1 = .pending → w.feed.kept = [] ∧
    (w.feed.next w.links).2.2.channels[link]? = some (c.withInbox [])
  /-- Once the feed is done, nothing more is taken, and each poll gives one of the items kept as
  long as there are any. -/
  ended : w.feed.isDone = true → ∀ later, ∃ c', (w.run later).links.channels[link]? = some c' ∧
    (w.run later).arrived = taken ++ c'.socket.inbox ∧
    (w.run later).given = w.given ++ w.feed.kept.take (later.map Incident.polls).sum ∧
    ((w.run later).feed.next (w.run later).links).1 =
      Next.ofItems true (w.feed.kept.drop (later.map Incident.polls).sum)

theorem Accounted.exact {link : Nat} {before : Socket} {w : Intake} {taken : List Receipt}
    {c : Channel} (h : Accounted link before w taken c) : Exact link before w taken c := by
  have hitems := h.items
  have hcalm := h.calm
  have hdone := h.isDone
  rw [h.same] at hitems hcalm hdone
  refine ⟨h.channel, h.arrived, hitems, hcalm, hdone, h.isOpen, h.next.1, h.next.2, ?_⟩
  intro hdone later
  obtain ⟨c', h', hdone', hgiven, hkept⟩ := h.run_of_done hdone later
  refine ⟨c', h'.channel, h'.arrived, hgiven, ?_⟩
  rw [h'.next.1, Intake.ahead, hdone', hkept]
  exact congrArg _ (List.append_nil _)

/-- Whatever arrives, and whenever it is polled and closed, a feed over an open channel gives
exactly the items of what it takes. -/
theorem feed_exact (link : Nat) (links : Links) (c : Channel) (hc : links.channels[link]? = some c)
    (hopen : c.isOpen = true) (incidents : List Incident) :
    ∃ taken c', Exact link c.socket ((Intake.start link links c).run incidents) taken c' := by
  obtain ⟨taken, c', h⟩ := (accounted_start hc hopen).run incidents
  exact ⟨taken, c', h.exact⟩

def sampleMessage : Bytes :=
  Message.Header.encode ⟨28, Message.typeOf Subsystem.log Operation.packet.number, 0, 0, 0⟩
    ++ FamilyHeader.encode { family := 2, resource := 10 }
    ++ Attribute.encode ⟨Field.packetHeader.rawType, [8, 0, 1]⟩

def sampleEntry : Entry where
  group := 10
  family := 2
  protocol := 0x0800
  hook := 1
  mark := none
  timestamp := none
  inDevice := none
  outDevice := none
  physicalInDevice := none
  physicalOutDevice := none
  hardwareAddress := none
  userId := none
  groupId := none
  sequence := none
  globalSequence := none
  rulePrefix := none
  payload := []

/-- Two entries arrive together, notifications are lost, a datagram holds nothing, and then the
socket breaks. -/
def sampleChannel : Channel where
  socket := {
    port := 4242
    inbox := [.ok (sampleMessage ++ sampleMessage), .error (.os Errno.noBufferSpace), .ok [],
      .error .brokenPipe, .ok sampleMessage] }

def sampleIntake : Intake :=
  (Intake.start 0 { channels := [sampleChannel] } sampleChannel).run (List.replicate 5 .poll)

theorem feed_exact_sampleIntake :
    sampleChannel.isOpen = true ∧ (∃ taken c, Exact 0 sampleChannel.socket sampleIntake taken c) ∧
      sampleIntake.feed.isDone = true ∧ sampleIntake.given =
        [.ok sampleEntry, .ok sampleEntry, .error .noBuffers, .error (.io .brokenPipe)] := by
  refine ⟨rfl, feed_exact 0 { channels := [sampleChannel] } sampleChannel rfl rfl _, ?_, ?_⟩
  · cbv
  · cbv

end Netfilter.Log
