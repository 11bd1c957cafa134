import Netfilter.Proofs.Log.Intake
import Netfilter.Proofs.Log.Rollout

/-!
# The only channel of a handle

A handle that is opened once has one channel. As long as the handle has it, its
socket has been dropped once if the channel is closed, and not at all otherwise.
Requests, receives and closing keep to this, so that after the handle has been
let go of, the socket has been dropped exactly once, whatever happened before.
-/

namespace Netfilter

namespace Channel

/-- Somebody refers to the channel, no call on it is under way, and its socket, which was `before`,
has been dropped once if the channel is closed. -/
structure Tended (before : Socket) (c : Channel) : Prop where
  owned : c.owned = true
  calls : c.calls = []
  drops : c.socket.drops = before.drops + if c.isOpen then 0 else 1

variable {before : Socket} {c : Channel}

theorem Bears.tended {c' : Channel} {d : Draft} {h : Headway} (hb : c.Bears d h c')
    (ht : c.Tended before) : c'.Tended before where
  owned := hb.owned.trans ht.owned
  calls := hb.calls.trans ht.calls
  drops := by rw [hb.drops, hb.isOpen, ht.drops]

namespace Tended

theorem withInbox (h : c.Tended before) (inbox : List Receipt) :
    (c.withInbox inbox).Tended before :=
  ⟨h.owned, h.calls, h.drops⟩

theorem close (h : c.Tended before) : c.close.2.Tended before := by
  have hclose : c.close.2 = { c with
      isOpen := false
      socket := if c.isOpen then c.socket.drop else c.socket } := by
    cases hopen : c.isOpen <;> simp [Channel.close, settle, usesSocket, hopen, h.calls]
  have hdrops := h.drops
  rw [hclose]
  refine ⟨h.owned, h.calls, ?_⟩
  cases hopen : c.isOpen with
  | false =>
      rw [hopen] at hdrops
      exact hdrops
  | true =>
      rw [hopen] at hdrops
      exact congrArg (· + 1) hdrops

/-- Once the channel is let go of, its socket has been dropped, and only once. -/
theorem drops_disown (h : c.Tended before) : c.disown.socket.drops = before.drops + 1 := by
  have hdrops := h.drops
  cases hopen : c.isOpen with
  | false =>
      rw [hopen] at hdrops
      have hsame : c.disown.socket = c.socket := by
        simp [Channel.disown, settle, usesSocket, hopen, h.calls]
      rw [hsame, hdrops]
      rfl
  | true =>
      rw [hopen] at hdrops
      have hdropped : c.disown.socket = c.socket.drop := by
        simp [Channel.disown, settle, usesSocket, hopen, h.calls]
      rw [hdropped]
      exact congrArg (· + 1) hdrops

theorem setOption (h : c.Tended before) (level name value : Int) :
    (c.setOption level name value).2.Tended before := by
  obtain ⟨result, faults, options, hset⟩ := c.socket.setOption_cases level name value
  rw [Channel.setOption, withSocket]
  split_ifs
  · rw [hset]
    exact ⟨h.owned, h.calls, h.drops⟩
  · exact h

theorem tune (h : c.Tended before) (options : List (Int × Int × Int)) :
    (Links.tune options c).Tended before := by
  induction options generalizing c with
  | nil => exact h
  | cons option options ih => exact ih (h.setOption _ _ _)

end Tended

end Channel

namespace Links

/-- There is one channel, and it is in use unless it is closed. -/
structure Single (before : Socket) (l : Links) (c : Channel) : Prop where
  channels : l.channels = [c]
  tended : c.Tended before
  current : c.isOpen = true → l.current = some 0

variable {before : Socket} {l : Links} {c : Channel}

theorem single_openWith (settings : SocketSettings) (socket : Socket) :
    (({} : Links).openWith settings socket).Single socket (tune settings.options { socket }) where
  channels := rfl
  tended := Channel.Tended.tune ⟨rfl, rfl, rfl⟩ settings.options
  current _ := rfl

namespace Single

theorem channel (h : l.Single before c) : l.channels[0]? = some c := by
  rw [h.channels]
  rfl

theorem pursue (h : l.Single before c) (d : Draft) (course : List Moment) :
    ∃ c', (l.pursue d course).2.Single before c' := by
  have hpursues := l.pursues d course
  generalize l.pursue d course = pursued at hpursues ⊢
  cases hpursues with
  | refused hclosed => exact ⟨c, h⟩
  | @carried i c' huses hopen =>
      have hchannel := huses.channel
      rw [h.channels] at hchannel
      obtain ⟨rfl, rfl⟩ : i = 0 ∧ c = c' := by
        cases i with
        | zero => exact ⟨rfl, Option.some.inj hchannel⟩
        | succ i => cases hchannel
      refine ⟨(c.pursue d course).2, ?_, (c.bears_pursue d course).tended h.tended,
        fun _ => huses.current⟩
      rw [put, h.channels]
      rfl

theorem isOpen_of_isOpen (h : l.Single before c) (hclosed : l.isOpen = false) :
    c.isOpen = false := by
  cases hopen : c.isOpen with
  | false => rfl
  | true =>
      rw [isOpen, channel?, h.current hopen, Option.bind_some, h.channel] at hclosed
      exact hopen.symm.trans hclosed

theorem isOpen_of_ne (h : l.Single before c) (hne : l.current ≠ some 0) : c.isOpen = false := by
  cases hopen : c.isOpen with
  | false => rfl
  | true => exact absurd (h.current hopen) hne

theorem close (h : l.Single before c) : ∃ c', l.close.Single before c' ∧ c'.isOpen = false := by
  have hclosed {c' : Channel} (hno : c'.isOpen = false) (hyes : c'.isOpen = true) :
      l.close.current = some 0 := by
    rw [hno] at hyes
    cases hyes
  cases hcurrent : l.current with
  | none =>
      have hno := h.isOpen_of_ne (by rw [hcurrent]; exact nofun)
      exact ⟨c, ⟨by rw [Links.close, hcurrent, h.channels], h.tended, hclosed hno⟩, hno⟩
  | some i =>
      cases i with
      | zero =>
          obtain ⟨drops, hclose⟩ := c.close_eq
          have hno : c.close.2.isOpen = false := by rw [hclose]
          refine ⟨c.close.2, ⟨?_, h.tended.close, hclosed hno⟩, hno⟩
          rw [Links.close, hcurrent]
          simp [modify, h.channels]
      | succ i =>
          have hno := h.isOpen_of_ne (by rw [hcurrent]; simp)
          refine ⟨c, ⟨?_, h.tended, hclosed hno⟩, hno⟩
          rw [Links.close, hcurrent]
          simp [modify, h.channels]

end Single

/-- Letting go of the only channel drops its socket. -/
theorem drops_abandon (hchannels : l.channels = [c]) (h : c.Tended before) :
    ∃ c', l.abandon.channels[0]? = some c' ∧ c'.socket.drops = before.drops + 1 := by
  refine ⟨c.disown, ?_, h.drops_disown⟩
  simp [abandon, release, sweep, hchannels, h.owned]

end Links

namespace Log

namespace Group

variable {before : Socket} {g : Group}

theorem single_bringUp (h : ∃ c, g.links.Single before c) :
    ∃ c, g.bringUp.2.links.Single before c := by
  rw [bringUp_eq_establish]
  apply keeps_establish (P := fun l => ∃ c, l.Single before c)
  · rintro l d course ⟨c, hc⟩
    exact hc.pursue d course
  · rintro l ⟨c, hc⟩
    obtain ⟨c', hc', -⟩ := hc.close
    exact ⟨c', hc'⟩
  · exact h

/-- A failed set-up closes the channel. -/
theorem isOpen_bringUp {e : Error} (h : g.bringUp.1 = .error e) : g.bringUp.2.isOpen = false := by
  rw [bringUp] at h ⊢
  generalize g.performAll (GroupOperation.bringUp g.settings) = performed at h ⊢
  obtain ⟨outcome, g'⟩ := performed
  cases outcome with
  | ok u => cases h
  | pending => cases h
  | error e => exact g'.links.isOpen_close

end Group

namespace Accounted

variable {before fresh : Socket} {w : Intake} {taken : List Receipt} {c c' : Channel}

/-- Whether a poll takes receipts or closes the channel, the channel stays the only one. -/
theorem tended_poll (h : Accounted 0 before w taken c) (hchannels : w.links.channels = [c])
    (ht : c.Tended fresh) (hc' : (w.after .poll).links.channels[0]? = some c') :
    (w.after .poll).links.channels = [c'] ∧ c'.Tended fresh := by
  have hpoll : ∃ c', (w.after .poll).links.channels = [c'] ∧ c'.Tended fresh := by
    cases hkept : w.feed.kept with
    | cons item kept =>
        refine ⟨c, ?_, ht⟩
        simp only [Intake.after, (h.poll_of_kept hkept).1, hchannels]
    | nil =>
        cases hdone : w.feed.isDone with
        | true =>
            refine ⟨c, ?_, ht⟩
            simp only [Intake.after, (h.poll_of_done hkept hdone).1, hchannels]
        | false =>
            have hlink := h.link_eq
            have hreceived := h.received hkept hdone
            generalize hnext : w.feed.next w.links = result at hreceived
            cases hreceived with
            | nothing none =>
                refine ⟨c.withInbox [], ?_, ht.withInbox []⟩
                simp [Intake.after, hnext, Feed.withNotes, Links.put, hlink, hchannels]
            | @item now later item kept inbox gives calm =>
                refine ⟨c.withInbox later, ?_, ht.withInbox later⟩
                simp [Intake.after, hnext, Feed.withNotes, Links.put, hlink, hchannels]
            | @broke now front later r item inbox gives last calm fatal =>
                refine ⟨(c.withInbox later).close.2, ?_, (ht.withInbox later).close⟩
                simp [Intake.after, hnext, Feed.withNotes, Links.put, hlink, hchannels, Feed.close,
                  Links.modify]
  obtain ⟨c'', hchannels', ht'⟩ := hpoll
  rw [hchannels'] at hc' ⊢
  obtain rfl : c'' = c' := Option.some.inj hc'
  exact ⟨rfl, ht'⟩

theorem tended_arrival (h : Accounted 0 before w taken c) (hchannels : w.links.channels = [c])
    (ht : c.Tended fresh) (r : Receipt) :
    (w.after (.arrival r)).links.channels = [c.withInbox (c.socket.inbox ++ [r])] ∧
      (c.withInbox (c.socket.inbox ++ [r])).Tended fresh := by
  refine ⟨?_, ht.withInbox _⟩
  simp [Intake.after, Links.modify, h.link_eq, hchannels]

end Accounted

end Log

end Netfilter
