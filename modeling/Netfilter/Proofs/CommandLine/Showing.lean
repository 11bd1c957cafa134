import Netfilter.Proofs.CommandLine.Answering
import Netfilter.Proofs.Log.Shown
import Netfilter.Proofs.Log.Tending

/-!
# Every entry is shown, up to the first failure

The command that shows log entries asks its feed for one item after the other.
An entry becomes a line, lost notifications are noted and nothing is printed for
them, and anything else is a failure, after which nothing is shown any more, even
if there are entries that the feed has kept. What is shown depends on the
receipts alone, and not on when they arrive.
-/

namespace Netfilter

namespace CommandLine

open Log (Accounted Entry Feed Intake Item entriesOf firstFailure? untilFailure)
open Queue (Tick arrivalsOf arrivalsOf_append)

namespace LogArguments

structure Showing where
  feed : Feed
  links : Links
  pieces : List Piece := []
  result : Option (Except (List String) Unit) := none

def turn (a : LogArguments) (format : Format) (s : Showing) : Showing :=
  match s.result with
  | some _ => s
  | none =>
      match s.feed.next s.links with
      | (.item (.ok e), feed, links) =>
          { feed, links
            pieces := s.pieces ++
              (feed.notes.map .note ++ [.line (Line.ofEntry format a.prefixOnly e)]) }
      | (.item (.error e), feed, links) =>
          if e.isNoBuffers then
            { feed, links, pieces := s.pieces ++ (feed.notes.map .note ++ [.note entriesLost]) }
          else
            { feed, links, pieces := s.pieces ++ feed.notes.map .note
              result := some (.error e.causes) }
      | (.ended, feed, links) =>
          { feed, links := (feed.close links).2, pieces := s.pieces ++ feed.notes.map .note
            result := some (.ok ()) }
      | (.pending, feed, links) => { feed, links, pieces := s.pieces ++ feed.notes.map .note }

def tick (a : LogArguments) (format : Format) (s : Showing) : Tick → Showing
  | .turn => a.turn format s
  | .arrival r => { s with links := arrival r s.links }

def attend (a : LogArguments) (format : Format) (s : Showing) (ticks : List Tick) : Showing :=
  ticks.foldl (a.tick format) s

/-- What is shown of an item: what the feed notes, and then the line of an entry, or the note that
entries were lost. -/
def piecesOf (a : LogArguments) (format : Format) (item : Item) : List Piece :=
  item.notes.map .note ++
    match item with
    | .ok e => [.line (Line.ofEntry format a.prefixOnly e)]
    | .error e => if e.isNoBuffers then [.note entriesLost] else []

def piecesFor (a : LogArguments) (format : Format) (items : List Item) : List Piece :=
  (untilFailure items).flatMap (a.piecesOf format)

theorem piecesFor_append {front : List Item} (h : firstFailure? front = none) (a : LogArguments)
    (format : Format) (items : List Item) :
    a.piecesFor format (front ++ items) = a.piecesFor format front ++ a.piecesFor format items := by
  have hfront := Log.untilFailure_append h []
  rw [List.append_nil, untilFailure, List.append_nil] at hfront
  rw [piecesFor, Log.untilFailure_append h, List.flatMap_append, piecesFor, hfront, piecesFor]

theorem piecesFor_singleton (a : LogArguments) (format : Format) (item : Item) :
    a.piecesFor format [item] = a.piecesOf format item := by
  rw [piecesFor, Log.untilFailure_singleton, List.flatMap_singleton]

theorem piecesFor_prefix (a : LogArguments) (format : Format) (front items : List Item) :
    a.piecesFor format front <+: a.piecesFor format (front ++ items) := by
  obtain ⟨later, hlater⟩ := Log.untilFailure_prefix front items
  rw [piecesFor, piecesFor, ← hlater, List.flatMap_append]
  exact List.prefix_append _ _

theorem lines_piecesOf (a : LogArguments) (format : Format) (item : Item) :
    (a.piecesOf format item).filterMap Piece.line? =
      (item.entry?.map (Line.ofEntry format a.prefixOnly)).toList := by
  unfold piecesOf
  rw [List.filterMap_append, Piece.lines_notes, List.nil_append]
  cases item with
  | ok e => rfl
  | error e =>
      dsimp only
      split_ifs <;> rfl

/-- Only entries are printed, each on a line. -/
theorem lines_piecesFor (a : LogArguments) (format : Format) (items : List Item) :
    (a.piecesFor format items).filterMap Piece.line? =
      (entriesOf items).map (Line.ofEntry format a.prefixOnly) := by
  rw [piecesFor, List.filterMap_flatMap, Log.entriesOf_eq, List.map_filterMap,
    List.filterMap_eq_flatMap_toList]
  congr 1
  funext item
  exact a.lines_piecesOf format item

variable {a : LogArguments} {format : Format} {fresh before : Socket} {s : Showing} {w : Intake}
  {taken : List Receipt} {c : Channel}

/-- The feed is accounted for. What was given up to the first failure is shown, and the command has
ended if there was one. There is no channel but that of the feed. -/
structure Shows (a : LogArguments) (format : Format) (fresh before : Socket) (s : Showing)
    (w : Intake) (taken : List Receipt) (c : Channel) : Prop where
  feed : w.feed = s.feed
  links : w.links = s.links
  accounted : Accounted 0 before w taken c
  pieces : s.pieces = a.piecesFor format w.given
  result : s.result = (firstFailure? w.given).map fun e => .error e.causes
  going : s.result = none → s.feed.isDone = false
  channels : s.links.channels = [c]
  tended : c.Tended fresh

/-- What is shown of one item, and how it ends the command if it does. -/
theorem turn_of_item (a : LogArguments) (format : Format) {item : Item} {feed : Feed}
    {links : Links} (hs : s.result = none) (hnext : s.feed.next s.links = (.item item, feed, links))
    (hnotes : feed.notes = item.notes) :
    a.turn format s =
      { feed, links
        pieces := s.pieces ++ a.piecesOf format item
        result := item.failure?.map fun e => .error e.causes } := by
  cases item with
  | ok e =>
      simp only [turn, hs, hnext, hnotes]
      rfl
  | error e =>
      cases hlost : e.isNoBuffers <;>
        simp [turn, hs, hnext, hnotes, hlost, piecesOf, Item.failure?]

theorem turn_of_pending (a : LogArguments) (format : Format) {feed : Feed} {links : Links}
    (hs : s.result = none) (hnext : s.feed.next s.links = (.pending, feed, links))
    (hnotes : feed.notes = []) : a.turn format s = { s with feed, links } := by
  simp only [turn, hs, hnext, hnotes, List.map_nil, List.append_nil]

namespace Shows

theorem arrival (h : Shows a format fresh before s w taken c) (r : Receipt) :
    Shows a format fresh before (a.tick format s (.arrival r)) (w.after (.arrival r)) taken
      (c.withInbox (c.socket.inbox ++ [r])) := by
  have hlinks : (w.after (.arrival r)).links = (a.tick format s (.arrival r)).links := by
    simp only [Intake.after, h.accounted.link_eq, h.links]
    rfl
  obtain ⟨hchannels, htended⟩ :=
    h.accounted.tended_arrival (h.links ▸ h.channels) h.tended r
  exact ⟨h.feed, hlinks, h.accounted.arrival r, h.pieces, h.result, h.going, hlinks ▸ hchannels,
    htended⟩

theorem firstFailure?_eq (h : Shows a format fresh before s w taken c) (hs : s.result = none) :
    firstFailure? w.given = none := by
  have hresult := h.result
  rw [hs] at hresult
  exact Option.map_eq_none_iff.1 hresult.symm

theorem next_eq (h : Shows a format fresh before s w taken c) :
    w.feed.next w.links = s.feed.next s.links := by
  rw [h.feed, h.links]

/-- A poll of the feed, whatever is made of its answer. -/
theorem poll (h : Shows a format fresh before s w taken c) {s' : Showing}
    (hfeed : (w.after .poll).feed = s'.feed) (hlinks : (w.after .poll).links = s'.links)
    (hpieces : s'.pieces = a.piecesFor format (w.after .poll).given)
    (hresult : s'.result = (firstFailure? (w.after .poll).given).map fun e => .error e.causes)
    (hgoing : s'.result = none → s'.feed.isDone = false) :
    ∃ taken' c', Shows a format fresh before s' (w.after .poll) taken' c' := by
  obtain ⟨taken', c', haccounted⟩ := h.accounted.poll
  obtain ⟨hchannels, htended⟩ := h.accounted.tended_poll (h.links ▸ h.channels) h.tended
    haccounted.channel
  exact ⟨taken', c', hfeed, hlinks, haccounted, hpieces, hresult, hgoing, hlinks ▸ hchannels,
    htended⟩

inductive Turned (a : LogArguments) (format : Format) (s : Showing) (w : Intake) (c : Channel) :
    Prop
  | waits
      (next : s.feed.next s.links = (.pending, (a.turn format s).feed, (a.turn format s).links))
      (ahead : w.ahead c = []) (notes : (a.turn format s).feed.notes = [])
      (given : (w.after .poll).given = w.given)
      (pieces : (a.turn format s).pieces = s.pieces) (result : (a.turn format s).result = none) :
      Turned a format s w c
  | shows (item : Item) (later : List Item)
      (next : s.feed.next s.links = (.item item, (a.turn format s).feed, (a.turn format s).links))
      (ahead : w.ahead c = item :: later) (notes : (a.turn format s).feed.notes = item.notes)
      (given : (w.after .poll).given = w.given ++ [item])
      (pieces : (a.turn format s).pieces = s.pieces ++ a.piecesOf format item)
      (result : (a.turn format s).result = item.failure?.map fun e => .error e.causes) :
      Turned a format s w c

/-- A turn asks the feed once and does with the answer what is to be done. -/
theorem turned (h : Shows a format fresh before s w taken c) (hs : s.result = none) :
    Turned a format s w c ∧
      ∃ taken' c', Shows a format fresh before (a.turn format s) (w.after .poll) taken' c' := by
  have hcalm := h.firstFailure?_eq hs
  have hanswer : (w.after .poll).given = w.given ++ (s.feed.next s.links).1.item?.toList := by
    rw [← h.next_eq]
    rfl
  cases h.accounted.polled (h.feed ▸ h.going hs) with
  | waits next ahead notes going =>
      rw [h.next_eq] at next
      have hgiven : (w.after .poll).given = w.given := by
        rw [hanswer, next]
        exact List.append_nil _
      have hturn := turn_of_pending a format hs next notes
      generalize hs' : a.turn format s = s' at hturn ⊢
      subst hturn
      refine ⟨?_, h.poll rfl rfl (hgiven ▸ h.pieces) (hgiven ▸ h.result) fun _ => going⟩
      apply Turned.waits <;> simp only [hs', next, ahead, notes, hgiven, hs]
  | gives item later next ahead notes going =>
      rw [h.next_eq] at next
      have hturn := turn_of_item a format hs next notes
      have hgiven : (w.after .poll).given = w.given ++ [item] := by
        rw [hanswer, next]
        rfl
      generalize hs' : a.turn format s = s' at hturn ⊢
      subst hturn
      refine ⟨?_, h.poll rfl rfl ?_ ?_ fun hno => going (Option.map_eq_none_iff.1 hno)⟩
      · apply Turned.shows item later <;> simp only [hs', next, ahead, notes, hgiven]
      · rw [hgiven, piecesFor_append hcalm, piecesFor_singleton, ← h.pieces]
      · rw [hgiven, Log.firstFailure?_append, hcalm, Option.none_or, Log.firstFailure?_cons]
        cases item.failure? <;> rfl

theorem turn (h : Shows a format fresh before s w taken c) :
    ∃ w' taken' c', Shows a format fresh before (a.turn format s) w' taken' c' ∧
      w'.arrived = w.arrived := by
  cases hs : s.result with
  | none =>
      obtain ⟨-, taken', c', h'⟩ := h.turned hs
      exact ⟨_, taken', c', h', rfl⟩
  | some result =>
      have hsame : a.turn format s = s := by simp only [LogArguments.turn, hs]
      rw [hsame]
      exact ⟨w, taken, c, h, rfl⟩

/-- Whatever arrives between the turns, the invariant holds. -/
theorem attend (h : Shows a format fresh before s w taken c) (ticks : List Tick) :
    ∃ w' taken' c', Shows a format fresh before (a.attend format s ticks) w' taken' c' ∧
      w'.arrived = w.arrived ++ arrivalsOf ticks := by
  induction ticks generalizing s w taken c with
  | nil => exact ⟨w, taken, c, h, (List.append_nil _).symm⟩
  | cons t ticks ih =>
      cases t with
      | turn =>
          obtain ⟨w', taken', c', h', harrived⟩ := h.turn
          obtain ⟨w'', taken'', c'', h'', harrived'⟩ := ih h'
          exact ⟨w'', taken'', c'', h'', harrived ▸ harrived'⟩
      | arrival r =>
          obtain ⟨w'', taken'', c'', h'', harrived⟩ := ih (h.arrival r)
          refine ⟨w'', taken'', c'', h'', harrived.trans ?_⟩
          exact List.append_assoc w.arrived [r] (arrivalsOf ticks)

end Shows

structure ShownOf (a : LogArguments) (format : Format) (fresh : Socket) (items : List Item)
    (s : Showing) : Prop where
  pieces : s.pieces <+: a.piecesFor format items
  /-- The command ends with the first failure, and has shown everything up to it then. -/
  ended : ∀ result, s.result = some result → s.pieces = a.piecesFor format items ∧
    ∃ e, firstFailure? items = some e ∧ result = .error e.causes
  /-- The command waits only when it has shown everything there is. -/
  waits : s.result = none → (s.feed.next s.links).1 = .pending →
    s.pieces = a.piecesFor format items ∧ firstFailure? items = none
  /-- However the command is left, its socket is dropped once. -/
  drops : ∀ fallback, (socketOf s.links.abandon fallback).drops = fresh.drops + 1 ∧
    (socketOf (s.feed.close s.links).2.abandon fallback).drops = fresh.drops + 1

namespace Shows

theorem drops (h : Shows a format fresh before s w taken c) (fallback : Socket) :
    (socketOf s.links.abandon fallback).drops = fresh.drops + 1 ∧
      (socketOf (s.feed.close s.links).2.abandon fallback).drops = fresh.drops + 1 := by
  constructor
  · obtain ⟨c', hc', hdrops⟩ := Links.drops_abandon h.channels h.tended
    rw [socketOf_of_channel hc', hdrops]
  · have hchannels : (s.feed.close s.links).2.channels = [c.close.2] := by
      simp [Feed.close, Links.modify, ← h.feed, h.accounted.link_eq, h.channels]
    obtain ⟨c', hc', hdrops⟩ := Links.drops_abandon hchannels h.tended.close
    rw [socketOf_of_channel hc', hdrops]

/-- The command waits when it was given everything there is. -/
theorem pending_iff (h : Shows a format fresh before s w taken c) (hs : s.result = none) :
    (s.feed.next s.links).1 = .pending ↔
      w.given = (before.handsOut w.arrived).flatMap Item.ofReceipt := by
  have hgoing : w.feed.isDone = false := h.feed ▸ h.going hs
  have hnext := h.accounted.next.1
  rw [h.next_eq, hgoing] at hnext
  rw [hnext, ← h.accounted.given_append_ahead hgoing]
  cases w.ahead c with
  | nil => simp [Log.Next.ofItems]
  | cons item later => simp [Log.Next.ofItems]

theorem shownOf (h : Shows a format fresh before s w taken c) :
    ShownOf a format fresh ((before.handsOut w.arrived).flatMap Item.ofReceipt) s := by
  refine ⟨?_, fun result hs => ?_, fun hs hwaits => ?_, h.drops⟩
  · obtain ⟨later, hitems⟩ := h.accounted.given_prefix
    rw [h.pieces, ← hitems]
    exact a.piecesFor_prefix format w.given later
  · obtain ⟨later, hitems⟩ := h.accounted.given_prefix
    have hresult := h.result
    rw [hs] at hresult
    obtain ⟨e, he, rfl⟩ := Option.map_eq_some_iff.1 hresult.symm
    rw [← hitems, piecesFor, Log.untilFailure_append_of_some he]
    refine ⟨h.pieces, e, ?_, rfl⟩
    rw [Log.firstFailure?_append, he, Option.some_or]
  · -- a feed that waits has given everything, so what was given decides
    rw [← (h.pending_iff hs).1 hwaits]
    exact ⟨h.pieces, h.firstFailure?_eq hs⟩

end Shows

/-- How a command comes to its end: it has ended by itself, or it waits when nothing is left to
arrive, and is interrupted. -/
inductive Ends (s : Showing) : Except (List String) Unit → List Receipt → Links → Prop
  | itself {result : Except (List String) Unit} {unread : List Receipt}
      (ended : s.result = some result) : Ends s result unread s.links
  | interrupted (going : s.result = none) (waits : (s.feed.next s.links).1 = .pending) :
      Ends s (.ok ()) [] (s.feed.close s.links).2

/-- What the command does at once is what it does tick by tick, if receipts arrive in good time. -/
structure Plays (a : LogArguments) (format : Format) (s : Showing) (arrivals : List Receipt)
    (shown : Shown) (ticks : List Tick) : Prop where
  arrivals : arrivalsOf ticks ++ shown.2.2.1 = arrivals
  pieces : (a.attend format s ticks).pieces = s.pieces ++ shown.1
  ends : Ends (a.attend format s ticks) shown.2.1 shown.2.2.1 shown.2.2.2

theorem Plays.turn {first : List Piece} {arrivals : List Receipt} {shown : Shown}
    {ticks : List Tick} (hpieces : (a.turn format s).pieces = s.pieces ++ first)
    (h : Plays a format (a.turn format s) arrivals shown ticks) :
    Plays a format s arrivals (first ++ shown.1, shown.2) (.turn :: ticks) where
  arrivals := h.arrivals
  pieces := by
    rw [← List.append_assoc, ← hpieces]
    exact h.pieces
  ends := h.ends

theorem Plays.arrival {r : Receipt} {arrivals : List Receipt} {shown : Shown} {ticks : List Tick}
    (h : Plays a format (a.tick format s (.arrival r)) arrivals shown ticks) :
    Plays a format s (r :: arrivals) shown (.arrival r :: ticks) where
  arrivals := congrArg (r :: ·) h.arrivals
  pieces := h.pieces
  ends := h.ends

section

variable {item : Item} {fuel : Nat} {arrivals : List Receipt} {f feed : Feed} {l links : Links}

theorem showFor_of_failure {e : Error} (hitem : item.failure? = some e)
    (hnext : f.next l = (.item item, feed, links)) (hnotes : feed.notes = item.notes) :
    a.showFor format (fuel + 1) arrivals f l =
      (a.piecesOf format item, .error e.causes, arrivals, links) := by
  cases item with
  | ok e => cases hitem
  | error e' =>
      rw [Item.failure?] at hitem
      split_ifs at hitem with hlost
      obtain rfl : e' = e := Option.some.inj hitem
      simp only [showFor, hnext, hnotes, piecesOf, if_neg hlost, List.append_nil]

theorem showFor_of_calm (hitem : item.failure? = none)
    (hnext : f.next l = (.item item, feed, links)) (hnotes : feed.notes = item.notes) :
    a.showFor format (fuel + 1) arrivals f l =
      (a.piecesOf format item ++ (a.showFor format fuel arrivals feed links).1,
        (a.showFor format fuel arrivals feed links).2) := by
  cases item with
  | ok e =>
      simp only [showFor, hnext, hnotes, piecesOf, List.append_assoc]
      rfl
  | error e =>
      have hlost : e.isNoBuffers = true := by simpa [Item.failure?] using hitem
      simp only [showFor, hnext, hnotes, piecesOf, hlost, List.append_assoc]
      rfl

end

/-- With enough calls, the command goes on until it ends. -/
theorem Shows.exists_plays (h : Shows a format fresh before s w taken c) (hs : s.result = none)
    {fuel : Nat} {arrivals : List Receipt} {todo : List Item}
    (htodo : w.given ++ todo = (before.handsOut (w.arrived ++ arrivals)).flatMap Item.ofReceipt)
    (hfuel : todo.length + arrivals.length < fuel) :
    ∃ ticks, Plays a format s arrivals (a.showFor format fuel arrivals s.feed s.links) ticks := by
  -- a call that goes on takes an item or an arrival off, and so there are enough calls for the rest
  induction fuel generalizing s w taken c arrivals todo with
  | zero => cases hfuel
  | succ fuel ih =>
      obtain ⟨hturned, taken', c', h'⟩ := h.turned hs
      have htotal := h.accounted.given_append_ahead (h.feed ▸ h.going hs)
      cases hturned with
      | shows item later next ahead notes given pieces result =>
          have htodo' : todo = item :: (later ++ (before.handsOut arrivals).flatMap
              Item.ofReceipt) := by
            rw [Socket.handsOut_append, List.flatMap_append, ← htotal, List.append_assoc] at htodo
            rw [List.append_cancel_left htodo, ahead]
            rfl
          rw [htodo', ← List.singleton_append, ← List.append_assoc, ← given] at htodo
          cases hitem : item.failure? with
          | some e =>
              rw [hitem] at result
              rw [showFor_of_failure hitem next notes]
              exact ⟨[.turn], rfl, pieces, .itself result⟩
          | none =>
              rw [hitem] at result
              rw [htodo', List.length_cons] at hfuel
              obtain ⟨ticks, hplays⟩ := ih h' result htodo (by omega)
              rw [showFor_of_calm hitem next notes]
              exact ⟨.turn :: ticks, hplays.turn pieces⟩
      | waits next ahead notes given pieces result =>
          rw [ahead, List.append_nil] at htotal
          have hplays {shown : Shown} {ticks : List Tick}
              (hp : Plays a format (a.turn format s) arrivals shown ticks) :
              Plays a format s arrivals shown (.turn :: ticks) :=
            hp.turn (pieces.trans (List.append_nil _).symm)
          cases arrivals with
          | nil =>
              have hpending := (h'.pending_iff result).2 (given.trans htotal)
              simp only [showFor, next, notes]
              exact ⟨[.turn], hplays ⟨rfl, (List.append_nil _).symm, .interrupted result hpending⟩⟩
          | cons r arrivals =>
              rw [List.append_cons, ← given] at htodo
              rw [List.length_cons] at hfuel
              obtain ⟨ticks, hp⟩ := ih (h'.arrival r) result htodo (by omega)
              simp only [showFor, next, notes]
              exact ⟨.turn :: .arrival r :: ticks, hplays hp.arrival⟩

def resultOf (items : List Item) : Except (List String) Unit :=
  match firstFailure? items with
  | some e => .error e.causes
  | none => .ok ()

structure Completes (a : LogArguments) (format : Format) (fresh : Socket) (items : List Item)
    (shown : Shown) : Prop where
  pieces : shown.1 = a.piecesFor format items
  result : shown.2.1 = resultOf items
  unread : shown.2.1 = .ok () → shown.2.2.1 = []
  drops : ∀ fallback, (socketOf shown.2.2.2.abandon fallback).drops = fresh.drops + 1

theorem Shows.completes (h : Shows a format fresh before s w taken c) {arrivals : List Receipt}
    {shown : Shown} {ticks : List Tick} (hp : Plays a format s arrivals shown ticks)
    (hpieces : s.pieces = []) :
    Completes a format fresh ((before.handsOut (w.arrived ++ arrivals)).flatMap Item.ofReceipt)
      shown := by
  obtain ⟨pieces, result, unread, links⟩ := shown
  obtain ⟨w', taken', c', h', harrived⟩ := h.attend ticks
  have hshown := h'.shownOf
  have hsplit : w.arrived ++ arrivals = w'.arrived ++ unread := by
    rw [← hp.arrivals, harrived, List.append_assoc]
  have hnow : (a.attend format s ticks).pieces = pieces := by
    rw [hp.pieces, hpieces, List.nil_append]
  -- receipts left unread come after the first failure, and change nothing
  cases hp.ends with
  | itself ended =>
      obtain ⟨hall, e, he, rfl⟩ := hshown.ended _ ended
      rw [hsplit, Socket.handsOut_append, List.flatMap_append]
      refine ⟨?_, ?_, nofun, fun fallback => (hshown.drops fallback).1⟩
      · rw [piecesFor, Log.untilFailure_append_of_some he, ← piecesFor, ← hall, hnow]
      · rw [resultOf, Log.firstFailure?_append, he, Option.some_or]
  | interrupted going waits =>
      obtain ⟨hall, hcalm⟩ := hshown.waits going waits
      rw [hsplit, List.append_nil]
      refine ⟨hnow.symm.trans hall, ?_, fun _ => rfl, fun fallback => (hshown.drops fallback).2⟩
      rw [resultOf, hcalm]

theorem length_ofReceipt_cut_le (room : Option Nat) (r : Receipt) (receipts : List Receipt) :
    (Item.ofReceipt (Socket.cut room r)).length + 2 + itemBound receipts ≤
      itemBound (r :: receipts) := by
  cases r with
  | error cause =>
      simp only [Socket.cut, Item.ofReceipt, itemBound, List.length_singleton]
      omega
  | ok data =>
      obtain ⟨data', hcut, hshort⟩ : ∃ data', Socket.cut room (.ok data) = .ok data' ∧
          data'.length ≤ data.length := by
        cases room with
        | none => exact ⟨data, rfl, le_rfl⟩
        | some size => exact ⟨data.take size, rfl, List.length_take_le' size data⟩
      have hitems := Item.length_ofDatagram_le data'
      simp only [hcut, Item.ofReceipt, itemBound]
      omega

/-- There are fewer items and waits than the command is prepared for. -/
theorem length_items_lt_itemBound (before : Socket) (receipts : List Receipt) :
    ((before.handsOut receipts).flatMap Item.ofReceipt).length + receipts.length <
      itemBound receipts := by
  induction receipts with
  | nil => simp [Socket.handsOut, itemBound]
  | cons r receipts ih =>
      have hbound := length_ofReceipt_cut_le before.room r receipts
      rw [Socket.handsOut_cons, List.flatMap_append, List.length_append, List.length_cons]
      split_ifs
      · rw [List.flatMap_nil, List.length_nil]
        omega
      · rw [List.flatMap_singleton]
        omega

def opened (a : LogArguments) (socket : Socket) : Log.Group :=
  ({ settings := a.settings } : Log.Group).openWith
    (socket.withBuffer a.settings.socket.receiveBuffer.toNat)

def bringUp (a : LogArguments) (socket : Socket) : Outcome Unit × Log.Group :=
  (a.opened socket).bringUp

def Showing.start (links : Links) : Showing where
  feed := { link := 0 }
  links

def itemsOn (c : Channel) (arrivals : List Receipt) : List Item :=
  (c.socket.handsOut (c.socket.inbox ++ arrivals)).flatMap Item.ofReceipt

/-- Whenever receipts arrive on channel `c`, the command shows what they give up to the first
failure, and ends with that. If there is no failure, it goes on as long as anything arrives. -/
structure ShowsEntries (a : LogArguments) (format : Format) (socket : Socket) (c : Channel)
    (arrivals : List Receipt) : Prop where
  throughout : ∀ ticks, ShownOf a format socket (itemsOn c (arrivalsOf ticks))
    (a.attend format (.start (a.bringUp socket).2.links) ticks)
  pieces : (a.run format none socket arrivals).pieces = a.piecesFor format (itemsOn c arrivals)
  /-- The command prints the entries before the first failure, and nothing else. -/
  output : (a.run format none socket arrivals).output = String.ofList
    ((entriesOf (itemsOn c arrivals)).flatMap fun e =>
      Line.written (Line.ofEntry format a.prefixOnly e))
  /-- So they are all there is on the standard output, as far as nobody writes down the notes. -/
  silent : (a.run format none socket arrivals).standardOutput .silent = String.ofList
    ((entriesOf (itemsOn c arrivals)).flatMap fun e =>
      Line.written (Line.ofEntry format a.prefixOnly e))
  /-- A subscriber writes for the notes of the items, and when these are shown. -/
  standardOutput : ∀ j : Journal, (a.run format none socket arrivals).standardOutput j =
    String.ofList (j.around 0 (a.piecesFor format (itemsOn c arrivals)))
  result : (a.run format none socket arrivals).result = resultOf (itemsOn c arrivals)
  unread : (a.run format none socket arrivals).result = .ok () →
    (a.run format none socket arrivals).unread = []
  /-- There is a moment for each receipt at which the turns that show it at once are taken. -/
  turns : ∃ ticks,
    arrivalsOf ticks ++ (a.run format none socket arrivals).unread = arrivals ∧
    (a.attend format (.start (a.bringUp socket).2.links) ticks).pieces =
      (a.run format none socket arrivals).pieces

section

variable {socket : Socket}

theorem exists_single (a : LogArguments) (socket : Socket) :
    ∃ c, (a.bringUp socket).2.links.Single socket c := by
  have hopened := Links.single_openWith a.settings.socket
    (socket.withBuffer a.settings.socket.receiveBuffer.toNat)
  obtain ⟨c, hc⟩ := Log.Group.single_bringUp (g := a.opened socket) ⟨_, hopened⟩
  rw [← bringUp] at hc
  exact ⟨c, hc.channels, ⟨hc.tended.owned, hc.tended.calls, hc.tended.drops⟩, hc.current⟩

/-- If the set-up succeeds, there is one channel, and it is open. -/
theorem exists_single_of_ok (hup : (a.bringUp socket).1 = .ok ()) :
    ∃ c, (a.bringUp socket).2.links.Single socket c ∧ c.isOpen = true := by
  obtain ⟨c, hsingle⟩ := a.exists_single socket
  refine ⟨c, hsingle, ?_⟩
  have hready := Channel.ready_tune
    (socket.withBuffer a.settings.socket.receiveBuffer.toNat) a.settings.socket.options
  have huses : (a.opened socket).links.Uses 0 _ := Links.uses_openWith {} _ _
  have hmade := Log.Group.broughtUp huses
    ⟨hready.isOpen, hready.holder, hready.calls, rfl, rfl, (List.append_nil _).symm⟩
    fun _ _ => Channel.undisturbed
  have heq := Log.Group.bringUp_eq_establish (a.opened socket)
  rw [bringUp, heq] at hup hsingle
  obtain ⟨c', huses', hready'⟩ := hmade.up fun cause herror => nomatch hup.symm.trans herror
  obtain rfl : c = c' := Option.some.inj (hsingle.channel.symm.trans huses'.channel)
  exact hready'.isOpen

theorem shows_start {l : Links} {c : Channel} (h : l.Single socket c) (hopen : c.isOpen = true)
    (format : Format) :
    Shows a format socket c.socket (.start l) (Intake.start 0 l c) [] c where
  feed := rfl
  links := rfl
  accounted := Log.accounted_start h.channel hopen
  pieces := rfl
  result := rfl
  going _ := rfl
  channels := h.channels
  tended := h.tended

theorem shownOf_attend {l : Links} {c : Channel} (h : l.Single socket c) (hopen : c.isOpen = true)
    (format : Format) (ticks : List Tick) :
    ShownOf a format socket (itemsOn c (arrivalsOf ticks)) (a.attend format (.start l) ticks) := by
  obtain ⟨w, taken, c', h', harrived⟩ := (shows_start (a := a) h hopen format).attend ticks
  have hshown := h'.shownOf
  rw [harrived] at hshown
  exact hshown

/-- The command takes turns until it ends, and has shown everything then. -/
theorem exists_completes {l : Links} {c : Channel} (h : l.Single socket c)
    (hopen : c.isOpen = true) (format : Format) (arrivals : List Receipt) :
    let shown := a.showFor format (itemBound (c.socket.inbox ++ arrivals)) arrivals { link := 0 } l
    Completes a format socket (itemsOn c arrivals) shown ∧
      ∃ ticks, Plays a format (.start l) arrivals shown ticks := by
  have hstart := shows_start (a := a) h hopen format
  have hbound := length_items_lt_itemBound c.socket (c.socket.inbox ++ arrivals)
  have hfuel : (itemsOn c arrivals).length + arrivals.length <
      itemBound (c.socket.inbox ++ arrivals) := by
    rw [List.length_append] at hbound
    rw [itemsOn]
    omega
  obtain ⟨ticks, hplays⟩ := hstart.exists_plays rfl (List.nil_append _) hfuel
  exact ⟨hstart.completes hplays rfl, ticks, hplays⟩

theorem run_eq (hup : (a.bringUp socket).1 = .ok ()) {c : Channel}
    (h : (a.bringUp socket).2.links.Single socket c) (hopen : c.isOpen = true) (format : Format)
    (arrivals : List Receipt) :
    let shown := a.showFor format (itemBound (c.socket.inbox ++ arrivals)) arrivals { link := 0 }
      (a.bringUp socket).2.links
    a.run format none socket arrivals = {
      pieces := shown.1
      result := shown.2.1
      unread := shown.2.2.1
      socket := socketOf shown.2.2.2.abandon
        (socket.withBuffer a.settings.socket.receiveBuffer.toNat) } := by
  have hserve : a.run format none socket arrivals = a.serve format socket arrivals := rfl
  rcases hb : a.bringUp socket with ⟨outcome, g⟩
  rw [hb] at hup h
  obtain rfl : outcome = .ok () := hup
  have huses : g.links.Uses 0 c := ⟨h.current hopen, h.channel⟩
  rw [hserve]
  unfold bringUp opened at hb
  unfold serve
  dsimp only
  rw [hb]
  dsimp only
  rw [huses.openNumber? hopen, socketOf_of_channel h.channel]

/-- However the command ends, its socket is dropped once. -/
theorem drops_run (a : LogArguments) (format : Format) (socket : Socket)
    (arrivals : List Receipt) :
    (a.run format none socket arrivals).socket.drops = socket.drops + 1 := by
  have hserve : a.run format none socket arrivals = a.serve format socket arrivals := rfl
  obtain ⟨c, hsingle⟩ := a.exists_single socket
  have hfailed {e : Error} (h : (a.bringUp socket).1 = .error e) :
      (a.bringUp socket).2.links.isOpen = false := by
    rw [bringUp] at h ⊢
    exact Log.Group.isOpen_bringUp h
  rcases hb : a.bringUp socket with ⟨outcome, g⟩
  -- the feed drops the socket if there is one, and otherwise the handle on the groups does
  cases outcome with
  | ok u =>
      obtain ⟨c, hsingle, hopen⟩ := exists_single_of_ok (congrArg Prod.fst hb)
      rw [run_eq (congrArg Prod.fst hb) hsingle hopen]
      exact (exists_completes hsingle hopen format arrivals).1.drops _
  | pending =>
      rw [hb] at hsingle
      obtain ⟨c', hc', hdrops⟩ := Links.drops_abandon hsingle.channels hsingle.tended
      unfold bringUp opened at hb
      rw [hserve]
      unfold serve
      dsimp only
      rw [hb]
      dsimp only
      rw [socketOf_of_channel hc', hdrops]
  | error e =>
      have hdrops := hsingle.tended.drops
      rw [hsingle.isOpen_of_isOpen (hfailed (congrArg Prod.fst hb))] at hdrops
      rw [hb] at hsingle
      unfold bringUp opened at hb
      rw [hserve]
      unfold serve
      dsimp only
      rw [hb]
      dsimp only
      rw [socketOf_of_channel hsingle.channel, hdrops]
      rfl

end

def sampleArguments : LogArguments where
  groups := [10, 9]
  prefixOnly := true

def sampleSocket : Socket where
  port := 4242

def sampleMessage (attributes : List Attribute) : Message where
  header := ⟨UInt32.ofNat (20 + (attributes.flatMap Attribute.encode).length),
    Message.typeOf Subsystem.log Log.Operation.packet.number, 0, 0, 0⟩
  payload := FamilyHeader.encode { family := 2, resource := 10 }
    ++ attributes.flatMap Attribute.encode

def sampleAttributes (text : String) : List Attribute := [
  ⟨Log.Field.packetHeader.rawType, [8, 0, 1]⟩,
  ⟨Log.Field.rulePrefix.rawType, text.toUTF8.toList ++ [0]⟩]

/-- One entry, a loss, and three messages in one datagram, the second of which is no entry. -/
def sampleTraffic : List Receipt :=
  [.ok (Message.join [sampleMessage (sampleAttributes "one")]), .error (.os Errno.noBufferSpace),
    .ok (Message.join [sampleMessage (sampleAttributes "two"), sampleMessage [],
      sampleMessage (sampleAttributes "three")])]

end LogArguments

end CommandLine

end Netfilter
