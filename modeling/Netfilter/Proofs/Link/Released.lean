import Netfilter.Proofs.Link.Custody

/-!
# What happens to a socket that is given up

After the closing, the only calls that the socket sees are those that had got
hold of it before. Any other is turned away, as soon as it has the turn if it is
one that needs the turn. The socket is dropped with the last of those calls, and
if there is none, with the closing.
-/

namespace Netfilter

namespace Channel

/-- What comes of a call that has no socket: it is over, since the channel is not open, or another
call has the turn it needs. Either way the socket is left alone. -/
inductive TurnedAway (c : Channel) (r : Running) : Option (Outcome Answer) × Channel → Prop
  | finished {c' : Channel} (socket : c'.socket = c.socket)
      (calls : c'.calls = c.calls.filter (·.name ≠ r.name)) :
      TurnedAway c r (some (.error .notOpen), c')
  | behind {c' : Channel} (socket : c'.socket = c.socket) (query : ∃ d, r.call = .query d)
      (other : ∃ q ∈ c.calls, q.name ≠ r.name ∧ c.turn.holder = some q.name) :
      TurnedAway c r (some .pending, c')

theorem calls_settle (before c : Channel) : (settle before c).calls = c.calls := by
  obtain ⟨drops, hs⟩ := settle_eq before c
  rw [hs]

theorem calls_endCall (before c : Channel) (name : Nat) :
    (endCall before c name).calls = c.calls.filter (·.name ≠ name) := calls_settle _ _

variable {c : Channel} {r : Running}

/-- A closed channel does not drop its socket when a call ends that has no hold of it. -/
theorem socket_endCall (c' : Channel) (hnames : (c.calls.map (·.name)).Nodup)
    (hr : r ∈ c.calls) (hshut : c.isOpen = false) (hfree : r.holdsSocket = false)
    (hcalls : c'.calls = c.calls) (hopen : c'.isOpen = c.isOpen) :
    (endCall c c' r.name).socket = c'.socket := by
  have hkept : (c.calls.filter (·.name ≠ r.name)).any Running.holdsSocket =
      c.calls.any Running.holdsSocket := any_filter hnames hr hfree
  unfold endCall settle
  simp only [usesSocket, hcalls, hopen, hshut, hkept, Bool.false_and, Bool.false_or,
    Bool.and_not_self]
  rfl

theorem pollWhile_turnedAway {started : Nat} (hroster : Roster c.calls c.turn started)
    (hr : r ∈ c.calls) (hshut : c.isOpen = false) (hfree : r.holdsSocket = false) (busy : Bool) :
    TurnedAway c r (c.pollWhile busy r.name) := by
  have hgoes := c.goOnWhile_goes busy r
  rw [pollWhile_of_mem busy hroster.distinct hr]
  generalize c.goOnWhile busy r = gone at hgoes
  have hnone : ¬(c.isOpen = true ∨ r.holdsSocket = true) := by simp [hshut, hfree]
  cases hgoes with
  | @refused shut free turn turned nextSeq =>
      refine .finished ?_ (calls_endCall _ _ _)
      exact socket_endCall { c with turn, nextSeq } hroster.distinct hr hshut hfree rfl rfl
  | lined query free behind other =>
      have hclaim := hroster.claims _ (List.mem_append_left _ (Option.mem_toList.2 behind))
      obtain ⟨q, hq, rfl⟩ := List.mem_map.1 hclaim
      exact .behind rfl query ⟨q, hq, other, behind⟩
  | ended atHand => exact absurd atHand hnone
  | holding atHand => exact absurd atHand hnone

end Channel

namespace Custody

variable {s : Socket} {w w' : Custody}

theorem holders_subset (h : ∀ r ∈ w'.channel.calls, r.holdsSocket = true →
      ∃ q ∈ w.channel.calls, q.holdsSocket = true ∧ q.name = r.name) :
    w'.holders ⊆ w.holders := by
  intro i hi
  obtain ⟨r, hr, hholds, rfl⟩ := mem_holders.1 hi
  obtain ⟨q, hq, hqholds, hname⟩ := h r hr hholds
  exact mem_holders.2 ⟨q, hq, hqholds, hname⟩

theorem holders_of_filter {p : Running → Bool} (h : w'.channel.calls = w.channel.calls.filter p) :
    w'.holders ⊆ w.holders := by
  refine holders_subset fun r hr hholds => ?_
  rw [h] at hr
  exact ⟨r, (List.mem_filter.1 hr).1, hholds, rfl⟩

theorem holders_of_calls (h : w'.channel.calls = w.channel.calls) : w'.holders ⊆ w.holders := by
  refine holders_subset fun r hr hholds => ?_
  rw [h] at hr
  exact ⟨r, hr, hholds, rfl⟩

theorem holders_poll (h : Sound s w) (hshut : w.channel.isOpen = false) (busy : Bool)
    (name : Nat) : (w.act (.poll busy name)).holders ⊆ w.holders := by
  by_cases hname : name ∈ w.channel.calls.map (·.name)
  · obtain ⟨r, hr, rfl⟩ := List.mem_map.1 hname
    have hgoes := w.channel.goOnWhile_goes busy r
    simp only [act, Channel.pollWhile_of_mem busy h.roster.distinct hr]
    generalize w.channel.goOnWhile busy r = gone at hgoes
    cases hgoes with
    | refused shut free turned nextSeq => exact holders_of_filter (Channel.calls_endCall _ _ _)
    | ended atHand result turned nextSeq kept =>
        exact holders_of_filter (Channel.calls_endCall _ _ _)
    | lined query free behind other =>
        refine holders_subset fun q hq hholds => ?_
        rcases mem_replace hq with ⟨hq, -⟩ | rfl
        · exact ⟨q, hq, hholds, rfl⟩
        · cases hholds
    | holding atHand r' hsame holds turned nextSeq kept =>
        refine holders_subset fun q hq hholds => ?_
        rcases mem_replace hq with ⟨hq, -⟩ | rfl
        · exact ⟨q, hq, hholds, rfl⟩
        · -- the channel is closed, so that the call had its hold of the socket before
          rw [hshut] at atHand
          exact ⟨r, hr, atHand.resolve_left Bool.false_ne_true, hsame.symm⟩
  · simp only [act, Channel.pollWhile_of_absent busy hname]
    exact List.Subset.refl _

/-- Nobody gets hold of the socket of a closed channel. -/
theorem holders_after (h : Sound s w) (hshut : w.channel.isOpen = false) (a : Act) :
    (w.after a).holders ⊆ w.holders := by
  unfold after
  -- whoever comes after the closing finds no socket to hold
  cases hneeds : a.needsOwner && !w.channel.owned with
  | true => exact List.Subset.refl _
  | false =>
      cases a with
      | begin call =>
          refine holders_subset fun r hr hholds => ?_
          rw [act, h.start_eq (by simpa [Act.needsOwner] using hneeds)] at hr
          rcases List.mem_append.1 hr with hr | hr
          · exact ⟨r, hr, hholds, rfl⟩
          · obtain rfl := List.mem_singleton.1 hr
            cases hholds
      | poll busy name => exact holders_poll h hshut busy name
      | cancel name => exact holders_of_filter (Channel.calls_endCall _ _ _)
      | receive =>
          refine holders_of_calls ?_
          simp only [act, Bool.false_eq_true, if_false]
          rw [Channel.receive_of_not_isOpen hshut]
      | gather pieces =>
          refine holders_of_calls ?_
          simp only [act, Bool.false_eq_true, if_false]
          rw [Channel.gather_of_not_isOpen hshut]
      | setOption level name value =>
          refine holders_of_calls ?_
          simp only [act, Bool.false_eq_true, if_false]
          rw [Channel.setOption_of_not_isOpen hshut]
      | arrival r => exact holders_of_calls rfl
      | close => exact holders_of_calls (Channel.calls_settle _ _)
      | disown => exact holders_of_calls (Channel.calls_settle _ _)

/-- What the attempts to close the channel gave stays on record. -/
theorem closings_after (w : Custody) (a : Act) (hclosed : w.closings ≠ []) :
    (w.after a).closings ≠ [] := by
  unfold after
  split_ifs
  · exact hclosed
  · cases a with
    | close => simp [act]
    | _ => exact hclosed

/-- How things stand at a moment after `w`, in which the channel was closed already: only the calls
that held the socket then can be served by it. -/
structure Shut (w later : Custody) : Prop where
  isOpen : later.channel.isOpen = false
  holders : later.holders ⊆ w.holders
  receive : later.channel.receive = (.error .notOpen, later.channel)
  gather : ∀ pieces, later.channel.gather pieces = (.error .notOpen, later.channel)
  setOption : ∀ level name value,
    later.channel.setOption level name value = (.error .notOpen, later.channel)
  turnedAway : ∀ busy, ∀ r ∈ later.channel.calls, r.name ∉ w.holders →
    later.channel.TurnedAway r (later.channel.pollWhile busy r.name)

theorem shut_run (h : Sound s w) (hclosed : w.closings ≠ []) (acts : List Act) :
    Shut w (w.run acts) := by
  have hsubset : (w.run acts).holders ⊆ w.holders ∧ (w.run acts).closings ≠ [] := by
    induction acts generalizing w with
    | nil => exact ⟨List.Subset.refl _, hclosed⟩
    | cons a acts ih =>
        have hshut : w.channel.isOpen = false := h.shut_iff.2 (.inl hclosed)
        have hlater := ih (h.after a) (w.closings_after a hclosed)
        exact ⟨List.Subset.trans hlater.1 (holders_after h hshut a), hlater.2⟩
  have hlater : Sound s (w.run acts) := h.run acts
  have hshut : (w.run acts).channel.isOpen = false := hlater.shut_iff.2 (.inl hsubset.2)
  refine ⟨hshut, hsubset.1, Channel.receive_of_not_isOpen hshut,
    Channel.gather_of_not_isOpen hshut, Channel.setOption_of_not_isOpen hshut, ?_⟩
  intro busy r hr hnot
  have hfree : r.holdsSocket = false := by
    rw [Bool.eq_false_iff]
    intro hholds
    exact hnot (hsubset.1 (mem_holders.2 ⟨r, hr, hholds, rfl⟩))
  exact Channel.pollWhile_turnedAway hlater.roster hr hshut hfree busy

/-- How the socket `s` stands in a custody: only the first attempt to close the channel closes it,
the socket was dropped if the channel is closed or gone and no call holds it, and not otherwise, and
from the closing on nobody gets at the socket. -/
structure Released (s : Socket) (w : Custody) : Prop where
  closings : w.closings = [] ∨ ∃ n, w.closings = true :: List.replicate n false
  drops : w.channel.socket.drops =
    s.drops + if (w.closings ≠ [] ∨ w.isGone = true) ∧ w.holders = [] then 1 else 0
  shut : w.closings ≠ [] → ∀ acts, Shut w (w.run acts)

/-- Whatever happens to a channel, its socket is given up once, and is left alone after that. -/
theorem socket_released (s : Socket) (acts : List Act) : Released s ((start s).run acts) := by
  have hsound : Sound s ((start s).run acts) := (sound_start s).run acts
  generalize (start s).run acts = w at hsound
  refine ⟨hsound.closings, ?_, fun hclosed later => shut_run hsound hclosed later⟩
  have hused : w.channel.usesSocket = true ↔
      ¬((w.closings ≠ [] ∨ w.isGone = true) ∧ w.holders = []) := by
    rw [usesSocket_iff, ← hsound.shut_iff, not_and_or, Bool.not_eq_false]
  rw [hsound.drops]
  cases huses : w.channel.usesSocket with
  | true => rw [if_neg (hused.1 huses), if_pos rfl]
  | false =>
      have hfree := not_not.1 (mt hused.2 (Bool.eq_false_iff.1 huses))
      rw [if_pos hfree, if_neg Bool.false_ne_true]

/-- A query whose message the socket does not take, one that waits for its turn, and a close: the
first goes on, the second is turned away when its turn comes, and then the socket is dropped. -/
example :
    let request : Draft := { type := 0, flags := 0 }
    let w := (start { port := 7, codes := [0] }).run
      [.begin (.query request), .begin (.query request), .poll true 0, .poll false 1, .close,
        .poll false 1, .close, .poll false 0]
    w.closings = [true, false] ∧ w.channel.socket.sent.length = 1 ∧ w.channel.socket.drops = 1 ∧
      (w.channel.pollWhile false 1).1 matches some (.error .notOpen) := by
  decide +kernel

end Custody

end Netfilter
