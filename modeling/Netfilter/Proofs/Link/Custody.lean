import Netfilter.Proofs.Link.Stalling

/-!
# The custody of a socket

A custody is a channel with a record of the attempts to close it. Calls begin,
are gone on with and are given up at any time, and the socket may stop taking
data at any time. The channel is closed the first time this is asked for; its
socket is dropped once, as soon as no call holds it any more; and whoever comes
after the closing, or had not got hold of the socket before, leaves it alone.
-/

namespace Netfilter

namespace Turn

def claimants (t : Turn) : List Nat := t.holder.toList ++ t.line

/-- Nobody claims the turn twice, and nobody waits for a turn that is free. -/
structure Orderly (t : Turn) : Prop where
  nodup : t.claimants.Nodup
  idle : t.holder = none → t.line = []

theorem claimants_request (t : Turn) (i : Nat) :
    ∀ j ∈ (t.request i).claimants, j ∈ t.claimants ∨ j = i := by
  intro j hj
  unfold request claimants at *
  cases hholder : t.holder with
  | none => simp_all [or_comm]
  | some k =>
      simp only [hholder] at hj
      split_ifs at hj
      · rw [hholder] at hj
        exact .inl hj
      · simpa [or_assoc] using hj

theorem Orderly.request {t : Turn} (h : t.Orderly) (i : Nat) : (t.request i).Orderly := by
  obtain ⟨hnodup, hidle⟩ := h
  unfold Turn.request
  cases hholder : t.holder with
  | none => exact ⟨by simp [claimants, hidle hholder], nofun⟩
  | some j =>
      have hclaims : (j :: t.line).Nodup := by simpa [claimants, hholder] using hnodup
      dsimp only
      split_ifs with hthere
      · exact ⟨hnodup, hidle⟩
      · push Not at hthere
        have hnew : i ∉ j :: t.line := by simp [hthere.2, Ne.symm hthere.1]
        have hall := hclaims.concat hnew
        rw [List.concat_eq_append] at hall
        exact ⟨hall, nofun⟩

theorem Orderly.claimants_leave {t : Turn} (h : t.Orderly) (i : Nat) :
    (t.leave i).Orderly ∧ ∀ j ∈ (t.leave i).claimants, j ∈ t.claimants ∧ j ≠ i := by
  obtain ⟨hnodup, hidle⟩ := h
  unfold leave
  by_cases hholder : t.holder = some i
  · have hclaims : Turn.claimants ⟨t.line.head?, t.line.tail⟩ = t.line := by
      unfold claimants
      cases t.line <;> rfl
    simp only [claimants, hholder, Option.toList_some, List.singleton_append,
      List.nodup_cons] at hnodup
    rw [if_pos hholder]
    refine ⟨⟨hclaims.symm ▸ hnodup.2, fun hnone => ?_⟩, fun j hj => ?_⟩
    · rw [List.head?_eq_none_iff.1 hnone]
      rfl
    · rw [hclaims] at hj
      refine ⟨by simp [claimants, hj], ?_⟩
      rintro rfl
      exact hnodup.1 hj
  · rw [if_neg hholder]
    have hsub : (Turn.claimants ⟨t.holder, t.line.erase i⟩).Sublist t.claimants :=
      List.Sublist.append (List.Sublist.refl _) List.erase_sublist
    refine ⟨⟨hnodup.sublist hsub, fun hnone => ?_⟩, fun j hj => ⟨hsub.subset hj, ?_⟩⟩
    · change t.line.erase i = []
      rw [hidle hnone]
      rfl
    · rintro rfl
      rcases List.mem_append.1 hj with hj | hj
      · exact hholder (Option.mem_toList.1 hj)
      · exact (List.nodup_append.1 hnodup).2.1.not_mem_erase hj

end Turn

section Calls

variable {calls : List Running} {r r' : Running}

theorem find?_name (hnames : (calls.map (·.name)).Nodup) (hr : r ∈ calls) :
    calls.find? (·.name = r.name) = some r := by
  cases hfind : calls.find? (·.name = r.name) with
  | none => simpa using List.find?_eq_none.1 hfind r hr
  | some q =>
      have hname : q.name = r.name := by simpa using List.find?_some hfind
      rw [List.inj_on_of_nodup_map hnames (List.mem_of_find?_eq_some hfind) hr hname]

def replace (calls : List Running) (name : Nat) (r' : Running) : List Running :=
  calls.map fun q => if q.name = name then r' else q

theorem names_replace (hname : r'.name = r.name) :
    (replace calls r.name r').map (·.name) = calls.map (·.name) := by
  unfold replace
  rw [List.map_map]
  refine List.map_congr_left fun q _ => ?_
  by_cases hq : q.name = r.name
  · simp [hq, hname]
  · simp [hq]

theorem mem_replace {q : Running} {name : Nat} (hq : q ∈ replace calls name r') :
    q ∈ calls ∧ q.name ≠ name ∨ q = r' := by
  obtain ⟨p, hp, rfl⟩ := List.mem_map.1 hq
  split_ifs with hname
  · exact .inr rfl
  · exact .inl ⟨hp, hname⟩

/-- A call may be replaced by one that holds the socket just as it does. -/
theorem any_replace (hnames : (calls.map (·.name)).Nodup) (hr : r ∈ calls)
    (hsame : r'.holdsSocket = r.holdsSocket) :
    (replace calls r.name r').any Running.holdsSocket = calls.any Running.holdsSocket := by
  unfold replace
  rw [List.any_map, Bool.eq_iff_iff, List.any_eq_true, List.any_eq_true]
  have heach (q : Running) (hq : q ∈ calls) :
      Running.holdsSocket (if q.name = r.name then r' else q) = q.holdsSocket := by
    split_ifs with hname
    · rw [hsame, List.inj_on_of_nodup_map hnames hq hr hname]
    · rfl
  exact exists_congr fun q => and_congr_right fun hq => by rw [Function.comp_apply, heach q hq]

/-- A call that does not hold the socket may end. -/
theorem any_filter (hnames : (calls.map (·.name)).Nodup) (hr : r ∈ calls)
    (hfree : r.holdsSocket = false) :
    (calls.filter (·.name ≠ r.name)).any Running.holdsSocket = calls.any Running.holdsSocket := by
  rw [Bool.eq_iff_iff, List.any_eq_true, List.any_eq_true]
  constructor
  · rintro ⟨q, hq, hholds⟩
    exact ⟨q, (List.mem_filter.1 hq).1, hholds⟩
  · rintro ⟨q, hq, hholds⟩
    refine ⟨q, List.mem_filter.2 ⟨hq, ?_⟩, hholds⟩
    rw [decide_eq_true_eq]
    intro hname
    rw [List.inj_on_of_nodup_map hnames hq hr hname, hfree] at hholds
    cases hholds

end Calls

namespace Channel

/-- The socket is dropped if it was referred to and is no more, and it is not referred to again. -/
structure Keeps (c c' : Channel) : Prop where
  once : c'.usesSocket = true → c.usesSocket = true
  drops : c'.socket.drops = c.socket.drops + if c.usesSocket && !c'.usesSocket then 1 else 0

theorem Keeps.of_same {c c' : Channel} (huses : c'.usesSocket = c.usesSocket)
    (hdrops : c'.socket.drops = c.socket.drops) : Keeps c c' :=
  ⟨fun h => huses ▸ h, by rw [huses, hdrops]; simp⟩

theorem keeps_settle {before c : Channel}
    (huses : c.usesSocket = true → before.usesSocket = true)
    (hdrops : c.socket.drops = before.socket.drops) : Keeps before (settle before c) := by
  let c' : Channel := { c with isOpen := c.isOpen && (c.owned || !c.calls.isEmpty) }
  have hless : c'.usesSocket = true → before.usesSocket = true := by
    intro h
    apply huses
    simp only [usesSocket, Bool.or_eq_true, c', Bool.and_eq_true] at h ⊢
    exact h.imp_left And.left
  have hsettle : settle before c = if before.usesSocket && !c'.usesSocket
      then { c' with socket := c'.socket.drop } else c' := rfl
  rw [hsettle]
  cases hleft : before.usesSocket && !c'.usesSocket with
  | true =>
      have huse : usesSocket { c' with socket := c'.socket.drop } = c'.usesSocket := rfl
      refine ⟨hless, ?_⟩
      rw [if_pos rfl, huse, hleft]
      exact congrArg (· + 1) hdrops
  | false =>
      refine ⟨hless, ?_⟩
      rw [if_neg Bool.false_ne_true, hleft]
      exact hdrops

theorem settle_self {c : Channel} (howned : c.owned = true) : settle c c = c := by
  obtain ⟨socket, isOpen, owned, nextSeq, turn, calls⟩ := c
  obtain rfl : owned = true := howned
  unfold settle
  dsimp only
  rw [Bool.true_or, Bool.and_true, Bool.and_not_self, if_neg Bool.false_ne_true]

theorem isOpen_settle (before c : Channel) :
    (settle before c).isOpen = (c.isOpen && (c.owned || !c.calls.isEmpty)) := by
  obtain ⟨drops, hs⟩ := settle_eq before c
  rw [hs]

end Channel

/-- A channel with a record of the attempts to close it. -/
structure Custody where
  channel : Channel
  /-- How many calls have begun; the name of the next one. -/
  started : Nat := 0
  /-- What the attempts to close the channel gave. -/
  closings : List Bool := []

namespace Custody

/-- What can happen to a channel. Only somebody who refers to it can begin a call, receive, send
from several pieces, set an option or close it. -/
inductive Act
  | begin (call : Call)
  /-- A call is gone on with, while the socket takes data or not. -/
  | poll (busy : Bool) (name : Nat)
  | cancel (name : Nat)
  | receive
  | gather (pieces : List Bytes)
  | setOption (level name value : Int)
  | arrival (r : Receipt)
  | close
  | disown

def start (s : Socket) : Custody := { channel := { socket := s } }

def Act.needsOwner : Act → Bool
  | .begin _ | .receive | .gather _ | .setOption _ _ _ | .close | .disown => true
  | .poll _ _ | .cancel _ | .arrival _ => false

def act (w : Custody) : Act → Custody
  | .begin call => { w with
      channel := w.channel.start w.started call
      started := w.started + 1 }
  | .poll busy name => { w with channel := (w.channel.pollWhile busy name).2 }
  | .cancel name => { w with channel := w.channel.cancel name }
  | .receive => { w with channel := w.channel.receive.2 }
  | .gather pieces => { w with channel := (w.channel.gather pieces).2 }
  | .setOption level name value => { w with channel := (w.channel.setOption level name value).2 }
  | .arrival r => { w with channel := w.channel.withInbox (w.channel.socket.inbox ++ [r]) }
  | .close => { w with channel := w.channel.close.2, closings := w.closings ++ [w.channel.close.1] }
  | .disown => { w with channel := w.channel.disown }

def after (w : Custody) (a : Act) : Custody :=
  if a.needsOwner && !w.channel.owned then w else w.act a

def run (w : Custody) (acts : List Act) : Custody := acts.foldl after w

def isGone (w : Custody) : Bool := !w.channel.owned && w.channel.calls.isEmpty

def holders (w : Custody) : List Nat := (w.channel.calls.filter (·.holdsSocket)).map (·.name)

theorem mem_holders {w : Custody} {i : Nat} :
    i ∈ w.holders ↔ ∃ r ∈ w.channel.calls, r.holdsSocket = true ∧ r.name = i := by
  simp [holders, and_assoc]

theorem usesSocket_iff (w : Custody) :
    w.channel.usesSocket = true ↔ w.channel.isOpen = true ∨ w.holders ≠ [] := by
  simp [Channel.usesSocket, holders]

end Custody

/-- The calls under way have names of their own, all given out, and only they claim the turn. -/
structure Roster (calls : List Running) (turn : Turn) (started : Nat) : Prop where
  distinct : (calls.map (·.name)).Nodup
  begun : ∀ i ∈ calls.map (·.name), i < started
  orderly : turn.Orderly
  claims : ∀ i ∈ turn.claimants, i ∈ calls.map (·.name)

namespace Roster

variable {calls : List Running} {turn : Turn} {started : Nat} {r r' : Running}

theorem begin (h : Roster calls turn started) (call : Call) :
    calls.filter (·.name ≠ started) = calls ∧ turn.leave started = turn ∧
      Roster (calls ++ [⟨started, call, .fresh⟩]) turn (started + 1) := by
  have hnew : started ∉ calls.map (·.name) := fun hmem => Nat.lt_irrefl _ (h.begun _ hmem)
  have hclaim : started ∉ turn.claimants := fun hmem => hnew (h.claims _ hmem)
  have hfilter : calls.filter (·.name ≠ started) = calls := by
    refine List.filter_eq_self.2 fun q hq => ?_
    rw [decide_eq_true_eq]
    rintro rfl
    exact hnew (List.mem_map_of_mem hq)
  have hleave : turn.leave started = turn := by
    unfold Turn.leave
    simp only [Turn.claimants, List.mem_append, Option.mem_toList, not_or] at hclaim
    rw [if_neg hclaim.1, List.erase_of_not_mem hclaim.2]
  refine ⟨hfilter, hleave, ?_, ?_, h.orderly, ?_⟩
  · rw [List.map_append, List.map_singleton, ← List.concat_eq_append]
    exact h.distinct.concat hnew
  · intro i hi
    rw [List.map_append, List.mem_append, List.map_singleton, List.mem_singleton] at hi
    rcases hi with hi | rfl
    · exact Nat.lt_succ_of_lt (h.begun i hi)
    · exact Nat.lt_succ_self _
  · intro i hi
    rw [List.map_append]
    exact List.mem_append_left _ (h.claims i hi)

theorem requested (h : Roster calls turn started) (hr : r ∈ calls) {turn' : Turn}
    (hturn : turn' = turn ∨ turn' = turn.request r.name) : Roster calls turn' started := by
  rcases hturn with rfl | rfl
  · exact h
  · refine ⟨h.distinct, h.begun, h.orderly.request _, fun i hi => ?_⟩
    rcases turn.claimants_request r.name i hi with hi | rfl
    · exact h.claims i hi
    · exact List.mem_map_of_mem hr

theorem replaced (h : Roster calls turn started) (hname : r'.name = r.name) :
    Roster (replace calls r.name r') turn started := by
  refine ⟨?_, ?_, h.orderly, ?_⟩ <;> rw [names_replace hname]
  · exact h.distinct
  · exact h.begun
  · exact h.claims

theorem ended (h : Roster calls turn started) (name : Nat) :
    Roster (calls.filter (·.name ≠ name)) (turn.leave name) started := by
  obtain ⟨horderly, hclaims⟩ := h.orderly.claimants_leave name
  have hsub : ((calls.filter (·.name ≠ name)).map (·.name)).Sublist (calls.map (·.name)) :=
    (List.filter_sublist).map _
  refine ⟨h.distinct.sublist hsub, fun i hi => h.begun i (hsub.subset hi), horderly, ?_⟩
  intro i hi
  obtain ⟨hclaim, hne⟩ := hclaims i hi
  obtain ⟨q, hq, rfl⟩ := List.mem_map.1 (h.claims i hclaim)
  exact List.mem_map_of_mem (List.mem_filter.2 ⟨hq, by simpa using hne⟩)

end Roster

namespace Channel

variable {c : Channel} {r : Running}

theorem pollWhile_of_mem (busy : Bool) (hnames : (c.calls.map (·.name)).Nodup) (hr : r ∈ c.calls) :
    c.pollWhile busy r.name =
      match c.goOnWhile busy r with
      | (.inl result, after) => (some (.ofExcept result), endCall c after r.name)
      | (.inr r', after) =>
          (some .pending, { after with calls := replace after.calls r.name r' }) := by
  simp only [pollWhile, find?_name hnames hr]
  rfl

theorem pollWhile_of_absent (busy : Bool) {name : Nat} (h : name ∉ c.calls.map (·.name)) :
    c.pollWhile busy name = (none, c) := by
  have hfind : c.calls.find? (·.name = name) = none := by
    refine List.find?_eq_none.2 fun q hq hname => h ?_
    rw [decide_eq_true_eq] at hname
    exact hname ▸ List.mem_map_of_mem hq
  simp only [pollWhile, hfind]

theorem keeps_endCall (c' : Channel) (hcalls : c'.calls = c.calls) (hopen : c'.isOpen = c.isOpen)
    (hdrops : c'.socket.drops = c.socket.drops) (name : Nat) : Keeps c (endCall c c' name) := by
  refine keeps_settle (fun h => ?_) hdrops
  simp only [usesSocket, hcalls, hopen, Bool.or_eq_true, List.any_eq_true] at h ⊢
  exact h.imp_right fun ⟨q, hq, hholds⟩ => ⟨q, (List.mem_filter.1 hq).1, hholds⟩

theorem isOpen_endCall (c c' : Channel) (name : Nat) :
    (endCall c c' name).isOpen =
      (c'.isOpen && (c'.owned || !(c'.calls.filter (·.name ≠ name)).isEmpty)) :=
  isOpen_settle c _

theorem keeps_poll (busy : Bool) (hnames : (c.calls.map (·.name)).Nodup) (name : Nat) :
    Keeps c (c.pollWhile busy name).2 := by
  by_cases hname : name ∈ c.calls.map (·.name)
  · obtain ⟨r, hr, rfl⟩ := List.mem_map.1 hname
    have hgoes := c.goOnWhile_goes busy r
    rw [pollWhile_of_mem busy hnames hr]
    generalize c.goOnWhile busy r = gone at hgoes
    cases hgoes with
    | refused shut free turned nextSeq =>
        exact keeps_endCall (c := c) { c with turn := _, nextSeq } rfl rfl rfl r.name
    | ended atHand result turned nextSeq kept =>
        exact keeps_endCall (c := c) { c with turn := _, nextSeq, socket := _ } rfl rfl kept r.name
    | lined query free behind other =>
        have hline : Running.holdsSocket { r with stage := .inLine } = r.holdsSocket := free.symm
        refine .of_same ?_ rfl
        simp only [usesSocket, any_replace hnames hr hline]
    | holding atHand r' name holds turned nextSeq kept =>
        refine .of_same ?_ kept
        simp only [usesSocket]
        rcases atHand with hopen | hholds
        · simp [hopen]
        · rw [any_replace hnames hr (holds.trans hholds.symm)]
  · rw [pollWhile_of_absent busy hname]
    exact .of_same rfl rfl

end Channel

namespace Custody

structure Sound (s : Socket) (w : Custody) : Prop where
  roster : Roster w.channel.calls w.channel.turn w.started
  closings : w.closings = [] ∨ ∃ n, w.closings = true :: List.replicate n false
  shut_iff : w.channel.isOpen = false ↔ w.closings ≠ [] ∨ w.isGone = true
  drops : w.channel.socket.drops = s.drops + if w.channel.usesSocket then 0 else 1

theorem sound_start (s : Socket) : Sound s (start s) where
  roster := ⟨List.nodup_nil, by simp [start], ⟨List.nodup_nil, fun _ => rfl⟩,
    by simp [start, Turn.claimants]⟩
  closings := .inl rfl
  shut_iff := by simp [start, isGone]
  drops := rfl

namespace Sound

variable {s : Socket} {w w' : Custody}

theorem drops_of_keeps (h : Sound s w) {c : Channel} (hkeeps : w.channel.Keeps c) :
    c.socket.drops = s.drops + if c.usesSocket then 0 else 1 := by
  have honce := hkeeps.once
  rw [hkeeps.drops, h.drops]
  cases hbefore : w.channel.usesSocket <;> cases hafter : c.usesSocket <;> simp_all

/-- What does not touch the attempts to close keeps the custody in order, if it keeps the calls in
order, drops the socket when it should, and closes the channel only for want of anybody who refers
to it. -/
theorem kept (h : Sound s w) (hkeeps : w.channel.Keeps w'.channel)
    (hroster : Roster w'.channel.calls w'.channel.turn w'.started)
    (hclosings : w'.closings = w.closings)
    (hshut : w'.channel.isOpen = false ↔ w.channel.isOpen = false ∨ w'.isGone = true)
    (hgone : w.isGone = true → w'.isGone = true) : Sound s w' where
  roster := hroster
  closings := hclosings.symm ▸ h.closings
  shut_iff := by
    rw [hshut, h.shut_iff, hclosings, or_assoc]
    exact or_congr_right (or_iff_right_of_imp hgone)
  drops := h.drops_of_keeps hkeeps

theorem of_same (h : Sound s w) {c : Channel} (hcalls : c.calls = w.channel.calls)
    (hturn : c.turn = w.channel.turn) (hopen : c.isOpen = w.channel.isOpen)
    (howned : c.owned = w.channel.owned) (hdrops : c.socket.drops = w.channel.socket.drops) :
    Sound s { w with channel := c } := by
  have hgone : isGone { w with channel := c } = w.isGone := by
    simp only [isGone, hcalls, howned]
  refine h.kept (.of_same ?_ hdrops) ?_ rfl ?_ fun hg => hgone.trans hg
  · simp only [Channel.usesSocket, hopen, hcalls]
  · simp only [hcalls, hturn]
    exact h.roster
  · rw [hgone, hopen, h.shut_iff, or_assoc, or_self]

theorem endCall (h : Sound s w) {c : Channel} (hcalls : c.calls = w.channel.calls)
    (hopen : c.isOpen = w.channel.isOpen) (howned : c.owned = w.channel.owned)
    (hdrops : c.socket.drops = w.channel.socket.drops)
    (hroster : Roster w.channel.calls c.turn w.started) (name : Nat) :
    Sound s { w with channel := Channel.endCall w.channel c name } := by
  have hshut := w.channel.isOpen_endCall c name
  have hkeeps := Channel.keeps_endCall c hcalls hopen hdrops name
  obtain ⟨isOpen, drops, hend⟩ := Channel.endCall_eq w.channel c name
  refine h.kept hkeeps ?_ rfl ?_ ?_
  · rw [hend, hcalls]
    exact hroster.ended name
  · rw [hshut, hopen]
    simp only [isGone, hend]
    cases w.channel.isOpen <;> simp
  · simp only [isGone, hend, howned, hcalls]
    intro hgone
    simp only [Bool.and_eq_true, List.isEmpty_iff] at hgone ⊢
    exact ⟨hgone.1, by rw [hgone.2]; rfl⟩

theorem replace (h : Sound s w) {c : Channel} {r r' : Running}
    (hkeeps : w.channel.Keeps { c with calls := Netfilter.replace w.channel.calls r.name r' })
    (hopen : c.isOpen = w.channel.isOpen) (howned : c.owned = w.channel.owned)
    (hroster : Roster w.channel.calls c.turn w.started) (hname : r'.name = r.name) :
    Sound s { w with
      channel := { c with calls := Netfilter.replace w.channel.calls r.name r' } } := by
  have hgone : isGone { w with
      channel := { c with calls := Netfilter.replace w.channel.calls r.name r' } } = w.isGone := by
    simp only [isGone, howned, Netfilter.replace, List.isEmpty_map]
  refine h.kept hkeeps (hroster.replaced hname) rfl ?_ fun hg => hgone.trans hg
  rw [hgone, hopen, h.shut_iff, or_assoc, or_self]

theorem poll (h : Sound s w) (busy : Bool) (name : Nat) : Sound s (w.act (.poll busy name)) := by
  change Sound s { w with channel := (w.channel.pollWhile busy name).2 }
  by_cases hname : name ∈ w.channel.calls.map (·.name)
  · obtain ⟨r, hr, rfl⟩ := List.mem_map.1 hname
    have hgoes := w.channel.goOnWhile_goes busy r
    have hkeeps := Channel.keeps_poll busy h.roster.distinct r.name
    rw [Channel.pollWhile_of_mem busy h.roster.distinct hr] at hkeeps ⊢
    generalize w.channel.goOnWhile busy r = gone at hgoes hkeeps
    cases hgoes with
    | refused shut free turned nextSeq =>
        exact h.endCall (c := { w.channel with turn := _, nextSeq }) rfl rfl rfl rfl
          (h.roster.requested hr turned) r.name
    | ended atHand result turned nextSeq kept =>
        exact h.endCall (c := { w.channel with turn := _, nextSeq, socket := _ }) rfl rfl rfl kept
          (h.roster.requested hr turned) r.name
    | lined query free behind other =>
        exact h.replace hkeeps rfl rfl (h.roster.requested hr (.inr rfl)) rfl
    | holding atHand r' name holds turned nextSeq kept =>
        exact h.replace hkeeps rfl rfl (h.roster.requested hr turned) name
  · rw [Channel.pollWhile_of_absent busy hname]
    exact h

/-- A call that begins on an owned channel changes nothing else. -/
theorem start_eq (h : Sound s w) (howned : w.channel.owned = true) (call : Call) :
    w.channel.start w.started call =
      { w.channel with calls := w.channel.calls ++ [⟨w.started, call, .fresh⟩] } := by
  obtain ⟨hfilter, hleave, -⟩ := h.roster.begin call
  have hcancel : w.channel.cancel w.started = w.channel := by
    unfold Channel.cancel Channel.endCall
    rw [hfilter, hleave]
    exact Channel.settle_self howned
  unfold Channel.start
  rw [hcancel]

theorem begin (h : Sound s w) (howned : w.channel.owned = true) (call : Call) :
    Sound s (w.act (.begin call)) := by
  change Sound s { w with
    channel := w.channel.start w.started call, started := w.started + 1 }
  rw [h.start_eq howned call]
  obtain ⟨-, -, hroster⟩ := h.roster.begin call
  have hgone : w.isGone = false := by simp [isGone, howned]
  refine h.kept (.of_same ?_ rfl) hroster rfl ?_ fun hg => ?_
  · simp [Channel.usesSocket, Running.holdsSocket]
  · simp [isGone, howned]
  · rw [hgone] at hg
    cases hg

theorem close (h : Sound s w) (howned : w.channel.owned = true) : Sound s (w.act .close) := by
  have hgone : w.isGone = false := by simp [isGone, howned]
  have hkeeps : w.channel.Keeps w.channel.close.2 := by
    refine Channel.keeps_settle (fun huses => ?_) rfl
    simp only [Channel.usesSocket, Bool.false_or] at huses ⊢
    rw [huses, Bool.or_true]
  have hsound := h.drops_of_keeps hkeeps
  obtain ⟨drops, hclose⟩ := w.channel.close_eq
  refine ⟨?_, .inr ?_, ?_, hsound⟩
  · change Roster w.channel.close.2.calls w.channel.close.2.turn w.started
    rw [hclose]
    exact h.roster
  · change ∃ n, w.closings ++ [w.channel.isOpen] = true :: List.replicate n false
    rcases h.closings with hnone | ⟨n, hsome⟩
    · have hopen : w.channel.isOpen = true := by
        by_contra hshut
        rcases h.shut_iff.1 (by simpa using hshut) with hne | hg
        · exact hne hnone
        · rw [hgone] at hg
          cases hg
      exact ⟨0, by rw [hnone, hopen]; rfl⟩
    · have hshut : w.channel.isOpen = false := h.shut_iff.2 (.inl (by simp [hsome]))
      exact ⟨n + 1, by rw [hsome, hshut, List.replicate_succ', List.cons_append]⟩
  · change w.channel.close.2.isOpen = false ↔ w.closings ++ [w.channel.isOpen] ≠ [] ∨ _
    rw [hclose]
    simp

theorem disown (h : Sound s w) : Sound s (w.act .disown) := by
  have hkeeps : w.channel.Keeps w.channel.disown := Channel.keeps_settle id rfl
  have hshut := Channel.isOpen_settle w.channel { w.channel with owned := false }
  obtain ⟨drops, hdisown⟩ := Channel.settle_eq w.channel { w.channel with owned := false }
  change Sound s { w with channel := Channel.settle w.channel { w.channel with owned := false } }
  refine h.kept hkeeps ?_ rfl ?_ ?_
  · rw [hdisown]
    exact h.roster
  · rw [hshut]
    simp only [isGone, hdisown]
    cases w.channel.isOpen <;> simp
  · simp only [isGone, hdisown]
    intro hg
    simpa using (Bool.and_eq_true_iff.1 hg).2

theorem after (h : Sound s w) (a : Act) : Sound s (w.after a) := by
  unfold Custody.after
  cases hneeds : a.needsOwner && !w.channel.owned with
  | true => exact h
  | false =>
      cases a with
      | begin call => exact h.begin (by simpa [Act.needsOwner] using hneeds) call
      | poll busy name => exact h.poll busy name
      | cancel name => exact h.endCall rfl rfl rfl rfl h.roster name
      | receive =>
          change Sound s { w with channel := w.channel.receive.2 }
          by_cases hopen : w.channel.isOpen = true
          · rcases Channel.receive_cases hopen with ⟨-, hr⟩ | ⟨taken, later, r, -, -, hr⟩ <;>
              rw [hr] <;> exact h.of_same rfl rfl rfl rfl rfl
          · rw [Channel.receive, if_neg hopen]
            exact h
      | gather pieces =>
          change Sound s { w with channel := (w.channel.gather pieces).2 }
          rcases w.channel.gather_cases pieces with ⟨e, faults, hg⟩ | ⟨n, faults, hg⟩ <;>
            rw [hg] <;> exact h.of_same rfl rfl rfl rfl rfl
      | setOption level name value =>
          change Sound s { w with channel := (w.channel.setOption level name value).2 }
          obtain ⟨result, faults, options, hset⟩ := w.channel.setOption_cases level name value
          rw [hset]
          exact h.of_same rfl rfl rfl rfl rfl
      | arrival r => exact h.of_same rfl rfl rfl rfl rfl
      | close => exact h.close (by simpa [Act.needsOwner] using hneeds)
      | disown => exact h.disown

theorem run (h : Sound s w) (acts : List Act) : Sound s (w.run acts) := by
  induction acts generalizing w with
  | nil => exact h
  | cons a acts ih => exact ih (h.after a)

end Sound

end Custody

end Netfilter
