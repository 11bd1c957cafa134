import Netfilter.Proofs.Link.Query
import Netfilter.Proofs.Traffic.Numbers

/-!
# Calls and what they have sent

Names are given to calls in the order in which they begin. `authored` lists the
datagrams that calls have sent, each with the name of its call. A call that waits
for its acknowledgement holds the turn and has sent the request it waits for; a
call that waits for its turn, or whose message the socket does not take, has sent
nothing, and never will once it is given up. A message that is not taken has its
number already.
-/

namespace Netfilter

namespace Turn

theorem holder_request {t : Turn} {i j : Nat} (h : t.holder = some j) :
    (t.request i).holder = some j := by
  simp only [request, h]
  split_ifs
  · exact h
  · rfl

theorem holder_leave {t : Turn} {i j : Nat} (h : t.holder = some j) (hne : j ≠ i) :
    (t.leave i).holder = some j := by
  have hother : t.holder ≠ some i := by
    rw [h]
    exact fun heq => hne (Option.some.inj heq)
  rw [leave, if_neg hother]
  exact h

end Turn

def Running.IsSilent (r : Running) : Prop := ∀ seq, r.stage ≠ .awaiting seq

def Running.isSilent (r : Running) : Bool :=
  match r.stage with
  | .awaiting _ => false
  | _ => true

theorem Running.isSilent_iff {r : Running} : r.isSilent = true ↔ r.IsSilent := by
  unfold isSilent IsSilent
  cases r.stage <;> simp

def Running.IsNumbered (r : Running) : Prop :=
  (∃ d, r.call = .query d) ∨ (∃ d, r.call = .post d) ∧ r.IsSilent

/-- The call is a query that has come so far that no other may. -/
def Running.IsEngaged (r : Running) : Prop :=
  (∃ d, r.call = .query d) ∧ r.stage = .receiving ∨ ∃ seq, r.stage = .awaiting seq

/-- The number of a message that the socket has not taken. -/
def Running.reserved? (r : Running) : Option UInt32 :=
  match r.call, r.stage with
  | .post d, .receiving | .query d, .receiving => some d.seq
  | _, _ => none

def reservedBy (calls : List Running) : List UInt32 := calls.filterMap Running.reserved?

theorem reservedBy_cons (r : Running) (calls : List Running) :
    reservedBy (r :: calls) = r.reserved?.toList ++ reservedBy calls := by
  rw [reservedBy, List.filterMap_cons]
  cases r.reserved? <;> rfl

/-- The numbers of messages that were sent or are still to be sent. -/
def Channel.given (c : Channel) : List UInt32 := c.socket.numbers ++ reservedBy c.calls

def Channel.replace (calls : List Running) (name : Nat) (r : Running) : List Running :=
  calls.map fun q => if q.name = name then r else q

section Replace

variable {calls : List Running} {r r' q : Running}

theorem Channel.mem_replace (h : q ∈ replace calls r.name r') :
    q = r' ∨ q ∈ calls ∧ q.name ≠ r.name := by
  obtain ⟨q', hq', rfl⟩ := List.mem_map.1 h
  by_cases hname : q'.name = r.name
  · rw [if_pos hname]
    exact .inl rfl
  · rw [if_neg hname]
    exact .inr ⟨hq', hname⟩

theorem Channel.names_replace (hname : r'.name = r.name) :
    (replace calls r.name r').map (·.name) = calls.map (·.name) := by
  rw [replace, List.map_map]
  refine List.map_congr_left fun q _ => ?_
  by_cases hq : q.name = r.name <;> simp [hq, hname]

theorem perm_cons_filter (hdistinct : (calls.map (·.name)).Nodup) (hr : r ∈ calls) :
    calls.Perm (r :: calls.filter (·.name ≠ r.name)) := by
  induction calls with
  | nil => cases hr
  | cons q calls ih =>
      rw [List.map_cons, List.nodup_cons] at hdistinct
      rcases List.mem_cons.1 hr with rfl | hr
      · have hothers : calls.filter (·.name ≠ r.name) = calls := by
          refine List.filter_eq_self.2 fun q hq => decide_eq_true fun hname => ?_
          exact hdistinct.1 (hname ▸ List.mem_map_of_mem hq)
        rw [List.filter_cons_of_neg (by simp), hothers]
      · have hne : q.name ≠ r.name := fun hname =>
          hdistinct.1 (hname ▸ List.mem_map_of_mem hr)
        rw [List.filter_cons_of_pos (by simpa using hne)]
        exact ((ih hdistinct.2 hr).cons q).trans (List.Perm.swap r q _)

theorem perm_replace (hdistinct : (calls.map (·.name)).Nodup) (hr : r ∈ calls) :
    (Channel.replace calls r.name r').Perm (r' :: calls.filter (·.name ≠ r.name)) := by
  have hothers : (calls.filter (·.name ≠ r.name)).map (fun q => if q.name = r.name then r' else q) =
      calls.filter (·.name ≠ r.name) := by
    refine (List.map_congr_left fun q hq => ?_).trans (List.map_id _)
    exact if_neg (of_decide_eq_true (List.mem_filter.1 hq).2)
  have hperm := (perm_cons_filter hdistinct hr).map fun q => if q.name = r.name then r' else q
  rwa [List.map_cons, if_pos rfl, hothers] at hperm

/-- Among the numbers given out, the one that is kept for a call goes to the front. -/
theorem given_perm {others : List Running} (h : calls.Perm (r :: others)) (numbers : List UInt32) :
    (numbers ++ reservedBy calls).Perm (r.reserved?.toList ++ (numbers ++ reservedBy others)) := by
  have hreserved := h.filterMap Running.reserved?
  rw [← reservedBy, ← reservedBy, reservedBy_cons] at hreserved
  exact (hreserved.append_left _).trans (List.perm_append_comm_assoc _ _ _)

theorem Channel.replace_self (hdistinct : (calls.map (·.name)).Nodup) (hr : r ∈ calls) :
    replace calls r.name r = calls := by
  refine (List.map_congr_left fun q hq => ?_).trans (List.map_id calls)
  split_ifs with hname
  · exact (List.inj_on_of_nodup_map hdistinct hq hr hname).symm
  · rfl

end Replace

/-- The calls under way, what calls have sent, and which calls were given up before they sent
anything, fit together. -/
structure Tracked (calls : List Running) (turn : Turn) (started : Nat)
    (authored : List (Nat × Bytes)) (withdrawn : List Nat) : Prop where
  distinct : (calls.map (·.name)).Nodup
  begun : ∀ r ∈ calls, r.name < started
  numbered : ∀ r ∈ calls, r.IsNumbered
  holds : ∀ r ∈ calls, r.IsEngaged → turn.holder = some r.name
  requested : ∀ r ∈ calls, ∀ seq, r.stage = .awaiting seq →
    ∃ data, (r.name, data) ∈ authored ∧ Message.numberOf data = seq
  silent : ∀ r ∈ calls, r.IsSilent → r.name ∉ authored.map Prod.fst
  once : (authored.map Prod.fst).Nodup
  past : ∀ name ∈ authored.map Prod.fst, name < started
  withdrawn_past : ∀ name ∈ withdrawn, name < started ∧ name ∉ calls.map (·.name) ∧
    name ∉ authored.map Prod.fst

theorem mem_names_append {authored : List (Nat × Bytes)} {name n : Nat} {data : Bytes} :
    n ∈ (authored ++ [(name, data)]).map Prod.fst ↔ n ∈ authored.map Prod.fst ∨ n = name := by
  rw [List.map_append, List.mem_append, List.map_singleton, List.mem_singleton]

theorem nodup_names_append {authored : List (Nat × Bytes)} {name : Nat}
    (h : (authored.map Prod.fst).Nodup) (hname : name ∉ authored.map Prod.fst) (data : Bytes) :
    ((authored ++ [(name, data)]).map Prod.fst).Nodup := by
  rw [List.map_append, List.map_singleton]
  refine List.nodup_append.2 ⟨h, List.nodup_singleton _, ?_⟩
  intro a ha b hb
  rw [List.mem_singleton.1 hb]
  rintro rfl
  exact hname ha

namespace Tracked

variable {calls : List Running} {turn turn' : Turn} {started : Nat}
  {authored : List (Nat × Bytes)} {withdrawn : List Nat} {r : Running}

theorem eq_of_name (h : Tracked calls turn started authored withdrawn) {r' : Running}
    (hr : r ∈ calls) (hr' : r' ∈ calls) (hname : r.name = r'.name) : r = r' :=
  List.inj_on_of_nodup_map h.distinct hr hr' hname

theorem eq_of_authored (h : Tracked calls turn started authored withdrawn) {r' : Running}
    (hr : r ∈ calls) (hr' : r' ∈ calls) (hsent : r.name ∈ authored.map Prod.fst)
    (hsent' : r'.name ∈ authored.map Prod.fst) : r = r' := by
  have hawaits {q : Running} (hq : q ∈ calls) (hs : q.name ∈ authored.map Prod.fst) :
      turn.holder = some q.name := by
    by_contra hno
    exact h.silent q hq (fun seq hstage => hno (h.holds q hq (.inr ⟨seq, hstage⟩))) hs
  have hholder := (hawaits hr hsent).symm.trans (hawaits hr' hsent')
  exact h.eq_of_name hr hr' (Option.some.inj hholder)

theorem start (h : Tracked calls turn started authored withdrawn) {call : Call}
    (hcall : (∃ d, call = .query d) ∨ ∃ d, call = .post d) :
    Tracked (calls.filter (·.name ≠ started) ++ [⟨started, call, .fresh⟩]) (turn.leave started)
      (started + 1) authored withdrawn := by
  -- names are given once, so no call is given up for the new one
  have hfilter : calls.filter (·.name ≠ started) = calls := by
    refine List.filter_eq_self.2 fun q hq => ?_
    have hlt := h.begun q hq
    simpa using Nat.ne_of_lt hlt
  rw [hfilter]
  refine ⟨?_, ?_, ?_, ?_, ?_, ?_, h.once, ?_, ?_⟩
  · rw [List.map_append, List.map_singleton]
    refine List.nodup_append.2 ⟨h.distinct, List.nodup_singleton _, ?_⟩
    intro a ha b hb
    obtain ⟨q, hq, rfl⟩ := List.mem_map.1 ha
    rw [List.mem_singleton.1 hb]
    exact Nat.ne_of_lt (h.begun q hq)
  · intro q hq
    rcases List.mem_append.1 hq with hq | hq
    · exact Nat.lt_succ_of_lt (h.begun q hq)
    · rw [List.mem_singleton.1 hq]
      exact Nat.lt_succ_self started
  · intro q hq
    rcases List.mem_append.1 hq with hq | hq
    · exact h.numbered q hq
    · rw [List.mem_singleton.1 hq]
      exact hcall.imp_right fun hpost => ⟨hpost, nofun⟩
  · intro q hq hengaged
    rcases List.mem_append.1 hq with hq | hq
    · exact Turn.holder_leave (h.holds q hq hengaged) (Nat.ne_of_lt (h.begun q hq))
    · rw [List.mem_singleton.1 hq] at hengaged
      rcases hengaged with ⟨-, hstage⟩ | ⟨seq, hstage⟩ <;> cases hstage
  · intro q hq seq hstage
    rcases List.mem_append.1 hq with hq | hq
    · exact h.requested q hq seq hstage
    · rw [List.mem_singleton.1 hq] at hstage
      cases hstage
  · intro q hq hsilent
    rcases List.mem_append.1 hq with hq | hq
    · exact h.silent q hq hsilent
    · rw [List.mem_singleton.1 hq]
      exact fun hmem => Nat.lt_irrefl _ (h.past _ hmem)
  · exact fun name hname => Nat.lt_succ_of_lt (h.past name hname)
  · intro name hname
    obtain ⟨hlt, hcalls, hauthored⟩ := h.withdrawn_past name hname
    refine ⟨Nat.lt_succ_of_lt hlt, ?_, hauthored⟩
    rw [List.map_append, List.mem_append, List.map_singleton, List.mem_singleton]
    rintro (hmem | hmem)
    · exact hcalls hmem
    · exact Nat.ne_of_lt hlt hmem

theorem turned (h : Tracked calls turn started authored withdrawn)
    (hturn : ∀ j, turn.holder = some j → turn'.holder = some j) :
    Tracked calls turn' started authored withdrawn :=
  { h with holds := fun q hq hengaged => hturn _ (h.holds q hq hengaged) }

theorem dropped (h : Tracked calls turn started authored withdrawn) (name : Nat) :
    Tracked (calls.filter (·.name ≠ name)) (turn.leave name) started authored withdrawn := by
  have hkept {q : Running} (hq : q ∈ calls.filter (·.name ≠ name)) : q ∈ calls ∧ q.name ≠ name := by
    simpa using List.mem_filter.1 hq
  have hsub : (calls.filter (·.name ≠ name)).map (·.name) ⊆ calls.map (·.name) :=
    List.map_subset _ (List.filter_subset_self calls)
  refine ⟨h.distinct.sublist (List.filter_sublist.map _), ?_, ?_, ?_, ?_, ?_, h.once, h.past, ?_⟩
  · exact fun q hq => h.begun q (hkept hq).1
  · exact fun q hq => h.numbered q (hkept hq).1
  · exact fun q hq hengaged =>
      Turn.holder_leave (h.holds q (hkept hq).1 hengaged) (hkept hq).2
  · exact fun q hq => h.requested q (hkept hq).1
  · exact fun q hq => h.silent q (hkept hq).1
  · intro n hn
    obtain ⟨hlt, hcalls, hauthored⟩ := h.withdrawn_past n hn
    exact ⟨hlt, fun hmem => hcalls (hsub hmem), hauthored⟩

/-- A call that is over has sent something at the end. -/
theorem extended (h : Tracked calls turn started authored withdrawn) {name : Nat}
    (hcalls : name ∉ calls.map (·.name)) (hstarted : name < started)
    (hauthored : name ∉ authored.map Prod.fst) (hwithdrawn : name ∉ withdrawn) (data : Bytes) :
    Tracked calls turn started (authored ++ [(name, data)]) withdrawn := by
  refine ⟨h.distinct, h.begun, h.numbered, h.holds, ?_, ?_, ?_, ?_, ?_⟩
  · intro q hq seq hstage
    obtain ⟨sent, hmem, hseq⟩ := h.requested q hq seq hstage
    exact ⟨sent, List.mem_append_left _ hmem, hseq⟩
  · intro q hq hsilent
    rw [mem_names_append]
    rintro (hmem | hmem)
    · exact h.silent q hq hsilent hmem
    · obtain rfl := hmem
      exact hcalls (List.mem_map_of_mem hq)
  · exact nodup_names_append h.once hauthored data
  · intro n hn
    rw [mem_names_append] at hn
    rcases hn with hn | rfl
    · exact h.past n hn
    · exact hstarted
  · intro n hn
    obtain ⟨hlt, hno, hnone⟩ := h.withdrawn_past n hn
    refine ⟨hlt, hno, ?_⟩
    rw [mem_names_append]
    rintro (hmem | rfl)
    · exact hnone hmem
    · exact hwithdrawn hn

theorem not_mem_withdrawn (h : Tracked calls turn started authored withdrawn) (hr : r ∈ calls) :
    r.name ∉ withdrawn := by
  intro hmem
  obtain ⟨-, hcalls, -⟩ := h.withdrawn_past _ hmem
  exact hcalls (List.mem_map_of_mem hr)

/-- A call ends, and has sent at most one datagram in its last step, if it had sent none before. -/
theorem ended (h : Tracked calls turn started authored withdrawn) (hr : r ∈ calls)
    (hturn : ∀ j, turn.holder = some j → turn'.holder = some j) {new : List Bytes}
    (hnew : new = [] ∨ r.IsSilent ∧ ∃ data, new = [data]) :
    Tracked (calls.filter (·.name ≠ r.name)) (turn'.leave r.name) started
      (authored ++ new.map (Prod.mk r.name)) withdrawn := by
  have hdropped := (h.turned hturn).dropped r.name
  rcases hnew with rfl | ⟨hsilent, data, rfl⟩
  · rw [List.map_nil, List.append_nil]
    exact hdropped
  · refine hdropped.extended ?_ (h.begun r hr) (h.silent r hr hsilent) (h.not_mem_withdrawn hr) data
    intro hmem
    obtain ⟨q, hq, hname⟩ := List.mem_map.1 hmem
    simp [hname] at hq

theorem withdrew (h : Tracked calls turn started authored withdrawn) (hr : r ∈ calls)
    (hsilent : r.IsSilent) :
    Tracked (calls.filter (·.name ≠ r.name)) (turn.leave r.name) started authored
      (withdrawn ++ [r.name]) := by
  refine { h.dropped r.name with withdrawn_past := ?_ }
  intro n hn
  rcases List.mem_append.1 hn with hn | hn
  · exact (h.dropped r.name).withdrawn_past n hn
  · rw [List.mem_singleton.1 hn]
    refine ⟨h.begun r hr, ?_, h.silent r hr hsilent⟩
    intro hmem
    obtain ⟨q, hq, hname⟩ := List.mem_map.1 hmem
    simp [hname] at hq

/-- A call that has sent nothing goes on without sending anything. -/
theorem replaced (h : Tracked calls turn started authored withdrawn) (hr : r ∈ calls)
    (hsilent : r.IsSilent) {r' : Running} (hname : r'.name = r.name) (hnumbered : r'.IsNumbered)
    (hsilent' : r'.IsSilent) (hholds : r'.IsEngaged → turn.holder = some r.name) :
    Tracked (Channel.replace calls r.name r') turn started authored withdrawn := by
  refine ⟨?_, ?_, ?_, ?_, ?_, ?_, h.once, h.past, ?_⟩
  · rw [Channel.names_replace hname]
    exact h.distinct
  · intro q hq
    rcases Channel.mem_replace hq with rfl | ⟨hq, -⟩
    · exact hname ▸ h.begun r hr
    · exact h.begun q hq
  · intro q hq
    rcases Channel.mem_replace hq with rfl | ⟨hq, -⟩
    · exact hnumbered
    · exact h.numbered q hq
  · intro q hq hengaged
    rcases Channel.mem_replace hq with rfl | ⟨hq, -⟩
    · exact hname ▸ hholds hengaged
    · exact h.holds q hq hengaged
  · intro q hq seq hstage
    rcases Channel.mem_replace hq with rfl | ⟨hq, -⟩
    · exact absurd hstage (hsilent' seq)
    · exact h.requested q hq seq hstage
  · intro q hq hs
    rcases Channel.mem_replace hq with rfl | ⟨hq, -⟩
    · exact hname ▸ h.silent r hr hsilent
    · exact h.silent q hq hs
  · rw [Channel.names_replace hname]
    exact h.withdrawn_past

/-- A call that has sent nothing and holds the turn sends its request and waits. -/
theorem requesting (h : Tracked calls turn started authored withdrawn) (hr : r ∈ calls)
    (hquery : ∃ d, r.call = .query d) (hsilent : r.IsSilent) (hturn : turn.holder = some r.name)
    (data : Bytes) :
    Tracked (Channel.replace calls r.name { r with stage := .awaiting (Message.numberOf data) })
      turn started (authored ++ [(r.name, data)]) withdrawn := by
  have hnames : (Channel.replace calls r.name
      { r with stage := .awaiting (Message.numberOf data) }).map (·.name) = calls.map (·.name) :=
    Channel.names_replace rfl
  -- in the order of the fields; each time the call that asks is told from the others
  refine ⟨?_, ?_, ?_, ?_, ?_, ?_, ?_, ?_, ?_⟩
  · rw [hnames]
    exact h.distinct
  · intro q hq
    rcases Channel.mem_replace hq with rfl | ⟨hq, -⟩
    · exact h.begun r hr
    · exact h.begun q hq
  · intro q hq
    rcases Channel.mem_replace hq with rfl | ⟨hq, -⟩
    · exact .inl hquery
    · exact h.numbered q hq
  · intro q hq hengaged
    rcases Channel.mem_replace hq with rfl | ⟨hq, -⟩
    · exact hturn
    · exact h.holds q hq hengaged
  · intro q hq seq hstage
    rcases Channel.mem_replace hq with rfl | ⟨hq, -⟩
    · exact ⟨data, List.mem_append_right _ List.mem_cons_self, Stage.awaiting.inj hstage⟩
    · obtain ⟨sent, hmem, hseq⟩ := h.requested q hq seq hstage
      exact ⟨sent, List.mem_append_left _ hmem, hseq⟩
  · intro q hq hs
    rcases Channel.mem_replace hq with rfl | ⟨hq, hne⟩
    · exact absurd rfl (hs _)
    · rw [mem_names_append]
      rintro (hmem | hmem)
      · exact h.silent q hq hs hmem
      · exact hne hmem
  · exact nodup_names_append h.once (h.silent r hr hsilent) data
  · intro n hn
    rw [mem_names_append] at hn
    rcases hn with hn | rfl
    · exact h.past n hn
    · exact h.begun r hr
  · intro n hn
    obtain ⟨hlt, hno, hnone⟩ := h.withdrawn_past n hn
    rw [hnames]
    refine ⟨hlt, hno, ?_⟩
    rw [mem_names_append]
    rintro (hmem | rfl)
    · exact hnone hmem
    · exact h.not_mem_withdrawn hr hn

end Tracked

end Netfilter
