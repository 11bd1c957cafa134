import Netfilter.Proofs.Traffic.Basic
import Netfilter.Proofs.Traffic.Polls

/-!
# Traffic stays in order

The numbers, the answers and the calls of a channel stay in order together, as
long as the numbers have not gone around and the other side is lawful. This is the
invariant of traffic, and each deed carries it over. What is sent late bears a
number that was kept for it, and so no other datagram bears it.
-/

namespace Netfilter.Traffic

/-- A query that succeeded or was refused has sent a request, and its result is the code of an
answer to that request. -/
def Truthful (authored : List (Nat × Bytes)) (arrived : List Receipt)
    (p : Nat × Except Error Answer) : Prop :=
  ((∃ a, p.2 = .ok a) ∨ ∃ errno, p.2 = .error (.kernel errno)) →
    ∃ data m code, (p.1, data) ∈ authored ∧ m ∈ errorMessages arrived ∧
      m.header.seq = Message.numberOf data ∧ Message.errorCode m.payload = .ok code ∧
      p.2 = (resultOf code).map fun _ => .done

theorem Truthful.mono {authored authored' : List (Nat × Bytes)} {arrived arrived' : List Receipt}
    {p : Nat × Except Error Answer} (h : Truthful authored arrived p) (ha : authored ⊆ authored')
    (hr : arrived ⊆ arrived') : Truthful authored' arrived' p := by
  intro hp
  obtain ⟨data, m, code, hauthored, hm, hseq, hcode, hresult⟩ := h hp
  refine ⟨data, m, code, ha hauthored, ?_, hseq, hcode, hresult⟩
  obtain ⟨r, hrmem, hmem⟩ := List.mem_flatMap.1 hm
  exact mem_errorMessages_of_mem (hr hrmem) hmem

structure Sound (w : Traffic) : Prop where
  numbered : Numbered w.channel.given w.channel.nextSeq w.assigned
  answered : Answered w.channel.socket w.arrived
  tracked : Tracked w.channel.calls w.channel.turn w.started w.authored w.withdrawn
  sent : ∀ p ∈ w.authored, p.2 ∈ w.channel.socket.sent
  truthful : ∀ p ∈ w.concluded, Truthful w.authored w.arrived p

theorem sound_start (s : Socket) : (start s).Sound where
  numbered := ⟨rfl, nofun, List.nodup_nil⟩
  answered := ⟨nofun, List.nodup_nil, List.Subset.refl _⟩
  tracked := ⟨List.nodup_nil, nofun, nofun, nofun, nofun, nofun, List.nodup_nil, nofun, nofun⟩
  sent := nofun
  truthful := nofun

namespace Sound

variable {w : Traffic} {c : Channel}

/-- Whatever is sent, the numbers and the answers stay in order. The rest is up to what was done. -/
theorem pass (h : w.Sound) (hlt : w.assigned < 2 ^ 32) {n n' : UInt32}
    (he : Emission w.channel.socket n c.socket n') (hn : n ∉ w.channel.socket.numbers)
    (hdraws : Draws w.channel.nextSeq w.channel.given c.nextSeq c.given) {started : Nat}
    {withdrawn : List Nat} (new : List (Nat × Bytes)) (concluded : List (Nat × Except Error Answer))
    (hnew : ∀ p ∈ new, p.2 ∈ newlySent w.channel c)
    (htracked : Tracked c.calls c.turn started (w.authored ++ new) withdrawn)
    (hconcluded : ∀ p ∈ concluded, Truthful (w.authored ++ new) (w.pass c).arrived p) :
    Sound { w.pass c with
      started, authored := w.authored ++ new, withdrawn, concluded := w.concluded ++ concluded } where
  numbered := h.numbered.draws hdraws hlt
  answered := h.answered.emission he hn
  tracked := htracked
  sent p hp := by
    change p.2 ∈ c.socket.sent
    rw [(newlySent_cases he).2]
    rcases List.mem_append.1 hp with hp | hp
    · exact List.mem_append_left _ (h.sent p hp)
    · exact List.mem_append_right _ (hnew p hp)
  truthful p hp := by
    rcases List.mem_append.1 hp with hp | hp
    · exact (h.truthful p hp).mono (List.subset_append_left _ _) (List.subset_append_left _ _)
    · exact hconcluded p hp

theorem next_not_mem (h : w.Sound) (hlt : w.assigned < 2 ^ 32) :
    w.channel.nextSeq ∉ w.channel.socket.numbers := fun hmem =>
  h.numbered.next_not_mem hlt (List.mem_append_left _ hmem)

/-- A deed by which no call sends anything and no query is over. -/
theorem pass_mute (h : w.Sound) (hlt : w.assigned < 2 ^ 32)
    (he : Emission w.channel.socket w.channel.nextSeq c.socket c.nextSeq)
    (hreserved : (reservedBy c.calls).Subperm (reservedBy w.channel.calls)) {started : Nat}
    {withdrawn : List Nat} (htracked : Tracked c.calls c.turn started w.authored withdrawn) :
    Sound { w.pass c with started, withdrawn } := by
  rw [← List.append_nil w.authored] at htracked
  have hs := h.pass hlt he (h.next_not_mem hlt) (he.draws hreserved) [] [] nofun htracked nofun
  simp only [List.append_nil] at hs
  exact hs

theorem pass_aside (h : w.Sound) (hlt : w.assigned < 2 ^ 32)
    (he : Emission w.channel.socket w.channel.nextSeq c.socket c.nextSeq)
    (hcalls : c.calls = w.channel.calls) (hturn : c.turn = w.channel.turn) : (w.pass c).Sound := by
  have htracked := h.tracked
  rw [← hcalls, ← hturn] at htracked
  exact h.pass_mute hlt he (hcalls ▸ List.Subperm.refl _) htracked

theorem start (h : w.Sound) (hlt : w.assigned < 2 ^ 32) {call : Call}
    (hcall : (∃ d, call = .query d) ∨ ∃ d, call = .post d) :
    Sound { w.pass (w.channel.start w.started call) with started := w.started + 1 } := by
  have hstart : ∃ isOpen drops, w.channel.start w.started call = { w.channel with
      isOpen
      calls := w.channel.calls.filter (·.name ≠ w.started) ++ [⟨w.started, call, .fresh⟩]
      turn := w.channel.turn.leave w.started
      socket := { w.channel.socket with drops } } := by
    obtain ⟨isOpen, drops, he⟩ := Channel.endCall_eq w.channel w.channel w.started
    exact ⟨isOpen, drops, by rw [Channel.start, Channel.cancel, he]⟩
  obtain ⟨isOpen, drops, hstart⟩ := hstart
  have hfresh : Running.reserved? ⟨w.started, call, .fresh⟩ = none :=
    Channel.reserved?_of_ne (by simp)
  have hreserved : (reservedBy (w.channel.calls.filter (·.name ≠ w.started)
      ++ [⟨w.started, call, .fresh⟩])).Subperm (reservedBy w.channel.calls) := by
    rw [reservedBy, List.filterMap_append, List.filterMap_cons, hfresh]
    simp only [List.filterMap_nil, List.append_nil]
    exact (List.filter_sublist.filterMap _).subperm
  have he : Emission w.channel.socket w.channel.nextSeq
      (w.channel.start w.started call).socket (w.channel.start w.started call).nextSeq := by
    rw [hstart]
    exact .quiet ⟨rfl, rfl, List.Subset.refl _⟩
  refine h.pass_mute hlt he ?_ ?_
  · rw [hstart]
    exact hreserved
  · rw [hstart]
    exact h.tracked.start hcall

theorem cancel (h : w.Sound) (hlt : w.assigned < 2 ^ 32) (name : Nat) :
    (w.after (.cancel name)).Sound := by
  obtain ⟨isOpen, drops, hcancel⟩ := Channel.endCall_eq w.channel w.channel name
  have he : Emission w.channel.socket w.channel.nextSeq
      (w.channel.cancel name).socket (w.channel.cancel name).nextSeq := by
    rw [Channel.cancel, hcancel]
    exact .quiet ⟨rfl, rfl, List.Subset.refl _⟩
  have htracked : Tracked (w.channel.calls.filter (·.name ≠ name)) (w.channel.turn.leave name)
      w.started w.authored
      (w.withdrawn ++ ((w.call? name).filter (·.isSilent)).toList.map (·.name)) := by
    cases hfind : w.call? name with
    | none =>
        simp only [Option.filter_none, Option.toList_none, List.map_nil, List.append_nil]
        exact h.tracked.dropped name
    | some r =>
        have hr := List.mem_of_find?_eq_some hfind
        obtain rfl : r.name = name := by simpa using List.find?_some hfind
        by_cases hsilent : r.isSilent = true
        · rw [Option.filter_some_pos hsilent]
          exact h.tracked.withdrew hr (Running.isSilent_iff.1 hsilent)
        · rw [Option.filter_some_neg (Bool.eq_false_iff.2 hsilent)]
          simp only [Option.toList_none, List.map_nil, List.append_nil]
          exact h.tracked.dropped r.name
  refine h.pass_mute hlt he ?_ ?_
  · rw [Channel.cancel, hcancel]
    exact (List.filter_sublist.filterMap _).subperm
  · rw [Channel.cancel, hcancel]
    exact htracked

theorem arrival (h : w.Sound) {r : Receipt} (hr : w.Permits r) : (w.after (.arrival r)).Sound where
  numbered := ⟨h.numbered.next_eq, h.numbered.old, h.numbered.distinct⟩
  answered := by
    have hone : errorMessages [r] = errorMessagesOf r := List.flatMap_singleton _ _
    refine ⟨?_, hr.2, List.append_subset.2 ⟨?_, List.subset_append_right _ _⟩⟩
    · change ∀ m ∈ errorMessages (w.arrived ++ [r]), m.header.seq ∈ w.channel.socket.numbers
      rw [errorMessages_append, hone]
      intro m hm
      rcases List.mem_append.1 hm with hm | hm
      · exact h.answered.own m hm
      · exact hr.1 m hm
    · exact List.Subset.trans h.answered.seen (List.subset_append_left _ _)
  tracked := h.tracked
  sent := h.sent
  truthful p hp := (h.truthful p hp).mono (List.Subset.refl _) (List.subset_append_left _ _)

theorem resultOfQuery?_ofExcept {call : Call} {x y : Except Error Answer}
    (h : resultOfQuery? call (some (.ofExcept x)) = some y) :
    (∃ d, call = .query d) ∧ y = x := by
  cases call <;> cases x <;> cases h <;> exact ⟨⟨_, rfl⟩, rfl⟩

/-- A call that is gone on with is over. `new` are the numbers of what was sent. -/
theorem poll_ended (h : w.Sound) (hlt : w.assigned < 2 ^ 32) {name : Nat} {busy : Bool}
    {r : Running} {x : Except Error Answer} {mid : Channel} (hfind : w.call? name = some r)
    (hgo : w.channel.goOnWhile busy r = (.inl x, mid)) {n n' : UInt32}
    (he : Emission w.channel.socket n mid.socket n') (hn : n ∉ w.channel.socket.numbers)
    {new : List UInt32} (hnumbers : mid.socket.numbers.Perm (new ++ w.channel.socket.numbers))
    (hdraws : Draws w.channel.nextSeq r.reserved?.toList mid.nextSeq new)
    (hcalls : mid.calls = w.channel.calls)
    (hturn : ∀ j, w.channel.turn.holder = some j → mid.turn.holder = some j)
    (hsilent : newlySent w.channel mid = [] ∨ r.IsSilent)
    (htrue : (∃ d, r.call = .query d) → Truthful
      (w.authored ++ (newlySent w.channel mid).map (Prod.mk name)) (w.pass mid).arrived (name, x)) :
    (w.after (.poll name busy)).Sound := by
  have hf : w.channel.calls.find? (·.name = name) = some r := hfind
  have hpoll : w.channel.pollWhile busy name =
      (some (.ofExcept x), Channel.endCall w.channel mid name) := by
    simp only [Channel.pollWhile, hf, hgo]
  have hr := List.mem_of_find?_eq_some hf
  obtain rfl : r.name = name := by simpa using List.find?_some hf
  obtain ⟨isOpen, drops, hend⟩ := Channel.endCall_eq w.channel mid r.name
  have hnew := (newlySent_cases he).1
  have htracked := h.tracked.ended hr hturn
    (hsilent.elim .inl fun hs => hnew.imp_right fun hone => ⟨hs, hone⟩)
  have he' : Emission w.channel.socket n { mid.socket with drops } n' :=
    he.followed ⟨rfl, rfl, List.Subset.refl _⟩
  rw [← hcalls] at htracked
  have hdraws' : Draws w.channel.nextSeq w.channel.given mid.nextSeq
      (mid.socket.numbers ++ reservedBy (mid.calls.filter (·.name ≠ r.name))) := by
    rw [hcalls]
    refine hdraws.frame (given_perm (perm_cons_filter h.tracked.distinct hr) _) ?_
    rw [← List.append_assoc]
    exact hnumbers.append_right _
  simp only [Traffic.after, hpoll, hfind, hend, Option.bind_some]
  refine h.pass hlt he' hn hdraws' _ _ ?_ htracked ?_
  · intro p hp
    obtain ⟨data, hdata, rfl⟩ := List.mem_map.1 hp
    exact hdata
  · intro p hp
    obtain ⟨y, hy, rfl⟩ := List.mem_map.1 hp
    obtain ⟨hquery, rfl⟩ := resultOfQuery?_ofExcept (Option.mem_toList.1 hy)
    exact htrue hquery

/-- A call that is gone on with is not over. -/
theorem poll_pending (h : w.Sound) (hlt : w.assigned < 2 ^ 32) {busy : Bool} {r r' : Running}
    {mid : Channel} (hfind : w.call? r.name = some r)
    (hgo : w.channel.goOnWhile busy r = (.inr r', mid)) {n n' : UInt32}
    (he : Emission w.channel.socket n mid.socket n') (hn : n ∉ w.channel.socket.numbers)
    {new : List UInt32} (hnumbers : mid.socket.numbers.Perm (new ++ w.channel.socket.numbers))
    (hdraws : Draws w.channel.nextSeq r.reserved?.toList mid.nextSeq
      (new ++ r'.reserved?.toList))
    (hcalls : mid.calls = w.channel.calls)
    (htracked : Tracked (Channel.replace w.channel.calls r.name r') mid.turn w.started
      (w.authored ++ (newlySent w.channel mid).map (Prod.mk r.name)) w.withdrawn) :
    (w.after (.poll r.name busy)).Sound := by
  have hf : w.channel.calls.find? (·.name = r.name) = some r := hfind
  have hr := List.mem_of_find?_eq_some hf
  have hpoll : w.channel.pollWhile busy r.name = (some .pending, { mid with
      calls := Channel.replace w.channel.calls r.name r' }) := by
    simp only [Channel.pollWhile, hf, hgo, hcalls, Channel.replace]
  have hnone : resultOfQuery? r.call (some .pending) = none := by
    cases r.call <;> rfl
  have hgiven : (mid.socket.numbers ++ reservedBy (Channel.replace w.channel.calls r.name r')).Perm
      ((new ++ r'.reserved?.toList) ++ (w.channel.socket.numbers ++
        reservedBy (w.channel.calls.filter (·.name ≠ r.name)))) := by
    refine (given_perm (perm_replace h.tracked.distinct hr) _).trans ?_
    rw [List.append_assoc]
    refine ((hnumbers.append_right _).append_left _).trans ?_
    rw [List.append_assoc]
    exact List.perm_append_comm_assoc _ _ _
  have hdraws' := hdraws.frame (given_perm (perm_cons_filter h.tracked.distinct hr) _) hgiven
  simp only [Traffic.after, hpoll, hfind, Option.bind_some, hnone, Option.toList_none, List.map_nil]
  refine h.pass (c := { mid with calls := Channel.replace w.channel.calls r.name r' }) hlt he hn
    hdraws' _ _ ?_ htracked fun p hp => absurd hp List.not_mem_nil
  intro p hp
  obtain ⟨data, hdata, rfl⟩ := List.mem_map.1 hp
  exact hdata

/-- A number that is drawn for one call was not used by another. -/
theorem unused (h : w.Sound) (hlt : w.assigned < 2 ^ 32) {r : Running} (hr : r ∈ w.channel.calls)
    {n nextSeq : UInt32} (hdraws : Draws w.channel.nextSeq r.reserved?.toList nextSeq [n]) :
    n ∉ w.channel.socket.numbers := by
  have hall := hdraws.frame
    (given_perm (perm_cons_filter h.tracked.distinct hr) w.channel.socket.numbers) (List.Perm.refl _)
  have hdistinct := (h.numbered.draws hall hlt).distinct
  rw [List.singleton_append, List.nodup_cons] at hdistinct
  exact fun hmem => hdistinct.1 (List.mem_append_left _ hmem)

structure Asked (w : Traffic) (r : Running) (seq : UInt32) (sent : Channel) : Prop where
  emission : ∃ n n', Emission w.channel.socket n sent.socket n' ∧ n ∉ w.channel.socket.numbers
  draws : ∃ new, sent.socket.numbers.Perm (new ++ w.channel.socket.numbers) ∧
    Draws w.channel.nextSeq r.reserved?.toList sent.nextSeq new
  calls : sent.calls = w.channel.calls
  turned : ∀ j, w.channel.turn.holder = some j → sent.turn.holder = some j
  silent : newlySent w.channel sent = [] ∨ r.IsSilent
  own : ∃ data, (r.name, data) ∈
    w.authored ++ (newlySent w.channel sent).map (Prod.mk r.name) ∧ Message.numberOf data = seq
  tracked : Tracked (Channel.replace w.channel.calls r.name { r with stage := .awaiting seq })
    sent.turn w.started (w.authored ++ (newlySent w.channel sent).map (Prod.mk r.name)) w.withdrawn

theorem asked (h : w.Sound) (hlt : w.assigned < 2 ^ 32) {r : Running} {d : Draft} {seq : UInt32}
    {sent : Channel} (hr : r ∈ w.channel.calls) (hcall : r.call = .query d)
    (hasks : Channel.Asks w.channel r seq sent) : Asked w r seq sent := by
  cases hasks with
  | before stage =>
      have hnew : newlySent w.channel w.channel = [] := newlySent_eq (List.append_nil _).symm
      have hnone : r.reserved? = none := Channel.reserved?_of_ne (by simp [stage])
      have hsame : { r with stage := .awaiting seq } = r := by rw [← stage]
      refine ⟨⟨_, _, .quiet ⟨rfl, rfl, List.Subset.refl _⟩, h.next_not_mem hlt⟩, ⟨[], .refl _, ?_⟩,
        rfl, fun j hj => hj, .inl hnew, ?_, ?_⟩
      · rw [hnone]
        exact .none (List.Subperm.refl _)
      · rw [hnew, List.map_nil, List.append_nil]
        exact h.tracked.requested r hr seq stage
      · rw [hnew, hsame, Channel.replace_self h.tracked.distinct hr, List.map_nil, List.append_nil]
        exact h.tracked
  | @now nextSeq silent data number draws turn turned holds sendFaults codes =>
      obtain rfl := number
      have hnew : newlySent w.channel { w.channel with
          turn, nextSeq, socket := w.channel.socket.recorded data sendFaults codes } =
          [data] := newlySent_eq rfl
      refine ⟨⟨_, _, w.channel.socket.emission_recorded data sendFaults codes,
        h.unused hlt hr draws⟩, ⟨_, w.channel.socket.numbers_recorded data sendFaults codes, draws⟩,
        rfl, turned, .inr silent, ?_, ?_⟩
      · rw [hnew]
        exact ⟨data, List.mem_append_right _ List.mem_cons_self, rfl⟩
      · rw [hnew]
        exact (h.tracked.turned turned).requesting hr ⟨d, hcall⟩ silent holds data

/-- Going on with a query that has sent its request, now or before. -/
theorem poll_asks (h : w.Sound) (hlt : w.assigned < 2 ^ 32) {r : Running} {seq : UInt32}
    {sent : Channel} {busy : Bool} (hfind : w.call? r.name = some r) (hasked : Asked w r seq sent)
    (hgo : w.channel.goOnWhile busy r = Channel.course r (sent.goOnAwaiting seq)) :
    (w.after (.poll r.name busy)).Sound := by
  obtain ⟨n, n', hemits, hn⟩ := hasked.emission
  obtain ⟨new, hnumbers, hdraws⟩ := hasked.draws
  obtain ⟨outcome, left, hdec⟩ :=
    Acknowledgement.exists_decision sent.socket seq sent.socket.inbox
  have he := hemits.followed (Channel.quiet_withInbox hdec.left_subset)
  have hseen := (h.answered.emission hemits hn).seen
  -- a result is that of an answer in the inbox, which has arrived and bears the request's number
  have hsettled {x : Except Error Unit}
      (hdec : Acknowledgement.Decision sent.socket seq sent.socket.inbox (.ofExcept x) left)
      (hgo : w.channel.goOnWhile busy r =
        (.inl (x.map fun _ => .done), sent.withInbox left)) : (w.after (.poll r.name busy)).Sound := by
    refine h.poll_ended hlt hfind hgo he hn hnumbers hdraws hasked.calls hasked.turned hasked.silent
      fun _ hp => ?_
    have hx : x = .ok () ∨ ∃ errno, x = .error (.kernel errno) := by
      cases x with
      | ok u => exact .inl rfl
      | error e =>
          rcases hp with ⟨a, ha⟩ | ⟨errno, he⟩
          · cases ha
          · exact .inr ⟨errno, congrArg Except.error (Except.error.inj he)⟩
    obtain ⟨data, hdata, hnumber⟩ := hasked.own
    obtain ⟨m, hm, hseq, code, hcode, hresult⟩ := hdec.exists_code hx
    obtain ⟨receipt, hreceipt, hmem⟩ := List.mem_flatMap.1 hm
    exact ⟨data, m, code, hdata, mem_errorMessages_of_mem (hseen hreceipt) hmem,
      hseq.trans hnumber.symm, hcode, by rw [hresult]⟩
  have hawait := Channel.await_of_decision hdec
  cases outcome with
  | ok u =>
      refine hsettled (x := .ok u) hdec (hgo.trans ?_)
      simp only [Channel.goOnAwaiting, hawait]
      rfl
  | error e =>
      refine hsettled (x := .error e) hdec (hgo.trans ?_)
      simp only [Channel.goOnAwaiting, hawait]
      rfl
  | pending =>
      have hgo' : w.channel.goOnWhile busy r =
          (.inr { r with stage := .awaiting seq }, sent.withInbox left) := by
        refine hgo.trans ?_
        simp only [Channel.goOnAwaiting, hawait]
        rfl
      have hnone : Running.reserved? { r with stage := .awaiting seq } = none :=
        Channel.reserved?_of_ne (by simp)
      refine h.poll_pending hlt hfind hgo' he hn hnumbers ?_ hasked.calls hasked.tracked
      rw [hnone, Option.toList_none, List.append_nil]
      exact hdraws

theorem poll (h : w.Sound) (hlt : w.assigned < 2 ^ 32) (name : Nat) (busy : Bool) :
    (w.after (.poll name busy)).Sound := by
  have hquiet : Emission w.channel.socket w.channel.nextSeq w.channel.socket w.channel.nextSeq :=
    .quiet ⟨rfl, rfl, List.Subset.refl _⟩
  have hn := h.next_not_mem hlt
  cases hfind : w.call? name with
  | none =>
      have hnone : newlySent w.channel w.channel = [] := newlySent_eq (List.append_nil _).symm
      have hpoll : w.channel.pollWhile busy name = (none, w.channel) := by
        have hf : w.channel.calls.find? (·.name = name) = none := hfind
        simp only [Channel.pollWhile, hf]
      simp only [after, hpoll, hfind, hnone, Option.bind_none, Option.toList_none, List.map_nil,
        List.append_nil]
      exact h.pass_aside hlt hquiet rfl rfl
  | some r =>
      have hr := List.mem_of_find?_eq_some hfind
      obtain rfl : r.name = name := by simpa using List.find?_some hfind
      have hgoes := Channel.goOnWhile_goesOn busy (h.tracked.numbered r hr)
        (h.tracked.holds r hr)
      generalize hgo : w.channel.goOnWhile busy r = gone at hgoes
      cases hgoes with
      | asks call asks => exact h.poll_asks hlt hfind (h.asked hlt hr call asks) hgo
      | @waits silent r' name numbered silent' turn turned holds nextSeq draws =>
          have hnew : newlySent w.channel { w.channel with turn, nextSeq } = [] :=
            newlySent_eq (List.append_nil _).symm
          have hdraws : Draws w.channel.nextSeq r.reserved?.toList nextSeq
              ([] ++ r'.reserved?.toList) := draws
          refine h.poll_pending hlt hfind hgo hquiet hn (List.Perm.refl _) hdraws rfl ?_
          rw [hnew, List.map_nil, List.append_nil]
          exact (h.tracked.turned turned).replaced hr silent name numbered silent' holds
      | fails silent foreign turned draws sendFaults =>
          refine h.poll_ended hlt hfind hgo (.quiet ⟨rfl, rfl, List.Subset.refl _⟩) hn
            (List.Perm.refl _) draws rfl turned (.inr silent) fun _ hp => ?_
          rcases hp with ⟨a, ha⟩ | ⟨errno, herr⟩
          · cases ha
          · exact absurd (Except.error.inj herr) (foreign errno)
      | posts silent call data draws sendFaults codes answer =>
          refine h.poll_ended hlt hfind hgo
            (w.channel.socket.emission_recorded data sendFaults codes) (h.unused hlt hr draws)
            (w.channel.socket.numbers_recorded data sendFaults codes) draws rfl (fun j hj => hj)
            (.inr silent) ?_
          rintro ⟨d', hquery⟩
          rw [call] at hquery
          cases hquery

theorem after (h : w.Sound) (hlt : w.assigned < 2 ^ 32) (deed : Deed)
    (hlawful : w.Allows deed) : (w.after deed).Sound := by
  cases deed with
  | query d => exact h.start hlt (.inl ⟨d, rfl⟩)
  | message d => exact h.start hlt (.inr ⟨d, rfl⟩)
  | poll name busy => exact h.poll hlt name busy
  | cancel name => exact h.cancel hlt name
  | post d =>
      have he := w.channel.emission_post d
      rcases w.channel.post_cases d with ⟨e, faults, -, hp⟩ | ⟨faults, codes, -, hp⟩
      · exact h.pass_aside hlt he (by rw [hp]) (by rw [hp])
      · exact h.pass_aside hlt he (by rw [hp]) (by rw [hp])
  | verdict v queue payload =>
      have he := w.channel.emission_verdict v queue payload
      rcases v.send_cases queue payload w.channel with ⟨faults, hs⟩ | ⟨pieces, faults, -, hs⟩
      · exact h.pass_aside hlt he (by rw [hs]) (by rw [hs])
      · exact h.pass_aside hlt he (by rw [hs]) (by rw [hs])
  | arrival r => exact h.arrival hlawful
  | close =>
      obtain ⟨drops, hclose⟩ := w.channel.close_eq
      have he : Emission w.channel.socket w.channel.nextSeq
          w.channel.close.2.socket w.channel.close.2.nextSeq := by
        rw [hclose]
        exact .quiet ⟨rfl, rfl, List.Subset.refl _⟩
      exact h.pass_aside hlt he (by rw [hclose]) (by rw [hclose])

end Sound

theorem Sound.run {w : Traffic} (h : w.Sound) {deeds : List Deed} (hlawful : w.Lawful deeds)
    (hlt : (w.run deeds).assigned < 2 ^ 32) : (w.run deeds).Sound := by
  induction deeds generalizing w with
  | nil => exact h
  | cons deed deeds ih =>
      have hnow : w.assigned < 2 ^ 32 := (w.assigned_le_run (deed :: deeds)).trans_lt hlt
      exact ih (h.after hnow deed hlawful.1) hlawful.2 hlt

end Netfilter.Traffic
