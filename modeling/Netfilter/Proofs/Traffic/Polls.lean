import Netfilter.Proofs.Link.Stalling
import Netfilter.Proofs.Traffic.Calls

/-!
# What going on with a call does

Going on with a post or a query that has sent nothing comes to one of these: it
waits, with a number for its message or without one; it fails; or its message is
sent, and then a post is over and a query looks for its answer. In each case at
most one number is taken and at most one datagram is sent, which bears the number
taken or the one that was kept for it.
-/

namespace Netfilter.Channel

/-- The query has sent its request under number `seq`, before or in the course of this; `sent` is the
channel after that. -/
inductive Asks (c : Channel) (r : Running) : UInt32 → Channel → Prop
  | before {seq : UInt32} (stage : r.stage = .awaiting seq) : Asks c r seq c
  | now {seq nextSeq : UInt32} (silent : r.IsSilent) (data : Bytes)
      (number : Message.numberOf data = seq)
      (draws : Draws c.nextSeq r.reserved?.toList nextSeq [seq]) {turn : Turn}
      (turned : ∀ j, c.turn.holder = some j → turn.holder = some j)
      (holds : turn.holder = some r.name) (sendFaults codes : List Int) :
      Asks c r seq { c with
        turn, nextSeq, socket := c.socket.recorded data sendFaults codes }

inductive GoesOn (c : Channel) (r : Running) : Course × Channel → Prop
  | waits (silent : r.IsSilent) (r' : Running) (name : r'.name = r.name)
      (numbered : r'.IsNumbered) (silent' : r'.IsSilent) {turn : Turn}
      (turned : ∀ j, c.turn.holder = some j → turn.holder = some j)
      (holds : r'.IsEngaged → turn.holder = some r.name) {nextSeq : UInt32}
      (draws : Draws c.nextSeq r.reserved?.toList nextSeq r'.reserved?.toList) :
      GoesOn c r (.inr r', { c with turn, nextSeq })
  | fails (silent : r.IsSilent) {e : Error} (foreign : ∀ errno, e ≠ .kernel errno) {turn : Turn}
      (turned : ∀ j, c.turn.holder = some j → turn.holder = some j) {nextSeq : UInt32}
      (draws : Draws c.nextSeq r.reserved?.toList nextSeq []) (sendFaults : List Int) :
      GoesOn c r (.inl (.error e), { c with
        turn, nextSeq, socket := { c.socket with sendFaults } })
  | posts (silent : r.IsSilent) {d : Draft} (call : r.call = .post d) (data : Bytes)
      {nextSeq : UInt32}
      (draws : Draws c.nextSeq r.reserved?.toList nextSeq [Message.numberOf data])
      (sendFaults codes : List Int) (answer : Answer) :
      GoesOn c r (.inl (.ok answer), { c with
        nextSeq, socket := c.socket.recorded data sendFaults codes })
  | asks {d : Draft} (call : r.call = .query d) {seq : UInt32} {sent : Channel}
      (asks : Asks c r seq sent) : GoesOn c r (course r (sent.goOnAwaiting seq))

section GoesOn

variable {c : Channel} {name : Nat} {stage : Stage} {d : Draft}

theorem draws_nothing (n : UInt32) (given : List UInt32) {n' : UInt32} (h : n' = n ∨ n' = n + 1) :
    Draws n given n' [] := by
  rcases h with rfl | rfl
  · exact .none (List.nil_sublist _).subperm
  · exact .next (List.nil_sublist _).subperm

theorem isSilent_of_receiving {r : Running} (h : r.stage = .receiving) : r.IsSilent := by
  intro seq hseq
  rw [h] at hseq
  cases hseq

theorem reserved?_of_ne {r : Running} (h : r.stage ≠ .receiving) : r.reserved? = none := by
  obtain ⟨name, call, stage⟩ := r
  cases stage with
  | receiving => exact absurd rfl h
  | _ => cases call <;> rfl

/-- A query that is not let have the turn goes on standing in line. -/
theorem goesOn_lined {r : Running} {d : Draft} (hcall : r.call = .query d) (hsilent : r.IsSilent)
    (hnone : r.reserved? = none) :
    GoesOn c r (.inr { r with stage := .inLine }, { c with turn := c.turn.request r.name }) := by
  refine .waits hsilent { r with stage := .inLine } rfl (.inl ⟨d, hcall⟩)
    (Running.isSilent_iff.1 rfl) (fun j hj => Turn.holder_request hj) ?_ ?_
  · rintro (⟨-, hstage⟩ | ⟨seq, hstage⟩) <;> cases hstage
  · rw [hnone, reserved?_of_ne (by simp)]
    exact .none (List.Subperm.refl _)

/-- A message that gets its number now is kept with it. -/
theorem goesOn_kept {r : Running} (hsilent : r.IsSilent) (hnone : r.reserved? = none)
    (r' : Running) (hname : r'.name = r.name) (hnumbered : r'.IsNumbered)
    (hstage : r'.stage = .receiving) (hreserved : r'.reserved? = some c.nextSeq) {turn : Turn}
    (hturned : ∀ j, c.turn.holder = some j → turn.holder = some j)
    (hholds : r'.IsEngaged → turn.holder = some r.name) :
    GoesOn c r (.inr r', { c with turn, nextSeq := c.nextSeq + 1 }) := by
  refine .waits hsilent r' hname hnumbered (isSilent_of_receiving hstage) hturned
    hholds ?_
  rw [hnone, hreserved]
  exact .next (List.Subperm.refl _)

theorem goesOn_refused {r : Running} (hsilent : r.IsSilent) {turn : Turn}
    (hturned : ∀ j, c.turn.holder = some j → turn.holder = some j) {nextSeq : UInt32}
    (hnext : nextSeq = c.nextSeq ∨ nextSeq = c.nextSeq + 1) :
    GoesOn c r (.inl (.error .notOpen), { c with turn, nextSeq }) :=
  .fails (e := .notOpen) hsilent nofun hturned (draws_nothing _ _ hnext) c.socket.sendFaults

/-- The message of a stalled call is sent. -/
theorem goesOn_deliver {r : Running} (hnumbered : r.IsNumbered) (hstage : r.stage = .receiving)
    (hholds : r.IsEngaged → c.turn.holder = some r.name) :
    GoesOn c r (course r (c.deliver r.call)) := by
  have hsilent : r.IsSilent := isSilent_of_receiving hstage
  have hfaults (e : IoError) (faults : List Int) : GoesOn c r
      (.inl (.error (.io e)), { c with socket := { c.socket with sendFaults := faults } }) :=
    .fails (e := .io e) hsilent nofun (fun j hj => hj) (draws_nothing _ _ (.inl rfl)) faults
  -- the number of the message was drawn when the call stalled
  have hkept (d : Draft) (hcall : r.call = .query d ∨ r.call = .post d) :
      Draws c.nextSeq r.reserved?.toList c.nextSeq [d.seq] := by
    have hreserved : r.reserved? = some d.seq := by
      rcases hcall with hcall | hcall <;> simp [Running.reserved?, hcall, hstage]
    rw [hreserved]
    exact .none (List.Subperm.refl _)
  rcases hnumbered with ⟨d, hcall⟩ | ⟨⟨d, hcall⟩, -⟩
  · rw [hcall, deliver]
    rcases c.socket.send_cases d.finish with ⟨e, faults, hs⟩ | ⟨faults, codes, hs⟩
    · rw [hs]
      exact hfaults e faults
    · rw [hs]
      exact .asks hcall (.now hsilent d.finish d.numberOf_finish (hkept d (.inl hcall))
        (fun j hj => hj) (hholds (.inl ⟨⟨d, hcall⟩, hstage⟩)) faults codes)
  · rw [hcall, deliver]
    rcases c.socket.send_cases d.finish with ⟨e, faults, hs⟩ | ⟨faults, codes, hs⟩
    · rw [hs]
      exact hfaults e faults
    · rw [hs]
      refine .posts hsilent hcall d.finish ?_ faults codes (.numbered d.seq)
      rw [d.numberOf_finish]
      exact hkept d (.inr hcall)

/-- The message of a call gets its number and is not sent. -/
theorem goesOn_stall {r : Running} (hnumbered : r.IsNumbered) (hsilent : r.IsSilent)
    (hstage : r.stage ≠ .receiving) : GoesOn c r (c.stall r) := by
  have hnone := reserved?_of_ne hstage
  obtain ⟨name, call, stage⟩ := r
  rcases hnumbered with ⟨d, rfl⟩ | ⟨⟨d, rfl⟩, -⟩
  · unfold stall
    dsimp only [takeSeq, hold]
    split_ifs with hturn hopen
    · exact goesOn_kept hsilent hnone
        ⟨name, .query { asking d with seq := c.nextSeq, port := c.port }, .receiving⟩ rfl
        (.inl ⟨_, rfl⟩) rfl rfl (fun j hj => Turn.holder_request hj)
        fun _ => of_decide_eq_true hturn
    · exact goesOn_refused hsilent (fun j hj => Turn.holder_request hj) (.inl rfl)
    · exact goesOn_lined rfl hsilent hnone
  · unfold stall
    dsimp only [takeSeq, hold]
    split_ifs with hopen
    · refine goesOn_kept hsilent hnone
        ⟨name, .post { d with seq := c.nextSeq, port := c.port }, .receiving⟩ rfl
        (.inr ⟨⟨_, rfl⟩, Running.isSilent_iff.1 rfl⟩) rfl rfl (fun j hj => hj) ?_
      rintro (⟨⟨d', hquery⟩, -⟩ | ⟨seq, hseq⟩)
      · cases hquery
      · cases hseq
    · exact goesOn_refused hsilent (fun j hj => hj) (.inr rfl)

/-- The message of a call gets its number and is sent at once, or a query looks for its answer. -/
theorem goesOn_goOn {r : Running} (hnumbered : r.IsNumbered) (hstage : r.stage ≠ .receiving) :
    GoesOn c r (course r (c.goOn r)) := by
  have hnone := reserved?_of_ne hstage
  rcases hnumbered with ⟨d, hcall⟩ | ⟨⟨d, hcall⟩, hsilent⟩
  · by_cases hsilent : r.IsSilent
    · rw [goOn_of_waits hcall hsilent]
      dsimp only
      split_ifs with hturn
      · rcases request_cases { c with turn := c.turn.request r.name } d with
          ⟨e, faults, next, hr, hnext, hno⟩ | ⟨faults, codes, hr⟩
        · rw [hr]
          exact .fails (c := c) hsilent hno (fun j hj => Turn.holder_request hj)
            (draws_nothing _ _ hnext) faults
        · rw [hr]
          refine .asks (c := c) hcall (.now hsilent _ (numberOf_stamped _ (asking d)) ?_
            (fun j hj => Turn.holder_request hj) (of_decide_eq_true hturn) faults codes)
          rw [hnone]
          exact .next (List.Subperm.refl _)
      · exact goesOn_lined hcall hsilent hnone
    · obtain ⟨seq, hseq⟩ : ∃ seq, r.stage = .awaiting seq := by simpa [Running.IsSilent] using hsilent
      have hgo : c.goOn r = c.goOnAwaiting seq := by simp only [goOn, hcall, hseq]
      rw [hgo]
      exact .asks hcall (.before hseq)
  · have hgo : c.goOn r = (.inl ((c.post d).1.map .numbered), (c.post d).2) := by
      simp only [goOn, hcall]
    rw [hgo]
    rcases c.post_cases d with ⟨e, faults, hno, hp⟩ | ⟨faults, codes, -, hp⟩
    · rw [hp]
      exact .fails hsilent hno (fun j hj => hj) (draws_nothing _ _ (.inr rfl)) faults
    · rw [hp]
      refine .posts hsilent hcall (c.stamped d) ?_ faults codes (.numbered c.nextSeq)
      rw [c.numberOf_stamped, hnone]
      exact .next (List.Subperm.refl _)

theorem goOnWhile_goesOn (busy : Bool) {r : Running} (hnumbered : r.IsNumbered)
    (hholds : r.IsEngaged → c.turn.holder = some r.name) : GoesOn c r (c.goOnWhile busy r) := by
  unfold goOnWhile
  by_cases hstage : r.stage = .receiving
  · have hstalled : r.isStalled = true := by
      rcases hnumbered with ⟨d, hcall⟩ | ⟨⟨d, hcall⟩, -⟩ <;>
        simp [Running.isStalled, Running.isSender, hcall, hstage]
    have hsilent : r.IsSilent := isSilent_of_receiving hstage
    rw [if_pos hstalled]
    cases busy with
    | true =>
        exact .waits hsilent r rfl hnumbered hsilent (fun j hj => hj) hholds
          (.none (List.Subperm.refl _))
    | false => exact goesOn_deliver hnumbered hstage hholds
  · have hstalled : ¬ r.isStalled = true := by simp [Running.isStalled, hstage]
    rw [if_neg hstalled]
    split_ifs with hstall
    · refine goesOn_stall hnumbered (fun seq hseq => ?_) hstage
      obtain ⟨name, call, stage⟩ := r
      obtain rfl : stage = .awaiting seq := hseq
      cases call <;> simp [Running.isSender] at hstall
    · exact goesOn_goOn hnumbered hstage

end GoesOn

end Netfilter.Channel
