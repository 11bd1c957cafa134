import Mathlib.Data.List.Nodup
import Mathlib.Data.List.Perm.Subperm
import Netfilter.Proofs.Link.Receiving
import Netfilter.Proofs.Link.Sending
import Netfilter.Proofs.Queue.Verdict
import Netfilter.Proofs.Wire.Draft

/-!
# Numbers are given once

Posts, requests and verdicts draw their numbers from one counter. An `Emission`
is what any of them does to a socket and to the next number: it leaves both as
they are, or takes a number, and then sends at most one datagram, which bears
that number. A number may also be given to a message that the socket does not
take yet. As long as the counter has not gone around, the numbers of messages
that were sent or are still to be sent are distinct, and the next number is none
of them.
-/

namespace Netfilter

def Message.numberOf (data : Bytes) : UInt32 :=
  match Header.decode data with
  | .ok h => h.seq
  | .error _ => 0

theorem Message.numberOf_encode_append (h : Header) (rest : Bytes) :
    numberOf (h.encode ++ rest) = h.seq := by
  rw [numberOf, h.decode_encode_append]

theorem Draft.numberOf_finish (d : Draft) : Message.numberOf d.finish = d.seq := by
  rw [finish_eq, Message.numberOf_encode_append, header]

theorem Queue.Verdict.numberOf_pieces {v : Verdict} {queue : UInt16} {payload : Bytes}
    {seq : UInt32} {pieces : List Bytes} (h : v.pieces queue payload seq = .ok pieces) :
    Message.numberOf pieces.flatten = seq := by
  obtain ⟨later, rfl⟩ := pieces_begin h
  rw [List.flatten_cons, opening, List.append_assoc, Message.numberOf_encode_append, messageHeader]

def Socket.numbers (s : Socket) : List UInt32 :=
  (s.sent ++ s.gathered.map List.flatten).map Message.numberOf

structure Quiet (s s' : Socket) : Prop where
  sent : s'.sent = s.sent
  gathered : s'.gathered = s.gathered
  inbox : s'.inbox ⊆ s.inbox

inductive Emission (s : Socket) (n : UInt32) : Socket → UInt32 → Prop
  | quiet {s' : Socket} (rest : Quiet s s') : Emission s n s' n
  | wasted {s' : Socket} (rest : Quiet s s') : Emission s n s' (n + 1)
  | sent {s' : Socket} (data : Bytes) (number : Message.numberOf data = n)
      (sent : s'.sent = s.sent ++ [data]) (gathered : s'.gathered = s.gathered)
      (inbox : s'.inbox ⊆ s.inbox ++ s.answerTo data) : Emission s n s' (n + 1)
  | gathered {s' : Socket} (pieces : List Bytes) (number : Message.numberOf pieces.flatten = n)
      (sent : s'.sent = s.sent) (gathered : s'.gathered = s.gathered ++ [pieces])
      (inbox : s'.inbox ⊆ s.inbox) : Emission s n s' (n + 1)

namespace Emission

variable {s s' s'' : Socket} {n n' : UInt32}

theorem followed (h : Emission s n s' n') (hq : Quiet s' s'') : Emission s n s'' n' := by
  cases h with
  | quiet rest =>
      exact .quiet ⟨hq.sent.trans rest.sent, hq.gathered.trans rest.gathered,
        List.Subset.trans hq.inbox rest.inbox⟩
  | wasted rest =>
      exact .wasted ⟨hq.sent.trans rest.sent, hq.gathered.trans rest.gathered,
        List.Subset.trans hq.inbox rest.inbox⟩
  | sent data number sent gathered inbox =>
      exact .sent data number (hq.sent.trans sent) (hq.gathered.trans gathered)
        (List.Subset.trans hq.inbox inbox)
  | gathered pieces number sent gathered inbox =>
      exact .gathered pieces number (hq.sent.trans sent) (hq.gathered.trans gathered)
        (List.Subset.trans hq.inbox inbox)

/-- An emission that takes a number and sends a datagram adds that number to those given out. -/
theorem numbers_perm (h : Emission s n s' n') :
    s'.numbers = s.numbers ∨ n' = n + 1 ∧ s'.numbers.Perm (n :: s.numbers) := by
  unfold Socket.numbers
  cases h with
  | quiet rest => exact .inl (by rw [rest.sent, rest.gathered])
  | wasted rest => exact .inl (by rw [rest.sent, rest.gathered])
  | sent data number sent gathered inbox =>
      refine .inr ⟨rfl, ?_⟩
      rw [sent, gathered, List.append_assoc, List.singleton_append, List.map_append, List.map_cons,
        number, List.map_append]
      exact List.perm_middle
  | gathered pieces number sent gathered inbox =>
      refine .inr ⟨rfl, ?_⟩
      have hlast : s'.sent ++ s'.gathered.map List.flatten =
          (s.sent ++ s.gathered.map List.flatten) ++ [pieces.flatten] := by
        simp [sent, gathered]
      rw [hlast, List.map_append, List.map_singleton, number]
      exact List.perm_append_singleton n _

theorem next_eq (h : Emission s n s' n') : n' = n ∨ n' = n + 1 := by
  cases h with
  | quiet => exact .inl rfl
  | wasted => exact .inr rfl
  | sent => exact .inr rfl
  | gathered => exact .inr rfl

end Emission

theorem Socket.emission_recorded (s : Socket) (data : Bytes) (sendFaults codes : List Int) :
    Emission s (Message.numberOf data) (s.recorded data sendFaults codes)
      (Message.numberOf data + 1) :=
  .sent data rfl rfl rfl (List.Subset.refl _)

theorem Socket.numbers_recorded (s : Socket) (data : Bytes) (sendFaults codes : List Int) :
    (s.recorded data sendFaults codes).numbers.Perm (Message.numberOf data :: s.numbers) := by
  unfold numbers recorded
  rw [List.append_assoc, List.singleton_append, List.map_append, List.map_cons, List.map_append]
  exact List.perm_middle

namespace Channel

theorem quiet_withInbox {c : Channel} {inbox : List Receipt} (h : inbox ⊆ c.socket.inbox) :
    Quiet c.socket (c.withInbox inbox).socket :=
  ⟨rfl, rfl, h⟩

theorem numberOf_stamped (c : Channel) (d : Draft) : Message.numberOf (c.stamped d) = c.nextSeq :=
  Draft.numberOf_finish _

theorem emission_post (c : Channel) (d : Draft) :
    Emission c.socket c.nextSeq (c.post d).2.socket (c.post d).2.nextSeq := by
  rcases c.post_cases d with ⟨e, faults, -, hp⟩ | ⟨faults, codes, -, hp⟩
  · rw [hp]
    exact .wasted ⟨rfl, rfl, List.Subset.refl _⟩
  · rw [hp, ← c.numberOf_stamped d]
    exact c.socket.emission_recorded (c.stamped d) faults codes

theorem emission_verdict (c : Channel) (v : Queue.Verdict) (queue : UInt16) (payload : Bytes) :
    Emission c.socket c.nextSeq (v.send queue payload c).2.socket
      (v.send queue payload c).2.nextSeq := by
  rcases v.send_cases queue payload c with ⟨faults, hs⟩ | ⟨pieces, faults, hpieces, hs⟩
  · rw [hs]
    exact .wasted ⟨rfl, rfl, List.Subset.refl _⟩
  · rw [hs]
    exact .gathered pieces (Queue.Verdict.numberOf_pieces hpieces) rfl rfl (List.Subset.refl _)

end Channel

/-- After `assigned` numbers were given out, those of messages that were sent or are still to be sent
are distinct and below the next one, counted from the first. -/
structure Numbered (given : List UInt32) (next : UInt32) (assigned : Nat) : Prop where
  next_eq : next = UInt32.ofNat assigned + 1
  old : ∀ n ∈ given, (n - 1).toNat < assigned
  distinct : given.Nodup

/-- What becomes of the next number and of those given out: at most the next one joins them, and
some may never be used. -/
inductive Draws (n : UInt32) (given : List UInt32) : UInt32 → List UInt32 → Prop
  | none {given' : List UInt32} (among : given'.Subperm given) : Draws n given n given'
  | next {given' : List UInt32} (among : given'.Subperm (n :: given)) :
      Draws n given (n + 1) given'

theorem Emission.draws {s s' : Socket} {n n' : UInt32} (h : Emission s n s' n')
    {reserved reserved' : List UInt32} (hr : reserved'.Subperm reserved) :
    Draws n (s.numbers ++ reserved) n' (s'.numbers ++ reserved') := by
  rcases h.numbers_perm with hsame | ⟨rfl, hperm⟩
  · have hamong : (s'.numbers ++ reserved').Subperm (s.numbers ++ reserved) := by
      rw [hsame]
      exact (List.Subperm.refl _).append hr
    rcases h.next_eq with rfl | rfl
    · exact .none hamong
    · exact .next (hamong.cons_right n)
  · exact .next (hperm.subperm.append hr)

/-- What is drawn for one call does not depend on the numbers of the others. -/
theorem Draws.frame {n n' : UInt32} {own own' others given given' : List UInt32}
    (h : Draws n own n' own') (hgiven : given.Perm (own ++ others))
    (hgiven' : given'.Perm (own' ++ others)) : Draws n given n' given' := by
  cases h with
  | none among =>
      exact .none (hgiven'.subperm.trans
        ((among.append (List.Subperm.refl others)).trans hgiven.symm.subperm))
  | next among =>
      exact .next (hgiven'.subperm.trans
        ((among.append (List.Subperm.refl others)).trans (hgiven.symm.cons n).subperm))

namespace Numbered

variable {given given' : List UInt32} {n n' : UInt32} {assigned : Nat}

theorem toNat_next (h : Numbered given n assigned) (hlt : assigned < 2 ^ 32) :
    (n - 1).toNat = assigned := by
  rw [h.next_eq, UInt32.add_sub_cancel, UInt32.toNat_ofNat', Nat.mod_eq_of_lt hlt]

theorem next_not_mem (h : Numbered given n assigned) (hlt : assigned < 2 ^ 32) : n ∉ given := by
  intro hmem
  have hold := h.old n hmem
  rw [h.toNat_next hlt] at hold
  exact Nat.lt_irrefl _ hold

theorem succ_ne (n : UInt32) : n + 1 ≠ n := by
  intro h
  have hone : (1 : UInt32) = n - n := by
    rw [← UInt32.add_sub_cancel 1 n, UInt32.add_comm, h]
  rw [UInt32.sub_self] at hone
  exact absurd hone (by decide)

theorem nodup_of_subperm {l l' : List UInt32} (h : l.Subperm l') (hl' : l'.Nodup) : l.Nodup := by
  obtain ⟨m, hperm, hsub⟩ := h
  exact hperm.nodup_iff.1 (hl'.sublist hsub)

theorem draws (h : Numbered given n assigned) (hd : Draws n given n' given')
    (hlt : assigned < 2 ^ 32) : Numbered given' n' (assigned + if n' = n then 0 else 1) := by
  cases hd with
  | none among =>
      rw [if_pos rfl]
      exact ⟨h.next_eq, fun m hm => h.old m (among.subset hm), nodup_of_subperm among h.distinct⟩
  | next among =>
      rw [if_neg (succ_ne n)]
      have hfresh := List.nodup_cons.2 ⟨h.next_not_mem hlt, h.distinct⟩
      refine ⟨?_, ?_, nodup_of_subperm among hfresh⟩
      · rw [UInt32.ofNat_add, h.next_eq]
        rfl
      · intro m hm
        rcases List.mem_cons.1 (among.subset hm) with rfl | hm
        · rw [h.toNat_next hlt]
          exact Nat.lt_succ_self _
        · exact Nat.lt_succ_of_lt (h.old m hm)

end Numbered

end Netfilter
