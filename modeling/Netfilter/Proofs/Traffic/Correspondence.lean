import Mathlib
import Netfilter.Proofs.Traffic.Soundness

/-!
# Acknowledgements correspond to requests

As long as the numbers have not gone around and the other side is lawful, no
answer is taken for the answer to another message.
-/

namespace Netfilter.Traffic

structure Corresponds (w : Traffic) : Prop where
  /-- All datagrams sent bear different numbers. -/
  distinct : w.channel.socket.numbers.Nodup
  /-- A call has sent one datagram at most. -/
  single : (w.authored.map Prod.fst).Nodup
  sent : ∀ p ∈ w.authored, p.2 ∈ w.channel.socket.sent
  /-- Only one of the calls under way has sent its request. -/
  exclusive : ∀ r ∈ w.channel.calls, ∀ r' ∈ w.channel.calls,
    r.name ∈ w.authored.map Prod.fst → r'.name ∈ w.authored.map Prod.fst → r = r'
  /-- A call that is given up before it waits for an acknowledgement sends nothing. -/
  mute : ∀ name ∈ w.withdrawn, name ∉ w.authored.map Prod.fst
  /-- A query that succeeded or was refused has sent a request, which was answered once, and tells
  the code of that answer. -/
  own : ∀ p ∈ w.concluded, ((∃ a, p.2 = .ok a) ∨ ∃ errno, p.2 = .error (.kernel errno)) →
    ∃ data code, (p.1, data) ∈ w.authored ∧
      codesFor (Message.numberOf data) w.arrived = [.ok code] ∧
      p.2 = (resultOf code).map fun _ => .done

theorem Sound.corresponds {w : Traffic} (h : w.Sound) : w.Corresponds where
  distinct := (List.nodup_append.1 h.numbered.distinct).1
  single := h.tracked.once
  sent := h.sent
  exclusive _ hr _ hr' hs hs' := h.tracked.eq_of_authored hr hr' hs hs'
  mute name hname := (h.tracked.withdrawn_past name hname).2.2
  own p hp hx := by
    obtain ⟨data, m, code, hauthored, hm, hseq, hcode, hresult⟩ := h.truthful p hp hx
    refine ⟨data, code, hauthored, ?_, hresult⟩
    rw [← hseq, h.answered.codesFor_eq hm, hcode]

/-- Queries, posts and verdicts on one channel never get the answers to each other's messages, in
whatever order they begin, are gone on with and are given up, however long the socket takes no data,
and whenever the answers arrive. -/
theorem acknowledgements_correspond (s : Socket) (deeds : List Deed)
    (hlawful : (start s).Lawful deeds) (hlt : ((start s).run deeds).assigned < 2 ^ 32) :
    ((start s).run deeds).Corresponds :=
  ((sound_start s).run hlawful hlt).corresponds

theorem permits_acknowledgement {w : Traffic} {seq : UInt32} (code : Int)
    (hown : seq ∈ w.channel.socket.numbers)
    (honce : ((errorMessages w.arrived).map (·.header.seq) ++ [seq]).Nodup) :
    w.Permits (.ok (Socket.acknowledgement (Bytes.little 4 seq.toNat) code)) := by
  have hone := errorMessagesOf_acknowledgement seq code
  refine ⟨?_, ?_⟩
  · intro m hm
    rw [hone] at hm
    rw [List.mem_singleton.1 hm]
    exact hown
  · rw [errorMessages_append, List.map_append, errorMessages, errorMessages, List.flatMap_singleton,
      hone]
    exact honce

/-- The first query is given up while it waits. The message of the second one is not taken at first,
and a post overtakes it. The answers to all three come together. -/
def sampleDeeds : List Deed :=
  let d := Draft.netfilter Subsystem.queue Queue.Operation.configure.number 0 0 7
  [.query d, .poll 0 false, .cancel 0, .query d, .poll 1 true, .post d, .poll 1 false,
    .arrival (.ok (Socket.acknowledgement (Bytes.little 4 (1 : UInt32).toNat) (-1))),
    .arrival (.ok (Socket.acknowledgement (Bytes.little 4 (3 : UInt32).toNat) 0)),
    .arrival (.ok (Socket.acknowledgement (Bytes.little 4 (2 : UInt32).toNat) (-16))),
    .poll 1 false]

def sampleSocket : Socket := { port := 4242, acknowledges := false }

theorem acknowledgements_correspond_sampleDeeds :
    (start sampleSocket).Lawful sampleDeeds ∧
      ((start sampleSocket).run sampleDeeds).assigned = 3 ∧
      ((start sampleSocket).run sampleDeeds).channel.socket.numbers = [1, 3, 2] ∧
      ((start sampleSocket).run sampleDeeds).concluded = [(1, .error (.kernel 16))] ∧
      ((start sampleSocket).run sampleDeeds).Corresponds := by
  have hlawful : (start sampleSocket).Lawful sampleDeeds := by
    refine ⟨trivial, trivial, trivial, trivial, trivial, trivial, trivial, ?_, ?_, ?_, trivial,
      trivial⟩
    · exact permits_acknowledgement (-1) (by cbv; exact .head _) (by cbv; decide)
    · exact permits_acknowledgement 0 (by cbv; exact .tail _ (.head _)) (by cbv; decide)
    · exact permits_acknowledgement (-16) (by cbv; exact .tail _ (.tail _ (.head _)))
        (by cbv; decide)
  have hassigned : ((start sampleSocket).run sampleDeeds).assigned = 3 := by cbv
  refine ⟨hlawful, hassigned, by cbv, by cbv, ?_⟩
  exact acknowledgements_correspond sampleSocket sampleDeeds hlawful (by rw [hassigned]; decide)

/-- A number of 31 bits does not hold the absolute value of every code: the lowest code of all is
reported as the one next to it. -/
def lowestCodeSocket : Socket := { port := 4242, codes := [-2147483648] }

def lowestCodeDeeds : List Deed :=
  [.query (Draft.netfilter Subsystem.queue Queue.Operation.configure.number 0 0 7), .poll 0 false]

theorem refusal_not_always_natAbs :
    ¬ ∀ (s : Socket) (deeds : List Deed), (start s).Lawful deeds →
      ((start s).run deeds).assigned < 2 ^ 32 →
      ∀ p ∈ ((start s).run deeds).concluded, ∀ errno, p.2 = .error (.kernel errno) →
        ∃ data code, (p.1, data) ∈ ((start s).run deeds).authored ∧
          codesFor (Message.numberOf data) ((start s).run deeds).arrived = [.ok code] ∧
          errno = code.natAbs := by
  intro h
  have hassigned : ((start lowestCodeSocket).run lowestCodeDeeds).assigned = 1 := by cbv
  have hconcluded : ((start lowestCodeSocket).run lowestCodeDeeds).concluded =
      [(0, .error (.kernel 2147483647))] := by cbv
  have hnumbers : ((start lowestCodeSocket).run lowestCodeDeeds).authored.map
      (fun p => Message.numberOf p.2) = [1] := by cbv
  have hcodes : codesFor 1 ((start lowestCodeSocket).run lowestCodeDeeds).arrived =
      [.ok (-2147483648)] := by cbv
  obtain ⟨data, code, hdata, hcode, herrno⟩ := h lowestCodeSocket lowestCodeDeeds
    ⟨trivial, trivial, trivial⟩ (by rw [hassigned]; decide) (0, .error (.kernel 2147483647))
    (by rw [hconcluded]; exact List.mem_cons_self) 2147483647 rfl
  have hnumber : Message.numberOf data = 1 := by
    have hmem := List.mem_map_of_mem (f := fun p : Nat × Bytes => Message.numberOf p.2) hdata
    rw [hnumbers] at hmem
    exact List.mem_singleton.1 hmem
  rw [hnumber, hcodes] at hcode
  obtain rfl := Except.ok.inj (List.singleton_inj.1 hcode)
  exact absurd herrno (by decide)

end Netfilter.Traffic
