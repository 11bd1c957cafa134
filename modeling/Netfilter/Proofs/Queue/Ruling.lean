import Netfilter.Proofs.Link.Pieces
import Netfilter.Proofs.Queue.Prompt
import Netfilter.Proofs.Queue.VerdictMessage

/-!
# One ruling for all packets

A handler that decides the same about every packet writes one verdict about each
of them, in one piece. What comes of a write makes no difference to the next one.
-/

namespace Netfilter.Queue

def answersTo (packets : List Packet) (results : List (Except IoError Nat)) :
    List Session.Event :=
  (packets.zip results).flatMap fun (p, result) =>
    [.packet p, .done (.sent ((result.mapError Error.io).map fun _ => ()))]

def rulings (disposition : Disposition) (mark : Option UInt32) (queue : UInt16) :
    UInt32 → List Packet → List Bytes
  | _, [] => []
  | seq, p :: packets =>
      Verdict.opening ⟨p.info.id, disposition, mark⟩ queue 0 seq ::
        rulings disposition mark queue (seq + 1) packets

theorem says_rulings (disposition : Disposition) (mark : Option UInt32) (queue : UInt16)
    (seq : UInt32) (packets : List Packet) :
    List.Forall₂ (fun p data => ∃ seq, Verdict.Says ⟨p.info.id, disposition, mark⟩ queue seq data)
      packets (rulings disposition mark queue seq packets) := by
  induction packets generalizing seq with
  | nil => exact .nil
  | cons p packets ih => exact .cons ⟨seq, Verdict.says_opening _ queue seq⟩ (ih (seq + 1))

theorem Action.answer_decide {c : Channel} (hopen : c.isOpen = true) (p : Packet)
    (disposition : Disposition) (mark : Option UInt32) :
    let written := c.socket.gather
      [Verdict.opening ⟨p.info.id, disposition, mark⟩ p.handle.queue 0 c.nextSeq]
    (Action.decide disposition mark).answer p c =
      (.sent ((written.1.mapError Error.io).map fun _ => ()),
        { c with nextSeq := c.nextSeq + 1, socket := written.2 }) := by
  have hsend := Verdict.send_of_pieces
    (Verdict.pieces_of_empty ⟨p.info.id, disposition, mark⟩ p.handle.queue c.nextSeq)
  have hnumbered : c.takeSeq.2.isOpen = true := hopen
  simp only [answer, verdict?, hsend, Channel.gather, Channel.withSocket, if_pos hnumbered]
  rfl

theorem Action.answerAll_decide {c : Channel} (hopen : c.isOpen = true) {queue : UInt16}
    {packets : List Packet} (hqueue : ∀ p ∈ packets, p.handle.queue = queue)
    (disposition : Disposition) (mark : Option UInt32) :
    let written := c.socket.gatherEach (rulings disposition mark queue c.nextSeq packets)
    ((Action.decide disposition mark).answerAll packets c).1 = answersTo packets written.1 ∧
      ((Action.decide disposition mark).answerAll packets c).2.socket = written.2 := by
  induction packets generalizing c with
  | nil => exact ⟨rfl, rfl⟩
  | cons p packets ih =>
      have hfirst := Action.answer_decide hopen p disposition mark
      rw [hqueue p List.mem_cons_self] at hfirst
      obtain ⟨hevents, hsocket⟩ := ih
        (c := ((Action.decide disposition mark).answer p c).2) (by rw [hfirst]; exact hopen)
        fun q hq => hqueue q (List.mem_cons_of_mem p hq)
      rw [hfirst] at hevents hsocket
      simp only [Action.answerAll, rulings, Socket.gatherEach, hfirst]
      refine ⟨?_, hsocket⟩
      rw [hevents]
      rfl

end Netfilter.Queue
