import Netfilter.Proofs.Link.Receiving
import Netfilter.Proofs.Link.Links
import Netfilter.Proofs.Link.Sending

/-!
# What is written in pieces

Verdicts are written in pieces, requests are not. So neither a request nor the
closing of a channel makes a difference to what was written in pieces, or to how
the next such writes fail.
-/

namespace Netfilter

namespace Socket

def writes (s : Socket) : List (List Bytes) × List Int := (s.gathered, s.gatherFaults)

def gatherEach (s : Socket) : List Bytes → List (Except IoError Nat) × Socket
  | [] => ([], s)
  | data :: later =>
      let (result, s) := s.gather [data]
      let (results, s) := gatherEach s later
      (result :: results, s)

end Socket

theorem Channel.query_frame (c : Channel) (d : Draft) :
    (c.query d).2.isOpen = c.isOpen ∧ (c.query d).2.socket.writes = c.socket.writes := by
  unfold query
  split_ifs
  · exact ⟨rfl, rfl⟩
  · rcases c.request_cases d with ⟨e, faults, next, hr, -, -⟩ | ⟨faults, codes, hr⟩ <;>
      rw [hr] <;> exact ⟨rfl, rfl⟩

namespace Links

def writes (l : Links) : List (List (List Bytes) × List Int) := l.channels.map (·.socket.writes)

theorem writes_modify (l : Links) (i : Nat) {f : Channel → Channel}
    (h : ∀ c, (f c).socket.writes = c.socket.writes) : (l.modify i f).writes = l.writes := by
  refine List.ext_getElem? fun j => ?_
  simp only [writes, modify, List.getElem?_map, List.getElem?_modify]
  by_cases hij : i = j
  · simp [hij, Function.comp_def, h]
  · simp [hij]

theorem writes_query (l : Links) (d : Draft) : (l.query d).2.writes = l.writes := by
  unfold query
  cases l.openNumber? with
  | none => rfl
  | some i =>
      cases hc : l.channels[i]? with
      | none => simp only [onChannel, hc]
      | some c =>
          obtain ⟨hi, rfl⟩ := List.getElem?_eq_some_iff.1 hc
          dsimp only
          rw [onChannel_of_channel hc]
          have hlt : i < l.writes.length := by
            rw [writes, List.length_map]
            exact hi
          have hsame : l.writes[i] = l.channels[i].socket.writes := List.getElem_map _
          change (l.channels.set i _).map _ = _
          rw [List.map_set, (l.channels[i].query_frame d).2, ← hsame]
          exact List.set_getElem_self hlt

theorem writes_close (l : Links) : l.close.writes = l.writes := by
  unfold close
  cases l.current with
  | none => rfl
  | some i =>
      refine l.writes_modify i fun c => ?_
      obtain ⟨drops, hclose⟩ := c.close_eq
      rw [hclose]
      rfl

theorem writes_sweep (l : Links) (isUsed : Nat → Bool) : (l.sweep isUsed).writes = l.writes := by
  have hdisown (c : Channel) : c.disown.socket.writes = c.socket.writes := by
    obtain ⟨drops, hsettle⟩ := Channel.settle_eq c { c with owned := false }
    rw [Channel.disown, hsettle]
    rfl
  refine List.ext_getElem? fun i => ?_
  simp only [writes, sweep, List.getElem?_map, List.getElem?_mapIdx, Option.map_map]
  congr 1
  funext c
  simp only [Function.comp_apply]
  split_ifs
  · exact hdisown c
  · rfl

end Links

end Netfilter
