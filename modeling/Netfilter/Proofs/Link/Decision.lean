import Netfilter.Proofs.Wire.Message
import Netfilter.Link.Channel

/-!
# What decides a request

`Skips` and `Decides` say what one receipt means to request `seq` by the messages
it opens with and by what is left where no message can be taken off any more;
each receipt does exactly one of the two. `Decision` carries this over to an
inbox: receipts are skipped up to the first one that decides, and nothing after
it is touched. Asking a channel follows this law, at once and however often the
call is gone on with.
-/

namespace Netfilter.Acknowledgement

def Marks (seq : UInt32) (h : Message.Header) : Prop :=
  h.type = Message.errorType ∧ h.seq = seq

theorem answers_iff {seq : UInt32} {h : Message.Header} : answers seq h = true ↔ Marks seq h := by
  simp [answers, Marks, Message.Header.isError]

/-- The receipt is a datagram that says nothing about request `seq`: none of its messages is the
answer, nor are the bytes after them the beginning of it. -/
inductive Skips (seq : UInt32) : Receipt → Prop
  | datagram {data left : Bytes} {ms : List Message}
      (long : Message.headerSize ≤ data.length) (opens : Message.Opens data ms left)
      (foreign : ∀ m ∈ ms, ¬ Marks seq m.header)
      (stuck : ∀ m rest, Message.next left ≠ some (.ok m, rest))
      (unmarked : ∀ h, Message.Header.decode left = .ok h → ¬ Marks seq h) :
      Skips seq (.ok data)

/-- The receipt decides request `seq`: it is no datagram at all, or it is too short, or its first
messages are followed by the answer, which may be malformed or cut short. -/
inductive Decides (seq : UInt32) : Receipt → Except Error Unit → Prop
  | failure (cause : IoError) : Decides seq (.error cause) (.error (.ofReceive cause))
  | short {data : Bytes} (short : data.length < Message.headerSize) :
      Decides seq (.ok data) (.error (.truncated Message.headerSize data.length))
  | malformed {data left rest : Bytes} {ms : List Message} {h : Message.Header} {e : Error}
      (long : Message.headerSize ≤ data.length) (opens : Message.Opens data ms left)
      (foreign : ∀ m ∈ ms, ¬ Marks seq m.header)
      (defect : Message.next left = some (.error e, rest))
      (readable : Message.Header.decode left = .ok h) (marked : Marks seq h) :
      Decides seq (.ok data) (.error e)
  | cutShort {data left rest : Bytes} {ms : List Message} {m : Message}
      (long : Message.headerSize ≤ data.length) (opens : Message.Opens data ms left)
      (foreign : ∀ m ∈ ms, ¬ Marks seq m.header)
      (found : Message.next left = some (.ok m, rest)) (marked : Marks seq m.header)
      (short : m.payload.length < 4) :
      Decides seq (.ok data) (.error (.truncated 4 m.payload.length))
  | accepted {data left rest : Bytes} {ms : List Message} {m : Message}
      (long : Message.headerSize ≤ data.length) (opens : Message.Opens data ms left)
      (foreign : ∀ m ∈ ms, ¬ Marks seq m.header)
      (found : Message.next left = some (.ok m, rest)) (marked : Marks seq m.header)
      (code : Message.errorCode m.payload = .ok 0) :
      Decides seq (.ok data) (.ok ())
  | refused {data left rest : Bytes} {ms : List Message} {m : Message} {code : Int}
      (long : Message.headerSize ≤ data.length) (opens : Message.Opens data ms left)
      (foreign : ∀ m ∈ ms, ¬ Marks seq m.header)
      (found : Message.next left = some (.ok m, rest)) (marked : Marks seq m.header)
      (coded : Message.errorCode m.payload = .ok code) (nonzero : code ≠ 0) :
      Decides seq (.ok data) (.error (.kernel (min code.natAbs 0x7fffffff)))

theorem find?_of_next_none {seq : UInt32} {data : Bytes} (h : Message.next data = none) :
    find? seq data = none := by
  rw [find?]
  split <;> simp_all

theorem find?_of_next_error {seq : UInt32} {data rest : Bytes} {e : Error}
    (h : Message.next data = some (.error e, rest)) :
    find? seq data = if announces seq data then some (.error e) else none := by
  rw [find?]
  split <;> simp_all

theorem find?_of_next_ok {seq : UInt32} {data rest : Bytes} {m : Message}
    (h : Message.next data = some (.ok m, rest)) :
    find? seq data =
      if answers seq m.header then some (Message.checkAck m.payload) else find? seq rest := by
  rw [find?]
  split <;> simp_all

theorem find?_of_opens {seq : UInt32} {data left : Bytes} {ms : List Message}
    (h : Message.Opens data ms left) (hf : ∀ m ∈ ms, ¬ Marks seq m.header) :
    find? seq data = find? seq left := by
  induction h with
  | nil data => rfl
  | cons first later ih =>
      have hm := hf _ List.mem_cons_self
      rw [← answers_iff] at hm
      rw [find?_of_next_ok first, if_neg hm]
      exact ih fun m hm => hf m (List.mem_cons_of_mem _ hm)

theorem announces_iff {seq : UInt32} {data : Bytes} :
    announces seq data = true ↔ ∃ h, Message.Header.decode data = .ok h ∧ Marks seq h := by
  unfold announces
  cases hd : Message.Header.decode data with
  | error e => simp
  | ok h => simp [answers_iff]

theorem decide?_of_long {seq : UInt32} {data : Bytes} (h : Message.headerSize ≤ data.length) :
    decide? seq (.ok data) = find? seq data := by
  simp [decide?, h]

theorem decide?_of_skips {seq : UInt32} {r : Receipt} (h : Skips seq r) : decide? seq r = none := by
  cases h with
  | @datagram data left ms long opens foreign stuck unmarked =>
      rw [decide?_of_long long, find?_of_opens opens foreign]
      match hn : Message.next left with
      | none => exact find?_of_next_none hn
      | some (.ok m, rest) => exact absurd hn (stuck m rest)
      | some (.error e, rest) =>
          have hno : ¬ announces seq left = true := by
            rw [announces_iff]
            rintro ⟨h, hd, hm⟩
            exact unmarked h hd hm
          rw [find?_of_next_error hn, if_neg hno]

theorem checkAck_of_short {payload : Bytes} (h : payload.length < 4) :
    Message.checkAck payload = .error (.truncated 4 payload.length) := by
  have hlt : ¬ 4 ≤ payload.length := by omega
  simp [Message.checkAck, Message.errorCode, Bytes.split?, hlt]

theorem checkAck_of_code {payload : Bytes} {code : Int}
    (h : Message.errorCode payload = .ok code) :
    Message.checkAck payload = if code = 0 then .ok () else .error (.ofCode code) := by
  simp only [Message.checkAck, h]

theorem exists_errorCode {payload : Bytes} (h : 4 ≤ payload.length) :
    ∃ code, Message.errorCode payload = .ok code := by
  simp [Message.errorCode, Bytes.split?, h]

theorem decide?_of_decides {seq : UInt32} {r : Receipt} {x : Except Error Unit}
    (h : Decides seq r x) : decide? seq r = some x := by
  cases h with
  | failure cause => rfl
  | @short data short =>
      have hlt : ¬ Message.headerSize ≤ data.length := by omega
      simp [decide?, hlt]
  | malformed long opens foreign defect readable marked =>
      rw [decide?_of_long long, find?_of_opens opens foreign, find?_of_next_error defect,
        if_pos (announces_iff.2 ⟨_, readable, marked⟩)]
  | cutShort long opens foreign found marked short =>
      rw [decide?_of_long long, find?_of_opens opens foreign, find?_of_next_ok found,
        if_pos (answers_iff.2 marked), checkAck_of_short short]
  | accepted long opens foreign found marked code =>
      rw [decide?_of_long long, find?_of_opens opens foreign, find?_of_next_ok found,
        if_pos (answers_iff.2 marked), checkAck_of_code code, if_pos rfl]
  | refused long opens foreign found marked coded nonzero =>
      rw [decide?_of_long long, find?_of_opens opens foreign, find?_of_next_ok found,
        if_pos (answers_iff.2 marked), checkAck_of_code coded, if_neg nonzero]
      rfl

theorem skips_or_decides (seq : UInt32) (r : Receipt) : Skips seq r ∨ ∃ x, Decides seq r x := by
  cases r with
  | error cause => exact .inr ⟨_, .failure cause⟩
  | ok data =>
      by_cases hlong : Message.headerSize ≤ data.length
      · obtain ⟨ms, left, opens, foreign, hleft⟩ :=
          Message.Opens.exists_until (fun m => Marks seq m.header) data
        match hn : Message.next left with
        | some (.ok m, rest) =>
            have marked := hleft m rest hn
            by_cases hp : 4 ≤ m.payload.length
            · obtain ⟨code, hcode⟩ := exists_errorCode hp
              by_cases hz : code = 0
              · exact .inr ⟨_, .accepted hlong opens foreign hn marked (hz ▸ hcode)⟩
              · exact .inr ⟨_, .refused hlong opens foreign hn marked hcode hz⟩
            · exact .inr ⟨_, .cutShort hlong opens foreign hn marked (by omega)⟩
        | some (.error e, rest) =>
            by_cases hm : ∃ h, Message.Header.decode left = .ok h ∧ Marks seq h
            · obtain ⟨h, readable, marked⟩ := hm
              exact .inr ⟨_, .malformed hlong opens foreign hn readable marked⟩
            · exact .inl (.datagram hlong opens foreign (by simp [hn])
                fun h hd hmark => hm ⟨h, hd, hmark⟩)
        | none =>
            have hnil := Message.next_eq_none_iff.1 hn
            refine .inl (.datagram hlong opens foreign (by simp [hn]) ?_)
            intro h hd
            rw [hnil] at hd
            cases hd
      · exact .inr ⟨_, .short (by omega)⟩

end Netfilter.Acknowledgement
