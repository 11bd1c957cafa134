import Netfilter.Proofs.Link.Query
import Netfilter.Proofs.Traffic.Numbers

/-!
# Answers bear the numbers of what they answer

The other side is lawful as long as each error message that has arrived bears the
number of a datagram that was sent, and no two bear the same number. What it
answers by itself keeps it lawful, since a number is not given twice. What
decides a request was among the error messages that arrived.
-/

namespace Netfilter

def errorMessagesOf : Receipt → List Message
  | .error _ => []
  | .ok data => (Message.walk data).items.filter (·.header.isError)

def errorMessages (rs : List Receipt) : List Message := rs.flatMap errorMessagesOf

def codesFor (n : UInt32) (rs : List Receipt) : List (Except Error Int) :=
  ((errorMessages rs).filter (·.header.seq = n)).map fun m => Message.errorCode m.payload

/-- What a code means: zero is success, any other code is a refusal, with its absolute value kept
within 31 bits as the error number. -/
def resultOf (code : Int) : Except Error Unit :=
  if code = 0 then .ok () else .error (.kernel (min code.natAbs 0x7fffffff))

theorem errorMessages_append (rs rs' : List Receipt) :
    errorMessages (rs ++ rs') = errorMessages rs ++ errorMessages rs' := List.flatMap_append

theorem mem_errorMessages_of_mem {rs : List Receipt} {r : Receipt} {m : Message} (hr : r ∈ rs)
    (hm : m ∈ errorMessagesOf r) : m ∈ errorMessages rs := List.mem_flatMap.2 ⟨r, hr, hm⟩

def acknowledging (seq : UInt32) (code : Int) : Message :=
  ⟨⟨36, Message.errorType, 0, seq, 0⟩,
    Bytes.little 4 (code % UInt32.size).toNat ++ List.replicate 16 0⟩

theorem next_acknowledgement (seq : UInt32) (code : Int) :
    Message.next (Socket.acknowledgement (Bytes.little 4 seq.toNat) code) =
      some (.ok (acknowledging seq code), []) := by
  have hbytes : Socket.acknowledgement (Bytes.little 4 seq.toNat) code =
      (acknowledging seq code).header.encode ++ (acknowledging seq code).payload :=
    List.append_assoc _ _ _
  have hnext := Message.next_encode_append (acknowledging seq code)
    (by simp [acknowledging, Message.headerSize]) (by simp [acknowledging]) []
  rwa [List.append_nil, ← hbytes] at hnext

theorem walk_acknowledgement (seq : UInt32) (code : Int) :
    Message.walk (Socket.acknowledgement (Bytes.little 4 seq.toNat) code) =
      ⟨[acknowledging seq code], none⟩ := by
  rw [Message.walk_of_next_ok (next_acknowledgement seq code), Message.walk_nil]

theorem errorMessagesOf_acknowledgement (seq : UInt32) (code : Int) :
    errorMessagesOf (.ok (Socket.acknowledgement (Bytes.little 4 seq.toNat) code)) =
      [acknowledging seq code] := by
  rw [errorMessagesOf, walk_acknowledgement]
  rfl

/-- The other side answers a datagram by itself with at most one error message, which bears the
number of the datagram. -/
theorem errorMessages_answerTo (s : Socket) (data : Bytes) :
    errorMessages (s.answerTo data) = [] ∨
      ∃ m, errorMessages (s.answerTo data) = [m] ∧ m.header.seq = Message.numberOf data := by
  unfold Socket.answerTo Socket.asksForAck? Message.numberOf
  cases Message.Header.decode data with
  | error e => exact .inl rfl
  | ok h =>
      by_cases hflag : h.flags &&& Message.wantsAck = 0
      · simp only [if_pos hflag]
        exact .inl rfl
      · simp only [if_neg hflag]
        by_cases hack : s.acknowledges
        · rw [if_pos hack]
          refine .inr ⟨acknowledging h.seq (s.codes.headD 0), ?_, rfl⟩
          exact (List.flatMap_singleton _ _).trans (errorMessagesOf_acknowledgement h.seq _)
        · rw [if_neg hack]
          exact .inl rfl

/-- Each error message that has arrived answers a datagram that was sent, no two answer the same
one, and the inbox holds nothing but what has arrived. -/
structure Answered (s : Socket) (arrived : List Receipt) : Prop where
  own : ∀ m ∈ errorMessages arrived, m.header.seq ∈ s.numbers
  once : ((errorMessages arrived).map (·.header.seq)).Nodup
  seen : s.inbox ⊆ arrived

namespace Answered

variable {s s' : Socket} {n n' : UInt32} {arrived : List Receipt}

theorem codesFor_eq (h : Answered s arrived) {m : Message} (hm : m ∈ errorMessages arrived) :
    codesFor m.header.seq arrived = [Message.errorCode m.payload] := by
  have hfilter : (errorMessages arrived).filter (fun m' => m'.header.seq = m.header.seq) = [m] := by
    have hinj := List.inj_on_of_nodup_map h.once
    have hnodup := (List.Nodup.of_map _ h.once).filter fun m' => m'.header.seq = m.header.seq
    refine List.perm_singleton.1 ((List.perm_ext_iff_of_nodup hnodup (List.nodup_singleton m)).2 ?_)
    intro m'
    rw [List.mem_filter, List.mem_singleton, decide_eq_true_eq]
    constructor
    · rintro ⟨hm', hseq⟩
      exact hinj hm' hm hseq
    · rintro rfl
      exact ⟨hm, rfl⟩
  rw [codesFor, hfilter, List.map_singleton]

/-- An emission brings no answer but the one to the datagram it sends. -/
theorem emission (h : Answered s arrived) (he : Emission s n s' n') (hn : n ∉ s.numbers) :
    Answered s' (arrived ++ (s'.sent.drop s.sent.length).flatMap s.answerTo) := by
  have hnumbers : s.numbers ⊆ s'.numbers := by
    rcases he.numbers_perm with hsame | ⟨-, hperm⟩
    · rw [hsame]
      exact List.Subset.refl _
    · exact fun x hx => hperm.mem_iff.2 (List.mem_cons_of_mem n hx)
  have hquiet (hs : s'.sent = s.sent) (hi : s'.inbox ⊆ s.inbox) :
      Answered s' (arrived ++ (s'.sent.drop s.sent.length).flatMap s.answerTo) := by
    rw [hs, List.drop_length, List.flatMap_nil, List.append_nil]
    exact ⟨fun m hm => hnumbers (h.own m hm), h.once, List.Subset.trans hi h.seen⟩
  cases he with
  | quiet rest => exact hquiet rest.sent rest.inbox
  | wasted rest => exact hquiet rest.sent rest.inbox
  | gathered pieces number sent gathered inbox => exact hquiet sent inbox
  | sent data number sent gathered inbox =>
      -- the number was not in use, so an answer to it is the first one
      have hmem : n ∈ s'.numbers := by
        simp [Socket.numbers, sent, number]
      rw [sent, List.drop_left, List.flatMap_singleton]
      have hseen : s.inbox ⊆ arrived ++ s.answerTo data :=
        List.Subset.trans h.seen (List.subset_append_left _ _)
      refine ⟨?_, ?_, List.Subset.trans inbox
        (List.append_subset.2 ⟨hseen, List.subset_append_right _ _⟩)⟩
      · rw [errorMessages_append]
        intro m hm
        rcases List.mem_append.1 hm with hm | hm
        · exact hnumbers (h.own m hm)
        · rcases errorMessages_answerTo s data with hnone | ⟨m', hone, hseq⟩
          · rw [hnone] at hm
            cases hm
          · rw [hone] at hm
            rw [List.mem_singleton.1 hm, hseq, number]
            exact hmem
      · rw [errorMessages_append, List.map_append]
        rcases errorMessages_answerTo s data with hnone | ⟨m', hone, hseq⟩
        · rw [hnone, List.map_nil, List.append_nil]
          exact h.once
        · rw [hone, List.map_singleton, hseq, number]
          refine List.nodup_append.2 ⟨h.once, List.nodup_singleton n, ?_⟩
          intro a ha b hb
          obtain ⟨m, hm, rfl⟩ := List.mem_map.1 ha
          rw [List.mem_singleton.1 hb]
          rintro rfl
          exact hn (h.own m hm)

end Answered

namespace Acknowledgement

/-- A decision that is neither an error of the transport nor a malformed answer is the code of an
error message in the datagram. -/
theorem Decides.exists_code {seq : UInt32} {r : Receipt} {x : Except Error Unit}
    (h : Decides seq r x) (hx : x = .ok () ∨ ∃ errno, x = .error (.kernel errno)) :
    ∃ m ∈ errorMessagesOf r, m.header.seq = seq ∧
      ∃ code, Message.errorCode m.payload = .ok code ∧ x = resultOf code := by
  have hfound {data left rest : Bytes} {ms : List Message} {m : Message}
      (opens : Message.Opens data ms left) (found : Message.next left = some (.ok m, rest))
      (marked : Marks seq m.header) : m ∈ errorMessagesOf (.ok data) := by
    refine List.mem_filter.2 ⟨?_, by simp [Message.Header.isError, marked.1]⟩
    rw [opens.walk_eq, Message.walk_of_next_ok found]
    exact List.mem_append_right ms List.mem_cons_self
  cases h with
  | failure cause =>
      unfold Error.ofReceive at hx
      split_ifs at hx <;> simp at hx
  | short => simp at hx
  | malformed long opens foreign defect readable marked =>
      obtain ⟨-, -, hdefect⟩ := Message.next_eq_error_iff.1 defect
      rcases hdefect with ⟨-, rfl⟩ | ⟨hdr, -, -, rfl⟩ <;> simp at hx
  | cutShort => simp at hx
  | accepted long opens foreign found marked code =>
      exact ⟨_, hfound opens found marked, marked.2, 0, code, rfl⟩
  | refused long opens foreign found marked coded nonzero =>
      exact ⟨_, hfound opens found marked, marked.2, _, coded, (if_neg nonzero).symm⟩

theorem mem_errorMessagesOf_of_mem_cut {room : Option Nat} {r : Receipt} {m : Message}
    (h : m ∈ errorMessagesOf (Socket.cut room r)) : m ∈ errorMessagesOf r := by
  cases r with
  | error cause => exact h
  | ok data =>
      cases room with
      | none => exact h
      | some size =>
          obtain ⟨hm, herr⟩ := List.mem_filter.1 h
          exact List.mem_filter.2 ⟨(Message.walk_take_prefix data size).subset hm, herr⟩

/-- A success or a refusal of request `seq` is the code of an answer to it in the inbox. -/
theorem Decision.exists_code {s : Socket} {seq : UInt32} {inbox left : List Receipt}
    {x : Except Error Unit} (h : Decision s seq inbox (.ofExcept x) left)
    (hx : x = .ok () ∨ ∃ errno, x = .error (.kernel errno)) :
    ∃ m ∈ errorMessages inbox, m.header.seq = seq ∧
      ∃ code, Message.errorCode m.payload = .ok code ∧ x = resultOf code := by
  generalize ho : Outcome.ofExcept x = outcome at h
  cases h with
  | waits ignored => cases x <;> cases ho
  | @settled before after r y ignored settles =>
      have hxy : x = y := by
        cases x <;> cases y <;> cases ho <;> rfl
      obtain ⟨m, hm, hseq, hcode⟩ := (hxy ▸ settles.2).exists_code hx
      have hr : r ∈ before ++ r :: left := List.mem_append_right before List.mem_cons_self
      exact ⟨m, mem_errorMessages_of_mem hr (mem_errorMessagesOf_of_mem_cut hm), hseq, hcode⟩

theorem Decision.left_subset {s : Socket} {seq : UInt32} {inbox left : List Receipt}
    {outcome : Outcome Unit} (h : Decision s seq inbox outcome left) : left ⊆ inbox := by
  cases h with
  | waits ignored => exact List.nil_subset inbox
  | settled before after ignored settles =>
      exact List.Subset.trans (List.subset_cons_self _ left) (List.subset_append_right before _)

end Acknowledgement

end Netfilter
