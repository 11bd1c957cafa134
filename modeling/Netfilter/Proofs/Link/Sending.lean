import Mathlib.Data.List.Infix
import Netfilter.Link.Channel

/-!
# What sending does

A send either fails, and then only the planned faults of the socket are used up,
or it is recorded, and what the other side answers by itself is put at the end
of the inbox. Numbering a message takes one sequence number in both cases.
-/

namespace Netfilter

namespace Socket

/-- What the other side answers by itself when `data` reaches it. -/
def answerTo (s : Socket) (data : Bytes) : List Receipt :=
  match asksForAck? data with
  | some seq => if s.acknowledges then [.ok (acknowledgement seq (s.codes.headD 0))] else []
  | none => []

def recorded (s : Socket) (data : Bytes) (sendFaults codes : List Int) : Socket :=
  { s with
    sendFaults, codes
    sent := s.sent ++ [data]
    inbox := s.inbox ++ s.answerTo data }

theorem reply_eq (s : Socket) (data : Bytes) :
    ∃ codes, s.reply data = { s with codes, inbox := s.inbox ++ s.answerTo data } := by
  unfold reply answerTo
  cases asksForAck? data with
  | none => exact ⟨s.codes, by simp⟩
  | some seq =>
      by_cases ha : s.acknowledges
      · exact ⟨s.codes.tail, by simp only [if_pos ha]⟩
      · exact ⟨s.codes, by simp only [if_neg ha, List.append_nil]⟩

theorem send_cases (s : Socket) (data : Bytes) :
    (∃ e sendFaults, s.send data = (.error e, { s with sendFaults })) ∨
      ∃ sendFaults codes, s.send data = (.ok (), s.recorded data sendFaults codes) := by
  unfold send
  obtain ⟨fault, sendFaults⟩ := nextFault (s.sendFaults.dropWhile (isRetried s.patient))
  cases fault with
  | some e => exact .inl ⟨e, sendFaults, rfl⟩
  | none =>
      obtain ⟨codes, hr⟩ := reply_eq { s with sendFaults, sent := s.sent ++ [data] } data
      exact .inr ⟨sendFaults, codes, congrArg (Prod.mk _) hr⟩

theorem gather_cases (s : Socket) (pieces : List Bytes) :
    (∃ e gatherFaults, s.gather pieces = (.error e, { s with gatherFaults })) ∨
      ∃ n gatherFaults, s.gather pieces =
        (.ok n, { s with gatherFaults, gathered := s.gathered ++ [pieces] }) := by
  unfold gather
  obtain ⟨fault, gatherFaults⟩ := nextFault s.gatherFaults
  cases fault with
  | some e => exact .inl ⟨e, gatherFaults, rfl⟩
  | none => exact .inr ⟨_, gatherFaults, rfl⟩

theorem setOption_cases (s : Socket) (level name value : Int) :
    ∃ result optionFaults options,
      s.setOption level name value = (result, { s with optionFaults, options }) := by
  rcases hf : nextFault s.optionFaults with ⟨fault, faults⟩
  cases fault with
  | none =>
      exact ⟨.ok (), faults, s.options ++ [(level, name, value)], by simp only [setOption, hf]⟩
  | some e => exact ⟨.error e, faults, s.options, by simp only [setOption, hf]⟩

end Socket

namespace Channel

def stamped (c : Channel) (d : Draft) : Bytes :=
  { d with seq := c.nextSeq, port := c.port }.finish

def asking (d : Draft) : Draft := d.addFlags (Message.request ||| Message.wantsAck)

/-- Numbering a message takes a number. If the message is sent, it bears that number; if it is not,
nobody refused it. -/
theorem post_cases (c : Channel) (d : Draft) :
    (∃ e sendFaults, (∀ errno, e ≠ .kernel errno) ∧ c.post d =
        (.error e, { c with nextSeq := c.nextSeq + 1, socket := { c.socket with sendFaults } })) ∨
      ∃ sendFaults codes, c.isOpen = true ∧ c.post d =
        (.ok c.nextSeq, { c with
          nextSeq := c.nextSeq + 1
          socket := c.socket.recorded (c.stamped d) sendFaults codes }) := by
  unfold post takeSeq send withSocket
  by_cases hopen : c.isOpen
  · rcases Socket.send_cases c.socket (c.stamped d) with ⟨e, faults, hs⟩ | ⟨faults, codes, hs⟩
    · refine .inl ⟨.io e, faults, nofun, ?_⟩
      unfold stamped port at hs
      simp only [hopen, if_true, port, hs]
      rfl
    · refine .inr ⟨faults, codes, hopen, ?_⟩
      unfold stamped port at hs
      simp only [hopen, if_true, port, hs, stamped]
      rfl
  · refine .inl ⟨.notOpen, c.socket.sendFaults, nofun, ?_⟩
    simp [hopen, Except.map]

theorem gather_cases (c : Channel) (pieces : List Bytes) :
    (∃ e gatherFaults, c.gather pieces =
        (.error e, { c with socket := { c.socket with gatherFaults } })) ∨
      ∃ n gatherFaults, c.gather pieces = (.ok n, { c with
        socket := { c.socket with gatherFaults, gathered := c.socket.gathered ++ [pieces] } }) := by
  unfold gather withSocket
  by_cases hopen : c.isOpen
  · rw [if_pos hopen]
    rcases c.socket.gather_cases pieces with ⟨e, faults, hg⟩ | ⟨n, faults, hg⟩
    · exact .inl ⟨.io e, faults, by simp only [hg, Except.mapError]⟩
    · exact .inr ⟨n, faults, by simp only [hg, Except.mapError]⟩
  · rw [if_neg hopen]
    exact .inl ⟨.notOpen, c.socket.gatherFaults, rfl⟩

theorem setOption_cases (c : Channel) (level name value : Int) :
    ∃ result optionFaults options, c.setOption level name value =
      (result, { c with socket := { c.socket with optionFaults, options } }) := by
  unfold setOption withSocket
  by_cases hopen : c.isOpen
  · obtain ⟨result, faults, options, hset⟩ := c.socket.setOption_cases level name value
    rw [if_pos hopen]
    exact ⟨result.mapError Error.io, faults, options, by simp only [hset]⟩
  · rw [if_neg hopen]
    exact ⟨.error .notOpen, c.socket.optionFaults, c.socket.options, rfl⟩

theorem gather_of_not_isOpen {c : Channel} (h : c.isOpen = false) (pieces : List Bytes) :
    c.gather pieces = (.error .notOpen, c) := by
  rw [gather, withSocket, if_neg (Bool.eq_false_iff.1 h)]

theorem setOption_of_not_isOpen {c : Channel} (h : c.isOpen = false) (level name value : Int) :
    c.setOption level name value = (.error .notOpen, c) := by
  rw [setOption, withSocket, if_neg (Bool.eq_false_iff.1 h)]

theorem request_cases (c : Channel) (d : Draft) :
    (∃ e sendFaults nextSeq, c.request d =
        (.error e, { c with nextSeq, socket := { c.socket with sendFaults } }) ∧
        (nextSeq = c.nextSeq ∨ nextSeq = c.nextSeq + 1) ∧ ∀ errno, e ≠ .kernel errno) ∨
      ∃ sendFaults codes, c.request d =
        (.ok c.nextSeq, { c with
          nextSeq := c.nextSeq + 1
          socket := c.socket.recorded (c.stamped (asking d)) sendFaults codes }) := by
  unfold request
  by_cases hopen : c.isOpen
  · rw [if_pos hopen]
    rcases c.post_cases (asking d) with ⟨e, faults, hno, hp⟩ | ⟨faults, codes, -, hp⟩
    · exact .inl ⟨e, faults, _, hp, .inr rfl, hno⟩
    · exact .inr ⟨faults, codes, hp⟩
  · rw [if_neg hopen]
    exact .inl ⟨.notOpen, c.socket.sendFaults, c.nextSeq, rfl, .inl rfl, nofun⟩

/-- A request of an open channel fails only because the socket refuses to send it. -/
theorem send_of_request_error {c c' : Channel} {d : Draft} {e : Error} (hopen : c.isOpen = true)
    (h : c.request d = (.error e, c')) :
    ∃ cause socket, c.socket.send (c.stamped (asking d)) = (.error cause, socket) ∧
      e = .io cause := by
  rcases hs : c.socket.send (c.stamped (asking d)) with ⟨result, socket⟩
  have hs' := hs
  unfold stamped asking port at hs'
  unfold request post takeSeq send withSocket port at h
  simp only [hopen, if_true, hs'] at h
  cases result with
  | ok u => cases h
  | error cause => 
      refine ⟨cause, socket, rfl, ?_⟩
      cases h
      rfl

end Channel

end Netfilter
