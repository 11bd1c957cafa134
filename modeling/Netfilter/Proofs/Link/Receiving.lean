import Netfilter.Link.Channel

/-!
# What receiving does

A receive hands out the next receipt that is not passed over, cut to the room
there is, or finds that nothing in the inbox is to be handed out. Only the inbox
changes. Closing a channel leaves its inbox as it is.
-/

namespace Netfilter

namespace Socket

/-- What a socket hands out of these receipts: those that are not passed over, each of them cut to
the room there is. -/
def handsOut (s : Socket) (taken : List Receipt) : List Receipt :=
  (taken.filter fun r => !isPassedOver s.patient r).map (cut s.room)

theorem handsOut_append (s : Socket) (before after : List Receipt) :
    s.handsOut (before ++ after) = s.handsOut before ++ s.handsOut after := by
  simp [handsOut]

theorem handsOut_cons (s : Socket) (r : Receipt) (later : List Receipt) :
    s.handsOut (r :: later) =
      (if isPassedOver s.patient r then [] else [cut s.room r]) ++ s.handsOut later := by
  by_cases h : isPassedOver s.patient r <;> simp [handsOut, h]

theorem receive_cases (s : Socket) :
    (s.handsOut s.inbox = [] ∧ s.receive = (none, { s with inbox := [] })) ∨
      ∃ taken later r, s.inbox = taken ++ later ∧ s.handsOut taken = [r] ∧
        s.receive = (some r, { s with inbox := later }) := by
  unfold receive
  induction s.inbox with
  | nil => exact .inl ⟨rfl, rfl⟩
  | cons r inbox ih =>
      rw [handsOut_cons]
      by_cases h : isPassedOver s.patient r
      · rw [List.dropWhile_cons_of_pos h, if_pos h, List.nil_append]
        rcases ih with hnone | ⟨taken, later, r', hsplit, hands, hreceive⟩
        · exact .inl hnone
        · refine .inr ⟨r :: taken, later, r', by rw [hsplit, List.cons_append], ?_, hreceive⟩
          rw [handsOut_cons, if_pos h, hands, List.nil_append]
      · rw [List.dropWhile_cons_of_neg h]
        refine .inr ⟨[r], inbox, cut s.room r, rfl, ?_, rfl⟩
        rw [handsOut_cons, if_neg h]
        rfl

end Socket

namespace Channel

def withInbox (c : Channel) (inbox : List Receipt) : Channel :=
  { c with socket := { c.socket with inbox } }

theorem receive_cases {c : Channel} (hopen : c.isOpen = true) :
    (c.socket.handsOut c.socket.inbox = [] ∧ c.receive = (.pending, c.withInbox [])) ∨
      ∃ taken later r, c.socket.inbox = taken ++ later ∧ c.socket.handsOut taken = [r] ∧
        c.receive = (.ofExcept (received r), c.withInbox later) := by
  unfold receive
  rw [if_pos hopen]
  rcases c.socket.receive_cases with ⟨hands, hs⟩ | ⟨taken, later, r, hinbox, hands, hs⟩
  · rw [hs]
    exact .inl ⟨hands, rfl⟩
  · rw [hs]
    exact .inr ⟨taken, later, r, hinbox, hands, rfl⟩

theorem receive_of_not_isOpen {c : Channel} (h : c.isOpen = false) :
    c.receive = (.error .notOpen, c) := by
  rw [receive, if_neg (Bool.eq_false_iff.1 h)]

theorem settle_eq (before c : Channel) :
    ∃ drops, settle before c = { c with
      isOpen := c.isOpen && (c.owned || !c.calls.isEmpty)
      socket := { c.socket with drops } } := by
  unfold settle
  by_cases h : before.usesSocket &&
      !usesSocket { c with isOpen := c.isOpen && (c.owned || !c.calls.isEmpty) }
  · exact ⟨c.socket.drops + 1, if_pos h⟩
  · exact ⟨c.socket.drops, if_neg h⟩

theorem endCall_eq (before c : Channel) (name : Nat) :
    ∃ isOpen drops, endCall before c name = { c with
      isOpen
      calls := c.calls.filter (·.name ≠ name)
      turn := c.turn.leave name
      socket := { c.socket with drops } } := by
  obtain ⟨drops, hs⟩ := settle_eq before { c with
    calls := c.calls.filter (·.name ≠ name)
    turn := c.turn.leave name }
  exact ⟨_, drops, hs⟩

theorem close_eq (c : Channel) :
    ∃ drops, c.close.2 = { c with isOpen := false, socket := { c.socket with drops } } :=
  settle_eq c { c with isOpen := false }

end Channel

end Netfilter
