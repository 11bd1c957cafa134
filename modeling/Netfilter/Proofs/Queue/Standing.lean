import Netfilter.Proofs.Queue.Receiver

/-!
# Where a receiver stands

The reports made so far, followed by what the present phase still has to report,
are all the reports of what the receiver was handed out. Each thing that can
happen to a receiver carries this over.
-/

namespace Netfilter.Queue

/-- Where a receiver stands that was handed out `items`: whether its channel is open, what was
reported and answered so far, and its phase. -/
inductive Standing (handle : VerdictHandle) (items : List Receipt) :
    Bool → List Report → List Flow → Phase → Prop
  | looking {reports : List Report} {answers : List Flow} {phase : Phase}
      (calm : ∀ r ∈ items, isFatal r = false) (proceeding : ∀ a ∈ answers, a = .proceed)
      (counted : reports.countP Report.isPacket = answers.length)
      (looks : phase.isLooking = true)
      (total : items.flatMap (Report.ofReceipt handle) = reports ++ pending handle phase) :
      Standing handle items true reports answers phase
  | handling {front : List Report} {answers : List Flow} {info : PacketInfo} {payload rest : Bytes}
      {table : FieldTable}
      (calm : ∀ r ∈ items, isFatal r = false) (proceeding : ∀ a ∈ answers, a = .proceed)
      (counted : front.countP Report.isPacket = answers.length)
      (total : items.flatMap (Report.ofReceipt handle) =
        front ++ .packet info payload handle :: Report.ofDatagram handle rest) :
      Standing handle items true (front ++ [.packet info payload handle]) answers
        (.handling rest table)
  | failed {before : List Receipt} {r : Receipt} {reports : List Report} {answers : List Flow}
      (calm : ∀ b ∈ before, isFatal b = false) (proceeding : ∀ a ∈ answers, a = .proceed)
      (fatal : isFatal r = true) (last : items = before ++ [r])
      (total : items.flatMap (Report.ofReceipt handle) = reports) :
      Standing handle items false reports answers (.ended .failed)
  | finished {front more : List Report} {answers : List Flow} {info : PacketInfo} {payload : Bytes}
      (calm : ∀ r ∈ items, isFatal r = false) (proceeding : ∀ a ∈ answers, a = .proceed)
      (counted : front.countP Report.isPacket = answers.length)
      (total : items.flatMap (Report.ofReceipt handle) =
        front ++ .packet info payload handle :: more) :
      Standing handle items false (front ++ [.packet info payload handle]) (answers ++ [.stop])
        (.ended .finished)

namespace Standing

variable {handle : VerdictHandle} {items : List Receipt} {isOpen : Bool} {reports : List Report}
  {answers : List Flow}

theorem looking_iff {phase : Phase} (hl : phase.isLooking = true) :
    Standing handle items isOpen reports answers phase ↔
      isOpen = true ∧ (∀ r ∈ items, isFatal r = false) ∧ (∀ a ∈ answers, a = .proceed) ∧
        reports.countP Report.isPacket = answers.length ∧
        items.flatMap (Report.ofReceipt handle) = reports ++ pending handle phase := by
  constructor
  · intro h
    cases h with
    | looking calm proceeding counted looks total => exact ⟨rfl, calm, proceeding, counted, total⟩
    | handling => cases hl
    | failed => cases hl
    | finished => cases hl
  · rintro ⟨rfl, calm, proceeding, counted, total⟩
    exact .looking calm proceeding counted hl total

theorem of_handling {rest : Bytes} {table : FieldTable}
    (h : Standing handle items isOpen reports answers (.handling rest table)) :
    isOpen = true ∧ ∃ front info payload, reports = front ++ [.packet info payload handle] ∧
      (∀ r ∈ items, isFatal r = false) ∧ (∀ a ∈ answers, a = .proceed) ∧
        front.countP Report.isPacket = answers.length ∧
        items.flatMap (Report.ofReceipt handle) =
          front ++ .packet info payload handle :: Report.ofDatagram handle rest := by
  cases h with
  | looking calm proceeding counted looks total => cases looks
  | handling calm proceeding counted total =>
      exact ⟨rfl, _, _, _, rfl, calm, proceeding, counted, total⟩

theorem of_ended {exit : Exit}
    (h : Standing handle items isOpen reports answers (.ended exit)) :
    isOpen = false ∧ ((exit = .failed ∧ ∃ before r, items = before ++ [r] ∧ isFatal r = true) ∨
      exit = .finished ∧ answers.getLast? = some .stop) := by
  cases h with
  | looking calm proceeding counted looks total => cases looks
  | failed calm proceeding fatal last total => exact ⟨rfl, .inl ⟨rfl, _, _, last, fatal⟩⟩
  | finished calm proceeding counted total =>
      exact ⟨rfl, .inr ⟨rfl, List.getLast?_concat⟩⟩

theorem received (h : Standing handle items isOpen reports answers .receiving) (data : Bytes)
    (table : FieldTable) :
    Standing handle (items ++ [.ok data]) isOpen reports answers (.reading data table) := by
  obtain ⟨hopen, calm, proceeding, counted, total⟩ := (looking_iff rfl).1 h
  refine (looking_iff rfl).2 ⟨hopen, ?_, proceeding, counted, ?_⟩
  · simpa [isFatal, or_imp, forall_and] using calm
  · rw [List.flatMap_append, total]
    simp [pending, Report.ofReceipt]

theorem lost (h : Standing handle items isOpen reports answers .receiving) {cause : IoError}
    (hno : cause.isNoBufferSpace = true) :
    Standing handle (items ++ [.error cause]) isOpen (reports ++ [.failed (.ofReceive cause)])
      answers .receiving := by
  obtain ⟨hopen, calm, proceeding, counted, total⟩ := (looking_iff rfl).1 h
  refine (looking_iff rfl).2 ⟨hopen, ?_, proceeding, ?_, ?_⟩
  · simpa [isFatal, hno, or_imp, forall_and] using calm
  · simpa using counted
  · rw [List.flatMap_append, total]
    simp [pending, Report.ofReceipt]

theorem broke (h : Standing handle items isOpen reports answers .receiving) {cause : IoError}
    (hno : cause.isNoBufferSpace = false) :
    Standing handle (items ++ [.error cause]) false (reports ++ [.failed (.ofReceive cause)])
      answers (.ended .failed) := by
  obtain ⟨-, calm, proceeding, -, total⟩ := (looking_iff rfl).1 h
  refine .failed calm proceeding (r := .error cause) (by simp [isFatal, hno]) rfl ?_
  rw [List.flatMap_append, total]
  simp [pending, Report.ofReceipt]

theorem read {rest : Bytes} {table : FieldTable} {phase : Phase} {new : Option Report}
    (h : Standing handle items isOpen reports answers (.reading rest table))
    (hl : phase.isLooking = true)
    (hreports : Report.ofDatagram handle rest = new.toList ++ pending handle phase)
    (hmute : ∀ report ∈ new, report.isPacket = false) :
    Standing handle items isOpen (reports ++ new.toList) answers phase := by
  obtain ⟨hopen, calm, proceeding, counted, total⟩ := (looking_iff rfl).1 h
  refine (looking_iff hl).2 ⟨hopen, calm, proceeding, ?_, ?_⟩
  · rw [List.countP_append, counted, Nat.add_eq_left, List.countP_eq_zero]
    intro report hr
    rw [hmute report (Option.mem_toList.1 hr)]
    exact Bool.false_ne_true
  · rw [total, pending, hreports, List.append_assoc]

theorem handedOver {info : PacketInfo} {payload rest : Bytes} {table : FieldTable}
    (h : Standing handle items isOpen reports answers (.leasing info payload rest table)) :
    Standing handle items isOpen (reports ++ [.packet info payload handle]) answers
      (.handling rest table) := by
  obtain ⟨rfl, calm, proceeding, counted, total⟩ := (looking_iff rfl).1 h
  exact .handling calm proceeding counted total

theorem proceeded {rest : Bytes} {table : FieldTable}
    (h : Standing handle items isOpen reports answers (.handling rest table)) :
    Standing handle items isOpen reports (answers ++ [.proceed]) (.reading rest table) := by
  obtain ⟨hopen, front, info, payload, rfl, calm, proceeding, counted, total⟩ := h.of_handling
  refine (looking_iff rfl).2 ⟨hopen, calm, ?_, ?_, ?_⟩
  · intro a ha
    rcases List.mem_append.1 ha with ha | ha
    · exact proceeding a ha
    · exact List.mem_singleton.1 ha
  · rw [List.countP_append, counted, List.length_append]
    rfl
  · rw [List.append_assoc]
    exact total

theorem stopped {rest : Bytes} {table : FieldTable}
    (h : Standing handle items isOpen reports answers (.handling rest table)) :
    Standing handle items false reports (answers ++ [.stop]) (.ended .finished) := by
  obtain ⟨-, front, info, payload, rfl, calm, proceeding, counted, total⟩ := h.of_handling
  exact .finished calm proceeding counted total

theorem reports_prefix_expected {phase : Phase}
    (h : Standing handle items isOpen reports answers phase) (later : List Receipt) :
    reports <+: expected handle answers (items ++ later) ∧
      ∀ exit, phase = .ended exit → reports = expected handle answers (items ++ later) := by
  unfold expected
  cases h with
  | looking calm proceeding counted looks total =>
      rw [untilFatal_append calm, List.flatMap_append, untilStop_of_proceed proceeding, total,
        List.append_assoc]
      refine ⟨List.prefix_append _ _, ?_⟩
      rintro exit rfl
      cases looks
  | handling calm proceeding counted total =>
      rw [untilFatal_append calm, List.flatMap_append, untilStop_of_proceed proceeding, total]
      exact ⟨⟨_, by simp only [List.append_assoc, List.cons_append, List.nil_append]; rfl⟩, nofun⟩
  | failed calm proceeding fatal last total =>
      rw [last, List.append_assoc, untilFatal_append calm, List.singleton_append, untilFatal,
        if_pos fatal, ← last, untilStop_of_proceed proceeding, total]
      exact ⟨List.prefix_refl _, fun _ _ => rfl⟩
  | finished calm proceeding counted total =>
      rw [untilFatal_append calm, List.flatMap_append, total, List.append_assoc, List.cons_append,
        untilStop_append_stop proceeding counted]
      exact ⟨List.prefix_refl _, fun _ _ => rfl⟩

end Standing

end Netfilter.Queue
