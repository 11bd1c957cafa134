import Mathlib
import Netfilter.CommandLine.Line

/-!
# One line for each record

What is written for a packet or a log entry ends with a line end and holds no
other. Numbers and names have no line ends, and in strings they are escaped. Only
where the text of a rule is shown by itself and as it is, its line ends get
through.
-/

namespace Netfilter

theorem newline_not_mem_toDigits {b : Nat} (hb : 1 < b) (n : Nat) :
    '\n' ∉ Nat.toDigits b n := by
  induction n using Nat.strong_induction_on with
  | _ n ih =>
      rw [Nat.toDigits_eq_if hb]
      split_ifs with hn
      · simp
      · have hfront := ih (n / b) (Nat.div_lt_self (by omega) hb)
        simp [hfront]

theorem newline_not_mem_intercalate {sep : List Char} {parts : List (List Char)}
    (hsep : '\n' ∉ sep) (hparts : ∀ part ∈ parts, '\n' ∉ part) : '\n' ∉ sep.intercalate parts := by
  induction parts with
  | nil => simp
  | cons part parts ih =>
      have hpart := hparts part List.mem_cons_self
      have hlater := ih fun p hp => hparts p (List.mem_cons_of_mem part hp)
      cases parts with
      | nil => simpa using hpart
      | cons next parts =>
          rw [List.intercalate_cons_cons]
          simp only [List.mem_append, not_or]
          exact ⟨⟨hpart, hsep⟩, hlater⟩

/-- Quotation marks around characters of which each is escaped. -/
theorem newline_not_mem_quoted {escape : Char → List Char} (h : ∀ c, '\n' ∉ escape c)
    (text : List Char) : '\n' ∉ '"' :: text.flatMap escape ++ ['"'] := by
  simp only [List.cons_append, List.mem_cons, List.mem_append, List.mem_flatMap, not_or]
  refine ⟨by decide, ?_, by decide, List.not_mem_nil⟩
  rintro ⟨c, -, hc⟩
  exact h c hc

theorem Hex.newline_not_mem_fixed (width n : Nat) : '\n' ∉ (Hex.fixed width n).toList := by
  have hdigits := newline_not_mem_toDigits (b := 16) (by omega) n
  simp [Hex.fixed, hdigits]

theorem Hex.newline_not_mem_text (n : Nat) : '\n' ∉ (Hex.text n).toList := by
  have hdigits := newline_not_mem_toDigits (b := 16) (by omega) n
  simpa [Hex.text] using hdigits

theorem Quoted.newline_not_mem_write (text : List Char) : '\n' ∉ Quoted.write text := by
  apply newline_not_mem_quoted
  intro c
  unfold escape
  -- every special character but the line end itself is replaced by others
  by_cases hc : c = '\n'
  · subst hc
    decide
  · have hnumber := Hex.newline_not_mem_text c.toNat
    split_ifs <;> simp [byNumber, hnumber, Ne.symm hc]

namespace Json

theorem newline_not_mem_number (n : Nat) : '\n' ∉ Number.write n :=
  newline_not_mem_toDigits (by omega) n

theorem Quoted.newline_not_mem_write (text : List Char) : '\n' ∉ Quoted.write text := by
  apply newline_not_mem_quoted
  intro c
  unfold escape
  by_cases hc : c = '\n'
  · subst hc
    decide
  · have hcode := Hex.newline_not_mem_fixed 4 c.toNat
    split_ifs <;> simp [escapeCode, hcode, Ne.symm hc]

theorem newline_not_mem_array {elements : List (List Char)} (h : ∀ e ∈ elements, '\n' ∉ e) :
    '\n' ∉ array elements := by
  have hinner : '\n' ∉ separated elements := newline_not_mem_intercalate (by decide) h
  simpa [array] using hinner

theorem newline_not_mem_object {members : List (String × List Char)}
    (h : ∀ m ∈ members, '\n' ∉ m.2) : '\n' ∉ object members := by
  have hinner : '\n' ∉ separated
      (members.map fun m => Quoted.write m.1.toList ++ ':' :: m.2) := by
    apply newline_not_mem_intercalate (by decide)
    intro part hpart
    obtain ⟨m, hm, rfl⟩ := List.mem_map.1 hpart
    simpa [Quoted.newline_not_mem_write] using h m hm
  simpa [object] using hinner

end Json

theorem Ipv4.Address.newline_not_mem_text (a : Address) : '\n' ∉ a.text.toList := by
  unfold text
  rw [String.toList_intercalate]
  apply newline_not_mem_intercalate (by decide)
  intro part hpart
  simp only [List.map_map, List.mem_map] at hpart
  obtain ⟨b, -, rfl⟩ := hpart
  simpa using newline_not_mem_toDigits (b := 10) (by omega) b.toNat

namespace CommandLine

/-- A text of exactly one line: it ends with a line end and has no other. -/
def IsOneLine (text : List Char) : Prop := text.getLast? = some '\n' ∧ text.count '\n' = 1

instance (text : List Char) : Decidable (IsOneLine text) := inferInstanceAs (Decidable (_ ∧ _))

theorem isOneLine_written {line : List Char} : IsOneLine (Line.written line) ↔ '\n' ∉ line := by
  unfold IsOneLine Line.written
  simp [List.count_eq_zero]

namespace Line

theorem newline_not_mem_ofWords {words : List (List Char)} (h : ∀ w ∈ words, '\n' ∉ w) :
    '\n' ∉ ofWords words := newline_not_mem_intercalate (by decide) h

theorem newline_not_mem_hexadecimal (width n : Nat) : '\n' ∉ hexadecimal width n := by
  simp [hexadecimal, Hex.newline_not_mem_fixed]

theorem newline_not_mem_number? (n : Option Nat) : '\n' ∉ number? n := by
  cases n with
  | none => decide
  | some n => exact Json.newline_not_mem_number n

theorem newline_not_mem_orNull {α : Type} {write : α → List Char} (h : ∀ a, '\n' ∉ write a)
    (a : Option α) : '\n' ∉ orNull write a := by
  cases a with
  | none => simp [orNull]
  | some a => exact h a

theorem newline_not_mem_pair? {α : Type} {name : String} {write : α → List Char}
    (hname : '\n' ∉ name.toList) (h : ∀ a, '\n' ∉ write a) (a : Option α) :
    ∀ word ∈ pair? name write a, '\n' ∉ word := by
  cases a with
  | none => simp [pair?]
  | some a => simp [pair?, hname, h]

theorem newline_not_mem_bytes (bytes : Bytes) : '\n' ∉ Line.bytes bytes := by
  apply Json.newline_not_mem_array
  intro e he
  obtain ⟨b, -, rfl⟩ := List.mem_map.1 he
  exact Json.newline_not_mem_number b.toNat

theorem newline_not_mem_packetWords (p : Queue.Packet) : ∀ word ∈ packetWords p, '\n' ∉ word := by
  have hdecimal (n : UInt32) : '\n' ∉ decimal n.toNat := Json.newline_not_mem_number _
  have hmark (n : UInt32) : '\n' ∉ hexadecimal 1 n.toNat := newline_not_mem_hexadecimal 1 _
  simp only [packetWords, List.forall_mem_append]
  refine ⟨⟨⟨?_, newline_not_mem_pair? (by decide) hdecimal _⟩,
    newline_not_mem_pair? (by decide) hdecimal _⟩, newline_not_mem_pair? (by decide) hmark _⟩
  simp [decimal, Json.newline_not_mem_number, newline_not_mem_hexadecimal]

theorem newline_not_mem_ofPacket (format : Format) (p : Queue.Packet) :
    '\n' ∉ ofPacket format p := by
  cases format with
  | text => exact newline_not_mem_ofWords (newline_not_mem_packetWords p)
  | json =>
      apply Json.newline_not_mem_object
      simp [decimal, word?, Json.newline_not_mem_number, newline_not_mem_number?]

theorem newline_not_mem_summaryWords (s : Ipv4.Summary) :
    ∀ word ∈ summaryWords s, '\n' ∉ word := by
  have hport (n : UInt16) : '\n' ∉ decimal n.toNat := Json.newline_not_mem_number _
  simp only [summaryWords, List.forall_mem_append]
  refine ⟨⟨⟨⟨?_, newline_not_mem_pair? (by decide) hport _⟩, ?_⟩,
    newline_not_mem_pair? (by decide) hport _⟩, ?_⟩
  · simpa using s.source.newline_not_mem_text
  · simpa using s.destination.newline_not_mem_text
  · simp [decimal, Json.newline_not_mem_number]

theorem newline_not_mem_entryWords (e : Log.Entry) : ∀ word ∈ entryWords e, '\n' ∉ word := by
  simp only [entryWords, List.forall_mem_append]
  refine ⟨⟨?_, ?_⟩, ?_⟩
  · simp [decimal, Json.newline_not_mem_number]
  · split_ifs with hempty
    · exact List.forall_mem_nil _
    · simpa using Quoted.newline_not_mem_write (rulePrefix e).toList
  · cases e.ipv4? with
    | some s => exact newline_not_mem_summaryWords s
    | none => simp [decimal, Json.newline_not_mem_number]

theorem newline_not_mem_entryJson (e : Log.Entry) : '\n' ∉ entryJson e := by
  have htime (t : Log.Timestamp) : '\n' ∉ timestampJson t := by
    apply Json.newline_not_mem_object
    simp [decimal, Json.newline_not_mem_number]
  have htext (t : String) : '\n' ∉ text t := Json.Quoted.newline_not_mem_write _
  have hsummary (s : Ipv4.Summary) : '\n' ∉ summaryJson s := by
    apply Json.newline_not_mem_object
    simp [decimal, Json.newline_not_mem_number, newline_not_mem_number?, htext]
  have hfields : '\n' ∉ fieldsJson e := by
    apply Json.newline_not_mem_object
    simp [decimal, word?, Json.newline_not_mem_number, newline_not_mem_number?,
      newline_not_mem_bytes, newline_not_mem_orNull newline_not_mem_bytes,
      newline_not_mem_orNull htime, newline_not_mem_orNull htext]
  apply Json.newline_not_mem_object
  simp [hfields, newline_not_mem_orNull hsummary]

/-- The line of an entry holds a line end only if it is the bare text of a rule that holds one. -/
theorem newline_mem_ofEntry_iff (format : Format) (prefixOnly : Bool) (e : Log.Entry) :
    '\n' ∈ ofEntry format prefixOnly e ↔
      format = .text ∧ prefixOnly = true ∧ '\n' ∈ (rulePrefix e).toList := by
  cases format with
  | text =>
      cases prefixOnly with
      | true => simp [ofEntry]
      | false =>
          have hnone := newline_not_mem_ofWords (newline_not_mem_entryWords e)
          simpa [ofEntry] using hnone
  | json =>
      have hnone : '\n' ∉ ofEntry .json prefixOnly e := by
        cases prefixOnly with
        | false => exact newline_not_mem_entryJson e
        | true =>
            apply Json.newline_not_mem_object
            simpa [text] using Json.Quoted.newline_not_mem_write (rulePrefix e).toList
      simpa using hnone

end Line

/-- What is written for a record is one line, whatever the record holds, unless it is the bare text
of a rule in which there is a line end. -/
theorem records_oneLine (format : Format) (prefixOnly : Bool) (p : Queue.Packet)
    (e : Log.Entry) :
    IsOneLine (Line.written (Line.ofPacket format p)) ∧
      (IsOneLine (Line.written (Line.ofEntry format prefixOnly e)) ↔
        ¬ (format = .text ∧ prefixOnly = true ∧ '\n' ∈ (Line.rulePrefix e).toList)) := by
  constructor
  · apply isOneLine_written.2
    exact Line.newline_not_mem_ofPacket format p
  · rw [isOneLine_written, Line.newline_mem_ofEntry_iff]

/-- An entry whose rule puts two lines in front. -/
def forgedEntry : Log.Entry where
  group := 10
  family := 2
  protocol := 0x0800
  hook := 3
  mark := none
  timestamp := none
  inDevice := none
  outDevice := none
  physicalInDevice := none
  physicalOutDevice := none
  hardwareAddress := none
  userId := none
  groupId := none
  sequence := none
  globalSequence := none
  rulePrefix := some "up\ndown"
  payload := []

theorem record_not_always_oneLine :
    ¬ ∀ format prefixOnly e, IsOneLine (Line.written (Line.ofEntry format prefixOnly e)) := by
  intro h
  have hforged := h .text true forgedEntry
  revert hforged
  decide

end CommandLine

end Netfilter
