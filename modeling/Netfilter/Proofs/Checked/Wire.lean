import Netfilter.Link.Acknowledgement
import Netfilter.Proofs.Checked.Basic
import Netfilter.Proofs.Link.Decision
import Netfilter.Proofs.Wire.Attribute
import Netfilter.Proofs.Wire.Table
import Netfilter.Wire.Value

/-!
# Datagrams and attribute lists under checks

The readers of attributes, messages, tables, acknowledgements and text, with
every range, sum and difference checked. Each gives what the plain reader
gives: a header is only trusted after its length was compared with the bytes
at hand, and lengths of 16 and 32 bits leave room in a word for the rounding.
-/

namespace Netfilter

def Walk.met {α : Type} (w : Walk α) : List (Except Error α) :=
  w.items.map .ok ++ (w.fault.map .error).toList

namespace Checked

variable {α σ : Type} {t : Taking α} {data : Bytes} {w : Walk α}

/-- Taking items off `data` one by one meets just what is on the walk. -/
inductive Covers (t : Taking α) : Bytes → Walk α → Prop
  | ended {data : Bytes} (h : t.next data = .ok none) : Covers t data ⟨[], none⟩
  | broken {data : Bytes} {e : Error} (h : t.next data = .ok (some (.error e, [])))
      (spent : t.next [] = .ok none) : Covers t data ⟨[], some e⟩
  | further {data rest : Bytes} {a : α} {w : Walk α} (h : t.next data = .ok (some (.ok a, rest)))
      (later : Covers t rest w) : Covers t data ⟨a :: w.items, w.fault⟩

/-- Items that a plain reader takes off one by one, and its walk over them. -/
theorem covers_of {plain : Bytes → Taken α} {walk : Bytes → Walk α}
    (hnext : ∀ data, t.next data = .ok (plain data)) (hnil : plain [] = none)
    (hnone : ∀ {data}, plain data = none → walk data = ⟨[], none⟩)
    (herror : ∀ {data rest e}, plain data = some (.error e, rest) →
      rest = [] ∧ walk data = ⟨[], some e⟩)
    (hok : ∀ {data rest a}, plain data = some (.ok a, rest) →
      walk data = ⟨a :: (walk rest).items, (walk rest).fault⟩)
    (data : Bytes) : Covers t data (walk data) := by
  induction hn : data.length using Nat.strong_induction_on generalizing data with
  | _ n ih =>
      subst hn
      cases h : plain data with
      | none =>
          rw [hnone h]
          exact .ended (by rw [hnext, h])
      | some taken =>
          obtain ⟨item, rest⟩ := taken
          have htaken : t.next data = .ok (some (item, rest)) := by rw [hnext, h]
          cases item with
          | error e =>
              obtain ⟨rfl, hwalk⟩ := herror h
              rw [hwalk]
              exact .broken htaken (by rw [hnext, hnil])
          | ok a =>
              rw [hok h]
              exact .further htaken (ih _ (t.shortens htaken) rest rfl)

/-- A loop whose body takes in the items, and at a defect either ends or has nothing more to go
through. -/
theorem Covers.forEach_eq {body : Bytes → Except Error α → σ → Checked (ForInStep σ)}
    (put : σ → α → σ) (fail : Error → σ → σ) (hw : Covers t data w)
    (hput : ∀ data a s, body data (.ok a) s = .ok (.yield (put s a)))
    (hfail : ∀ data e s, body data (.error e) s = .ok (.done (fail e s)) ∨
      body data (.error e) s = .ok (.yield (fail e s))) (s : σ) :
    forEach t body s data = .ok (w.fault.elim id fail (w.items.foldl put s)) := by
  induction hw generalizing s with
  | ended h => exact forEach_of_none h
  | @broken data e h spent =>
      rcases hfail data e s with hbody | hbody
      · exact forEach_of_done h hbody
      · rw [forEach_of_yield h hbody, forEach_of_none spent]
        rfl
  | further h later ih => rw [forEach_of_yield h (hput _ _ _), ih, List.foldl_cons]

theorem Covers.items_eq (hw : Covers t data w) : items t data = .ok w.met := by
  have hfold (as : List α) (found : List (Except Error α)) :
      as.foldl (fun found a => found ++ [.ok a]) found = found ++ as.map .ok := by
    induction as generalizing found with
    | nil => simp
    | cons a as ih => simp [ih]
  rw [items, hw.forEach_eq (fun found a => found ++ [.ok a]) (fun e found => found ++ [.error e])
    (fun _ _ _ => rfl) (fun _ _ _ => .inr rfl), hfold, Walk.met]
  cases w.fault <;> simp

/-- Items that take up `k` bytes each are few. -/
theorem Covers.length_met_le {k : Nat} (hk : 0 < k)
    (htake : ∀ {data rest : Bytes} {a : α}, t.next data = .ok (some (.ok a, rest)) →
      rest.length + k ≤ data.length) (hw : Covers t data w) :
    w.met.length ≤ data.length / k + 1 := by
  induction hw with
  | ended h => simp [Walk.met]
  | broken h spent => simp [Walk.met]
  | @further data rest a w h later ih =>
      have hmet : (Walk.met ⟨a :: w.items, w.fault⟩).length = w.met.length + 1 := by
        simp [Walk.met, Nat.add_right_comm]
      have hdiv : rest.length / k + 1 ≤ data.length / k := by
        rw [← Nat.add_div_right _ hk]
        exact Nat.div_le_div_right (htake h)
      omega

def nextAttribute (data : Bytes) : Checked (Taken Attribute) :=
  if data.isEmpty then .ok none
  else
    match Attribute.Header.decode data with
    | .error _ => .ok (some (.error (.invalidAttribute (.trailing data.length)), []))
    | .ok h =>
        let n := h.length.toNat
        if n < Attribute.headerSize then
          .ok (some (.error (.invalidAttribute (.tooShort h.kind n)), []))
        else if data.length < n then
          .ok (some (.error (.invalidAttribute (.overrun h.kind n data.length)), []))
        else do
          let value ← slice data Attribute.headerSize n
          let rest ← after data n
          .ok (some (.ok ⟨h.rawType, value⟩, rest))

theorem nextAttribute_eq (data : Bytes) : nextAttribute data = .ok (Attribute.next data) := by
  unfold nextAttribute Attribute.next
  by_cases hempty : data.isEmpty
  · rw [if_pos hempty, if_pos hempty]
  · rw [if_neg hempty, if_neg hempty]
    cases Attribute.Header.decode data with
    | error e => rfl
    | ok h =>
        have hword : h.length.toNat + 4 < word := by
          have := h.length.toNat_lt
          unfold word
          omega
        by_cases hcover : h.length.toNat < Attribute.headerSize
        · simp [hcover]
        · by_cases hlong : h.length.toNat ≤ data.length
          · have hshort : ¬ data.length < h.length.toNat := by omega
            simp [hcover, hlong, hshort, slice_eq (Nat.le_of_not_lt hcover) hlong, after_eq hword]
          · have hshort : data.length < h.length.toNat := by omega
            simp [hcover, hlong, hshort]

theorem rest_of_attribute {data rest : Bytes} {a : Attribute}
    (h : nextAttribute data = .ok (some (.ok a, rest))) : rest.length + 4 ≤ data.length := by
  rw [nextAttribute_eq, Except.ok.injEq] at h
  obtain ⟨hdr, -, hcover, hlong, -, rfl⟩ := Attribute.next_eq_ok_iff.1 h
  have := Bytes.le_alignUp hdr.length.toNat
  unfold Attribute.headerSize at hcover
  rw [List.length_drop]
  omega

def attributes : Taking Attribute where
  next := nextAttribute
  shortens {data rest item} h := by
    cases item with
    | ok a =>
        have := rest_of_attribute h
        omega
    | error e =>
        rw [nextAttribute_eq, Except.ok.injEq] at h
        obtain ⟨hne, rfl⟩ := Attribute.rest_of_next_error h
        exact List.length_pos_of_ne_nil hne

theorem covers_attributes (data : Bytes) : Covers attributes data (Attribute.walk data) :=
  covers_of nextAttribute_eq rfl Attribute.walk_of_next_none
    (fun h => ⟨(Attribute.rest_of_next_error h).2, Attribute.walk_of_next_error h⟩)
    Attribute.walk_of_next_ok data

theorem items_attributes (data : Bytes) : items attributes data = .ok (Attribute.walk data).met :=
  (covers_attributes data).items_eq

/-- An attribute takes four bytes at least. -/
theorem length_met_attributes_le (data : Bytes) :
    (Attribute.walk data).met.length ≤ data.length / 4 + 1 :=
  (covers_attributes data).length_met_le (by decide) rest_of_attribute

def nextMessage (data : Bytes) : Checked (Taken Message) :=
  if data.isEmpty then .ok none
  else
    match Message.Header.decode data with
    | .error e => .ok (some (.error e, []))
    | .ok h =>
        let n := h.length.toNat
        if n < Message.headerSize ∨ data.length < n then
          .ok (some (.error (.invalidMessage (.length n data.length)), []))
        else do
          let payload ← slice data Message.headerSize n
          let rest ← after data n
          .ok (some (.ok ⟨h, payload⟩, rest))

theorem nextMessage_eq (data : Bytes) : nextMessage data = .ok (Message.next data) := by
  unfold nextMessage Message.next
  by_cases hempty : data.isEmpty
  · rw [if_pos hempty, if_pos hempty]
  · rw [if_neg hempty, if_neg hempty]
    cases Message.Header.decode data with
    | error e => rfl
    | ok h =>
        have hword : h.length.toNat + 4 < word := by
          have := h.length.toNat_lt
          unfold word
          omega
        by_cases hgood : Message.headerSize ≤ h.length.toNat ∧ h.length.toNat ≤ data.length
        · have hbad : ¬ (h.length.toNat < Message.headerSize ∨ data.length < h.length.toNat) := by
            omega
          simp [hgood, hbad, slice_eq hgood.1 hgood.2, after_eq hword]
        · have hbad : h.length.toNat < Message.headerSize ∨ data.length < h.length.toNat := by
            omega
          simp [hgood, hbad]

theorem rest_of_message {data rest : Bytes} {m : Message}
    (h : nextMessage data = .ok (some (.ok m, rest))) : rest.length + 16 ≤ data.length := by
  rw [nextMessage_eq, Except.ok.injEq] at h
  obtain ⟨-, hcover, hlong, -, rfl⟩ := Message.next_eq_ok_iff.1 h
  have := Bytes.le_alignUp m.header.length.toNat
  unfold Message.headerSize at hcover
  rw [List.length_drop]
  omega

def messages : Taking Message where
  next := nextMessage
  shortens {data rest item} h := by
    cases item with
    | ok m =>
        have := rest_of_message h
        omega
    | error e =>
        rw [nextMessage_eq, Except.ok.injEq] at h
        obtain ⟨hne, rfl, -⟩ := Message.next_eq_error_iff.1 h
        exact List.length_pos_of_ne_nil hne

theorem covers_messages (data : Bytes) : Covers messages data (Message.walk data) :=
  covers_of nextMessage_eq rfl Message.walk_of_next_none
    (fun h => ⟨(Message.next_eq_error_iff.1 h).2.1, Message.walk_of_next_error h⟩)
    Message.walk_of_next_ok data

theorem items_messages (data : Bytes) : items messages data = .ok (Message.walk data).met :=
  (covers_messages data).items_eq

/-- A message takes sixteen bytes at least. -/
theorem length_met_messages_le (data : Bytes) :
    (Message.walk data).met.length ≤ data.length / 16 + 1 :=
  (covers_messages data).length_met_le (by decide) rest_of_message

variable {size : Nat}

def decodeTable (table : Table size) (data : Bytes) : Checked (Except Error Unit × Table size) :=
  forEach attributes
    (fun _ item s =>
      match item with
      | .ok a => .ok (.yield (s.1, s.2.store a))
      | .error e => .ok (.done (.error e, s.2.clear)))
    (.ok (), table.clear) data

theorem clear_eq_empty (table : Table size) : table.clear = Table.empty := by
  unfold Table.clear Table.empty
  congr 1
  ext i hi
  simp

theorem decodeTable_eq (table : Table size) (data : Bytes) :
    decodeTable table data = .ok (table.decode data) := by
  have hfold (as : List Attribute) (table : Table size) :
      as.foldl (fun s a => (s.1, s.2.store a)) ((.ok () : Except Error Unit), table)
        = (.ok (), as.foldl Table.store table) := by
    induction as generalizing table with
    | nil => rfl
    | cons a as ih => exact ih _
  rw [decodeTable, (covers_attributes data).forEach_eq (fun s a => (s.1, s.2.store a))
    (fun e s => (.error e, s.2.clear)) (fun _ _ _ => rfl) (fun _ _ _ => .inl rfl), hfold]
  cases h : (Attribute.walk data).fault with
  | none =>
      rw [table.decode_of_fault_none h]
      rfl
  | some e =>
      rw [table.decode_of_fault_some h, Option.elim_some, clear_eq_empty, clear_eq_empty]

def negate (code : Int) : Checked Int :=
  if -code < 2 ^ 31 then .ok (-code) else .error .overflow

/-- The distance of a half word from zero, where the largest is as far as it gets. -/
def magnitude (code : Int) : Checked Nat :=
  if 0 ≤ code then .ok code.toNat
  else if code = -2 ^ 31 then .ok (2 ^ 31 - 1)
  else do
    let n ← negate code
    .ok n.toNat

theorem magnitude_eq {code : Int} (hlow : -2 ^ 31 ≤ code) (hhigh : code < 2 ^ 31) :
    magnitude code = .ok (min code.natAbs 0x7fffffff) := by
  unfold magnitude
  by_cases hpos : 0 ≤ code
  · rw [if_pos hpos, Except.ok.injEq]
    omega
  · by_cases hleast : code = -2 ^ 31
    · rw [if_neg hpos, if_pos hleast, Except.ok.injEq]
      omega
    · have hneg : negate code = .ok (-code) := if_pos (by omega)
      rw [if_neg hpos, if_neg hleast, hneg, ok_bind, Except.ok.injEq]
      omega

def checkAck (payload : Bytes) : Checked (Except Error Unit) :=
  match Message.errorCode payload with
  | .error e => .ok (.error e)
  | .ok code =>
      if code = 0 then .ok (.ok ())
      else do
        let n ← magnitude code
        .ok (.error (.kernel n))

theorem errorCode_bounds {payload : Bytes} {code : Int}
    (h : Message.errorCode payload = .ok code) : -2 ^ 31 ≤ code ∧ code < 2 ^ 31 := by
  unfold Message.errorCode at h
  cases hd : Bytes.split? 4 payload with
  | none => simp [hd] at h
  | some halves =>
      have hm : 0 < UInt32.size := by decide
      have hlow := Int.le_bmod (x := (Bytes.ofLittle halves.1 : Int)) hm
      have hhigh := Int.bmod_lt (x := (Bytes.ofLittle halves.1 : Int)) hm
      simp only [hd, Except.ok.injEq] at h
      rw [h] at hlow hhigh
      unfold UInt32.size at hlow hhigh
      omega

theorem checkAck_eq (payload : Bytes) : checkAck payload = .ok (Message.checkAck payload) := by
  unfold checkAck Message.checkAck
  cases h : Message.errorCode payload with
  | error e => rfl
  | ok code =>
      obtain ⟨hlow, hhigh⟩ := errorCode_bounds h
      by_cases hzero : code = 0
      · simp [hzero]
      · simp [hzero, magnitude_eq hlow hhigh, Error.ofCode]

def findAck? (seq : UInt32) (data : Bytes) : Checked (Option (Except Error Unit)) :=
  forEach messages
    (fun standing item _ =>
      match item with
      | .error e =>
          .ok (.done (if Acknowledgement.announces seq standing then some (.error e) else none))
      | .ok m =>
          if Acknowledgement.answers seq m.header then do
            let result ← checkAck m.payload
            .ok (.done (some result))
          else .ok (.yield none))
    none data

theorem findAck?_eq (seq : UInt32) (data : Bytes) :
    findAck? seq data = .ok (Acknowledgement.find? seq data) := by
  have hnext (bs : Bytes) : messages.next bs = .ok (Message.next bs) := nextMessage_eq bs
  induction hn : data.length using Nat.strong_induction_on generalizing data with
  | _ n ih =>
      subst hn
      cases h : Message.next data with
      | none =>
          rw [Acknowledgement.find?_of_next_none h]
          exact forEach_of_none (by rw [hnext, h])
      | some taken =>
          obtain ⟨item | m, rest⟩ := taken
          · rw [Acknowledgement.find?_of_next_error h]
            exact forEach_of_done (by rw [hnext, h]) rfl
          · have htaken : messages.next data = .ok (some (.ok m, rest)) := by rw [hnext, h]
            have hlater := ih _ (Message.next_shortens h) rest rfl
            rw [Acknowledgement.find?_of_next_ok h]
            by_cases hmine : Acknowledgement.answers seq m.header
            · rw [if_pos hmine]
              exact forEach_of_done htaken (by simp [hmine, checkAck_eq])
            · rw [if_neg hmine, ← hlater]
              exact forEach_of_yield htaken (by simp [hmine])

def decideAck? (seq : UInt32) : Receipt → Checked (Option (Except Error Unit))
  | .error cause => .ok (some (.error (.ofReceive cause)))
  | .ok data =>
      if data.length < Message.headerSize then
        .ok (some (.error (.truncated Message.headerSize data.length)))
      else do
        let whole ← sliceFrom data 0
        findAck? seq whole

theorem decideAck?_eq (seq : UInt32) (r : Receipt) :
    decideAck? seq r = .ok (Acknowledgement.decide? seq r) := by
  cases r with
  | error cause => rfl
  | ok data =>
      by_cases hshort : data.length < Message.headerSize
      · simp [decideAck?, Acknowledgement.decide?, hshort]
      · have hlong : Message.headerSize ≤ data.length := Nat.le_of_not_lt hshort
        rw [Acknowledgement.decide?_of_long hlong, decideAck?]
        simp [hshort, sliceFrom_eq, findAck?_eq]

def text (value : Bytes) : Checked (Except Error String) := do
  let shown ← slice value 0 (value.findIdx (· = 0))
  .ok (match Utf8.decode shown with
    | .ok s => .ok s
    | .error defect => .error (.invalidAttribute (.notUtf8 defect)))

theorem text_eq (value : Bytes) : text value = .ok (Value.text value) := by
  have hshown : value.takeWhile (· ≠ 0) = value.take (value.findIdx (· = 0)) := by
    rw [List.takeWhile_eq_take_findIdx_not]
    simp
  rw [text, slice_zero_eq List.findIdx_le_length, ok_bind, ← hshown]
  rfl

end Checked

end Netfilter
