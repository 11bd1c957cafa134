import Netfilter.Proofs.Checked.Wire
import Netfilter.Proofs.Log.Intake

/-!
# Items up to the first failure

What a feed gives is an entry, the report of lost notifications, or a failure.
The items up to the first failure do not change when more of them follow, once
there is a failure, and grow until then.
-/

namespace Netfilter

namespace Log

open Queue (isFatal)

namespace Item

/-- The failure that an item reports. Lost notifications are none. -/
def failure? : Item → Option Error
  | .ok _ => none
  | .error e => if e.isNoBuffers then none else some e

def entry? : Item → Option Entry
  | .ok e => some e
  | .error _ => none

end Item

def firstFailure? (items : List Item) : Option Error := items.findSome? Item.failure?

def untilFailure : List Item → List Item
  | [] => []
  | item :: later => if item.failure?.isSome then [item] else item :: untilFailure later

def entriesOf (items : List Item) : List Entry :=
  (items.takeWhile fun item => item.failure?.isNone).filterMap Item.entry?

theorem firstFailure?_cons (item : Item) (items : List Item) :
    firstFailure? (item :: items) = item.failure?.or (firstFailure? items) := by
  rw [firstFailure?, List.findSome?_cons]
  cases item.failure? <;> rfl

theorem firstFailure?_append (front items : List Item) :
    firstFailure? (front ++ items) = (firstFailure? front).or (firstFailure? items) :=
  List.findSome?_append

theorem untilFailure_append {front : List Item} (h : firstFailure? front = none)
    (items : List Item) : untilFailure (front ++ items) = front ++ untilFailure items := by
  induction front with
  | nil => rfl
  | cons item front ih =>
      rw [firstFailure?_cons, Option.or_eq_none_iff] at h
      rw [List.cons_append, untilFailure, h.1, ih h.2]
      rfl

theorem untilFailure_append_of_some {front : List Item} {e : Error}
    (h : firstFailure? front = some e) (items : List Item) :
    untilFailure (front ++ items) = untilFailure front := by
  induction front with
  | nil => cases h
  | cons item front ih =>
      rw [firstFailure?_cons] at h
      rw [List.cons_append, untilFailure, untilFailure]
      cases hitem : item.failure? with
      | some e' => rfl
      | none =>
          rw [hitem, Option.none_or] at h
          rw [ih h]

theorem untilFailure_singleton (item : Item) : untilFailure [item] = [item] := by
  rw [untilFailure]
  cases item.failure? <;> rfl

theorem untilFailure_prefix (front items : List Item) :
    untilFailure front <+: untilFailure (front ++ items) := by
  cases h : firstFailure? front with
  | none =>
      have hfront := untilFailure_append h []
      rw [List.append_nil, untilFailure, List.append_nil] at hfront
      rw [untilFailure_append h, hfront]
      exact List.prefix_append front _
  | some e => rw [untilFailure_append_of_some h]

/-- A failure is no entry. -/
theorem entriesOf_eq (items : List Item) :
    entriesOf items = (untilFailure items).filterMap Item.entry? := by
  induction items with
  | nil => rfl
  | cons item items ih =>
      rw [untilFailure, entriesOf, List.takeWhile_cons]
      cases hitem : item.failure? with
      | none =>
          change (item :: _).filterMap Item.entry? = (item :: untilFailure items).filterMap Item.entry?
          rw [List.filterMap_cons, List.filterMap_cons, ← ih]
          rfl
      | some e =>
          cases item with
          | ok entry => cases hitem
          | error e' => rfl

theorem Item.length_ofDatagram_le (data : Bytes) : (ofDatagram data).length ≤ data.length + 1 := by
  have hmet := Checked.length_met_messages_le data
  have hitems := List.length_filterMap_le ofMessage? (Message.walk data).items
  rw [Walk.met, List.length_append, List.length_map] at hmet
  rw [ofDatagram, List.length_append]
  have hlength : data.length / 16 ≤ data.length := Nat.div_le_self _ _
  cases hfault : (Message.walk data).fault <;>
    simp only [hfault, Option.map_none, Option.map_some, Option.toList_none, Option.toList_some,
      List.length_nil, List.length_singleton] at hmet ⊢ <;> omega

/-- What a poll of a feed that is not done comes to. Unless the item it gives is a failure, the feed
goes on. -/
inductive Polled (w : Intake) (c : Channel) : Prop
  | waits (next : w.feed.next w.links = (.pending, (w.after .poll).feed, (w.after .poll).links))
      (ahead : w.ahead c = []) (notes : (w.after .poll).feed.notes = [])
      (going : (w.after .poll).feed.isDone = false) : Polled w c
  | gives (item : Item) (later : List Item)
      (next : w.feed.next w.links = (.item item, (w.after .poll).feed, (w.after .poll).links))
      (ahead : w.ahead c = item :: later) (notes : (w.after .poll).feed.notes = item.notes)
      (going : item.failure? = none → (w.after .poll).feed.isDone = false) : Polled w c

/-- If the last of the receipts is fatal, what they give ends with a failure. -/
theorem failure?_of_fatal {front : List Receipt} {r : Receipt} {item : Item}
    (hfatal : isFatal r = true) (hgives : (front ++ [r]).flatMap Item.ofReceipt = [item]) :
    item.failure? ≠ none := by
  cases r with
  | ok data => cases hfatal
  | error cause =>
      have hno : cause.isNoBufferSpace = false := by simpa [isFatal] using hfatal
      have hof : Item.ofReceipt (.error cause) = [.error (.io cause)] := by
        simp [Item.ofReceipt, Error.ofReceive, hno]
      rw [List.flatMap_append, List.flatMap_singleton, hof, List.append_eq_singleton_iff] at hgives
      rcases hgives with ⟨-, hitem⟩ | ⟨-, hnil⟩
      · obtain rfl : .error (.io cause) = item := List.singleton_inj.1 hitem
        simp [Item.failure?, Error.isNoBuffers, hno]
      · cases hnil

theorem Accounted.polled {link : Nat} {before : Socket} {w : Intake} {taken : List Receipt}
    {c : Channel} (h : Accounted link before w taken c) (hgoing : w.feed.isDone = false) :
    Polled w c := by
  have hafter {answer : Next} (hanswer : (w.feed.next w.links).1 = answer) :
      w.feed.next w.links = (answer, (w.after .poll).feed, (w.after .poll).links) :=
    Prod.ext hanswer rfl
  have hahead : w.ahead c =
      w.feed.kept ++ (c.socket.handsOut c.socket.inbox).flatMap Item.ofReceipt := by
    rw [Intake.ahead, hgoing]
    rfl
  cases hkept : w.feed.kept with
  | cons item kept =>
      have hnext := (h.poll_of_kept hkept).1
      rw [hkept] at hahead
      refine .gives item _ (hafter (congrArg Prod.fst hnext)) hahead
        (congrArg (·.2.1.notes) hnext) fun _ => ?_
      exact (congrArg (·.2.1.isDone) hnext).trans hgoing
  | nil =>
      have hreceived := h.received hkept hgoing
      rw [hkept, List.nil_append] at hahead
      generalize hnext : w.feed.next w.links = result at hreceived
      have hdone : (w.after .poll).feed.isDone = result.2.1.isDone :=
        congrArg (·.2.1.isDone) hnext
      have hnotes : (w.after .poll).feed.notes = result.2.1.notes := congrArg (·.2.1.notes) hnext
      cases hreceived with
      | nothing none =>
          exact .waits (hafter (congrArg Prod.fst hnext)) (hahead.trans none) hnotes
            (hdone.trans hgoing)
      | @item now later item kept inbox gives calm =>
          rw [inbox, Socket.handsOut_append, List.flatMap_append, gives] at hahead
          exact .gives item _ (hafter (congrArg Prod.fst hnext)) hahead hnotes
            fun _ => hdone.trans hgoing
      | @broke now front later r item inbox gives last calm fatal =>
          rw [inbox, Socket.handsOut_append, List.flatMap_append, gives] at hahead
          refine .gives item _ (hafter (congrArg Prod.fst hnext)) hahead hnotes fun hno => ?_
          rw [last] at gives
          exact absurd hno (failure?_of_fatal fatal gives)

/-- What was given is a beginning of what the receipts so far give. -/
theorem Accounted.given_prefix {link : Nat} {before : Socket} {w : Intake} {taken : List Receipt}
    {c : Channel} (h : Accounted link before w taken c) :
    w.given <+: (before.handsOut w.arrived).flatMap Item.ofReceipt := by
  rw [h.arrived, ← h.same, Socket.handsOut_append, List.flatMap_append, ← h.items,
    List.append_assoc]
  exact List.prefix_append _ _

end Log

end Netfilter
