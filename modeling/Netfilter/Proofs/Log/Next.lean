import Netfilter.Proofs.Link.Links
import Netfilter.Proofs.Link.Receiving
import Netfilter.Proofs.Log.Noted
import Netfilter.Proofs.Queue.Expected

/-!
# What a feed gives next

A feed that has kept nothing takes receipts as long as they give nothing. It
stops with the first one that gives an item, notes a failed receive, and keeps
what else this one gives. The number of receipts in the inbox bounds how often it
has to receive.
-/

namespace Netfilter.Log

open Queue (isFatal untilFatal)

/-- Receipts that give nothing are datagrams. -/
theorem Item.calm_of_nil {items : List Receipt} (h : items.flatMap ofReceipt = []) :
    ∀ r ∈ items, isFatal r = false := by
  intro r hr
  cases r with
  | ok data => rfl
  | error cause => cases List.flatMap_eq_nil_iff.1 h _ hr

namespace Feed

variable {f : Feed} {l : Links} {c : Channel}

/-- What a receive for a feed may come to, given the receipts taken for it. -/
inductive Received (f : Feed) (l : Links) (c : Channel) : Next × Feed × Links → Prop
  | nothing (none : (c.socket.handsOut c.socket.inbox).flatMap Item.ofReceipt = []) :
      Received f l c (.pending, f, l.put f.link (c.withInbox []))
  | item (taken : List Receipt) {later : List Receipt} {item : Item} {kept : List Item}
      (inbox : c.socket.inbox = taken ++ later)
      (gives : (c.socket.handsOut taken).flatMap Item.ofReceipt = item :: kept)
      (calm : ∀ r ∈ c.socket.handsOut taken, isFatal r = false)
      (quiet : ∀ k ∈ kept, k.notes = []) :
      Received f l c
        (.item item, { f with kept, notes := item.notes }, l.put f.link (c.withInbox later))
  | broke (taken before : List Receipt) {later : List Receipt} {r : Receipt} {item : Item}
      (inbox : c.socket.inbox = taken ++ later)
      (gives : (c.socket.handsOut taken).flatMap Item.ofReceipt = [item])
      (last : c.socket.handsOut taken = before ++ [r])
      (calm : ∀ b ∈ before, isFatal b = false) (fatal : isFatal r = true) :
      Received f l c
        (.item item, (f.withNotes item.notes).close (l.put f.link (c.withInbox later)))

/-- A receive that goes on after `now` gave nothing comes to the same as one from the start. -/
theorem Received.after {now later : List Receipt} {result : Next × Feed × Links}
    (hinbox : c.socket.inbox = now ++ later)
    (hnone : (c.socket.handsOut now).flatMap Item.ofReceipt = [])
    (h : Received f (l.put f.link (c.withInbox later)) (c.withInbox later) result) :
    Received f l c result := by
  have hands (items : List Receipt) :
      (c.withInbox later).socket.handsOut items = c.socket.handsOut items := rfl
  have hput (inbox : List Receipt) :
      (l.put f.link (c.withInbox later)).put f.link ((c.withInbox later).withInbox inbox) =
        l.put f.link (c.withInbox inbox) := Links.put_put _ _ _ _
  have hgives (items : List Receipt) : (c.socket.handsOut (now ++ items)).flatMap Item.ofReceipt =
      (c.socket.handsOut items).flatMap Item.ofReceipt := by
    rw [Socket.handsOut_append, List.flatMap_append, hnone, List.nil_append]
  have hcalm := Item.calm_of_nil hnone
  cases h with
  | nothing none =>
      rw [hput]
      refine .nothing ?_
      rw [hinbox, hgives]
      exact none
  | @item taken _ item kept inbox gives calm quiet =>
      rw [hput]
      refine .item (now ++ taken) ?_ ((hgives _).trans gives) ?_ quiet
      · rw [hinbox, List.append_assoc]
        exact congrArg _ inbox
      · intro r hr
        rw [Socket.handsOut_append] at hr
        exact (List.mem_append.1 hr).elim (hcalm r) (calm r)
  | @broke taken before _ r item inbox gives last calm fatal =>
      rw [hput]
      refine .broke (now ++ taken) (c.socket.handsOut now ++ before) ?_
        ((hgives _).trans gives) ?_ ?_ fatal
      · rw [hinbox, List.append_assoc]
        exact congrArg _ inbox
      · rw [Socket.handsOut_append, List.append_assoc]
        exact congrArg _ last
      · intro b hb
        exact (List.mem_append.1 hb).elim (hcalm b) (calm b)

/-- Lost notifications are reported, and after any other failure the feed is closed. Both are
noted. -/
theorem receiveFor_of_error (fuel : Nat) {cause : IoError} {l' : Links}
    (h : l.onChannel f.link (.error .notOpen) (·.receive) = (.error (.ofReceive cause), l')) :
    receiveFor (fuel + 1) f l =
      if cause.isNoBufferSpace then (.item (.error .noBuffers), f.withNotes [overflowed], l')
      else (.item (.error (.io cause)), (f.withNotes [broke (.io cause)]).close l') := by
  rw [receiveFor, h]
  cases hno : cause.isNoBufferSpace with
  | true => simp [Error.ofReceive, hno]
  | false => simp [Error.ofReceive, hno]

theorem received_error {now later : List Receipt} {cause : IoError} (hkept : f.kept = [])
    (hinbox : c.socket.inbox = now ++ later) (hands : c.socket.handsOut now = [.error cause]) :
    Received f l c
      (if cause.isNoBufferSpace then
          (.item (.error .noBuffers), f.withNotes [overflowed], l.put f.link (c.withInbox later))
        else (.item (.error (.io cause)),
          (f.withNotes [broke (.io cause)]).close (l.put f.link (c.withInbox later)))) := by
  have hgives : (c.socket.handsOut now).flatMap Item.ofReceipt = [.error (.ofReceive cause)] := by
    rw [hands]
    rfl
  cases hno : cause.isNoBufferSpace with
  | true =>
      have hof : Error.ofReceive cause = .noBuffers := by simp [Error.ofReceive, hno]
      have hsame : f.withNotes [overflowed] = { f with kept := [], notes := [overflowed] } := by
        rw [← hkept]
        rfl
      rw [if_pos rfl, hsame]
      refine .item now hinbox (hof ▸ hgives) ?_ fun k hk => absurd hk List.not_mem_nil
      rw [hands]
      simp [isFatal, hno]
  | false =>
      have hof : Error.ofReceive cause = .io cause := by simp [Error.ofReceive, hno]
      refine .broke now [] hinbox (hof ▸ hgives) hands (fun b hb => absurd hb List.not_mem_nil) ?_
      simp [isFatal, hno]

theorem received_receiveFor {fuel : Nat} (hc : l.channels[f.link]? = some c)
    (hopen : c.isOpen = true) (hkept : f.kept = []) (hnotes : f.notes = [])
    (hfuel : c.socket.inbox.length < fuel) : Received f l c (receiveFor fuel f l) := by
  induction fuel generalizing c l with
  | zero => cases hfuel
  | succ fuel ih =>
      have hreceive := Links.onChannel_of_channel hc (.error .notOpen) (·.receive)
      rcases Channel.receive_cases hopen with ⟨hands, hr⟩ | ⟨now, later, r, hinbox, hands, hr⟩
      · rw [hr] at hreceive
        rw [receiveFor, hreceive]
        exact .nothing (by rw [hands]; rfl)
      · rw [hr] at hreceive
        cases r with
        | error cause =>
            rw [receiveFor_of_error fuel hreceive]
            exact received_error hkept hinbox hands
        | ok data =>
            have hgives :
                (c.socket.handsOut now).flatMap Item.ofReceipt = itemsOfDatagram data := by
              rw [hands, List.flatMap_singleton, itemsOfDatagram_eq]
              rfl
            rw [receiveFor, hreceive]
            simp only [Channel.received, Except.mapError, Outcome.ofExcept]
            cases hitems : itemsOfDatagram data with
            | nil =>
                -- nothing to give yet: the next receive finds a shorter inbox
                have hshorter : later.length < fuel := by
                  cases now with
                  | nil => cases hands
                  | cons r now =>
                      rw [hinbox, List.length_append, List.length_cons] at hfuel
                      omega
                exact Received.after hinbox (hgives.trans hitems)
                  (ih (Links.channels_put hc _) hopen hshorter)
            | cons item kept =>
                have hquiet : ∀ k ∈ item :: kept, Item.notes k = [] := by
                  rw [← hitems, itemsOfDatagram_eq]
                  exact fun k => Item.notes_of_mem_ofDatagram
                have hsame : { f with kept } = { f with kept, notes := Item.notes item } := by
                  rw [hquiet item List.mem_cons_self, ← hnotes]
                dsimp only
                rw [hsame]
                refine .item now hinbox (hgives.trans hitems) ?_
                  fun k hk => hquiet k (List.mem_cons_of_mem item hk)
                rw [hands]
                simp [isFatal]

end Feed

end Netfilter.Log
