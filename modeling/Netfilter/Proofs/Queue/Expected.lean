import Netfilter.Proofs.Queue.Notice

/-!
# What is to be reported

All that the receipts give rise to is to be reported, up to the first receive
that fails for good and to the first packet after which the handler wants no
more. Neither cut changes anything before it.
-/

namespace Netfilter.Queue

def isFatal : Receipt → Bool
  | .error cause => !cause.isNoBufferSpace
  | .ok _ => false

def untilFatal : List Receipt → List Receipt
  | [] => []
  | r :: later => if isFatal r then [r] else r :: untilFatal later

/-- The reports up to the packet after which the handler wants no more, given its answers. -/
def untilStop : List Flow → List Report → List Report
  | _, [] => []
  | answers, .failed cause :: later => .failed cause :: untilStop answers later
  | answers, .packet info payload handle :: later =>
      .packet info payload handle ::
        if answers.head? = some .stop then [] else untilStop answers.tail later

/-- What is to be reported of these receipts to a handler that gives these answers. -/
def expected (handle : VerdictHandle) (answers : List Flow) (items : List Receipt) : List Report :=
  untilStop answers ((untilFatal items).flatMap (Report.ofReceipt handle))

def Report.isPacket : Report → Bool
  | .failed _ => false
  | .packet _ _ _ => true

@[simp] theorem Report.isPacket_failed (cause : Error) :
    (Report.failed cause).isPacket = false := rfl

@[simp] theorem Report.isPacket_packet (info : PacketInfo) (payload : Bytes)
    (handle : VerdictHandle) : (Report.packet info payload handle).isPacket = true := rfl

theorem untilFatal_append {before : List Receipt} (h : ∀ r ∈ before, isFatal r = false)
    (later : List Receipt) : untilFatal (before ++ later) = before ++ untilFatal later := by
  induction before with
  | nil => rfl
  | cons r before ih =>
      have hr := h r List.mem_cons_self
      rw [List.cons_append, untilFatal, hr, ih fun b hb => h b (List.mem_cons_of_mem _ hb)]
      rfl

theorem untilFatal_of_calm {items : List Receipt} (h : ∀ r ∈ items, isFatal r = false) :
    untilFatal items = items := by
  have happend := untilFatal_append h []
  rwa [untilFatal, List.append_nil] at happend

theorem untilStop_of_proceed {answers : List Flow} (h : ∀ a ∈ answers, a = .proceed)
    (reports : List Report) : untilStop answers reports = reports := by
  induction reports generalizing answers with
  | nil => rfl
  | cons report later ih =>
      cases report with
      | failed cause => rw [untilStop, ih h]
      | packet info payload handle =>
          have hhead : answers.head? ≠ some .stop := by
            intro hs
            cases h _ (List.mem_of_head? hs)
          rw [untilStop, if_neg hhead, ih fun a ha => h a (List.mem_of_mem_tail ha)]

theorem untilStop_append_stop {answers : List Flow} {front : List Report}
    (h : ∀ a ∈ answers, a = .proceed) (hcount : front.countP Report.isPacket = answers.length)
    (info : PacketInfo) (payload : Bytes) (handle : VerdictHandle) (more : List Report) :
    untilStop (answers ++ [.stop]) (front ++ .packet info payload handle :: more) =
      front ++ [.packet info payload handle] := by
  induction front generalizing answers with
  | nil =>
      obtain rfl := List.length_eq_zero_iff.1 hcount.symm
      rfl
  | cons report front ih =>
      cases report with
      | failed cause =>
          rw [List.cons_append, untilStop, ih h (by simpa using hcount)]
          rfl
      | packet info' payload' handle' =>
          cases answers with
          | nil => simp at hcount
          | cons a answers =>
              obtain rfl := h a List.mem_cons_self
              have hlater := ih (fun a ha => h a (List.mem_cons_of_mem _ ha))
                (by simpa [List.countP_cons] using hcount)
              simp only [List.cons_append, untilStop, List.head?_cons, Option.some.injEq,
                reduceCtorEq, if_false, List.tail_cons, hlater]

end Netfilter.Queue
