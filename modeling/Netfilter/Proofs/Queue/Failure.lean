import Netfilter.Proofs.Queue.Conduct

/-!
# A request that fails is not recorded

A request of a binding is recorded when it is acknowledged. If it is refused,
fails in any way or is given up at any moment, the record stays as it was, and so
does everything about the channels but what the request itself has spent. So a
run of requests comes to the same record as one in which those that were not
acknowledged were never made.
-/

namespace Netfilter.Queue.Binding

/-- What request `r` leaves as it was on this course. The record holds the stage, what was set since
the queue was bound, and all settings. -/
structure LeavesAlone (b : Binding) (r : Request) (course : List Moment) : Prop where
  record : (b.attempt r course).1.answer r.label ≠ .ok () →
    (b.attempt r course).2.record = b.record
  recorded : (b.attempt r course).1.answer r.label = .ok () →
    (b.attempt r course).2.record = b.record.acknowledged r
  isOpen : (b.attempt r course).2.isOpen = b.isOpen
  /-- The channel in use has sent the datagram of the request at most. -/
  links : b.links.Bears (r.draft b.settings) (b.attempt r course).1 (b.attempt r course).2.links
  /-- If nothing else happens, a number is taken at most, and some of the inbox is read. -/
  spent : ∀ looks, course = List.replicate looks .look → ∀ i c, b.links.Uses i c →
    ∃ c', (b.attempt r course).2.links.Uses i c' ∧
      c.Spends (r.draft b.settings) (b.attempt r course).1 c'
  performed : course = Channel.undisturbed →
    b.perform r = ((b.attempt r course).1.answer r.label, (b.attempt r course).2)

theorem leavesAlone (b : Binding) (r : Request) (course : List Moment) :
    b.LeavesAlone r course where
  record := record_attempt_of_ne
  recorded := record_attempt_of_ok
  isOpen := (b.bears_attempt r course).isOpen
  links := b.bears_attempt r course
  spent := by
    rintro looks rfl i c huses
    rw [links_attempt]
    exact huses.spends_pursue _ looks
  performed := by
    rintro rfl
    exact b.perform_eq_attempt r

def makeAll (b : Binding) (calls : List (Request × List Moment)) : List Mark × Binding :=
  b.conduct (calls.map fun (r, course) => .request r course)

theorem makeAll_cons (b : Binding) (r : Request) (course : List Moment)
    (calls : List (Request × List Moment)) :
    b.makeAll ((r, course) :: calls) =
      (r.marks (b.attempt r course).1 ++ ((b.attempt r course).2.makeAll calls).1,
        ((b.attempt r course).2.makeAll calls).2) := rfl

theorem record_makeAll (b : Binding) (calls : List (Request × List Moment)) :
    (b.makeAll calls).2.record = (b.makeAll calls).1.foldl note b.record :=
  b.record_conduct _

/-- The marks are those of some of the requests. If there are any, a request may be made. -/
theorem exists_acknowledged (b : Binding) (calls : List (Request × List Moment)) :
    ∃ done : List Request, (b.makeAll calls).1 = done.map .acknowledged ∧
      done.Sublist (calls.map Prod.fst) ∧ (done ≠ [] → b.links.isFree = true) := by
  induction calls generalizing b with
  | nil => exact ⟨[], rfl, .slnil, fun h => absurd rfl h⟩
  | cons call calls ih =>
      obtain ⟨r, course⟩ := call
      obtain ⟨done, hmarks, hsub, hfree⟩ := ih (b.attempt r course).2
      rw [makeAll_cons, hmarks, Request.marks]
      by_cases hack : (b.attempt r course).1.isAcknowledged = true
      · refine ⟨r :: done, by rw [if_pos hack]; rfl, hsub.cons_cons r, fun _ => ?_⟩
        exact Links.isFree_of_isAcknowledged hack
      · refine ⟨done, by rw [if_neg hack]; rfl, hsub.cons r, fun hne => ?_⟩
        rw [← (b.bears_attempt r course).isFree]
        exact hfree hne

/-- Whatever requests are made while nothing is in their way, they can all be acknowledged. -/
theorem marks_makeAll_granted {b : Binding} (h : b.links.isFree = true) (requests : List Request) :
    (b.makeAll (requests.map fun r => (r, Channel.granted))).1 = requests.map .acknowledged := by
  induction requests generalizing b with
  | nil => rfl
  | cons r requests ih =>
      have hack : (b.attempt r Channel.granted).1.isAcknowledged = true :=
        Links.isAcknowledged_granted h _
      have hstill := (b.bears_attempt r Channel.granted).isFree.trans h
      rw [List.map_cons, makeAll_cons, ih hstill, Request.marks, if_pos hack]
      rfl

/-- The requests of a run that were not acknowledged may as well not have been made. -/
structure ErasesFailures (b : Binding) (calls : List (Request × List Moment)) : Prop where
  /-- Every other run with the same requests acknowledged comes to the same record. -/
  same : ∀ (b' : Binding) calls', b'.record = b.record →
    (b'.makeAll calls').1 = (b.makeAll calls).1 →
      (b'.makeAll calls').2.record = (b.makeAll calls).2.record
  /-- There is a run of the acknowledged requests alone. -/
  erased : ∃ kept, (kept.map Prod.fst).Sublist (calls.map Prod.fst) ∧
    (b.makeAll kept).1 = kept.map (fun call => .acknowledged call.1) ∧
    (b.makeAll kept).1 = (b.makeAll calls).1 ∧
    (b.makeAll kept).2.record = (b.makeAll calls).2.record

theorem record_makeAll_of_marks {b b' : Binding} {calls calls' : List (Request × List Moment)}
    (hrecord : b'.record = b.record) (hmarks : (b'.makeAll calls').1 = (b.makeAll calls).1) :
    (b'.makeAll calls').2.record = (b.makeAll calls).2.record := by
  rw [record_makeAll, record_makeAll, hrecord, hmarks]

theorem erasesFailures (b : Binding) (calls : List (Request × List Moment)) :
    b.ErasesFailures calls := by
  refine ⟨fun b' calls' => record_makeAll_of_marks, ?_⟩
  obtain ⟨done, hmarks, hsub, hfree⟩ := b.exists_acknowledged calls
  let kept := done.map fun r => (r, Channel.granted)
  have hkept : (b.makeAll kept).1 = done.map .acknowledged := by
    by_cases hnil : done = []
    · subst hnil
      rfl
    · exact marks_makeAll_granted (hfree hnil) done
  refine ⟨kept, ?_, ?_, hkept.trans hmarks.symm,
    record_makeAll_of_marks rfl (hkept.trans hmarks.symm)⟩
  · simpa [kept, Function.comp_def] using hsub
  · rw [hkept]
    simp [kept, Function.comp_def]

/-- However requests end, only those that are acknowledged are recorded. -/
theorem only_acknowledged_recorded (b : Binding) (calls : List (Request × List Moment)) :
    (∀ r course, b.LeavesAlone r course) ∧ b.ErasesFailures calls :=
  ⟨b.leavesAlone, b.erasesFailures calls⟩

end Netfilter.Queue.Binding
