import Netfilter.Proofs.Queue.Handshake
import Netfilter.Proofs.Requests.Pursuit

/-!
# What is undertaken with a binding

A binding is opened, asked, brought up and closed, in any order. Each request is
pursued for as long as its course goes, so it may be acknowledged, fail in any
way or be given up at any moment. What happened to a binding is told by its
marks, and its record is what they make of it.
-/

namespace Netfilter.Queue

def Request.marks (r : Request) (h : Headway) : List Mark :=
  if h.isAcknowledged then [.acknowledged r] else []

namespace Binding

def record (b : Binding) : Binding := { b with links := {} }

def note (b : Binding) : Mark → Binding
  | .opened => { b with stage := .opened, modeSet := false, lengthSet := false }
  | .closed => { b with stage := .closed }
  | .acknowledged r => b.acknowledged r

def attempt (b : Binding) (r : Request) (course : List Moment) : Headway × Binding :=
  let (h, links) := b.links.pursue (r.draft b.settings) course
  (h, (r.marks h).foldl note { b with links })

/-- Pursues requests up to the first that is not acknowledged, each on its own course. Tells the
marks and what comes of the requests. -/
def attemptAll (b : Binding) (courses : Request → List Moment) :
    List Request → List Mark × Outcome Unit × Binding
  | [] => ([], .ok (), b)
  | r :: requests =>
      let (h, b) := b.attempt r (courses r)
      match h.answer r.label with
      | .ok () =>
          let (marks, outcome, b) := b.attemptAll courses requests
          (r.marks h ++ marks, outcome, b)
      | outcome => (r.marks h, outcome, b)

def withdraw (b : Binding) (courses : Request → List Moment) (cause : Error) :
    List Mark × Outcome Unit × Binding :=
  if b.stage.isBound then
    let (h, b) := b.attempt .unbind (courses .unbind)
    match h.outcome with
    | .pending => (Request.unbind.marks h, .pending, b)
    | _ => (Request.unbind.marks h ++ [.closed], .error cause, b.close)
  else ([.closed], .error cause, b.close)

def establish (b : Binding) (courses : Request → List Moment) :
    List Mark × Outcome Unit × Binding :=
  match b.attemptAll courses (Request.bringUp b.settings) with
  | (marks, .error cause, b) =>
      let (later, outcome, b) := b.withdraw courses cause
      (marks ++ later, outcome, b)
  | (marks, outcome, b) => (marks, outcome, b)

inductive Undertaking
  | openWith (socket : Socket)
  | request (r : Request) (course : List Moment)
  /-- The requests that bring a queue up are all different, and so is the one that unbinds it. Each
  has a course. -/
  | bringUp (courses : Request → List Moment)
  | close

def undertake (b : Binding) : Undertaking → List Mark × Outcome Unit × Binding
  | .openWith socket => ([.opened], .ok (), b.openWith socket)
  | .request r course =>
      let (h, b) := b.attempt r course
      (r.marks h, h.answer r.label, b)
  | .bringUp courses => b.establish courses
  | .close => ([.closed], .ok (), b.close)

def conduct (b : Binding) : List Undertaking → List Mark × Binding
  | [] => ([], b)
  | u :: undertakings =>
      let (marks, _, b) := b.undertake u
      let (later, b) := conduct b undertakings
      (marks ++ later, b)

theorem perform_eq_attempt (b : Binding) (r : Request) :
    b.perform r = ((b.attempt r Channel.undisturbed).1.answer r.label,
      (b.attempt r Channel.undisturbed).2) := by
  unfold perform attempt
  rw [Links.query_eq_pursue]
  rcases b.links.pursue (r.draft b.settings) Channel.undisturbed with ⟨h, links⟩
  cases h with
  | unsent | awaiting seq => rfl
  | ended seq? result => cases result <;> rfl

/-- The plain operations are undertakings in which nothing disturbs the requests. -/
theorem performAll_eq_attemptAll (b : Binding) (requests : List Request) :
    b.performAll requests = (b.attemptAll (fun _ => Channel.undisturbed) requests).2 := by
  induction requests generalizing b with
  | nil => rfl
  | cons r requests ih =>
      rw [performAll, attemptAll, perform_eq_attempt]
      rcases b.attempt r Channel.undisturbed with ⟨h, b'⟩
      dsimp only
      cases h.answer r.label with
      | ok u => exact ih b'
      | error e | pending => rfl

theorem unwind_eq_withdraw (b : Binding) (cause : Error) :
    b.unwind cause = (b.withdraw (fun _ => Channel.undisturbed) cause).2 := by
  unfold unwind withdraw
  by_cases hbound : b.stage.isBound = true
  · rw [if_pos hbound, if_pos hbound, perform_eq_attempt]
    rcases b.attempt .unbind Channel.undisturbed with ⟨h, b'⟩
    dsimp only [Headway.answer]
    cases h.outcome <;> rfl
  · rw [if_neg hbound, if_neg hbound]

theorem bringUp_eq_establish (b : Binding) :
    b.bringUp = (b.establish fun _ => Channel.undisturbed).2 := by
  rw [bringUp, establish, performAll_eq_attemptAll]
  rcases b.attemptAll (fun _ => Channel.undisturbed) (Request.bringUp b.settings) with
    ⟨marks, outcome, b'⟩
  cases outcome with
  | error cause => exact b'.unwind_eq_withdraw cause
  | ok u | pending => rfl

section

variable {R : List Mark → Binding → Prop} {history : List Mark} {b : Binding}
  (hattempt : ∀ {history : List Mark} {b : Binding}, R history b → ∀ r course,
    R (history ++ Request.marks r (b.attempt r course).1) (b.attempt r course).2)
  (hclose : ∀ {history : List Mark} {b : Binding}, R history b → R (history ++ [.closed]) b.close)

include hattempt

theorem attemptAll_keeps (h : R history b) (courses : Request → List Moment)
    (requests : List Request) :
    R (history ++ (b.attemptAll courses requests).1) (b.attemptAll courses requests).2.2 := by
  induction requests generalizing history b with
  | nil => simpa [attemptAll] using h
  | cons r requests ih =>
      have hfirst := hattempt h r (courses r)
      rw [attemptAll]
      generalize b.attempt r (courses r) = attempted at hfirst ⊢
      obtain ⟨h', b'⟩ := attempted
      dsimp only at hfirst ⊢
      cases h'.answer r.label with
      | ok u =>
          have hlater := ih hfirst
          rwa [List.append_assoc] at hlater
      | error e | pending => exact hfirst

include hclose

theorem withdraw_keeps (h : R history b) (courses : Request → List Moment) (cause : Error) :
    R (history ++ (b.withdraw courses cause).1) (b.withdraw courses cause).2.2 := by
  unfold withdraw
  by_cases hbound : b.stage.isBound = true
  · have hfirst := hattempt h .unbind (courses .unbind)
    rw [if_pos hbound]
    generalize b.attempt .unbind (courses .unbind) = attempted at hfirst ⊢
    obtain ⟨h', b'⟩ := attempted
    dsimp only at hfirst ⊢
    have hclosed := hclose hfirst
    rw [List.append_assoc] at hclosed
    cases h'.outcome with
    | pending => exact hfirst
    | ok u | error e => exact hclosed
  · rw [if_neg hbound]
    exact hclose h

theorem establish_keeps (h : R history b) (courses : Request → List Moment) :
    R (history ++ (b.establish courses).1) (b.establish courses).2.2 := by
  have hall := attemptAll_keeps hattempt h courses (Request.bringUp b.settings)
  rw [establish]
  generalize b.attemptAll courses (Request.bringUp b.settings) = attempted at hall ⊢
  obtain ⟨marks, outcome, b'⟩ := attempted
  cases outcome with
  | ok u | pending => exact hall
  | error cause =>
      have hundone := withdraw_keeps hattempt hclose hall courses cause
      rwa [List.append_assoc] at hundone

variable (hopen : ∀ {history : List Mark} {b : Binding}, R history b → ∀ socket,
  R (history ++ [.opened]) (b.openWith socket))

include hopen

theorem undertake_keeps (h : R history b) (u : Undertaking) :
    R (history ++ (b.undertake u).1) (b.undertake u).2.2 := by
  cases u with
  | openWith socket => exact hopen h socket
  | request r course => exact hattempt h r course
  | bringUp courses => exact establish_keeps hattempt hclose h courses
  | close => exact hclose h

theorem conduct_keeps (h : R history b) (undertakings : List Undertaking) :
    R (history ++ (b.conduct undertakings).1) (b.conduct undertakings).2 := by
  induction undertakings generalizing history b with
  | nil => simpa [conduct] using h
  | cons u undertakings ih =>
      have hlater := ih (undertake_keeps hattempt hclose hopen h u)
      rwa [List.append_assoc] at hlater

end

theorem record_withLinks (b : Binding) (links : Links) : record { b with links } = b.record := rfl

theorem note_withLinks (b : Binding) (links : Links) (m : Mark) :
    note { b with links } m = { b.note m with links } := by
  cases m with
  | opened | closed => rfl
  | acknowledged r => exact b.acknowledged_withLinks links r

theorem links_note (b : Binding) (m : Mark) : (b.note m).links = b.links := by
  have h := congrArg Binding.links (b.note_withLinks b.links m)
  exact h

theorem record_note (b : Binding) (m : Mark) : (b.note m).record = b.record.note m :=
  (b.note_withLinks {} m).symm

theorem record_foldl_note (b : Binding) (marks : List Mark) :
    (marks.foldl note b).record = marks.foldl note b.record := by
  induction marks generalizing b with
  | nil => rfl
  | cons m marks ih => rw [List.foldl_cons, ih, record_note, List.foldl_cons]

/-- The record of `b` is what the history has made of `initial`. -/
def Replays (initial : Binding) (history : List Mark) (b : Binding) : Prop :=
  b.record = history.foldl note initial

theorem Replays.append {initial b b' : Binding} {history marks : List Mark}
    (h : initial.Replays history b) (hmarks : b'.record = marks.foldl note b.record) :
    initial.Replays (history ++ marks) b' := by
  rw [Replays, List.foldl_append, ← h]
  exact hmarks

theorem record_attempt (b : Binding) (r : Request) (course : List Moment) :
    (b.attempt r course).2.record = (r.marks (b.attempt r course).1).foldl note b.record :=
  record_foldl_note _ _

/-- The record of a binding is what its marks make of it. -/
theorem record_conduct (b : Binding) (undertakings : List Undertaking) :
    (b.conduct undertakings).2.record = (b.conduct undertakings).1.foldl note b.record := by
  have hnil : b.record.Replays [] b := rfl
  exact conduct_keeps (fun h r course => h.append (record_attempt _ r course))
    (fun h => h.append rfl) (fun h socket => h.append rfl) hnil undertakings

theorem links_attempt (b : Binding) (r : Request) (course : List Moment) :
    (b.attempt r course).2.links = (b.links.pursue (r.draft b.settings) course).2 := by
  simp only [attempt, Request.marks]
  split_ifs
  · exact links_note { b with links := (b.links.pursue (r.draft b.settings) course).2 }
      (.acknowledged r)
  · rfl

theorem record_attempt_of_ok {b : Binding} {r : Request} {course : List Moment}
    (h : (b.attempt r course).1.answer r.label = .ok ()) :
    (b.attempt r course).2.record = b.record.acknowledged r := by
  have hack := (Headway.isAcknowledged_iff_answer r.label _).2 h
  rw [record_attempt, Request.marks, if_pos hack]
  rfl

theorem record_attempt_of_ne {b : Binding} {r : Request} {course : List Moment}
    (h : (b.attempt r course).1.answer r.label ≠ .ok ()) :
    (b.attempt r course).2.record = b.record := by
  have hnot : ¬ (b.attempt r course).1.isAcknowledged = true :=
    fun hack => h ((Headway.isAcknowledged_iff_answer r.label _).1 hack)
  rw [record_attempt, Request.marks, if_neg hnot]
  rfl

theorem bears_attempt (b : Binding) (r : Request) (course : List Moment) :
    b.links.Bears (r.draft b.settings) (b.attempt r course).1 (b.attempt r course).2.links := by
  rw [links_attempt]
  exact b.links.bears_pursue _ _

end Binding

end Netfilter.Queue
