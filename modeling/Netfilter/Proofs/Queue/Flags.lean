import Netfilter.Proofs.Queue.BringUp
import Netfilter.Proofs.Queue.Configured
import Netfilter.Proofs.Requests.Errand

/-!
# The flags of a queue, bit by bit

Flags are changed a few at a time: a change names the bits it selects and what
becomes of them. So each bit that is recorded is what the last acknowledged change
that selected it has made of it. To bring a queue up sets exactly the flags that
are recorded, which leaves them as they are, and no other request touches them.
-/

namespace Netfilter

/-- Bit `i` of the recorded flags. Flags that are absent are all zero. -/
def QueueSettings.flag (s : QueueSettings) (i : Nat) : Bool := (s.flags.getD 0).toNat.testBit i

namespace Queue

namespace Request

def flag? (i : Nat) : Request → Option Bool
  | setFlags mask flags => if mask.toNat.testBit i then some (flags.toNat.testBit i) else none
  | _ => none

/-- A request that changes flags, if it does, sets those that are recorded. -/
def Repeats (recorded : Option UInt32) (r : Request) : Prop :=
  ∀ mask flags, r = setFlags mask flags → mask = flags ∧ recorded = some flags

theorem repeats_of_mem_bringUp {s : QueueSettings} {r : Request} (hr : r ∈ bringUp s) :
    r.Repeats s.flags := by
  rintro mask flags rfl
  unfold bringUp at hr
  rcases List.mem_append.1 hr with hplain | hflags
  · simp at hplain
  · obtain ⟨f, hf, heq⟩ := Option.map_eq_some_iff.1 (Option.mem_toList.1 hflags)
    cases heq
    exact ⟨rfl, hf⟩

theorem setFlags_mem_plan {s : QueueSettings} {f : UInt32} (h : s.flags = some f) :
    .setFlags f f ∈ plan s := by
  simp [plan, h]

end Request

/-- Of the bits of `before`, those that `mask` selects become those of `flags`. -/
theorem testBit_replaced (before mask flags : UInt32) (i : Nat) :
    ((before &&& ~~~mask) ||| (flags &&& mask)).toNat.testBit i =
      if mask.toNat.testBit i then flags.toNat.testBit i else before.toNat.testBit i := by
  simp only [UInt32.toNat, UInt32.toBitVec_or, UInt32.toBitVec_and, UInt32.toBitVec_not,
    BitVec.testBit_toNat, BitVec.getLsbD_or, BitVec.getLsbD_and, BitVec.getLsbD_not]
  by_cases hi : i < 32
  · cases mask.toBitVec.getLsbD i <;> simp [hi]
  · have hout (x : BitVec 32) : x.getLsbD i = false := BitVec.getLsbD_of_ge x i (by omega)
    simp [hout]

theorem replaced_self (flags : UInt32) : (flags &&& ~~~flags) ||| (flags &&& flags) = flags := by
  apply UInt32.toNat_inj.1
  apply Nat.eq_of_testBit_eq
  intro i
  rw [testBit_replaced, ite_self]

namespace Binding

variable {b : Binding}

theorem flag_acknowledged (b : Binding) (r : Request) (i : Nat) :
    (b.acknowledged r).settings.flag i = (r.flag? i).getD (b.settings.flag i) := by
  cases r with
  | setFlags mask flags =>
      refine (testBit_replaced (b.settings.flags.getD 0) mask flags i).trans ?_
      by_cases hselected : mask.toNat.testBit i = true
      · simp only [Request.flag?, hselected, if_true, Option.getD_some]
      · simp only [Request.flag?, hselected, if_false, Bool.false_eq_true, Option.getD_none]
        rfl
  | setMode mode range => rw [acknowledged, QueueSettings.flag, settings_noteConfigured]; rfl
  | setMaxLength length => rw [acknowledged, QueueSettings.flag, settings_noteConfigured]; rfl
  | unbindFamily | bindFamily | bind number | unbind => rfl

theorem flags_acknowledged_of_repeats {r : Request} (h : r.Repeats b.settings.flags) :
    (b.acknowledged r).settings.flags = b.settings.flags := by
  cases r with
  | setFlags mask flags =>
      obtain ⟨rfl, hrecorded⟩ := h mask flags rfl
      simp only [acknowledged, hrecorded, Option.getD_some, replaced_self]
  | setMode mode range => rw [acknowledged, settings_noteConfigured]
  | setMaxLength length => rw [acknowledged, settings_noteConfigured]
  | unbindFamily | bindFamily | bind number | unbind => rfl

theorem settings_attempt_of_ok {r : Request} {course : List Moment}
    (h : (b.attempt r course).1.answer r.label = .ok ()) :
    (b.attempt r course).2.settings = (b.acknowledged r).settings := by
  have hrecord := (record_attempt_of_ok h).trans (b.record_note (.acknowledged r)).symm
  have hsettings := congrArg Binding.settings hrecord
  exact hsettings

theorem settings_attempt_of_ne {r : Request} {course : List Moment}
    (h : (b.attempt r course).1.answer r.label ≠ .ok ()) :
    (b.attempt r course).2.settings = b.settings := by
  have hsettings := congrArg Binding.settings (record_attempt_of_ne h)
  exact hsettings

theorem flags_attempt_of_repeats {r : Request} (h : r.Repeats b.settings.flags)
    (course : List Moment) : (b.attempt r course).2.settings.flags = b.settings.flags := by
  by_cases hok : (b.attempt r course).1.answer r.label = .ok ()
  · rw [settings_attempt_of_ok hok]
    exact flags_acknowledged_of_repeats h
  · rw [settings_attempt_of_ne hok]

theorem flags_attemptAll {requests : List Request}
    (h : ∀ r ∈ requests, r.Repeats b.settings.flags) (courses : Request → List Moment) :
    (b.attemptAll courses requests).2.2.settings.flags = b.settings.flags := by
  induction requests generalizing b with
  | nil => rfl
  | cons r requests ih =>
      have hfirst := flags_attempt_of_repeats (h r List.mem_cons_self) (courses r)
      rw [attemptAll]
      generalize b.attempt r (courses r) = attempted at hfirst ⊢
      obtain ⟨headway, b'⟩ := attempted
      dsimp only at hfirst ⊢
      cases headway.answer r.label with
      | ok u =>
          refine (ih fun r' hr' => ?_).trans hfirst
          rw [hfirst]
          exact h r' (List.mem_cons_of_mem r hr')
      | error e | pending => exact hfirst

theorem marks_attemptAll_of_ok {courses : Request → List Moment} {requests : List Request}
    (h : (b.attemptAll courses requests).2.1 = .ok ()) :
    (b.attemptAll courses requests).1 = requests.map .acknowledged := by
  induction requests generalizing b with
  | nil => rfl
  | cons r requests ih =>
      rw [attemptAll] at h ⊢
      generalize b.attempt r (courses r) = attempted at h ⊢
      obtain ⟨headway, b'⟩ := attempted
      dsimp only at h ⊢
      cases hanswer : headway.answer r.label with
      | ok u =>
          rw [hanswer] at h
          have hack := (Headway.isAcknowledged_iff_answer r.label headway).2 hanswer
          dsimp only
          rw [ih h, Request.marks, if_pos hack]
          rfl
      | error e | pending =>
          rw [hanswer] at h
          cases h

theorem flags_withdraw (b : Binding) (courses : Request → List Moment) (cause : Error) :
    (b.withdraw courses cause).2.2.settings.flags = b.settings.flags := by
  unfold withdraw
  by_cases hbound : b.stage.isBound = true
  · have hunbind : Request.unbind.Repeats b.settings.flags := nofun
    have hfirst := flags_attempt_of_repeats hunbind (courses .unbind)
    rw [if_pos hbound]
    generalize b.attempt .unbind (courses .unbind) = attempted at hfirst ⊢
    obtain ⟨headway, b'⟩ := attempted
    dsimp only at hfirst ⊢
    cases headway.outcome <;> exact hfirst
  · rw [if_neg hbound]
    rfl

/-- However it ends, to bring a queue up leaves the recorded flags as they are. -/
theorem flags_establish (b : Binding) (courses : Request → List Moment) :
    (b.establish courses).2.2.settings.flags = b.settings.flags := by
  have hall := flags_attemptAll (b := b) (fun r hr => Request.repeats_of_mem_bringUp hr) courses
  rw [establish]
  generalize b.attemptAll courses (Request.bringUp b.settings) = attempted at hall ⊢
  obtain ⟨marks, outcome, b'⟩ := attempted
  cases outcome with
  | ok u | pending => exact hall
  | error cause => exact (b'.flags_withdraw courses cause).trans hall

theorem flags_bringUp (b : Binding) : b.bringUp.2.settings.flags = b.settings.flags := by
  rw [bringUp_eq_establish]
  exact b.flags_establish _

/-- If it succeeds, all its requests were acknowledged, also the one for the recorded flags. -/
theorem marks_establish_of_ok {courses : Request → List Moment}
    (h : (b.establish courses).2.1 = .ok ()) :
    (b.establish courses).1 = (Request.bringUp b.settings).map .acknowledged := by
  have hall : (b.attemptAll courses (Request.bringUp b.settings)).2.1 = .ok () →
      (b.attemptAll courses (Request.bringUp b.settings)).1 =
        (Request.bringUp b.settings).map .acknowledged := marks_attemptAll_of_ok
  rw [establish] at h ⊢
  generalize b.attemptAll courses (Request.bringUp b.settings) = attempted at h hall ⊢
  obtain ⟨marks, outcome, b'⟩ := attempted
  cases outcome with
  | ok u => exact hall rfl
  | pending => cases h
  | error cause =>
      dsimp only [withdraw] at h
      split_ifs at h
      split at h <;> cases h

def granted (b : Binding) : List Undertaking → List Request
  | [] => []
  | .request r course :: later =>
      (if (b.attempt r course).1.answer r.label = .ok () then [r] else [])
        ++ (b.attempt r course).2.granted later
  | u :: later => (b.undertake u).2.2.granted later

def lastFlag? (i : Nat) (requests : List Request) : Option Bool :=
  (requests.filterMap (Request.flag? i)).getLast?

theorem flag_attempt (b : Binding) (r : Request) (course : List Moment) (i : Nat) :
    (b.attempt r course).2.settings.flag i =
      (lastFlag? i (if (b.attempt r course).1.answer r.label = .ok () then [r] else [])).getD
        (b.settings.flag i) := by
  by_cases hok : (b.attempt r course).1.answer r.label = .ok ()
  · rw [settings_attempt_of_ok hok, flag_acknowledged, if_pos hok, lastFlag?, List.filterMap_cons]
    cases r.flag? i <;> rfl
  · rw [settings_attempt_of_ne hok, if_neg hok]
    rfl

theorem lastFlag?_append (i : Nat) (requests later : List Request) (initial : Bool) :
    (lastFlag? i (requests ++ later)).getD initial =
      (lastFlag? i later).getD ((lastFlag? i requests).getD initial) := by
  rw [lastFlag?, List.filterMap_append, List.getLast?_append]
  exact Option.getD_or

theorem flag_conduct (b : Binding) (undertakings : List Undertaking) (i : Nat) :
    (b.conduct undertakings).2.settings.flag i =
      (lastFlag? i (b.granted undertakings)).getD (b.settings.flag i) := by
  induction undertakings generalizing b with
  | nil => rfl
  | cons u later ih =>
      refine (ih (b.undertake u).2.2).trans ?_
      cases u with
      | request r course =>
          rw [granted, lastFlag?_append, ← flag_attempt]
          rfl
      | bringUp courses =>
          have hsame := congrArg (fun flags => (flags.getD 0).toNat.testBit i)
            (b.flags_establish courses)
          exact congrArg _ hsame
      | openWith socket | close => rfl

structure TracksFlags (b : Binding) (undertakings : List Undertaking) : Prop where
  /-- Each bit is as in the last acknowledged change that selected it, if there was one. -/
  flag : ∀ i, (b.conduct undertakings).2.settings.flag i =
    (lastFlag? i (b.granted undertakings)).getD (b.settings.flag i)
  /-- A request that is not acknowledged changes nothing. -/
  failed : ∀ r course, ((b.conduct undertakings).2.attempt r course).1.answer r.label ≠ .ok () →
    ((b.conduct undertakings).2.attempt r course).2.settings = (b.conduct undertakings).2.settings
  /-- A queue that is brought up has acknowledged a request to set the flags that are recorded, if
  there are any, and they are still recorded. -/
  broughtUp : ∀ courses, ((b.conduct undertakings).2.establish courses).2.1 = .ok () →
    ((b.conduct undertakings).2.establish courses).1 =
        (Request.plan (b.conduct undertakings).2.settings).map .acknowledged ∧
      ((b.conduct undertakings).2.establish courses).2.2.settings.flags =
        (b.conduct undertakings).2.settings.flags
  /-- The request for recorded flags is among those that bring the queue up, and the message in
  which it is sent bears them both as its mask and as its flags. -/
  said : ∀ f, (b.conduct undertakings).2.settings.flags = some f →
    .setFlags f f ∈ Request.plan (b.conduct undertakings).2.settings ∧ ∀ port seq,
      (Errand.queue (b.conduct undertakings).2.settings (.setFlags f f)).Says port seq
        (Request.datagram (b.conduct undertakings).2.settings port seq (.setFlags f f))
  /-- It is no different when the queue is brought up at once. -/
  atOnce : (b.conduct undertakings).2.bringUp.2.settings.flags =
    (b.conduct undertakings).2.settings.flags

/-- Whatever is undertaken with a binding, and however each request ends, the last acknowledged
change that selected a bit decides it. -/
theorem flags_last_change (b : Binding) (undertakings : List Undertaking) :
    b.TracksFlags undertakings := by
  refine ⟨b.flag_conduct undertakings, fun r course => settings_attempt_of_ne,
    fun courses hup => ⟨?_, flags_establish _ courses⟩,
    fun f hf => ⟨Request.setFlags_mem_plan hf, Errand.says_datagram (.queue _ (.setFlags f f))⟩,
    flags_bringUp _⟩
  rw [← Request.bringUp_eq_plan]
  exact marks_establish_of_ok hup

/-- Two changes overlap, and one between them is given up. -/
def overlapping : List Undertaking :=
  [.openWith { port := 7 }, .request (.setFlags 6 2) Channel.undisturbed,
    .request (.setFlags 15 0) [.look], .request (.setFlags 3 1) Channel.undisturbed]

example : ((conduct { settings := { flags := some 8 } } overlapping).2.settings.flags,
    (conduct { settings := {} } overlapping).2.settings.flags) = (some 9, some 1) := by cbv

end Binding

end Queue

end Netfilter
