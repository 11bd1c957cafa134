import Netfilter.Proofs.Queue.Failure

/-!
# When a queue counts as configured

From an opening, a bind or an unbind on, the copy mode and the queue length count
as not set. A queue is configured when both have been set since, in any order and
with whatever failures between them. What is recorded of each is what was last
acknowledged.
-/

namespace Netfilter.Queue

namespace Request

def adjusts : Request → Bool
  | setMode _ _ | setMaxLength _ | setFlags _ _ => true
  | _ => false

def copy? : Request → Option (CopyMode × UInt32)
  | setMode mode range => some (mode, range)
  | _ => none

def length? : Request → Option UInt32
  | setMaxLength maxLength => some maxLength
  | _ => none

end Request

namespace Mark

def request? : Mark → Option Request
  | acknowledged r => some r
  | _ => none

/-- How far a binding has come with a mark, if the mark alone tells. -/
def stage? : Mark → Option Stage
  | opened => some .opened
  | closed => some .closed
  | acknowledged .unbindFamily => some .unbound
  | acknowledged .bindFamily => some .boundToFamily
  | acknowledged (.bind _) => some .queueBound
  | acknowledged .unbind => some .boundToFamily
  | acknowledged _ => none

end Mark

namespace Binding

/-- Binding `b'` is `b` after adjustments that left these marks, if neither setting counted as made
before. -/
structure Adjusted (b : Binding) (marks : List Mark) (b' : Binding) : Prop where
  configured : b'.stage = .configured ↔
    (∃ m ∈ marks, m.setsMode = true) ∧ ∃ m ∈ marks, m.setsLength = true
  stage : b'.stage ≠ .configured → b'.stage = b.stage
  copy : (b'.settings.copyMode, b'.settings.copyRange) =
    (marks.filterMap fun m => m.request?.bind Request.copy?).getLast?.getD
      (b.settings.copyMode, b.settings.copyRange)
  maxLength : b'.settings.maxLength =
    (marks.filterMap fun m => m.request?.bind Request.length?).getLast?.getD b.settings.maxLength
  /-- Nothing else changes but the flags. -/
  others : b'.settings = { b.settings with
    copyMode := b'.settings.copyMode
    copyRange := b'.settings.copyRange
    maxLength := b'.settings.maxLength
    flags := b'.settings.flags }

structure Remembers (b : Binding) (marks : List Mark) (b' : Binding) : Prop
    extends Adjusted b marks b' where
  mode : b'.modeSet = true ↔ ∃ m ∈ marks, m.setsMode = true
  length : b'.lengthSet = true ↔ ∃ m ∈ marks, m.setsLength = true

variable {b b' : Binding} {marks : List Mark}

theorem remembers_nil (hstage : b.stage ≠ .configured) (hmode : b.modeSet = false)
    (hlength : b.lengthSet = false) : b.Remembers [] b where
  configured := iff_of_false hstage (by simp)
  stage := fun _ => rfl
  copy := rfl
  maxLength := rfl
  others := rfl
  mode := by simp [hmode]
  length := by simp [hlength]

theorem stage_noteConfigured (b : Binding) :
    b.noteConfigured.stage = if b.modeSet && b.lengthSet then .configured else b.stage := by
  unfold noteConfigured
  split_ifs <;> rfl

theorem settings_noteConfigured (b : Binding) : b.noteConfigured.settings = b.settings := by
  unfold noteConfigured
  split_ifs <;> rfl

theorem exists_mem_append_singleton {p : Mark → Prop} (marks : List Mark) (m : Mark) :
    (∃ m' ∈ marks ++ [m], p m') ↔ (∃ m' ∈ marks, p m') ∨ p m := by
  simp [or_and_right, exists_or]

/-- An adjustment makes the binding configured if both settings have been made now. -/
theorem Remembers.adjusted (h : b.Remembers marks b') {r : Request} {b'' : Binding}
    (hmode : b''.modeSet = (r.isMode || b'.modeSet))
    (hlength : b''.lengthSet = (r.isLength || b'.lengthSet))
    (hstage : b''.stage = if b''.modeSet && b''.lengthSet then .configured else b'.stage)
    (hsettings : b''.settings = { b'.settings with
      copyMode := (r.copy?.getD (b'.settings.copyMode, b'.settings.copyRange)).1
      copyRange := (r.copy?.getD (b'.settings.copyMode, b'.settings.copyRange)).2
      maxLength := r.length?.getD b'.settings.maxLength
      flags := b''.settings.flags }) :
    b.Remembers (marks ++ [.acknowledged r]) b'' := by
  have hmode' : b''.modeSet = true ↔
      ∃ m ∈ marks ++ [Mark.acknowledged r], m.setsMode = true := by
    rw [exists_mem_append_singleton, ← h.mode, hmode, Bool.or_eq_true, or_comm]
    rfl
  have hlength' : b''.lengthSet = true ↔
      ∃ m ∈ marks ++ [Mark.acknowledged r], m.setsLength = true := by
    rw [exists_mem_append_singleton, ← h.length, hlength, Bool.or_eq_true, or_comm]
    rfl
  -- both settings were made before, or this request makes the one that was missing
  have hboth : b''.stage = .configured ↔ b''.modeSet = true ∧ b''.lengthSet = true := by
    rw [hstage]
    split_ifs with hset
    · exact iff_of_true rfl (Bool.and_eq_true_iff.1 hset)
    · refine iff_of_false (fun hconfigured => ?_) fun hb => hset (Bool.and_eq_true_iff.2 hb)
      obtain ⟨hm, hl⟩ := h.configured.1 hconfigured
      rw [hmode, hlength, h.mode.2 hm, h.length.2 hl] at hset
      simp at hset
  refine ⟨⟨?_, fun hne => ?_, ?_, ?_, ?_⟩, hmode', hlength'⟩
  · rw [hboth, hmode', hlength']
  · have hunset : ¬ (b''.modeSet && b''.lengthSet) = true :=
      fun hset => hne (hboth.2 (Bool.and_eq_true_iff.1 hset))
    rw [if_neg hunset] at hstage
    rw [hstage] at hne ⊢
    exact h.stage hne
  · rw [List.filterMap_append, List.getLast?_append, hsettings]
    have hcopy := h.copy
    cases hr : r.copy? with
    | none => simpa [Mark.request?, hr] using hcopy
    | some copy => simp [Mark.request?, hr]
  · rw [List.filterMap_append, List.getLast?_append, hsettings]
    have hmaxLength := h.maxLength
    cases hr : r.length? with
    | none => simpa [Mark.request?, hr] using hmaxLength
    | some maxLength => simp [Mark.request?, hr]
  · rw [hsettings, h.others]

theorem Remembers.noteConfigured (h : b.Remembers marks b') {r : Request} {set : Binding}
    (hmode : set.modeSet = (r.isMode || b'.modeSet))
    (hlength : set.lengthSet = (r.isLength || b'.lengthSet)) (hstage : set.stage = b'.stage)
    (hsettings : set.settings = { b'.settings with
      copyMode := (r.copy?.getD (b'.settings.copyMode, b'.settings.copyRange)).1
      copyRange := (r.copy?.getD (b'.settings.copyMode, b'.settings.copyRange)).2
      maxLength := r.length?.getD b'.settings.maxLength
      flags := set.settings.flags }) :
    b.Remembers (marks ++ [.acknowledged r]) set.noteConfigured := by
  refine h.adjusted ?_ ?_ ?_ ?_
  · rw [modeSet_noteConfigured, hmode]
  · rw [lengthSet_noteConfigured, hlength]
  · rw [stage_noteConfigured, modeSet_noteConfigured, lengthSet_noteConfigured, hstage]
  · rw [settings_noteConfigured, hsettings]

theorem Remembers.acknowledged (h : b.Remembers marks b') {r : Request} (hr : r.adjusts = true) :
    b.Remembers (marks ++ [.acknowledged r]) (b'.acknowledged r) := by
  cases r with
  | setMode mode range => exact h.noteConfigured rfl rfl rfl rfl
  | setMaxLength maxLength => exact h.noteConfigured rfl rfl rfl rfl
  | setFlags mask flags =>
      refine h.adjusted rfl rfl ?_ rfl
      change b'.stage = if b'.modeSet && b'.lengthSet then .configured else b'.stage
      split_ifs with hset
      · obtain ⟨hm, hl⟩ := Bool.and_eq_true_iff.1 hset
        exact h.configured.2 ⟨h.mode.1 hm, h.length.1 hl⟩
      · rfl
  | unbindFamily | bindFamily | bind number | unbind => cases hr

theorem Remembers.foldl_note (h : b.Remembers marks b') {done : List Request}
    (hdone : ∀ r ∈ done, r.adjusts = true) :
    b.Remembers (marks ++ done.map .acknowledged) ((done.map .acknowledged).foldl note b') := by
  induction done generalizing marks b' with
  | nil => simpa using h
  | cons r done ih =>
      have hlater := ih (h.acknowledged (hdone r List.mem_cons_self))
        fun r' hr' => hdone r' (List.mem_cons_of_mem r hr')
      rwa [List.append_assoc] at hlater

theorem note_of_resets (b : Binding) {m : Mark} (h : m.resets = true) :
    m.stage? = some (b.note m).stage ∧ (b.note m).stage ≠ .configured ∧
      (b.note m).modeSet = false ∧ (b.note m).lengthSet = false := by
  cases m with
  | opened => exact ⟨rfl, nofun, rfl, rfl⟩
  | closed => cases h
  | acknowledged r =>
      cases r with
      | bind number => exact ⟨rfl, nofun, rfl, rfl⟩
      | unbind => exact ⟨rfl, nofun, rfl, rfl⟩
      | unbindFamily | bindFamily | setMode mode range | setMaxLength maxLength
      | setFlags mask flags => cases h

/-- What is adjusted after a mark that resets the settings. -/
theorem adjusted_makeAll {initial : Binding} {before : List Mark} {m : Mark}
    (hrecord : b.record = (before ++ [m]).foldl note initial) (hresets : m.resets = true)
    {calls : List (Request × List Moment)} (hcalls : ∀ call ∈ calls, call.1.adjusts = true) :
    m.stage? = some b.stage ∧ b.Adjusted (b.makeAll calls).1 (b.makeAll calls).2 := by
  obtain ⟨done, hmarks, hsub, -⟩ := b.exists_acknowledged calls
  have hdone : ∀ r ∈ done, r.adjusts = true := by
    intro r hr
    obtain ⟨call, hcall, rfl⟩ := List.mem_map.1 (hsub.subset hr)
    exact hcalls call hcall
  rw [List.foldl_append] at hrecord
  have hreset := note_of_resets (before.foldl note initial) hresets
  change b.record = (before.foldl note initial).note m at hrecord
  rw [← hrecord] at hreset
  obtain ⟨hstage, hne, hmode, hlength⟩ := hreset
  have hadjusted := ((remembers_nil hne hmode hlength).foldl_note hdone).toAdjusted
  rw [List.nil_append, ← hmarks, ← record_makeAll] at hadjusted
  exact ⟨hstage, hadjusted.configured, hadjusted.stage, hadjusted.copy, hadjusted.maxLength,
    hadjusted.others⟩

def IsSure (b : Binding) : Prop :=
  b.stage = .configured → b.modeSet = true ∧ b.lengthSet = true

theorem IsSure.noteConfigured (h : b.IsSure) : b.noteConfigured.IsSure := by
  rw [IsSure, stage_noteConfigured, modeSet_noteConfigured, lengthSet_noteConfigured]
  split_ifs with hset
  · exact fun _ => Bool.and_eq_true_iff.1 hset
  · exact h

theorem IsSure.note (h : b.IsSure) (m : Mark) : (b.note m).IsSure := by
  cases m with
  | opened | closed => exact nofun
  | acknowledged r =>
      cases r with
      | setMode mode range =>
          let set := { b with
            settings := { b.settings with copyMode := mode, copyRange := range }
            modeSet := true }
          have hset : set.IsSure := fun hstage => ⟨rfl, (h hstage).2⟩
          exact hset.noteConfigured
      | setMaxLength maxLength =>
          let set := { b with settings := { b.settings with maxLength }, lengthSet := true }
          have hset : set.IsSure := fun hstage => ⟨(h hstage).1, rfl⟩
          exact hset.noteConfigured
      | setFlags mask flags => exact h
      | unbindFamily | bindFamily | bind number | unbind => exact nofun

theorem Tracks.note {history : List Mark} (h : Tracks history b) (m : Mark) :
    Tracks (history ++ [m]) (b.note m) := by
  cases m with
  | opened => exact (h.openWith { port := 0 }).of_same rfl rfl rfl
  | closed => exact h.close.of_same rfl rfl rfl
  | acknowledged r => exact h.acknowledged r

/-- A binding whose record is what its history makes of a new one. -/
theorem tracks_of_record {settings : QueueSettings} {history : List Mark}
    (hrecord : b.record = history.foldl note { settings }) : Tracks history b ∧ b.IsSure := by
  have hall (history : List Mark) : Tracks history (history.foldl note { settings }) ∧
      (history.foldl note { settings }).IsSure := by
    induction history using List.reverseRecOn with
    | nil => exact ⟨tracks_nil settings, nofun⟩
    | append_singleton history m ih =>
        rw [List.foldl_append]
        exact ⟨ih.1.note m, ih.2.note m⟩
  have h := hall history
  rw [← hrecord] at h
  exact ⟨h.1.of_same rfl rfl rfl, h.2⟩

structure NeedsBoth (history : List Mark) (b : Binding) : Prop where
  /-- It is configured only if both settings were made since the last opening, bind or unbind. -/
  stands : b.stage = .configured → ModeStands history ∧ LengthStands history
  /-- After an opening, a bind or an unbind, adjustments make it configured if both settings are
  among those that are acknowledged. -/
  adjusted : ∀ before m, history = before ++ [m] → m.resets = true →
    ∀ calls, (∀ call ∈ calls, call.1.adjusts = true) →
      m.stage? = some b.stage ∧ b.Adjusted (b.makeAll calls).1 (b.makeAll calls).2

/-- However a new handle on a queue is used, both settings must be acknowledged before it counts as
configured, and again after every opening, bind and unbind. -/
theorem configured_needs_both (settings : QueueSettings) (undertakings : List Undertaking) :
    NeedsBoth (conduct { settings } undertakings).1 (conduct { settings } undertakings).2 := by
  have hrecord := record_conduct { settings } undertakings
  obtain ⟨htracks, hsure⟩ := tracks_of_record hrecord
  refine ⟨fun hstage => ?_, fun before m hhistory hresets calls hcalls => ?_⟩
  · obtain ⟨hmode, hlength⟩ := hsure hstage
    exact ⟨htracks.mode.1 hmode, htracks.length.1 hlength⟩
  · rw [hhistory] at hrecord
    exact adjusted_makeAll hrecord hresets hcalls

/-- Both settings are made before the queue is bound. -/
def madeTooSoon : List Undertaking :=
  [.openWith { port := 7 }, .request (.setMode .packet 64) Channel.undisturbed,
    .request (.setMaxLength 5) Channel.undisturbed, .request (.bind 3) Channel.undisturbed]

/-- They are made again, and a request between them is given up. -/
def madeAgain : List (Request × List Moment) :=
  [(.setMaxLength 10, Channel.undisturbed), (.setMode .nothing 0, [.look]),
    (.setMode .packet 128, Channel.undisturbed)]

theorem configured_needs_both_madeAgain :
    let b := (conduct { settings := {} } madeTooSoon).2
    (conduct { settings := {} } madeTooSoon).1 =
        [.opened, .acknowledged (.setMode .packet 64), .acknowledged (.setMaxLength 5)] ++
          [.acknowledged (.bind 3)] ∧
      b.stage = .queueBound ∧ b.Adjusted (b.makeAll madeAgain).1 (b.makeAll madeAgain).2 ∧
      (b.makeAll madeAgain).2.stage = .configured := by
  have hmarks : (conduct { settings := {} } madeTooSoon).1 =
      [.opened, .acknowledged (.setMode .packet 64), .acknowledged (.setMaxLength 5)] ++
        [.acknowledged (.bind 3)] := by cbv
  obtain ⟨hstage, hadjusted⟩ := (configured_needs_both {} madeTooSoon).adjusted _ _ hmarks rfl
    madeAgain (by decide)
  exact ⟨hmarks, (Option.some.inj hstage).symm, hadjusted, by cbv⟩

end Binding

end Netfilter.Queue
