import Mathlib
import Netfilter.Queue.Binding

/-!
# What the stage of a binding tells

No request asks how far a binding has come, and both settings together make it
configured wherever it stands. So the stage counts a queue as bound after a bind
or after the second of the settings, and no longer after any request about the
protocol family. Only if the requests come in their proper order does it tell
whether the queue is bound.
-/

namespace Netfilter.Queue

namespace Request

def isBind : Request → Bool
  | bind _ => true
  | _ => false

def isMode : Request → Bool
  | setMode _ _ => true
  | _ => false

def isLength : Request → Bool
  | setMaxLength _ => true
  | _ => false

def isFamily : Request → Bool
  | unbindFamily | bindFamily => true
  | _ => false

def isUnbind : Request → Bool
  | unbind => true
  | _ => false

end Request

inductive Mark
  | opened
  | closed
  | acknowledged (r : Request)
  deriving DecidableEq, Repr

namespace Mark

def acknowledges (kind : Request → Bool) : Mark → Bool
  | acknowledged r => kind r
  | _ => false

def binds : Mark → Bool := acknowledges Request.isBind

def setsMode : Mark → Bool := acknowledges Request.isMode

def setsLength : Mark → Bool := acknowledges Request.isLength

def isFamily : Mark → Bool := acknowledges Request.isFamily

def releases (m : Mark) : Bool := m = opened || m = closed || m.acknowledges Request.isUnbind

def resets (m : Mark) : Bool :=
  m = opened || m.acknowledges Request.isBind || m.acknowledges Request.isUnbind

def sets (m : Mark) : Bool := m.setsMode || m.setsLength

theorem only_of_sets {m : Mark} (h : m.sets = true) :
    m.binds = false ∧ m.releases = false ∧ m.isFamily = false ∧ m.resets = false := by
  cases m with
  | opened | closed => cases h
  | acknowledged r =>
      cases r with
      | setMode mode range => exact ⟨rfl, rfl, rfl, rfl⟩
      | setMaxLength maxLength => exact ⟨rfl, rfl, rfl, rfl⟩
      | unbindFamily | bindFamily | bind number | setFlags mask flags | unbind => cases h

end Mark

/-- Something happened about which `what` holds, given what happened before, and nothing happened
since that ends it. -/
def Since (what : List Mark → Mark → Prop) (ends : Mark → Bool) (history : List Mark) : Prop :=
  ∃ before m after, history = before ++ m :: after ∧ what before m ∧ ∀ m' ∈ after, ends m' = false

def BindStands : List Mark → Prop := Since (fun _ m => m.binds = true) Mark.releases

def ModeStands : List Mark → Prop := Since (fun _ m => m.setsMode = true) Mark.resets

def LengthStands : List Mark → Prop := Since (fun _ m => m.setsLength = true) Mark.resets

/-- A setting was made, and with it both stand. -/
def Completes (before : List Mark) (m : Mark) : Prop :=
  m.sets = true ∧ ModeStands (before ++ [m]) ∧ LengthStands (before ++ [m])

/-- A bind was acknowledged or the settings were completed, and after that there was no opening, no
closing, no unbind and no request about the protocol family. -/
def CountsAsBound : List Mark → Prop :=
  Since (fun before m => m.binds = true ∨ Completes before m) fun m => m.releases || m.isFamily

/-- Settings are made only while a bind stands, and requests about the protocol family only while
none does. -/
def Orderly (history : List Mark) : Prop :=
  ∀ before m after, history = before ++ m :: after →
    (m.sets = true → BindStands before) ∧ (m.isFamily = true → ¬ BindStands before)

theorem since_nil (what : List Mark → Mark → Prop) (ends : Mark → Bool) :
    ¬ Since what ends [] := by
  rintro ⟨before, m, after, hnil, -⟩
  cases before <;> cases hnil

theorem since_append_singleton (what : List Mark → Mark → Prop) (ends : Mark → Bool)
    (history : List Mark) (m : Mark) : Since what ends (history ++ [m]) ↔
      what history m ∨ ends m = false ∧ Since what ends history := by
  constructor
  · rintro ⟨before, m', after, heq, hwhat, hafter⟩
    rcases List.eq_nil_or_concat after with rfl | ⟨after', last, rfl⟩
    · obtain ⟨rfl, hm⟩ := List.append_inj' heq rfl
      cases hm
      exact .inl hwhat
    · rw [List.concat_eq_append, ← List.cons_append, ← List.append_assoc] at heq
      obtain ⟨rfl, hm⟩ := List.append_inj' heq rfl
      cases hm
      exact .inr ⟨hafter m (by simp), before, m', after', rfl, hwhat, fun x hx =>
        hafter x (by simp [hx])⟩
  · rintro (hwhat | ⟨hends, before, m', after, rfl, hwhat, hafter⟩)
    · exact ⟨history, m, [], rfl, hwhat, nofun⟩
    · refine ⟨before, m', after ++ [m], by simp, hwhat, fun x hx => ?_⟩
      rcases List.mem_append.1 hx with hx | hx
      · exact hafter x hx
      · rwa [List.mem_singleton.1 hx]

section

variable (history : List Mark) (m : Mark)

theorem bindStands_append_singleton : BindStands (history ++ [m]) ↔
    m.binds = true ∨ m.releases = false ∧ BindStands history :=
  since_append_singleton _ _ history m

theorem modeStands_append_singleton : ModeStands (history ++ [m]) ↔
    m.setsMode = true ∨ m.resets = false ∧ ModeStands history :=
  since_append_singleton _ _ history m

theorem lengthStands_append_singleton : LengthStands (history ++ [m]) ↔
    m.setsLength = true ∨ m.resets = false ∧ LengthStands history :=
  since_append_singleton _ _ history m

theorem countsAsBound_append_singleton : CountsAsBound (history ++ [m]) ↔
    (m.binds = true ∨ Completes history m) ∨
      (m.releases || m.isFamily) = false ∧ CountsAsBound history :=
  since_append_singleton _ _ history m

end

theorem orderly_append_singleton {history : List Mark} {m : Mark} :
    Orderly (history ++ [m]) ↔ Orderly history ∧
      (m.sets = true → BindStands history) ∧ (m.isFamily = true → ¬ BindStands history) := by
  constructor
  · intro h
    refine ⟨fun before m' after heq => ?_, h history m [] rfl⟩
    exact h before m' (after ++ [m]) (by rw [heq]; simp)
  · rintro ⟨h, hlast⟩ before m' after heq
    rcases List.eq_nil_or_concat after with rfl | ⟨after', last, rfl⟩
    · obtain ⟨rfl, hm⟩ := List.append_inj' heq rfl
      cases hm
      exact hlast
    · rw [List.concat_eq_append, ← List.cons_append, ← List.append_assoc] at heq
      exact h before m' after' (List.append_inj' heq rfl).1

theorem BindStands.exists_binds {history : List Mark} (h : BindStands history) :
    ∃ m ∈ history, m.binds = true := by
  obtain ⟨before, m, after, rfl, hbinds, -⟩ := h
  exact ⟨m, List.mem_append_right before List.mem_cons_self, hbinds⟩

/-- In the proper order the settings are completed only while a bind stands, and nothing about the
protocol family happens then. -/
theorem Orderly.countsAsBound_iff {history : List Mark} (h : Orderly history) :
    CountsAsBound history ↔ BindStands history := by
  induction history using List.reverseRecOn with
  | nil => exact iff_of_false (since_nil _ _) (since_nil _ _)
  | append_singleton history m ih =>
      obtain ⟨hbefore, hsetting, hfamily⟩ := orderly_append_singleton.1 h
      rw [countsAsBound_append_singleton, bindStands_append_singleton, ih hbefore]
      by_cases hset : m.sets = true
      · obtain ⟨hbinds, hreleases, hfam, -⟩ := Mark.only_of_sets hset
        have hstands : BindStands history := hsetting hset
        simp [hbinds, hreleases, hfam, hstands]
      · have hincomplete : ¬ Completes history m := fun hc => hset hc.1
        by_cases hfam : m.isFamily = true
        · have hnone : ¬ BindStands history := hfamily hfam
          simp [hincomplete, hnone]
        · simp [hincomplete, hfam]

/-- Once a bind stands, settings may be made in any order. -/
theorem Orderly.append {history : List Mark} {later : List Request} (h : Orderly history)
    (hstands : BindStands history)
    (hlater : ∀ r ∈ later, r.isUnbind = false ∧ r.isFamily = false) :
    Orderly (history ++ later.map .acknowledged) ∧
      BindStands (history ++ later.map .acknowledged) := by
  induction later using List.reverseRecOn with
  | nil => simpa using ⟨h, hstands⟩
  | append_singleton later r ih =>
      obtain ⟨horderly, hstill⟩ := ih fun r' hr' => hlater r' (List.mem_append_left [r] hr')
      obtain ⟨hunbind, hfamily⟩ := hlater r (by simp)
      rw [List.map_append, ← List.append_assoc, List.map_singleton, orderly_append_singleton,
        bindStands_append_singleton]
      refine ⟨⟨horderly, fun _ => hstill, fun hm => ?_⟩, .inr ⟨hunbind, hstill⟩⟩
      have hm' : r.isFamily = true := hm
      rw [hfamily] at hm'
      cases hm'

/-- The requests that bring a queue up are in their proper order. -/
theorem orderly_bringUp (s : QueueSettings) :
    Orderly (.opened :: (Request.bringUp s).map .acknowledged) := by
  let front : List Mark := [.opened, .acknowledged .unbindFamily, .acknowledged .bindFamily]
  have hnone : ∀ m ∈ front, m.binds = false := by decide
  have hfront : Orderly front := by
    intro before m after heq
    have hbefore : ¬ BindStands before := by
      intro hstands
      obtain ⟨m', hm', hbinds⟩ := hstands.exists_binds
      rw [hnone m' (by rw [heq]; exact List.mem_append_left _ hm')] at hbinds
      cases hbinds
    have hunset : ∀ m ∈ front, ¬ m.sets = true := by decide
    exact ⟨fun hset => absurd hset (hunset m (by rw [heq]; simp)), fun _ => hbefore⟩
  have hbound : Orderly (front ++ [.acknowledged (.bind s.number)]) :=
    orderly_append_singleton.2 ⟨hfront, nofun, nofun⟩
  have hstands : BindStands (front ++ [.acknowledged (.bind s.number)]) :=
    (bindStands_append_singleton _ _).2 (.inl rfl)
  have hlater : ∀ r ∈ (Request.bringUp s).drop 3, r.isUnbind = false ∧ r.isFamily = false := by
    cases hflags : s.flags <;>
      simp [Request.bringUp, hflags, Request.isUnbind, Request.isFamily]
  exact (hbound.append hstands hlater).1

namespace Binding

structure Tracks (history : List Mark) (b : Binding) : Prop where
  bound : b.stage.isBound = true ↔ CountsAsBound history
  mode : b.modeSet = true ↔ ModeStands history
  length : b.lengthSet = true ↔ LengthStands history

variable {history : List Mark} {b : Binding}

theorem tracks_nil (settings : QueueSettings) : Tracks [] { settings } where
  bound := iff_of_false nofun (since_nil _ _)
  mode := iff_of_false nofun (since_nil _ _)
  length := iff_of_false nofun (since_nil _ _)

/-- Whatever is done about a binding that leaves its record alone, the history still holds. -/
theorem Tracks.of_same {b' : Binding} (h : Tracks history b) (hstage : b'.stage = b.stage)
    (hmode : b'.modeSet = b.modeSet) (hlength : b'.lengthSet = b.lengthSet) :
    Tracks history b' where
  bound := by rw [hstage, h.bound]
  mode := by rw [hmode, h.mode]
  length := by rw [hlength, h.length]

/-- A mark that makes no setting. The stage is what the mark makes it, or stays as it is, and the
settings are dropped, or stay as they are. -/
theorem Tracks.plain {b' : Binding} (h : Tracks history b) {m : Mark} (hset : m.sets = false)
    (hstage : b'.stage.isBound = (m.binds || !(m.releases || m.isFamily) && b.stage.isBound))
    (hmode : b'.modeSet = (!m.resets && b.modeSet))
    (hlength : b'.lengthSet = (!m.resets && b.lengthSet)) : Tracks (history ++ [m]) b' := by
  obtain ⟨hunsetMode, hunsetLength⟩ : m.setsMode = false ∧ m.setsLength = false := by
    simpa [Mark.sets] using hset
  have hincomplete : ¬ Completes history m := by
    rintro ⟨hsets, -⟩
    rw [hset] at hsets
    cases hsets
  refine ⟨?_, ?_, ?_⟩
  · rw [countsAsBound_append_singleton, hstage, ← h.bound]
    simp [hincomplete]
  · rw [modeStands_append_singleton, hmode, ← h.mode]
    simp [hunsetMode]
  · rw [lengthStands_append_singleton, hlength, ← h.length]
    simp [hunsetLength]

/-- A mark that makes a setting. The stage is bound if both settings stand now, or stays as it is. -/
theorem Tracks.setting {b' : Binding} (h : Tracks history b) {m : Mark} (hset : m.sets = true)
    (hmode : b'.modeSet = (m.setsMode || b.modeSet))
    (hlength : b'.lengthSet = (m.setsLength || b.lengthSet))
    (hstage : b'.stage.isBound = (b'.modeSet && b'.lengthSet || b.stage.isBound)) :
    Tracks (history ++ [m]) b' := by
  obtain ⟨hbinds, hreleases, hfamily, hresets⟩ := Mark.only_of_sets hset
  have hmodeStands : b'.modeSet = true ↔ ModeStands (history ++ [m]) := by
    rw [modeStands_append_singleton, hmode, ← h.mode]
    simp [hresets]
  have hlengthStands : b'.lengthSet = true ↔ LengthStands (history ++ [m]) := by
    rw [lengthStands_append_singleton, hlength, ← h.length]
    simp [hresets]
  refine ⟨?_, hmodeStands, hlengthStands⟩
  rw [countsAsBound_append_singleton, Completes, ← hmodeStands, ← hlengthStands, hstage, ← h.bound]
  simp [hset, hbinds, hreleases, hfamily]

theorem Tracks.openWith (h : Tracks history b) (socket : Socket) :
    Tracks (history ++ [.opened]) (b.openWith socket) :=
  h.plain rfl rfl rfl rfl

theorem Tracks.close (h : Tracks history b) : Tracks (history ++ [.closed]) b.close :=
  h.plain rfl rfl rfl rfl

theorem isBound_noteConfigured (b : Binding) : b.noteConfigured.stage.isBound =
    (b.modeSet && b.lengthSet || b.stage.isBound) := by
  unfold noteConfigured
  by_cases hboth : (b.modeSet && b.lengthSet) = true
  · rw [if_pos hboth, hboth]
    rfl
  · rw [if_neg hboth, eq_false_of_ne_true hboth, Bool.false_or]

theorem modeSet_noteConfigured (b : Binding) : b.noteConfigured.modeSet = b.modeSet := by
  unfold noteConfigured
  split_ifs <;> rfl

theorem lengthSet_noteConfigured (b : Binding) : b.noteConfigured.lengthSet = b.lengthSet := by
  unfold noteConfigured
  split_ifs <;> rfl

theorem Tracks.noteConfigured {b' : Binding} (h : Tracks history b) {m : Mark}
    (hset : m.sets = true) (hmode : b'.modeSet = (m.setsMode || b.modeSet))
    (hlength : b'.lengthSet = (m.setsLength || b.lengthSet)) (hstage : b'.stage = b.stage) :
    Tracks (history ++ [m]) b'.noteConfigured := by
  refine h.setting hset ?_ ?_ ?_
  · rw [modeSet_noteConfigured, hmode]
  · rw [lengthSet_noteConfigured, hlength]
  · rw [isBound_noteConfigured, modeSet_noteConfigured, lengthSet_noteConfigured, hstage]

theorem Tracks.acknowledged (h : Tracks history b) (r : Request) :
    Tracks (history ++ [.acknowledged r]) (b.acknowledged r) := by
  cases r with
  | setMode mode range => exact h.noteConfigured rfl rfl rfl rfl
  | setMaxLength maxLength => exact h.noteConfigured rfl rfl rfl rfl
  | unbindFamily | bindFamily | bind number | setFlags mask flags | unbind =>
      exact h.plain rfl rfl rfl rfl

inductive Control
  | openWith (socket : Socket)
  | request (r : Request)
  | close
  /-- The channels change: something arrives, other calls use them, or they are closed. -/
  | meanwhile (channels : List Channel)
  deriving Repr

/-- One control, and the mark it leaves. A request that is not acknowledged leaves none. -/
def control (b : Binding) : Control → List Mark × Binding
  | .openWith socket => ([.opened], b.openWith socket)
  | .request r =>
      match b.perform r with
      | (.ok (), b) => ([.acknowledged r], b)
      | (_, b) => ([], b)
  | .close => ([.closed], b.close)
  | .meanwhile channels => ([], { b with links := { b.links with channels } })

def follow (b : Binding) : List Control → List Mark × Binding
  | [] => ([], b)
  | c :: controls =>
      let (marks, b) := b.control c
      let (later, b) := follow b controls
      (marks ++ later, b)

/-- A request leaves the record as it is, or it is acknowledged and recorded. -/
theorem control_request_cases (b : Binding) (r : Request) : ∃ links,
    b.control (.request r) = ([], { b with links }) ∨
      b.control (.request r) = ([.acknowledged r], Binding.acknowledged { b with links } r) := by
  rcases hquery : b.links.query (r.draft b.settings) with ⟨outcome, links⟩
  refine ⟨links, ?_⟩
  cases outcome with
  | ok => exact .inr (by simp only [control, perform, hquery])
  | error e => exact .inl (by simp only [control, perform, hquery])
  | pending => exact .inl (by simp only [control, perform, hquery])

theorem Tracks.control (h : Tracks history b) (c : Control) :
    Tracks (history ++ (b.control c).1) (b.control c).2 := by
  cases c with
  | openWith socket => exact h.openWith socket
  | close => exact h.close
  | meanwhile channels =>
      rw [Binding.control, List.append_nil]
      exact h.of_same rfl rfl rfl
  | request r =>
      obtain ⟨links, hsame | hrecorded⟩ := b.control_request_cases r
      · rw [hsame, List.append_nil]
        exact h.of_same rfl rfl rfl
      · have hlinked : Tracks history { b with links } := h.of_same rfl rfl rfl
        rw [hrecorded]
        exact hlinked.acknowledged r

theorem Tracks.follow (h : Tracks history b) (controls : List Control) :
    Tracks (history ++ (b.follow controls).1) (b.follow controls).2 := by
  induction controls generalizing history b with
  | nil => simpa [Binding.follow] using h
  | cons c controls ih =>
      have hlater := ih (h.control c)
      rwa [List.append_assoc] at hlater

structure Telling (history : List Mark) (stage : Stage) : Prop where
  exact : stage.isBound = true ↔ CountsAsBound history
  orderly : Orderly history → (stage.isBound = true ↔ BindStands history)

theorem follow_telling (settings : QueueSettings) (controls : List Control) :
    Telling (follow { settings } controls).1 (follow { settings } controls).2.stage := by
  have htracks := (tracks_nil settings).follow controls
  rw [List.nil_append] at htracks
  exact ⟨htracks.bound, fun horderly => htracks.bound.trans horderly.countsAsBound_iff⟩

def settingsOnly : List Control :=
  [.openWith { port := 4242 }, .request (.setMaxLength 10), .request (.setMode .nothing 0)]

/-- The protocol family is unbound again while a queue is bound. -/
def familyAgain : List Control :=
  [.openWith { port := 4242 }, .request .unbindFamily, .request .bindFamily, .request (.bind 2),
    .request .unbindFamily]

/-- Out of order, the stage tells of a bind that never was, and does not tell of one that stands. -/
theorem stage_not_always_telling :
    ((follow { settings := {} } settingsOnly).2.stage.isBound = true ∧
      ¬ BindStands (follow { settings := {} } settingsOnly).1) ∧
    (follow { settings := {} } familyAgain).2.stage.isBound = false ∧
      BindStands (follow { settings := {} } familyAgain).1 := by
  have hsettings : (follow { settings := {} } settingsOnly).1 =
      [.opened, .acknowledged (.setMaxLength 10), .acknowledged (.setMode .nothing 0)] := by cbv
  have hfamily : (follow { settings := {} } familyAgain).1 = [.opened, .acknowledged .unbindFamily,
      .acknowledged .bindFamily, .acknowledged (.bind 2), .acknowledged .unbindFamily] := by cbv
  refine ⟨⟨by cbv, ?_⟩, by cbv, ?_⟩
  · intro hstands
    obtain ⟨m, hm, hbinds⟩ := hstands.exists_binds
    have hnone : ∀ m ∈ (follow { settings := {} } settingsOnly).1, m.binds = false := by
      rw [hsettings]
      decide
    rw [hnone m hm] at hbinds
    cases hbinds
  · rw [hfamily]
    exact ⟨[.opened, .acknowledged .unbindFamily, .acknowledged .bindFamily], .acknowledged (.bind 2),
      [.acknowledged .unbindFamily], rfl, rfl, by decide⟩

end Binding

end Netfilter.Queue
