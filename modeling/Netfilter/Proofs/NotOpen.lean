import Mathlib.Tactic.SplitIfs
import Netfilter.Log.Feed
import Netfilter.Queue.Session

/-!
# Handles that are not open

A handle that was never opened, or that was closed, has no channel in use. Every
request is refused then, before anything is sent or recorded, and so is whatever
takes a handle over. An operation on all groups of a list makes one request for
each group, and looks for the channel with each request. So an operation on no
groups at all succeeds without a channel, and what it sets is recorded.
-/

namespace Netfilter

namespace Links

variable {l : Links}

theorem openNumber?_of_not_isOpen (h : l.isOpen = false) : l.openNumber? = none := by
  obtain ⟨channels, current⟩ := l
  cases current with
  | none => rfl
  | some i =>
      have hnone : channels[i]?.any (·.isOpen) = false := h
      simp [openNumber?, hnone]

theorem query_of_not_isOpen (h : l.isOpen = false) (d : Draft) :
    l.query d = (.error .notOpen, l) := by
  rw [query, openNumber?_of_not_isOpen h]

theorem isOpen_close (l : Links) : l.close.isOpen = false := by
  obtain ⟨channels, current⟩ := l
  cases current with
  | none => rfl
  | some i => rfl

end Links

namespace Queue

namespace Binding

variable {b : Binding}

theorem isOpen_close (b : Binding) : b.close.isOpen = false := b.links.isOpen_close

theorem perform_of_not_isOpen (h : b.isOpen = false) (r : Request) :
    b.perform r = (.error .notOpen, b) := by
  rw [perform, Links.query_of_not_isOpen h]
  rfl

theorem bringUp_of_not_isOpen (h : b.isOpen = false) : b.bringUp = (.error .notOpen, b.close) := by
  have hall : b.performAll (Request.bringUp b.settings) = (.error .notOpen, b) := by
    simp only [Request.bringUp, List.cons_append, performAll, perform_of_not_isOpen h]
  have hunwind : b.unwind .notOpen = (.error .notOpen, b.close) := by
    unfold unwind
    split_ifs with hbound
    · -- the unbind is refused like the first request
      rw [perform_of_not_isOpen h]
    · rfl
  rw [bringUp, hall]
  exact hunwind

end Binding

namespace Session

variable {s : Session}

theorem verdictHandle?_of_not_isOpen (hholder : s.holder = .binding) (hnone : s.receiver = none)
    (h : s.binding.isOpen = false) : s.verdictHandle? = some (.error .notOpen) := by
  have hnumber : s.links.openNumber? = none := Links.openNumber?_of_not_isOpen h
  simp only [verdictHandle?, hholder, hnone, hnumber]

end Session

structure Refuses (s : Session) : Prop where
  request : ∀ r, s.binding.perform r = (.error .notOpen, s.binding)
  bringUp : s.binding.bringUp = (.error .notOpen, s.binding.close)
  verdictHandle : s.takeHandle = (some (.error .notOpen), s)
  start : ∀ plan, (s.start plan).1 = some (.error .notOpen) ∧
    (s.start plan).2.binding.settings = s.binding.settings

theorem refuses_of_not_isOpen {s : Session} (hholder : s.holder = .binding)
    (hnone : s.receiver = none) (h : s.binding.isOpen = false) : Refuses s := by
  have hhandle := Session.verdictHandle?_of_not_isOpen hholder hnone h
  refine ⟨Binding.perform_of_not_isOpen h, Binding.bringUp_of_not_isOpen h, ?_, fun plan => ?_⟩
  · rw [Session.takeHandle, hhandle]
  · rw [Session.start, hhandle]
    exact ⟨rfl, rfl⟩

end Queue

namespace Log

inductive Control
  | perform (op : GroupOperation)
  | bringUp
  | close
  deriving Repr

/-- Whether a control makes a request, and which settings it records if it makes none. -/
def Control.asks (groups : List UInt16) : Control → Bool
  | perform op => !(op.requests groups).isEmpty
  | bringUp => true
  | close => false

namespace Control

def refusal (groups : List UInt16) (c : Control) : Outcome Unit :=
  if c.asks groups then .error .notOpen else .ok ()

def recorded (s : LogSettings) : Control → LogSettings
  | perform op => if (op.requests s.groups).isEmpty then op.acknowledged s else s
  | bringUp | close => s

theorem groups_recorded (s : LogSettings) (c : Control) : (c.recorded s).groups = s.groups := by
  cases c with
  | bringUp | close => rfl
  | perform op =>
      simp only [recorded]
      split_ifs
      · cases op with
        | setAll tunable => cases tunable <;> rfl
        | unbindFamily | bindFamily | bindAll | unbindAll => rfl
      · rfl

theorem asks_perform {groups : List UInt16} (h : groups ≠ []) (op : GroupOperation) :
    (perform op).asks groups = true := by
  cases op <;> simp [asks, GroupOperation.requests, h]

theorem refusal_perform {groups : List UInt16} (h : groups ≠ []) (op : GroupOperation) :
    (perform op).refusal groups = .error .notOpen := by
  rw [refusal, asks_perform h, if_pos rfl]

theorem recorded_of_groups {s : LogSettings} (h : s.groups ≠ []) (c : Control) :
    c.recorded s = s := by
  cases c with
  | bringUp | close => rfl
  | perform op =>
      have hrequests : (op.requests s.groups).isEmpty = false := by
        simpa [asks] using asks_perform h op
      rw [recorded, hrequests]
      rfl

end Control

namespace Group

variable {g : Group}

def control (g : Group) : Control → Outcome Unit × Group
  | .perform op => g.perform op
  | .bringUp => g.bringUp
  | .close => (.ok (), g.close)

def follow (g : Group) : List Control → List (Outcome Unit) × Group
  | [] => ([], g)
  | c :: controls =>
      let (answer, g) := g.control c
      let (answers, g) := follow g controls
      (answer :: answers, g)

theorem isOpen_close (g : Group) : g.close.isOpen = false := g.links.isOpen_close

theorem request_of_not_isOpen (h : g.isOpen = false) (r : Request) :
    g.request r = (.error .notOpen, g) := by
  rw [request, Links.query_of_not_isOpen h]
  rfl

theorem perform_of_not_isOpen (h : g.isOpen = false) (op : GroupOperation) :
    g.perform op = ((Control.perform op).refusal g.settings.groups,
      { g with settings := (Control.perform op).recorded g.settings }) := by
  cases hrequests : op.requests g.settings.groups with
  | nil =>
      simp only [perform, hrequests, requestAll, Control.refusal, Control.asks, Control.recorded]
      rfl
  | cons r requests =>
      simp only [perform, hrequests, requestAll, request_of_not_isOpen h, Control.refusal,
        Control.asks, Control.recorded]
      rfl

theorem bringUp_of_not_isOpen (h : g.isOpen = false) : g.bringUp = (.error .notOpen, g.close) := by
  have hall : g.performAll (GroupOperation.bringUp g.settings) = (.error .notOpen, g) := by
    simp only [GroupOperation.bringUp, List.cons_append, performAll, perform_of_not_isOpen h]
    rfl
  rw [bringUp, hall]

theorem control_of_not_isOpen (h : g.isOpen = false) (c : Control) :
    ∃ g', g.control c = (c.refusal g.settings.groups, g') ∧ g'.isOpen = false ∧
      g'.settings = c.recorded g.settings := by
  cases c with
  | perform op => exact ⟨_, perform_of_not_isOpen h op, h, rfl⟩
  | bringUp => exact ⟨_, bringUp_of_not_isOpen h, g.isOpen_close, rfl⟩
  | close => exact ⟨_, rfl, g.isOpen_close, rfl⟩

/-- However a handle is used while it is not open, it refuses what makes a request, and it records
what makes none. -/
theorem follow_of_not_isOpen (h : g.isOpen = false) (controls : List Control) :
    (g.follow controls).1 = controls.map (Control.refusal g.settings.groups) ∧
      (g.follow controls).2.settings = controls.foldl Control.recorded g.settings := by
  induction controls generalizing g with
  | nil => exact ⟨rfl, rfl⟩
  | cons c controls ih =>
      obtain ⟨g', hcontrol, hclosed, hsettings⟩ := control_of_not_isOpen h c
      obtain ⟨hanswers, hafter⟩ := ih hclosed
      rw [hsettings, Control.groups_recorded] at hanswers
      rw [hsettings] at hafter
      simp only [follow, hcontrol, hanswers, hafter, List.map_cons, List.foldl_cons, and_self]

/-- A handle on one group or more refuses every operation while it is not open, and its settings
stay. -/
theorem follow_of_groups (h : g.isOpen = false) (hgroups : g.settings.groups ≠ [])
    (ops : List GroupOperation) :
    (∀ answer ∈ (g.follow (ops.map .perform)).1, answer = .error .notOpen) ∧
      (g.follow (ops.map .perform)).2.settings = g.settings := by
  obtain ⟨hanswers, hsettings⟩ := follow_of_not_isOpen h (ops.map .perform)
  rw [hanswers, hsettings]
  refine ⟨fun answer hmem => ?_, ?_⟩
  · obtain ⟨op, -, rfl⟩ : ∃ op ∈ ops, (Control.perform op).refusal g.settings.groups = answer := by
      simpa using hmem
    exact Control.refusal_perform hgroups op
  · generalize ops.map Control.perform = controls
    induction controls with
    | nil => rfl
    | cons c controls ih => rwa [List.foldl_cons, Control.recorded_of_groups hgroups]

/-- On no groups, an operation succeeds without a channel and is recorded. -/
theorem perform_not_always_refused :
    ¬ ∀ (settings : LogSettings) (op : GroupOperation),
      (perform { settings } op).1 = .error .notOpen ∧
        (perform { settings } op).2.settings = settings := by
  intro hrefused
  have hanswer : (perform { settings := {} } (.setAll (.timeout 5))).1 = .ok () := rfl
  rw [(hrefused {} (.setAll (.timeout 5))).1] at hanswer
  cases hanswer

end Group

/-- A handle on log groups that is not open refuses what makes a request, and records what makes
none; on one group or more, every operation makes one. -/
structure Refuses (s : Listener) : Prop where
  answers : ∀ controls, (s.group.follow controls).1 =
    controls.map (Control.refusal s.group.settings.groups)
  settings : ∀ controls, (s.group.follow controls).2.settings =
    controls.foldl Control.recorded s.group.settings
  operations : s.group.settings.groups ≠ [] → ∀ ops : List GroupOperation,
    (∀ answer ∈ (s.group.follow (ops.map .perform)).1, answer = .error .notOpen) ∧
      (s.group.follow (ops.map .perform)).2.settings = s.group.settings
  toFeed : s.toFeed = (.error .notOpen, s.drop)

theorem refuses_of_not_isOpen {s : Listener} (h : s.group.isOpen = false) : Refuses s := by
  have hnumber : s.links.openNumber? = none := Links.openNumber?_of_not_isOpen h
  refine ⟨fun controls => (Group.follow_of_not_isOpen h controls).1,
    fun controls => (Group.follow_of_not_isOpen h controls).2,
    fun hgroups => Group.follow_of_groups h hgroups, ?_⟩
  simp only [Listener.toFeed, hnumber]

end Log

/-- Handles refuse what makes a request before they are opened and after they are closed. -/
theorem refuses_before_and_after (b : Queue.Binding) (g : Log.Group) :
    (Queue.Refuses { binding := { settings := b.settings } } ∧
        Queue.Refuses { binding := b.close }) ∧
      Log.Refuses { group := { settings := g.settings } } ∧ Log.Refuses { group := g.close } :=
  ⟨⟨Queue.refuses_of_not_isOpen rfl rfl rfl, Queue.refuses_of_not_isOpen rfl rfl b.isOpen_close⟩,
    Log.refuses_of_not_isOpen rfl, Log.refuses_of_not_isOpen g.isOpen_close⟩

end Netfilter
