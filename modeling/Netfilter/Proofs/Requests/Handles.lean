import Netfilter.Log.Group
import Netfilter.Proofs.Requests.Letters

/-!
# Handles say what is asked of them

Whatever is done with a handle on a queue or on log groups, each of its requests
comes down to an act on its channels. So every datagram that one of its sockets
has taken is one message that says what was asked, and the numbers of these
messages increase.
-/

namespace Netfilter

def Queue.Request.number? : Queue.Request → Option UInt16
  | .bind number => some number
  | _ => none

namespace Queue.Binding

open Links (Act)

inductive Directive
  | openWith (socket : Socket)
  | request (r : Request)
  | bringUp
  | close
  | meanwhile (world : Channel) (taken : Nat)

def after (b : Binding) : Directive → Binding
  | .openWith socket => b.openWith socket
  | .request r => (b.perform r).2
  | .bringUp => b.bringUp.2
  | .close => b.close
  | .meanwhile world taken => { b with links := b.links.meanwhile world taken }

def run (b : Binding) (directives : List Directive) : Binding := directives.foldl after b

/-- The requests that are made of these: those up to the first that is not acknowledged. -/
def asked (b : Binding) : List Request → List Act
  | [] => []
  | r :: requests => .ask (.queue b.settings r) ::
      match b.perform r with
      | (.ok (), b) => b.asked requests
      | _ => []

def unwinding (b : Binding) : List Act :=
  if b.stage.isBound then
    .ask (.queue b.settings .unbind) ::
      match (b.perform .unbind).1 with
      | .pending => []
      | _ => [.close]
  else [.close]

def acts (b : Binding) : Directive → List Act
  | .openWith socket => [.openWith b.settings.socket socket]
  | .request r => b.asked [r]
  | .bringUp => b.asked (Request.bringUp b.settings) ++
      match b.performAll (Request.bringUp b.settings) with
      | (.error _, b) => b.unwinding
      | _ => []
  | .close => [.close]
  | .meanwhile world taken => [.meanwhile world taken]

/-- A request is acknowledged and recorded, or it leaves the record as it is. -/
theorem perform_cases (b : Binding) (r : Request) :
    ∃ links, (b.links.query (r.draft b.settings)).2 = links ∧
      (b.perform r = (.ok (), acknowledged { b with links } r) ∨
        ∃ outcome, outcome ≠ .ok () ∧ b.perform r = (outcome, { b with links })) := by
  unfold perform
  rcases b.links.query (r.draft b.settings) with ⟨outcome, links⟩
  refine ⟨links, rfl, ?_⟩
  cases outcome with
  | ok => exact .inl rfl
  | error e => exact .inr ⟨.error (e.during r.label), nofun, rfl⟩
  | pending => exact .inr ⟨.pending, nofun, rfl⟩

theorem links_perform (b : Binding) (r : Request) :
    (b.perform r).2.links = b.links.after (.ask (.queue b.settings r)) := by
  obtain ⟨links, hquery, hp | ⟨outcome, -, hp⟩⟩ := b.perform_cases r
  · rw [hp, links_acknowledged]
    exact hquery.symm
  · rw [hp]
    exact hquery.symm

theorem links_performAll (b : Binding) (requests : List Request) :
    (b.performAll requests).2.links = b.links.run (b.asked requests) := by
  induction requests generalizing b with
  | nil => rfl
  | cons r requests ih =>
      have hfirst := b.links_perform r
      rw [performAll, asked, Links.run, List.foldl_cons, ← hfirst]
      rcases b.perform r with ⟨outcome, b'⟩
      cases outcome with
      | ok => exact ih b'
      | error e => rfl
      | pending => rfl

theorem links_unwind (b : Binding) (cause : Error) :
    (b.unwind cause).2.links = b.links.run b.unwinding := by
  unfold unwind unwinding
  by_cases hbound : b.stage.isBound = true
  · have hunbind := b.links_perform .unbind
    rw [if_pos hbound, if_pos hbound, Links.run, List.foldl_cons, ← hunbind]
    rcases b.perform .unbind with ⟨outcome, b'⟩
    cases outcome <;> rfl
  · rw [if_neg hbound, if_neg hbound]
    rfl

theorem links_bringUp (b : Binding) : b.bringUp.2.links = b.links.run (b.acts .bringUp) := by
  have hall := b.links_performAll (Request.bringUp b.settings)
  rw [bringUp, acts, Links.run_append, ← hall]
  rcases b.performAll (Request.bringUp b.settings) with ⟨outcome, b'⟩
  cases outcome with
  | ok => rfl
  | error e => exact b'.links_unwind e
  | pending => rfl

theorem links_after (b : Binding) (d : Directive) :
    (b.after d).links = b.links.run (b.acts d) := by
  cases d with
  | openWith socket => rfl
  | request r =>
      have hone := b.links_perform r
      change (b.perform r).2.links = b.links.run (b.asked [r])
      rw [asked, Links.run, List.foldl_cons, ← hone]
      rcases b.perform r with ⟨outcome, b'⟩
      cases outcome <;> rfl
  | bringUp => exact b.links_bringUp
  | close => rfl
  | meanwhile world taken => rfl

theorem settings_acknowledged (b : Binding) (r : Request) :
    (b.acknowledged r).settings.family = b.settings.family ∧
      (b.acknowledged r).settings.number = r.number?.getD b.settings.number := by
  have hnote (b : Binding) : b.noteConfigured.settings = b.settings := by
    unfold noteConfigured
    split <;> rfl
  cases r with
  | setMode mode range => exact ⟨by rw [acknowledged, hnote], by rw [acknowledged, hnote]; rfl⟩
  | setMaxLength length => exact ⟨by rw [acknowledged, hnote], by rw [acknowledged, hnote]; rfl⟩
  | unbindFamily | bindFamily | bind number | setFlags mask flags | unbind => exact ⟨rfl, rfl⟩

/-- The number that a directive gives the handle: that of a bind that is acknowledged. -/
def number? (b : Binding) : Directive → Option UInt16
  | .request r =>
      match (b.perform r).1 with
      | .ok () => r.number?
      | _ => none
  | _ => none

theorem settings_perform (b : Binding) (r : Request) :
    (b.perform r).2.settings.family = b.settings.family ∧
      (b.perform r).2.settings.number = (b.number? (.request r)).getD b.settings.number := by
  obtain ⟨links, -, hp | ⟨outcome, hne, hp⟩⟩ := b.perform_cases r
  · simp only [number?, hp]
    exact settings_acknowledged { b with links } r
  · simp only [number?, hp]
    cases outcome with
    | ok => exact absurd rfl hne
    | error e | pending => exact ⟨trivial, rfl⟩

/-- Requests that bind at most the queue that the handle is for leave it at that. -/
theorem settings_performAll {b : Binding} {requests : List Request}
    (h : ∀ r ∈ requests, ∀ number ∈ r.number?, number = b.settings.number) :
    (b.performAll requests).2.settings.family = b.settings.family ∧
      (b.performAll requests).2.settings.number = b.settings.number ∧
      ∀ x, .ask x ∈ b.asked requests → ∃ settings r, x = .queue settings r ∧
        settings.family = b.settings.family ∧ settings.number = b.settings.number := by
  induction requests generalizing b with
  | nil => exact ⟨rfl, rfl, fun x hx => absurd hx List.not_mem_nil⟩
  | cons r requests ih =>
      have hfirst := h r List.mem_cons_self
      have hperform : (b.perform r).2.settings.family = b.settings.family ∧
          (b.perform r).2.settings.number = b.settings.number := by
        obtain ⟨hfamily, hnumber⟩ := b.settings_perform r
        refine ⟨hfamily, hnumber.trans ?_⟩
        simp only [number?]
        cases (b.perform r).1 with
        | ok =>
            cases hr : r.number? with
            | none => rfl
            | some number => exact hfirst number hr
        | error e => rfl
        | pending => rfl
      rw [performAll, asked]
      generalize b.perform r = performed at hperform ⊢
      obtain ⟨outcome, b'⟩ := performed
      obtain ⟨hfamily, hnumber⟩ := hperform
      have hhead : ∃ settings r', Errand.queue b.settings r = .queue settings r' ∧
          settings.family = b.settings.family ∧ settings.number = b.settings.number :=
        ⟨_, _, rfl, rfl, rfl⟩
      -- the requests that follow see other settings, but of the same queue and family
      cases outcome with
      | ok =>
          obtain ⟨hfamily', hnumber', hasked⟩ := ih (b := b') fun r hr number hn =>
            (h r (List.mem_cons_of_mem _ hr) number hn).trans hnumber.symm
          refine ⟨hfamily'.trans hfamily, hnumber'.trans hnumber, fun x hx => ?_⟩
          rcases List.mem_cons.1 hx with hx | hx
          · obtain rfl := Act.ask.inj hx
            exact hhead
          · obtain ⟨settings, r', rfl, hsame, hequal⟩ := hasked x hx
            exact ⟨settings, r', rfl, hsame.trans hfamily, hequal.trans hnumber⟩
      | error e | pending =>
          refine ⟨hfamily, hnumber, fun x hx => ?_⟩
          obtain rfl := Act.ask.inj (List.mem_singleton.1 hx)
          exact hhead

/-- The requests of a directive are about the queue and the family of the handle. Its queue changes
when a bind is acknowledged, its family never does. -/
structure Addressed (b : Binding) (d : Directive) : Prop where
  asked : ∀ x, .ask x ∈ b.acts d → ∃ settings r, x = .queue settings r ∧
    settings.family = b.settings.family ∧ settings.number = b.settings.number
  family : (b.after d).settings.family = b.settings.family
  number : (b.after d).settings.number = (b.number? d).getD b.settings.number

theorem settings_unwind (b : Binding) (cause : Error) :
    (b.unwind cause).2.settings.family = b.settings.family ∧
      (b.unwind cause).2.settings.number = b.settings.number := by
  unfold unwind
  by_cases hbound : b.stage.isBound = true
  · obtain ⟨links, -, hp | ⟨outcome, -, hp⟩⟩ := b.perform_cases .unbind
    · rw [if_pos hbound, hp]
      exact ⟨rfl, rfl⟩
    · rw [if_pos hbound, hp]
      cases outcome <;> exact ⟨rfl, rfl⟩
  · rw [if_neg hbound]
    exact ⟨rfl, rfl⟩

theorem asked_unwinding {b : Binding} {x : Errand} (hx : .ask x ∈ b.unwinding) :
    x = .queue b.settings .unbind := by
  unfold unwinding at hx
  by_cases hbound : b.stage.isBound = true
  · rw [if_pos hbound] at hx
    rcases List.mem_cons.1 hx with hx | hx
    · exact Act.ask.inj hx
    · split at hx <;> simp at hx
  · rw [if_neg hbound] at hx
    simp at hx

theorem number_of_mem_bringUp {s : QueueSettings} {r : Request} (hr : r ∈ Request.bringUp s)
    {number : UInt16} (hnumber : r.number? = some number) : number = s.number := by
  cases r with
  | bind n =>
      obtain rfl := Option.some.inj hnumber
      simpa [Request.bringUp] using hr
  | unbindFamily | bindFamily | setMode mode range | setMaxLength length | setFlags mask flags
  | unbind => cases hnumber

theorem addressed (b : Binding) (d : Directive) : b.Addressed d := by
  cases d with
  | openWith socket => exact ⟨fun x hx => by simp [acts] at hx, rfl, rfl⟩
  | close => exact ⟨fun x hx => by simp [acts] at hx, rfl, rfl⟩
  | meanwhile world taken => exact ⟨fun x hx => by simp [acts] at hx, rfl, rfl⟩
  | request r =>
      obtain ⟨hfamily, hnumber⟩ := b.settings_perform r
      refine ⟨fun x hx => ?_, hfamily, hnumber⟩
      rcases List.mem_cons.1 hx with hx | hx
      · exact ⟨b.settings, r, Act.ask.inj hx, rfl, rfl⟩
      · split at hx <;> exact absurd hx List.not_mem_nil
  | bringUp =>
      have hall := settings_performAll (b := b)
        fun r (hr : r ∈ Request.bringUp b.settings) number hn => number_of_mem_bringUp hr hn
      rcases hperformed : b.performAll (Request.bringUp b.settings) with ⟨outcome, b'⟩
      rw [hperformed] at hall
      obtain ⟨hfamily, hnumber, hasked⟩ := hall
      refine ⟨fun x hx => ?_, ?_, ?_⟩
      · rw [acts, hperformed] at hx
        rcases List.mem_append.1 hx with hx | hx
        · exact hasked x hx
        · cases outcome with
          | error e => exact ⟨b'.settings, .unbind, asked_unwinding hx, hfamily, hnumber⟩
          | ok | pending => exact absurd hx List.not_mem_nil
      · rw [after, Binding.bringUp, hperformed]
        cases outcome with
        | error e => exact (b'.settings_unwind e).1.trans hfamily
        | ok | pending => exact hfamily
      · rw [after, Binding.bringUp, hperformed]
        cases outcome with
        | error e => exact (b'.settings_unwind e).2.trans hnumber
        | ok | pending => exact hnumber

end Queue.Binding

def Log.Request.group? : Log.Request → Option UInt16
  | .bind group | .unbind group | .set group _ => some group
  | .unbindFamily | .bindFamily => none

namespace Log.Group

open Links (Act)

inductive Directive
  | openWith (socket : Socket)
  | perform (op : GroupOperation)
  | bringUp
  | close
  | meanwhile (world : Channel) (taken : Nat)

def after (g : Group) : Directive → Group
  | .openWith socket => g.openWith socket
  | .perform op => (g.perform op).2
  | .bringUp => g.bringUp.2
  | .close => g.close
  | .meanwhile world taken => { g with links := g.links.meanwhile world taken }

def run (g : Group) (directives : List Directive) : Group := directives.foldl after g

def asked (g : Group) : List Request → List Act
  | [] => []
  | r :: requests => .ask (.log g.settings.family r) ::
      match g.request r with
      | (.ok (), g) => g.asked requests
      | _ => []

def askedInAll (g : Group) : List GroupOperation → List Act
  | [] => []
  | op :: ops => g.asked (op.requests g.settings.groups) ++
      match g.perform op with
      | (.ok (), g) => g.askedInAll ops
      | _ => []

def acts (g : Group) : Directive → List Act
  | .openWith socket => [.openWith g.settings.socket socket]
  | .perform op => g.asked (op.requests g.settings.groups)
  | .bringUp => g.askedInAll (GroupOperation.bringUp g.settings) ++
      match g.performAll (GroupOperation.bringUp g.settings) with
      | (.error _, _) => [.close]
      | _ => []
  | .close => [.close]
  | .meanwhile world taken => [.meanwhile world taken]

theorem links_requestAll (g : Group) (requests : List Request) :
    (g.requestAll requests).2.links = g.links.run (g.asked requests) := by
  induction requests generalizing g with
  | nil => rfl
  | cons r requests ih =>
      have hfirst : (g.request r).2.links = g.links.after (.ask (.log g.settings.family r)) := rfl
      rw [requestAll, asked, Links.run, List.foldl_cons, ← hfirst]
      rcases g.request r with ⟨outcome, g'⟩
      cases outcome with
      | ok => exact ih g'
      | error e => rfl
      | pending => rfl

theorem links_perform (g : Group) (op : GroupOperation) :
    (g.perform op).2.links = g.links.run (g.asked (op.requests g.settings.groups)) := by
  rw [← links_requestAll, perform]
  rcases g.requestAll (op.requests g.settings.groups) with ⟨outcome, g'⟩
  cases outcome <;> rfl

theorem links_performAll (g : Group) (ops : List GroupOperation) :
    (g.performAll ops).2.links = g.links.run (g.askedInAll ops) := by
  induction ops generalizing g with
  | nil => rfl
  | cons op ops ih =>
      have hfirst := g.links_perform op
      rw [performAll, askedInAll, Links.run_append, ← hfirst]
      rcases g.perform op with ⟨outcome, g'⟩
      cases outcome with
      | ok => exact ih g'
      | error e => rfl
      | pending => rfl

theorem links_bringUp (g : Group) : g.bringUp.2.links = g.links.run (g.acts .bringUp) := by
  have hall := g.links_performAll (GroupOperation.bringUp g.settings)
  rw [bringUp, acts, Links.run_append, ← hall]
  rcases g.performAll (GroupOperation.bringUp g.settings) with ⟨outcome, g'⟩
  cases outcome <;> rfl

theorem links_after (g : Group) (d : Directive) : (g.after d).links = g.links.run (g.acts d) := by
  cases d with
  | openWith socket => rfl
  | perform op => exact g.links_perform op
  | bringUp => exact g.links_bringUp
  | close => rfl
  | meanwhile world taken => rfl

/-- The requests of a directive are about the family and the groups of the handle, which never
change. -/
structure Addressed (g : Group) (d : Directive) : Prop where
  asked : ∀ x, .ask x ∈ g.acts d → ∃ r, x = .log g.settings.family r ∧
    ∀ group ∈ r.group?, group ∈ g.settings.groups
  family : (g.after d).settings.family = g.settings.family
  groups : (g.after d).settings.groups = g.settings.groups

theorem group_of_mem_requests {groups : List UInt16} {op : GroupOperation} {r : Request}
    (hr : r ∈ op.requests groups) : ∀ group ∈ r.group?, group ∈ groups := by
  cases op with
  | unbindFamily | bindFamily =>
      obtain rfl := List.mem_singleton.1 hr
      exact nofun
  | bindAll | unbindAll | setAll tunable =>
      obtain ⟨group, hmem, rfl⟩ := List.mem_map.1 hr
      intro group' hgroup
      obtain rfl := Option.some.inj hgroup
      exact hmem

theorem settings_requestAll (g : Group) (requests : List Request) :
    (g.requestAll requests).2.settings = g.settings ∧
      ∀ x, .ask x ∈ g.asked requests → ∃ r ∈ requests, x = .log g.settings.family r := by
  induction requests generalizing g with
  | nil => exact ⟨rfl, fun x hx => absurd hx List.not_mem_nil⟩
  | cons r requests ih =>
      have hsame : (g.request r).2.settings = g.settings := rfl
      rw [requestAll, asked]
      generalize g.request r = requested at hsame ⊢
      obtain ⟨outcome, g'⟩ := requested
      have hhead (x : Errand) (hx : Act.ask x = .ask (.log g.settings.family r)) :
          ∃ r' ∈ r :: requests, x = .log g.settings.family r' :=
        ⟨r, List.mem_cons_self, Act.ask.inj hx⟩
      cases outcome with
      | ok =>
          obtain ⟨hlater, hasked⟩ := ih g'
          refine ⟨hlater.trans hsame, fun x hx => ?_⟩
          rcases List.mem_cons.1 hx with hx | hx
          · exact hhead x hx
          · obtain ⟨r', hr', rfl⟩ := hasked x hx
            exact ⟨r', List.mem_cons_of_mem _ hr', by rw [hsame]⟩
      | error e | pending => exact ⟨hsame, fun x hx => hhead x (List.mem_singleton.1 hx)⟩

theorem settings_perform (g : Group) (op : GroupOperation) :
    (g.perform op).2.settings.family = g.settings.family ∧
      (g.perform op).2.settings.groups = g.settings.groups := by
  obtain ⟨hsame, -⟩ := g.settings_requestAll (op.requests g.settings.groups)
  rw [perform]
  generalize g.requestAll (op.requests g.settings.groups) = requested at hsame ⊢
  obtain ⟨outcome, g'⟩ := requested
  rw [← hsame]
  cases outcome with
  | ok =>
      cases op with
      | setAll tunable => cases tunable <;> exact ⟨rfl, rfl⟩
      | unbindFamily | bindFamily | bindAll | unbindAll => exact ⟨rfl, rfl⟩
  | error e | pending => exact ⟨rfl, rfl⟩

theorem asked_requests {g : Group} {op : GroupOperation} {x : Errand}
    (hx : .ask x ∈ g.asked (op.requests g.settings.groups)) :
    ∃ r, x = .log g.settings.family r ∧ ∀ group ∈ r.group?, group ∈ g.settings.groups := by
  obtain ⟨r, hr, rfl⟩ := (g.settings_requestAll _).2 x hx
  exact ⟨r, rfl, group_of_mem_requests hr⟩

theorem settings_performAll (g : Group) (ops : List GroupOperation) :
    (g.performAll ops).2.settings.family = g.settings.family ∧
      (g.performAll ops).2.settings.groups = g.settings.groups ∧
      ∀ x, .ask x ∈ g.askedInAll ops → ∃ r, x = .log g.settings.family r ∧
        ∀ group ∈ r.group?, group ∈ g.settings.groups := by
  induction ops generalizing g with
  | nil => exact ⟨rfl, rfl, fun x hx => absurd hx List.not_mem_nil⟩
  | cons op ops ih =>
      have hsame := g.settings_perform op
      have hhead (x : Errand) (hx : .ask x ∈ g.asked (op.requests g.settings.groups)) :=
        asked_requests hx
      rw [performAll, askedInAll]
      generalize g.perform op = performed at hsame ⊢
      obtain ⟨outcome, g'⟩ := performed
      obtain ⟨hfamily, hgroups⟩ := hsame
      cases outcome with
      | ok =>
          obtain ⟨hfamily', hgroups', hasked⟩ := ih g'
          refine ⟨hfamily'.trans hfamily, hgroups'.trans hgroups, fun x hx => ?_⟩
          rcases List.mem_append.1 hx with hx | hx
          · exact hhead x hx
          · rw [← hfamily, ← hgroups]
            exact hasked x hx
      | error e | pending =>
          rw [List.append_nil]
          exact ⟨hfamily, hgroups, hhead⟩

theorem addressed (g : Group) (d : Directive) : g.Addressed d := by
  cases d with
  | openWith socket => exact ⟨fun x hx => by simp [acts] at hx, rfl, rfl⟩
  | close => exact ⟨fun x hx => by simp [acts] at hx, rfl, rfl⟩
  | meanwhile world taken => exact ⟨fun x hx => by simp [acts] at hx, rfl, rfl⟩
  | perform op =>
      obtain ⟨hfamily, hgroups⟩ := g.settings_perform op
      exact ⟨fun x hx => asked_requests hx, hfamily, hgroups⟩
  | bringUp =>
      have hall := g.settings_performAll (GroupOperation.bringUp g.settings)
      rcases hperformed : g.performAll (GroupOperation.bringUp g.settings) with ⟨outcome, g'⟩
      rw [hperformed] at hall
      obtain ⟨hfamily, hgroups, hasked⟩ := hall
      refine ⟨fun x hx => ?_, ?_, ?_⟩
      · rw [acts, hperformed] at hx
        rcases List.mem_append.1 hx with hx | hx
        · exact hasked x hx
        · cases outcome <;> simp at hx
      · rw [after, Group.bringUp, hperformed]
        cases outcome <;> exact hfamily
      · rw [after, Group.bringUp, hperformed]
        cases outcome <;> exact hgroups

end Log.Group

/-- Whatever is done with a handle on a queue or with one on log groups, and whatever happens
meanwhile, its sockets have taken nothing but messages that say what was asked. -/
structure HandlesSayWhatIsAsked (queueSettings : QueueSettings)
    (queueDirectives : List Queue.Binding.Directive) (logSettings : LogSettings)
    (logDirectives : List Log.Group.Directive) : Prop where
  queue : Links.SayWhatIsAsked
    (Links.actsOf Queue.Binding.after Queue.Binding.acts { settings := queueSettings }
      queueDirectives)
    (Queue.Binding.run { settings := queueSettings } queueDirectives).links
  log : Links.SayWhatIsAsked
    (Links.actsOf Log.Group.after Log.Group.acts { settings := logSettings } logDirectives)
    (Log.Group.run { settings := logSettings } logDirectives).links
  queueAddressed : ∀ before d after, queueDirectives = before ++ d :: after →
    (Queue.Binding.run { settings := queueSettings } before).Addressed d
  logAddressed : ∀ before d after, logDirectives = before ++ d :: after →
    (Log.Group.run { settings := logSettings } before).Addressed d

theorem handles_sayWhatIsAsked (queueSettings : QueueSettings)
    (queueDirectives : List Queue.Binding.Directive) (logSettings : LogSettings)
    (logDirectives : List Log.Group.Directive) :
    HandlesSayWhatIsAsked queueSettings queueDirectives logSettings logDirectives := by
  refine ⟨?_, ?_, fun before d _ _ => Queue.Binding.addressed _ d,
    fun before d _ _ => Log.Group.addressed _ d⟩
  · rw [Queue.Binding.run, Links.links_foldl Queue.Binding.links Queue.Binding.after
      Queue.Binding.acts Queue.Binding.links_after]
    exact Links.sayWhatIsAsked_run _
  · rw [Log.Group.run, Links.links_foldl Log.Group.links Log.Group.after Log.Group.acts
      Log.Group.links_after]
    exact Links.sayWhatIsAsked_run _

end Netfilter
