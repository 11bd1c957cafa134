import Netfilter.Proofs.Link.Links
import Netfilter.Proofs.Link.Query
import Netfilter.Queue.Binding

/-!
# Setting a queue up, step by step

A set-up makes the requests that bring a queue up, one after the other, and each
of them takes two steps: it is sent, and its acknowledgement is awaited. When one
fails, a queue that is bound is unbound, and the binding is closed. Between two
steps anything may happen to the channel in which its owner has no hand. At every
moment the requests made so far are a beginning of the plan, and the channel has
sent exactly the datagrams of these requests.
-/

namespace Netfilter

namespace Channel

/-- The channel as it may be a moment later: everything may have changed in which its owner has no
hand, such as what arrives, how the next sends fail, and what others have sent in pieces. -/
def amid (c world : Channel) : Channel :=
  { world with
    isOpen := c.isOpen
    owned := c.owned
    turn := c.turn
    calls := c.calls
    socket := { world.socket with
      port := c.socket.port
      sent := c.socket.sent
      drops := c.socket.drops } }

/-- The channel is open and nobody's turn, and it has sent these datagrams since its socket was as
`before`. -/
structure Ready (before : Socket) (sent : List Bytes) (c : Channel) : Prop where
  isOpen : c.isOpen = true
  holder : c.turn.holder = none
  calls : c.calls = []
  port : c.socket.port = before.port
  drops : c.socket.drops = before.drops
  sent : c.socket.sent = before.sent ++ sent

structure Closed (before : Socket) (sent : List Bytes) (c : Channel) : Prop where
  isOpen : c.isOpen = false
  drops : c.socket.drops = before.drops + 1
  sent : c.socket.sent = before.sent ++ sent

variable {before : Socket} {sent : List Bytes} {c : Channel}

theorem Ready.amid (h : c.Ready before sent) (world : Channel) :
    (c.amid world).Ready before sent where
  isOpen := h.isOpen
  holder := h.holder
  calls := h.calls
  port := h.port
  drops := h.drops
  sent := h.sent

theorem Ready.request (h : c.Ready before sent) (d : Draft) :
    (∃ e c', c.request d = (.error e, c') ∧ c'.Ready before sent) ∨
      ∃ seq c', c.request d = (.ok seq, c') ∧
        c'.Ready before (sent ++ [{ asking d with seq, port := before.port }.finish]) := by
  rcases c.request_cases d with ⟨e, faults, next, hr, -, -⟩ | ⟨faults, codes, hr⟩
  · exact .inl ⟨e, _, hr, h.isOpen, h.holder, h.calls, h.port, h.drops, h.sent⟩
  · refine .inr ⟨_, _, hr, h.isOpen, h.holder, h.calls, h.port, h.drops, ?_⟩
    rw [← List.append_assoc, ← h.sent, ← h.port]
    rfl

theorem Ready.await (h : c.Ready before sent) (seq : UInt32) :
    (c.await seq).2.Ready before sent where
  isOpen := h.isOpen
  holder := h.holder
  calls := h.calls
  port := h.port
  drops := h.drops
  sent := h.sent

theorem Ready.close (h : c.Ready before sent) : c.close.2.Closed before sent := by
  have hclose : c.close.2 = { c with isOpen := false, socket := c.socket.drop } := by
    simp [Channel.close, settle, usesSocket, h.isOpen, h.calls]
  rw [hclose]
  exact ⟨rfl, congrArg (· + 1) h.drops, h.sent⟩

theorem Ready.setOption (h : c.Ready before sent) (level name value : Int) :
    (c.setOption level name value).2.Ready before sent := by
  obtain ⟨result, faults, options, hset⟩ := c.socket.setOption_cases level name value
  rw [Channel.setOption, withSocket, if_pos h.isOpen, hset]
  exact ⟨h.isOpen, h.holder, h.calls, h.port, h.drops, h.sent⟩

theorem Ready.tune (h : c.Ready before sent) (options : List (Int × Int × Int)) :
    (Links.tune options c).Ready before sent := by
  induction options generalizing c with
  | nil => exact h
  | cons option options ih => exact ih (h.setOption _ _ _)

/-- A channel is ready as it is opened. -/
theorem ready_tune (socket : Socket) (options : List (Int × Int × Int)) :
    (Links.tune options { socket }).Ready socket [] := by
  have hnew : Ready socket [] { socket } := ⟨rfl, rfl, rfl, rfl, rfl, (List.append_nil _).symm⟩
  exact hnew.tune options

end Channel

namespace Queue

def Request.datagram (s : QueueSettings) (port seq : UInt32) (r : Request) : Bytes :=
  { Channel.asking (r.draft s) with seq, port }.finish

/-- A request that was made: the number under which it was sent, if it was sent, and what came
of it. -/
structure Trial where
  request : Request
  seq? : Option UInt32
  result : Except Error Unit

def Trial.Succeeds (t : Trial) : Prop := t.seq?.isSome = true ∧ t.result = .ok ()

def Trial.datagrams (s : QueueSettings) (port : UInt32) (trials : List Trial) : List Bytes :=
  trials.filterMap fun t => t.seq?.map fun seq => t.request.datagram s port seq

/-- What a request is made for: to bring the queue up, with `later` to be requested next, or to undo
what was done before a failure. -/
inductive Purpose
  | setUp (later : List Request)
  | undo (cause : Error)

inductive SetupPhase
  | next (todo : List Request)
  | awaiting (r : Request) (seq : UInt32) (purpose : Purpose)
  | failed (cause : Error)
  | ended (result : Except Error Unit)

structure Setup where
  binding : Binding
  phase : SetupPhase
  trials : List Trial := []

/-- A set-up makes a step, or `meanwhile` the channel in use becomes as this one in everything in
which its owner has no hand. -/
inductive SetupEvent
  | step
  | meanwhile (world : Channel)

namespace Setup

def start (b : Binding) : Setup where
  binding := b
  phase := .next (Request.bringUp b.settings)

def outcome (w : Setup) : Outcome Unit :=
  match w.phase with
  | .ended result => .ofExcept result
  | _ => .pending

def withLinks (w : Setup) (links : Links) : Setup :=
  { w with binding := { w.binding with links } }

def conclude (w : Setup) (t : Trial) (purpose : Purpose) : Setup :=
  let trials := w.trials ++ [t]
  match purpose, t.result with
  | .setUp later, .ok () =>
      { binding := w.binding.acknowledged t.request, phase := .next later, trials }
  | .setUp _, .error e => { w with phase := .failed (e.during t.request.label), trials }
  | .undo cause, .ok () =>
      { binding := (w.binding.acknowledged t.request).close
        phase := .ended (.error cause)
        trials }
  | .undo cause, .error _ =>
      { binding := w.binding.close, phase := .ended (.error cause), trials }

def ask (w : Setup) (r : Request) (purpose : Purpose) : Setup :=
  match w.binding.links.request (r.draft w.binding.settings) with
  | (.error e, links) => (w.withLinks links).conclude ⟨r, none, .error e⟩ purpose
  | (.ok seq, links) => { w.withLinks links with phase := .awaiting r seq purpose }

def step (w : Setup) : Setup :=
  match w.phase with
  | .next [] => { w with phase := .ended (.ok ()) }
  | .next (r :: later) => w.ask r (.setUp later)
  | .awaiting r seq purpose =>
      match w.binding.links.await seq with
      | (.pending, links) => w.withLinks links
      | (.ok (), links) => (w.withLinks links).conclude ⟨r, some seq, .ok ()⟩ purpose
      | (.error e, links) => (w.withLinks links).conclude ⟨r, some seq, .error e⟩ purpose
  | .failed cause =>
      if w.binding.stage.isBound then w.ask .unbind (.undo cause)
      else { w with binding := w.binding.close, phase := .ended (.error cause) }
  | .ended _ => w

def after (w : Setup) : SetupEvent → Setup
  | .step => w.step
  | .meanwhile world =>
      match w.binding.links.current with
      | none => w
      | some i => w.withLinks (w.binding.links.modify i (·.amid world))

def run (w : Setup) (events : List SetupEvent) : Setup := events.foldl after w

end Setup

namespace Binding

variable {b : Binding}

def recorded (b : Binding) (done : List Request) : Binding := done.foldl acknowledged b

theorem recorded_append_singleton (b : Binding) (done : List Request) (r : Request) :
    b.recorded (done ++ [r]) = (b.recorded done).acknowledged r :=
  List.foldl_concat _ _ _ _

theorem acknowledged_withLinks (b : Binding) (links : Links) (r : Request) :
    acknowledged { b with links } r = { b.acknowledged r with links } := by
  have hnote (b : Binding) :
      noteConfigured { b with links } = { b.noteConfigured with links } := by
    unfold noteConfigured
    split_ifs <;> rfl
  cases r with
  | setMode copyMode copyRange =>
      exact hnote { b with
        settings := { b.settings with copyMode, copyRange }
        modeSet := true }
  | setMaxLength maxLength =>
      exact hnote { b with settings := { b.settings with maxLength }, lengthSet := true }
  | unbindFamily | bindFamily | bind number | setFlags mask flags | unbind => rfl

structure IsFresh (b : Binding) : Prop where
  stage : b.stage = .opened
  mode : b.modeSet = false
  length : b.lengthSet = false

theorem isFresh_openWith (b : Binding) (socket : Socket) : (b.openWith socket).IsFresh :=
  ⟨rfl, rfl, rfl⟩

/-- A beginning of the plan changes no settings, and the record says that the queue is bound from
the bind on. The whole plan makes the queue configured. -/
theorem IsFresh.recorded (h : b.IsFresh) {done : List Request}
    (hplan : done <+: Request.bringUp b.settings) :
    (b.recorded done).settings = b.settings ∧
      ((b.recorded done).stage.isBound = true ↔ .bind b.settings.number ∈ done) ∧
      (done = Request.bringUp b.settings → (b.recorded done).stage = .configured) := by
  obtain ⟨⟨number, maxLength, copyMode, copyRange, family, flags, poolSize, socket⟩, links, stage,
    modeSet, lengthSet⟩ := b
  obtain ⟨hstage, hmode, hlength⟩ := h
  obtain rfl : stage = .opened := hstage
  obtain rfl : modeSet = false := hmode
  obtain rfl : lengthSet = false := hlength
  -- the beginnings of the plan are few enough to be looked at one by one
  have hinit := (List.mem_inits _ _).2 hplan
  cases flags with
  | none =>
      simp only [Request.bringUp, Option.map_none, Option.toList_none, List.append_nil, List.inits,
        List.map_cons, List.map_nil, List.mem_cons, List.not_mem_nil, or_false] at hinit
      rcases hinit with rfl | rfl | rfl | rfl | rfl | rfl <;>
        simp [Binding.recorded, acknowledged, noteConfigured, Stage.isBound, Request.bringUp]
  | some f =>
      simp only [Request.bringUp, Option.map_some, Option.toList_some, List.cons_append,
        List.nil_append, List.inits, List.map_cons, List.map_nil, List.mem_cons, List.not_mem_nil,
        or_false] at hinit
      rcases hinit with rfl | rfl | rfl | rfl | rfl | rfl | rfl <;>
        simp [Binding.recorded, acknowledged, noteConfigured, Stage.isBound, Request.bringUp]

theorem links_acknowledged (b : Binding) (r : Request) : (b.acknowledged r).links = b.links := by
  have h := congrArg Binding.links (acknowledged_withLinks b b.links r)
  exact h

end Binding

def Carried (done : List Request) (trials : List Trial) : Prop :=
  trials.map Trial.request = done ∧ ∀ t ∈ trials, t.Succeeds

theorem Carried.append {done : List Request} {trials : List Trial} {t : Trial}
    (h : Carried done trials) (ht : t.Succeeds) :
    Carried (done ++ [t.request]) (trials ++ [t]) := by
  refine ⟨by simp [h.1], ?_⟩
  simpa [or_imp, forall_and] using ⟨h.2, ht⟩

def Fails (plan done : List Request) (trials : List Trial) (cause : Error) : Prop :=
  ∃ r later front seq? e, plan = done ++ r :: later ∧ Carried done front ∧
    trials = front ++ [⟨r, seq?, .error e⟩] ∧ cause = e.during r.label

def Purpose.Suits (b : Binding) (done : List Request) (trials : List Trial) (r : Request) :
    Purpose → Prop
  | .setUp later => Request.bringUp b.settings = done ++ r :: later ∧ Carried done trials
  | .undo cause => r = .unbind ∧ (b.recorded done).stage.isBound = true ∧
      Fails (Request.bringUp b.settings) done trials cause

def SetupPhase.Suits (b : Binding) (done : List Request) (trials : List Trial) :
    SetupPhase → Prop
  | .next todo => Request.bringUp b.settings = done ++ todo ∧ Carried done trials
  | .awaiting r _ purpose => purpose.Suits b done trials r
  | .failed cause => Fails (Request.bringUp b.settings) done trials cause
  | .ended result => result = .ok () ∧ Request.bringUp b.settings = done ∧ Carried done trials

theorem Fails.isPrefix {plan done : List Request} {trials : List Trial} {cause : Error}
    (h : Fails plan done trials cause) : done <+: plan := by
  obtain ⟨r, later, -, -, -, rfl, -⟩ := h
  exact List.prefix_append _ _

theorem Purpose.Suits.isPrefix {b : Binding} {done : List Request} {trials : List Trial}
    {r : Request} {purpose : Purpose} (h : purpose.Suits b done trials r) :
    done <+: Request.bringUp b.settings := by
  cases purpose with
  | setUp later => exact h.1 ▸ List.prefix_append _ _
  | undo cause => exact h.2.2.isPrefix

def SetupPhase.pending (s : QueueSettings) (port : UInt32) : SetupPhase → List Bytes
  | .awaiting r seq _ => [r.datagram s port seq]
  | .next _ | .failed _ | .ended _ => []

namespace Setup

def written (w : Setup) (s : QueueSettings) (port : UInt32) : List Bytes :=
  Trial.datagrams s port w.trials ++ w.phase.pending s port

/-- The invariant of set-ups of `b` over channel `i`, whose socket was as `before`. -/
inductive Sound (b : Binding) (i : Nat) (before : Socket) (w : Setup) : Prop
  | going {done : List Request} {c : Channel} (suits : w.phase.Suits b done w.trials)
      (record : w.binding = { b.recorded done with links := w.binding.links })
      (uses : w.binding.links.Uses i c) (ready : c.Ready before (w.written b.settings before.port))
  | undone {done : List Request} {front undoing : List Trial} {cause : Error} {c : Channel}
      (phase : w.phase = .ended (.error cause))
      (fails : Fails (Request.bringUp b.settings) done front cause)
      (trials : w.trials = front ++ undoing)
      (undoing : if (b.recorded done).stage.isBound then ∃ seq? x, undoing = [⟨.unbind, seq?, x⟩]
        else undoing = [])
      (stage : w.binding.stage = .closed) (current : w.binding.links.current = none)
      (channel : w.binding.links.channels[i]? = some c)
      (closed : c.Closed before (Trial.datagrams b.settings before.port w.trials))

variable {b : Binding} {i : Nat} {before : Socket} {w : Setup} {done : List Request} {c : Channel}

theorem datagrams_append_singleton (s : QueueSettings) (port : UInt32) (trials : List Trial)
    (t : Trial) : Trial.datagrams s port (trials ++ [t]) =
      Trial.datagrams s port trials ++ (t.seq?.map (t.request.datagram s port)).toList := by
  rw [Trial.datagrams, List.filterMap_append]
  cases h : t.seq? <;> simp [Trial.datagrams, h]

theorem record_withLinks (h : w.binding = { b.recorded done with links := w.binding.links })
    (links : Links) : (w.withLinks links).binding = { b.recorded done with links } := by
  change { w.binding with links } = _
  rw [h]

theorem sound_conclude {t : Trial} {purpose : Purpose}
    (hsuits : purpose.Suits b done w.trials t.request)
    (hsent : t.result = .ok () → t.seq?.isSome = true)
    (hrecord : w.binding = { b.recorded done with links := w.binding.links })
    (huses : w.binding.links.Uses i c)
    (hready : c.Ready before (Trial.datagrams b.settings before.port (w.trials ++ [t]))) :
    (w.conclude t purpose).Sound b i before := by
  obtain ⟨r, seq?, result⟩ := t
  cases purpose with
  | setUp later =>
      obtain ⟨hplan, hcarried⟩ := hsuits
      cases result with
      | ok u =>
          refine .going (c := c) ⟨?_, hcarried.append ⟨hsent rfl, rfl⟩⟩ ?_ ?_ ?_
          · rw [hplan, List.append_assoc, List.singleton_append]
          · change w.binding.acknowledged r =
              { b.recorded (done ++ [r]) with links := (w.binding.acknowledged r).links }
            rw [Binding.links_acknowledged, Binding.recorded_append_singleton,
              ← Binding.acknowledged_withLinks, ← hrecord]
          · change (w.binding.acknowledged r).links.Uses i c
            rwa [Binding.links_acknowledged]
          · simpa [written, conclude, SetupPhase.pending] using hready
      | error e =>
          refine .going ⟨r, later, w.trials, seq?, e, hplan, hcarried, rfl, rfl⟩ hrecord huses ?_
          simpa [written, conclude, SetupPhase.pending] using hready
  | undo cause =>
      obtain ⟨rfl, hbound, hfails⟩ := hsuits
      obtain ⟨hnone, hclosed⟩ := huses.close
      have hundoing : if (b.recorded done).stage.isBound then
          ∃ seq' x, [Trial.mk .unbind seq? result] = [⟨.unbind, seq', x⟩]
          else [Trial.mk .unbind seq? result] = [] := by
        rw [if_pos hbound]
        exact ⟨seq?, result, rfl⟩
      -- whatever came of the unbind, the cause is reported and the binding is closed
      cases result with
      | ok u => exact .undone rfl hfails rfl hundoing rfl hnone hclosed hready.close
      | error e => exact .undone rfl hfails rfl hundoing rfl hnone hclosed hready.close

theorem sound_ask (hfresh : b.IsFresh) {r : Request} {purpose : Purpose}
    (hsuits : purpose.Suits b done w.trials r)
    (hrecord : w.binding = { b.recorded done with links := w.binding.links })
    (huses : w.binding.links.Uses i c)
    (hready : c.Ready before (Trial.datagrams b.settings before.port w.trials)) :
    (w.ask r purpose).Sound b i before := by
  have hsettings : w.binding.settings = b.settings := by
    rw [hrecord]
    exact (hfresh.recorded hsuits.isPrefix).1
  unfold ask
  rw [huses.request hready.isOpen, hsettings]
  rcases hready.request (r.draft b.settings) with ⟨e, c', hr, hready'⟩ | ⟨seq, c', hr, hready'⟩
  · rw [hr]
    refine sound_conclude (w := w.withLinks (w.binding.links.put i c')) hsuits nofun
      (record_withLinks hrecord _) (huses.put c') ?_
    rw [datagrams_append_singleton]
    exact (List.append_nil (Trial.datagrams b.settings before.port w.trials)).symm ▸ hready'
  · rw [hr]
    exact .going hsuits (record_withLinks hrecord _) (huses.put c') hready'

theorem sound_start (b : Binding) (hc : b.links.Uses i c) (hready : c.Ready before []) :
    (start b).Sound b i before := by
  have hsuits : (start b).phase.Suits b [] [] := ⟨rfl, rfl, nofun⟩
  exact .going hsuits rfl hc hready

theorem sound_next (hfresh : b.IsFresh) {todo : List Request} (hphase : w.phase = .next todo)
    (hplan : Request.bringUp b.settings = done ++ todo) (hcarried : Carried done w.trials)
    (hrecord : w.binding = { b.recorded done with links := w.binding.links })
    (huses : w.binding.links.Uses i c)
    (hready : c.Ready before (Trial.datagrams b.settings before.port w.trials)) :
    w.step.Sound b i before := by
  cases todo with
  | nil =>
      rw [List.append_nil] at hplan
      have hsuits : (SetupPhase.ended (.ok ())).Suits b done w.trials := ⟨rfl, hplan, hcarried⟩
      simp only [Setup.step, hphase]
      refine .going hsuits hrecord huses ?_
      simpa [written, SetupPhase.pending] using hready
  | cons r later =>
      simp only [Setup.step, hphase]
      exact sound_ask hfresh ⟨hplan, hcarried⟩ hrecord huses hready

theorem sound_awaiting {r : Request} {seq : UInt32} {purpose : Purpose}
    (hphase : w.phase = .awaiting r seq purpose) (hsuits : purpose.Suits b done w.trials r)
    (hrecord : w.binding = { b.recorded done with links := w.binding.links })
    (huses : w.binding.links.Uses i c)
    (hready : c.Ready before (Trial.datagrams b.settings before.port w.trials ++
      [r.datagram b.settings before.port seq])) : w.step.Sound b i before := by
  have hready := hready.await seq
  simp only [Setup.step, hphase, huses.await]
  cases hawait : (c.await seq).1 with
  | pending =>
      have hsame : w.phase.Suits b done w.trials := by
        rw [hphase]
        exact hsuits
      refine .going hsame (record_withLinks hrecord _) (huses.put _) ?_
      rw [written]
      exact hphase ▸ hready
  | ok u =>
      refine sound_conclude (w := w.withLinks _) hsuits (fun _ => rfl)
        (record_withLinks hrecord _) (huses.put _) ?_
      rw [datagrams_append_singleton]
      exact hready
  | error e =>
      refine sound_conclude (w := w.withLinks _) hsuits nofun
        (record_withLinks hrecord _) (huses.put _) ?_
      rw [datagrams_append_singleton]
      exact hready

theorem sound_failed (hfresh : b.IsFresh) {cause : Error} (hphase : w.phase = .failed cause)
    (hfails : Fails (Request.bringUp b.settings) done w.trials cause)
    (hrecord : w.binding = { b.recorded done with links := w.binding.links })
    (huses : w.binding.links.Uses i c)
    (hready : c.Ready before (Trial.datagrams b.settings before.port w.trials)) :
    w.step.Sound b i before := by
  have hstage : w.binding.stage = (b.recorded done).stage := by rw [hrecord]
  simp only [Setup.step, hphase, hstage]
  by_cases hbound : (b.recorded done).stage.isBound = true
  · rw [if_pos hbound]
    exact sound_ask hfresh ⟨rfl, hbound, hfails⟩ hrecord huses hready
  · rw [if_neg hbound]
    obtain ⟨hnone, hclosed⟩ := huses.close
    refine .undone rfl hfails (List.append_nil _).symm ?_ rfl hnone hclosed hready.close
    rw [if_neg hbound]

theorem Sound.step (hfresh : b.IsFresh) (h : w.Sound b i before) : w.step.Sound b i before := by
  cases h with
  | undone phase fails trials undoing stage current channel closed =>
      have hsame : w.step = w := by simp only [Setup.step, phase]
      rw [hsame]
      exact .undone phase fails trials undoing stage current channel closed
  | @going done c suits record uses ready =>
      cases hphase : w.phase with
      | next todo =>
          rw [written, hphase, SetupPhase.pending, List.append_nil] at ready
          rw [hphase] at suits
          exact sound_next hfresh hphase suits.1 suits.2 record uses ready
      | awaiting r seq purpose =>
          rw [written, hphase] at ready
          rw [hphase] at suits
          exact sound_awaiting hphase suits record uses ready
      | failed cause =>
          rw [written, hphase, SetupPhase.pending, List.append_nil] at ready
          rw [hphase] at suits
          exact sound_failed hfresh hphase suits record uses ready
      | ended result =>
          have hsame : w.step = w := by simp only [Setup.step, hphase]
          rw [hsame]
          exact .going suits record uses ready

theorem Sound.after (hfresh : b.IsFresh) (h : w.Sound b i before) (event : SetupEvent) :
    (w.after event).Sound b i before := by
  cases event with
  | step => exact h.step hfresh
  | meanwhile world =>
      cases h with
      | undone phase fails trials undoing stage current channel closed =>
          simp only [Setup.after, current]
          exact .undone phase fails trials undoing stage current channel closed
      | @going done c suits record uses ready =>
          simp only [Setup.after, uses.current]
          exact .going suits (record_withLinks record _)
            ⟨uses.current, Links.channels_modify uses.channel _⟩ (ready.amid world)

theorem Sound.run (hfresh : b.IsFresh) (h : w.Sound b i before) (events : List SetupEvent) :
    (w.run events).Sound b i before := by
  induction events generalizing w with
  | nil => exact h
  | cons event events ih => exact ih (h.after hfresh event)

end Setup

end Queue

end Netfilter
