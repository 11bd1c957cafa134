import Netfilter.Proofs.Queue.Setup

/-!
# Bringing a queue up is all or nothing

However long it takes, and whatever the socket does meanwhile, a set-up that is
over has either carried out the whole plan, or it has stopped at the first
request that failed, has tried to unbind the queue exactly if it was bound, and
has closed the channel. What came of a request is what the socket decided by the
law for queries. Bringing a queue up is a set-up that is gone on with as long as
it does not have to wait.
-/

namespace Netfilter

namespace Queue

namespace Setup

variable {b : Binding} {i : Nat} {before : Socket} {w w' w'' : Setup} {c : Channel}

def Leads (w w' : Setup) : Prop := ∃ n, w.run (List.replicate n .step) = w'

theorem Leads.refl (w : Setup) : Leads w w := ⟨0, rfl⟩

theorem Leads.trans (h : Leads w w') (h' : Leads w' w'') : Leads w w'' := by
  obtain ⟨n, rfl⟩ := h
  obtain ⟨m, rfl⟩ := h'
  exact ⟨n + m, by rw [List.replicate_add]; exact List.foldl_append⟩

theorem leads_step (w : Setup) : Leads w w.step := ⟨1, rfl⟩

theorem Sound.leads (hfresh : b.IsFresh) (h : w.Sound b i before) (hl : Leads w w') :
    w'.Sound b i before := by
  obtain ⟨n, rfl⟩ := hl
  exact h.run hfresh _

/-- A request that is made comes to the outcome of the query, or waits as the query does. -/
theorem leads_of_ask {sent : List Bytes} (huses : w.binding.links.Uses i c)
    (hready : c.Ready before sent) (r : Request) (purpose : Purpose) {outcome : Outcome Unit}
    {links : Links}
    (hquery : w.binding.links.query (r.draft w.binding.settings) = (outcome, links)) :
    (∃ x seq?, outcome = .ofExcept x ∧
        Leads (w.ask r purpose) ((w.withLinks links).conclude ⟨r, seq?, x⟩ purpose)) ∨
      ∃ seq, outcome = .pending ∧
        Leads (w.ask r purpose) { w.withLinks links with phase := .awaiting r seq purpose } ∧
        links.await seq = (.pending, links) := by
  -- the query sends and looks for the answer at once, and the set-up does so in two steps
  rw [huses.query hready.isOpen] at hquery
  obtain ⟨rfl, rfl⟩ := Prod.mk.inj hquery
  unfold ask
  rw [huses.request hready.isOpen]
  rcases hr : c.request (r.draft w.binding.settings) with ⟨sending, c'⟩
  cases sending with
  | error e =>
      have hq : c.query (r.draft w.binding.settings) = (.error e, c') := by
        simp [Channel.query, hready.holder, hr]
      rw [hq]
      exact .inl ⟨.error e, none, rfl, .refl _⟩
  | ok seq =>
      rw [Channel.query_of_request hready.holder hr]
      have hawait := (huses.put c').await seq
      rw [Links.put_put] at hawait
      rcases ha : c'.await seq with ⟨outcome, c''⟩
      rw [ha] at hawait
      cases outcome with
      | ok u =>
          refine .inl ⟨.ok (), some seq, rfl, (leads_step _).trans ?_⟩
          simp only [step, withLinks, hawait]
          exact .refl _
      | error e =>
          refine .inl ⟨.error e, some seq, rfl, (leads_step _).trans ?_⟩
          simp only [step, withLinks, hawait]
          exact .refl _
      | pending =>
          refine .inr ⟨seq, rfl, (leads_step _).trans ?_, ?_⟩
          · simp only [step, withLinks, hawait]
            exact .refl _
          · rw [(huses.put c'').await, Channel.await_of_pending ha, Links.put_put]

def Rests (outcome : Outcome Unit) (b : Binding) (w : Setup) : Prop :=
  w.step = w ∧ w.outcome = outcome ∧ w.binding = b

theorem rests_of_ended (result : Except Error Unit) (h : w.phase = .ended result) :
    w.Rests (.ofExcept result) w.binding :=
  ⟨by simp only [step, h], by simp only [outcome, h], rfl⟩

theorem rests_of_awaiting {r : Request} {seq : UInt32} {purpose : Purpose}
    (h : w.phase = .awaiting r seq purpose)
    (hwaits : w.binding.links.await seq = (.pending, w.binding.links)) :
    w.Rests .pending w.binding := by
  refine ⟨?_, by simp only [outcome, h], rfl⟩
  simp only [step, h, hwaits]
  rfl

/-- What is undone at once is what an undisturbed set-up undoes. -/
theorem Sound.leads_unwind (h : w.Sound b i before) {cause : Error}
    (hphase : w.phase = .failed cause) :
    ∃ w', Leads w w' ∧ w'.Rests (w.binding.unwind cause).1 (w.binding.unwind cause).2 := by
  unfold Binding.unwind
  by_cases hbound : w.binding.stage.isBound = true
  · have hstep : w.step = w.ask .unbind (.undo cause) := by
      simp only [Setup.step, hphase, hbound, if_true]
    rw [if_pos hbound]
    cases h with
    | undone phase => rw [hphase] at phase; cases phase
    | going suits record uses ready =>
        rcases hquery : w.binding.links.query (Request.unbind.draft w.binding.settings) with
          ⟨outcome, links⟩
        have hask := leads_of_ask uses ready .unbind (.undo cause) hquery
        rw [← hstep] at hask
        rcases hask with ⟨x, seq?, rfl, hleads⟩ | ⟨seq, rfl, hleads, hwaits⟩
        · refine ⟨_, (leads_step w).trans hleads, ?_⟩
          simp only [Binding.perform, hquery]
          cases x with
          | ok u => exact rests_of_ended (.error cause) rfl
          | error e => exact rests_of_ended (.error cause) rfl
        · refine ⟨_, (leads_step w).trans hleads, ?_⟩
          simp only [Binding.perform, hquery]
          exact rests_of_awaiting rfl hwaits
  · have hstep :
        w.step = { w with binding := w.binding.close, phase := .ended (.error cause) } := by
      simp only [Setup.step, hphase, hbound]
      rfl
    rw [if_neg hbound]
    refine ⟨_, leads_step w, ?_⟩
    rw [hstep]
    exact rests_of_ended (w := { w with binding := w.binding.close, phase := _ }) (.error cause) rfl

/-- What is brought up at once is what an undisturbed set-up brings up. -/
theorem Sound.leads_performAll (hfresh : b.IsFresh) (h : w.Sound b i before)
    {todo : List Request} (hphase : w.phase = .next todo) :
    ∃ w', Leads w w' ∧ match w.binding.performAll todo with
      | (.error e, b') => w'.Rests (b'.unwind e).1 (b'.unwind e).2
      | (outcome, b') => w'.Rests outcome b' := by
  -- by induction on what is left of the plan; the invariant is kept for the set-up reached so far
  induction todo generalizing w with
  | nil =>
      have hstep : w.step = { w with phase := .ended (.ok ()) } := by
        simp only [Setup.step, hphase]
      refine ⟨_, leads_step w, ?_⟩
      rw [hstep]
      exact rests_of_ended (w := { w with phase := _ }) (.ok ()) rfl
  | cons r later ih =>
      have hstep : w.step = w.ask r (.setUp later) := by
        simp only [Setup.step, hphase]
      have hsound := h
      cases h with
      | undone phase => rw [hphase] at phase; cases phase
      | going suits record uses ready =>
          rcases hquery : w.binding.links.query (r.draft w.binding.settings) with ⟨outcome, links⟩
          have hask := leads_of_ask uses ready r (.setUp later) hquery
          rw [← hstep] at hask
          rcases hask with ⟨x, seq?, rfl, hleads⟩ | ⟨seq, rfl, hleads, hwaits⟩
          · have hnow := (leads_step w).trans hleads
            have hthen := hsound.leads hfresh hnow
            cases x with
            | ok u =>
                obtain ⟨w', hw', hrests⟩ := ih hthen rfl
                refine ⟨w', hnow.trans hw', ?_⟩
                simp only [Binding.performAll, Binding.perform, hquery]
                exact hrests
            | error e =>
                obtain ⟨w', hw', hrests⟩ := hthen.leads_unwind rfl
                refine ⟨w', hnow.trans hw', ?_⟩
                simp only [Binding.performAll, Binding.perform, hquery]
                exact hrests
          · refine ⟨_, (leads_step w).trans hleads, ?_⟩
            simp only [Binding.performAll, Binding.perform, hquery]
            exact rests_of_awaiting rfl hwaits

end Setup

namespace Setup

variable {b : Binding} {i : Nat} {before : Socket} {w : Setup} {c : Channel}

/-- The socket decides what comes of the next trial of `w`: it refuses to send the request, or what
it has received decides the request that is awaited. -/
inductive Decides (w : Setup) : Trial → Prop
  | refused {i : Nat} {c : Channel} {r : Request} {cause : IoError} {socket : Socket}
      (uses : w.binding.links.Uses i c)
      (refusal : c.socket.send (c.stamped (Channel.asking (r.draft w.binding.settings))) =
        (.error cause, socket)) :
      Decides w ⟨r, none, .error (.io cause)⟩
  | answered {i : Nat} {c : Channel} {r : Request} {seq : UInt32} {purpose : Purpose}
      {result : Except Error Unit} {left : List Receipt}
      (phase : w.phase = .awaiting r seq purpose) (uses : w.binding.links.Uses i c)
      (decision : Acknowledgement.Decision c.socket seq c.socket.inbox (.ofExcept result) left) :
      Decides w ⟨r, some seq, result⟩

/-- Every trial was concluded by a step of the run, and decided by the socket as it was then. -/
def Decided (w : Setup) (events : List SetupEvent) : Prop :=
  ∀ done t, done ++ [t] <+: (w.run events).trials → ∃ earlier, earlier ++ [.step] <+: events ∧
    (w.run earlier).trials = done ∧ (w.run earlier).Decides t

theorem trials_conclude (w : Setup) (t : Trial) (purpose : Purpose) :
    (w.conclude t purpose).trials = w.trials ++ [t] := by
  obtain ⟨r, seq?, result⟩ := t
  cases purpose <;> cases result <;> rfl

theorem trials_ask (huses : w.binding.links.Uses i c) (hopen : c.isOpen = true) (r : Request)
    (purpose : Purpose) : (w.ask r purpose).trials = w.trials ∨
      ∃ t, (w.ask r purpose).trials = w.trials ++ [t] ∧ w.Decides t := by
  unfold ask
  rw [huses.request hopen]
  rcases hr : c.request (r.draft w.binding.settings) with ⟨sending, c'⟩
  cases sending with
  | ok seq => exact .inl rfl
  | error e =>
      obtain ⟨cause, socket, hsend, rfl⟩ := Channel.send_of_request_error hopen hr
      exact .inr ⟨_, trials_conclude _ _ _, .refused huses hsend⟩

theorem Sound.trials_step (h : w.Sound b i before) : w.step.trials = w.trials ∨
    ∃ t, w.step.trials = w.trials ++ [t] ∧ w.Decides t := by
  cases h with
  | undone phase =>
      left
      simp only [Setup.step, phase]
  | @going done c suits record uses ready =>
      cases hphase : w.phase with
      | next todo =>
          simp only [Setup.step, hphase]
          cases todo with
          | nil => exact .inl rfl
          | cons r later => exact trials_ask uses ready.isOpen r _
      | ended result =>
          left
          simp only [Setup.step, hphase]
      | failed cause =>
          simp only [Setup.step, hphase]
          split_ifs
          · exact trials_ask uses ready.isOpen .unbind _
          · exact .inl rfl
      | awaiting r seq purpose =>
          have hdecision := c.decision_of_await seq
          simp only [Setup.step, hphase, uses.await]
          cases hawait : (c.await seq).1 with
          | pending => exact .inl rfl
          | ok u =>
              rw [hawait] at hdecision
              exact .inr ⟨_, trials_conclude _ _ _, .answered hphase uses hdecision⟩
          | error e =>
              rw [hawait] at hdecision
              exact .inr ⟨_, trials_conclude _ _ _, .answered hphase uses hdecision⟩

theorem trials_meanwhile (w : Setup) (world : Channel) :
    (w.after (.meanwhile world)).trials = w.trials := by
  simp only [Setup.after]
  cases w.binding.links.current <;> rfl

theorem Sound.decided (hfresh : b.IsFresh) (h : w.Sound b i before) (hnone : w.trials = [])
    (events : List SetupEvent) : w.Decided events := by
  -- from the end of the run: only a step adds a trial, and one at most
  induction events using List.reverseRecOn with
  | nil =>
      intro done t ht
      change done ++ [t] <+: w.trials at ht
      rw [hnone, List.prefix_nil] at ht
      simp at ht
  | append_singleton events event ih =>
      intro done t ht
      have hrun : w.run (events ++ [event]) = (w.run events).after event :=
        List.foldl_concat _ _ _ _
      have hold (hsame : done ++ [t] <+: (w.run events).trials) :
          ∃ earlier, earlier ++ [.step] <+: events ++ [event] ∧
            (w.run earlier).trials = done ∧ (w.run earlier).Decides t := by
        obtain ⟨earlier, hearlier, hrest⟩ := ih done t hsame
        exact ⟨earlier, hearlier.trans (List.prefix_append _ _), hrest⟩
      rw [hrun] at ht
      cases event with
      | meanwhile world =>
          rw [trials_meanwhile] at ht
          exact hold ht
      | step =>
          rcases (h.run hfresh events).trials_step with hsame | ⟨t', hnew, hdecides⟩
          · exact hold (hsame ▸ ht)
          · change done ++ [t] <+: (w.run events).step.trials at ht
            rw [hnew, List.prefix_concat_iff] at ht
            rcases ht with heq | hsame
            · obtain ⟨rfl, heq⟩ := List.append_inj' heq rfl
              obtain rfl : t = t' := by simpa using heq
              exact ⟨events, List.prefix_refl _, rfl, hdecides⟩
            · exact hold hsame

end Setup

/-- The requests that a queue with these settings needs: its flags are set only if it has any. -/
def Request.plan (s : QueueSettings) : List Request :=
  [.unbindFamily, .bindFamily, .bind s.number, .setMode s.copyMode s.copyRange,
    .setMaxLength s.maxLength] ++ match s.flags with
      | none => []
      | some f => [.setFlags f f]

theorem Request.bringUp_eq_plan (s : QueueSettings) : bringUp s = plan s := by
  unfold bringUp plan
  cases s.flags <;> rfl

/-- What a set-up with these settings comes to. Its channel has number `i`, and the socket of the
channel was as `before` when the set-up began. -/
structure AllOrNothing (s : QueueSettings) (i : Nat) (before : Socket) (w : Setup) : Prop where
  /-- The requests of the plan were sent, in their order, and acknowledged. -/
  all : w.phase = .ended (.ok ()) →
    w.trials.map Trial.request = Request.plan s ∧ (∀ t ∈ w.trials, t.Succeeds) ∧
      w.binding.stage = .configured ∧ w.binding.settings = s ∧
      ∃ c, w.binding.links.Uses i c ∧ c.isOpen = true ∧ c.socket.drops = before.drops ∧
        c.socket.sent = before.sent ++ Trial.datagrams s before.port w.trials
  /-- The plan was followed up to the first request that failed. After that an unbind was made if
  the bind had been acknowledged, and nothing else. Whatever came of it, the cause of the failure is
  reported and the channel is closed. -/
  nothing : ∀ e, w.phase = .ended (.error e) → ∃ front r later seq? cause undoing,
    Request.plan s = front.map Trial.request ++ r :: later ∧ (∀ t ∈ front, t.Succeeds) ∧
      w.trials = front ++ ⟨r, seq?, .error cause⟩ :: undoing ∧ e = cause.during r.label ∧
      (.bind s.number ∈ front.map Trial.request → ∃ seq' x, undoing = [⟨.unbind, seq', x⟩]) ∧
      (.bind s.number ∉ front.map Trial.request → undoing = []) ∧
      w.binding.stage = .closed ∧ w.binding.links.current = none ∧
      ∃ c, w.binding.links.channels[i]? = some c ∧ c.isOpen = false ∧
        c.socket.drops = before.drops + 1 ∧
        c.socket.sent = before.sent ++ Trial.datagrams s before.port w.trials

namespace Setup

variable {b : Binding} {i : Nat} {before : Socket} {w : Setup}

theorem Sound.allOrNothing (hfresh : b.IsFresh) (h : w.Sound b i before) :
    AllOrNothing b.settings i before w := by
  cases h with
  | @going done c suits record uses ready =>
      refine ⟨fun hphase => ?_, fun e hphase => ?_⟩
      · unfold written at ready
        rw [hphase] at suits ready
        obtain ⟨-, rfl, hdone, hsucceed⟩ := suits
        obtain ⟨hsettings, -, hconfigured⟩ := hfresh.recorded (List.prefix_refl _)
        rw [SetupPhase.pending, List.append_nil] at ready
        rw [record]
        refine ⟨?_, hsucceed, hconfigured rfl, hsettings, c, uses, ready.isOpen, ready.drops,
          ready.sent⟩
        rw [hdone, Request.bringUp_eq_plan]
      · rw [hphase] at suits
        cases suits.1
  | @undone done front undoing cause c phase fails trials undoing' stage current channel closed =>
      refine ⟨fun hphase => ?_, fun e hphase => ?_⟩
      · rw [phase] at hphase
        cases hphase
      · rw [phase] at hphase
        cases hphase
        obtain ⟨-, hbound, -⟩ := hfresh.recorded fails.isPrefix
        obtain ⟨r, later, front, seq?, e, hplan, ⟨rfl, hsucceed⟩, rfl, rfl⟩ := fails
        rw [Request.bringUp_eq_plan] at hplan
        refine ⟨front, r, later, seq?, e, undoing, hplan, hsucceed, ?_, rfl, fun hbind => ?_,
          fun hbind => ?_, stage, current, c, channel, closed.isOpen, closed.drops, closed.sent⟩
        · rw [trials, List.append_assoc]
          rfl
        · rwa [if_pos (hbound.2 hbind)] at undoing'
        · rwa [if_neg fun hb => hbind (hbound.1 hb)] at undoing'

end Setup

theorem Setup.sound_openWith (b : Binding) (socket : Socket) :
    (start (b.openWith socket)).Sound (b.openWith socket) b.links.channels.length socket := by
  have huses := Links.uses_openWith b.links b.settings.socket socket
  rw [Links.length_channels_close] at huses
  exact sound_start _ huses (Channel.ready_tune socket _)

/-- Whatever the socket does between its steps, a set-up that is over has done all or nothing, and
what came of each request is what the socket said when it was decided. To bring a queue up at once
is to go on with the set-up until it is over or has to wait. -/
theorem bringUp_allOrNothing (b : Binding) (socket : Socket) :
    (∀ events, AllOrNothing b.settings b.links.channels.length socket
        ((Setup.start (b.openWith socket)).run events) ∧
      (Setup.start (b.openWith socket)).Decided events) ∧
    ∃ n, ((Setup.start (b.openWith socket)).run (List.replicate n .step)).Rests
      (b.openWith socket).bringUp.1 (b.openWith socket).bringUp.2 := by
  have hfresh := b.isFresh_openWith socket
  have hsound := Setup.sound_openWith b socket
  refine ⟨fun events => ⟨Setup.Sound.allOrNothing (b := b.openWith socket) hfresh
    (hsound.run hfresh events), hsound.decided hfresh rfl events⟩, ?_⟩
  obtain ⟨w, ⟨n, rfl⟩, hrests⟩ := hsound.leads_performAll hfresh rfl
  refine ⟨n, ?_⟩
  unfold Binding.bringUp
  change match (b.openWith socket).performAll (Request.bringUp (b.openWith socket).settings) with
    | (.error e, b') => _
    | (outcome, b') => _ at hrests
  rcases hall : (b.openWith socket).performAll (Request.bringUp (b.openWith socket).settings) with
    ⟨outcome, b'⟩
  rw [hall] at hrests
  cases outcome with
  | ok u => exact hrests
  | error e => exact hrests
  | pending => exact hrests

example : (({ settings := {} } : Binding).openWith { port := 4242 }).bringUp.1 = .ok () := by cbv

end Queue

end Netfilter
