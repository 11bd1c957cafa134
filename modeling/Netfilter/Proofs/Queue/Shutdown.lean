import Mathlib
import Netfilter.Proofs.Queue.Stopping

/-!
# A stopped queue is closed once

As long as the receiver has not ended, its channel is open. It closes the channel
only when a receive failed for good or the handler wants no more, and then there
is nothing left to unbind. Otherwise stopping makes one request, to unbind the
queue, and closes the channel whatever comes of it. Everybody who still has the
queue for verdicts finds it closed then.
-/

namespace Netfilter.Queue

def Exit.closes : Exit → Bool
  | .failed | .finished => true
  | .stopped | .aborted => false

def Phase.hasClosed : Phase → Bool
  | .ended exit => exit.closes
  | _ => false

theorem Phase.hasClosed_of_isLooking {phase : Phase} (h : phase.isLooking = true) :
    phase.hasClosed = false := by
  cases phase with
  | ended exit => cases h
  | _ => rfl

theorem Receiver.exists_handOver (r : Receiver) {info : PacketInfo} {payload rest : Bytes}
    {table : FieldTable} (hphase : r.phase = .leasing info payload rest table) :
    ∃ move pool phase, r.handOver info payload rest table = (move, { r with pool, phase }) ∧
      phase.hasClosed = false := by
  unfold handOver
  rcases r.pool.lease? with ⟨_ | lease, pool⟩
  · refine ⟨.waits, pool, r.phase, rfl, ?_⟩
    rw [hphase]
    rfl
  · exact ⟨_, pool, _, rfl, rfl⟩

/-- A verdict changes nothing in which the owner of the channel has a hand. -/
theorem Verdict.amid_send (v : Verdict) (queue : UInt16) (payload : Bytes) (c : Channel) :
    c.amid (v.send queue payload c).2 = (v.send queue payload c).2 := by
  rcases v.send_cases queue payload c with ⟨_, hs⟩ | ⟨_, _, -, hs⟩ <;> rw [hs] <;> rfl

/-- The receiver of this delivery has channel `c`, under the number `link`, and the channel
stands so. -/
structure Tended (link : Nat) (before : Socket) (sent : List Bytes) (whole : Bool) (d : Delivery)
    (c : Channel) : Prop where
  linked : d.receiver.handle.link = link
  channel : d.links.channels[link]? = some c
  stands : c.Stands before sent whole

namespace Tended

variable {link : Nat} {before : Socket} {sent : List Bytes} {whole : Bool} {d d' : Delivery}
  {c : Channel}

def Follows (link : Nat) (before : Socket) (sent : List Bytes) (whole : Bool)
    (d d' : Delivery) : Prop :=
  (∃ c', Tended link before sent whole d' c') ∧ d'.links.current = d.links.current

theorem same (h : Tended link before sent whole d c)
    (hlink : d'.receiver.handle.link = d.receiver.handle.link) (hlinks : d'.links = d.links) :
    Follows link before sent whole d d' :=
  ⟨⟨c, hlink.trans h.linked, hlinks ▸ h.channel, h.stands⟩, by rw [hlinks]⟩

theorem put (h : Tended link before sent whole d c)
    (hlink : d'.receiver.handle.link = d.receiver.handle.link) {c' : Channel}
    (hlinks : d'.links = d.links.put link c') {sent' : List Bytes} {whole' : Bool}
    (hstands : c'.Stands before sent' whole') : Follows link before sent' whole' d d' :=
  ⟨⟨c', hlink.trans h.linked, hlinks ▸ Links.channels_put h.channel c', hstands⟩,
    by rw [hlinks]; rfl⟩

/-- The channel alone may change. -/
theorem replaced (h : Tended link before sent whole d c) {c' : Channel} {sent' : List Bytes}
    {whole' : Bool} (hstands : c'.Stands before sent' whole') :
    Tended link before sent' whole' { d with links := d.links.put link c' } c' :=
  ⟨h.linked, Links.channels_put h.channel c', hstands⟩

theorem arrival (h : Tended link before sent whole d c) (r : Receipt) :
    Follows link before sent whole d (d.after (.arrival r)) := by
  obtain rfl := h.linked
  exact ⟨⟨_, rfl, Links.channels_modify h.channel _, h.stands.amid (c.withInbox _)⟩, rfl⟩

theorem verdict (h : Tended link before sent whole d c) (v : Verdict) (payload : Bytes) :
    Follows link before sent whole d (d.after (.verdict v payload)) := by
  obtain rfl := h.linked
  have hlinks : (d.after (.verdict v payload)).links = d.links.put d.receiver.handle.link
      (v.send d.receiver.handle.queue payload c).2 :=
    congrArg Prod.snd (Links.onChannel_of_channel h.channel _ _)
  refine h.put ?_ hlinks (v.amid_send d.receiver.handle.queue payload c ▸ h.stands.amid _)
  rfl

/-- A receiver that has ended leaves its channel alone. -/
theorem after_of_ended (h : Tended link before sent whole d c) {exit : Exit}
    (hphase : d.receiver.phase = .ended exit) (happening : Happening) :
    Follows link before sent whole d (d.after happening) := by
  cases happening with
  | arrival r => exact h.arrival r
  | step =>
      rw [Delivery.after_step_of_idle (by simp only [Receiver.step, hphase])]
      exact h.same rfl rfl
  | answer flow =>
      rw [Delivery.after_answer_of_idle (by simp [hphase])]
      exact h.same rfl rfl
  | giveBack lease => exact h.same rfl rfl
  | verdict v payload => exact h.verdict v payload

theorem receive (h : Tended link before sent true d c)
    (hphase : d.receiver.phase = .receiving) (hgoes : d.receiver.stopRequested = false) :
    Follows link before sent (!(d.after .step).receiver.phase.hasClosed) d (d.after .step) := by
  obtain rfl := h.linked
  have hstep : d.receiver.step d.links = d.receiver.receive d.links := by
    simp [Receiver.step, hphase, hgoes]
  rcases Receiver.receive_cases h.channel h.stands.isOpen with
    ⟨-, hr⟩ | ⟨taken, later, -, hr⟩
  · simp only [Delivery.after, hstep, hr, hphase]
    refine h.put ?_ ?_ (h.stands.amid (c.withInbox [])) <;> rfl
  · have hlater := h.stands.amid (c.withInbox later)
    rcases hr with ⟨data, -, hr⟩ | ⟨cause, -, -, hr⟩ | ⟨cause, -, -, hr⟩
    · simp only [Delivery.after, hstep, hr]
      refine h.put ?_ ?_ hlater <;> rfl
    · simp only [Delivery.after, hstep, hr, hphase]
      refine h.put ?_ ?_ hlater <;> rfl
    · simp only [Delivery.after, hstep, hr]
      exact ⟨⟨_, rfl, Links.channels_modify (Links.channels_put h.channel _) _, hlater.close⟩, rfl⟩

theorem step (h : Tended link before sent (!d.receiver.phase.hasClosed) d c) :
    Follows link before sent (!(d.after .step).receiver.phase.hasClosed) d (d.after .step) := by
  cases hphase : d.receiver.phase with
  | receiving =>
      rw [hphase] at h
      cases hstop : d.receiver.stopRequested with
      | false => exact receive h hphase hstop
      | true =>
          simp only [Delivery.after, Receiver.step, hphase, hstop, if_true]
          exact h.same rfl rfl
  | reading rest table =>
      obtain ⟨move, phase, hread, hlooking, -⟩ := d.receiver.read_cases rest table
      rw [hphase] at h
      simp only [Delivery.after, Receiver.step, hphase, hread,
        Phase.hasClosed_of_isLooking hlooking]
      exact h.same rfl rfl
  | leasing info payload rest table =>
      rw [hphase] at h
      cases hstop : d.receiver.stopRequested with
      | true =>
          simp only [Delivery.after, Receiver.step, hphase, hstop, if_true]
          exact h.same rfl rfl
      | false =>
          obtain ⟨move, pool, phase, hhand, hclosed⟩ := d.receiver.exists_handOver hphase
          simp only [Delivery.after, Receiver.step, hphase, hstop, Bool.false_eq_true, if_false,
            hhand, hclosed]
          exact h.same rfl rfl
  | handling rest table =>
      rw [Delivery.after_step_of_idle (by simp only [Receiver.step, hphase])]
      exact h.same rfl rfl
  | ended exit =>
      rw [Delivery.after_step_of_idle (by simp only [Receiver.step, hphase])]
      exact h.same rfl rfl

theorem answer (h : Tended link before sent (!d.receiver.phase.hasClosed) d c) (flow : Flow) :
    Follows link before sent (!(d.after (.answer flow)).receiver.phase.hasClosed) d
      (d.after (.answer flow)) := by
  by_cases hhandling : ∃ rest table, d.receiver.phase = .handling rest table
  · obtain ⟨rest, table, hphase⟩ := hhandling
    rw [hphase] at h
    cases flow with
    | proceed =>
        simp only [Delivery.after, Receiver.resume, hphase]
        exact h.same rfl rfl
    | stop =>
        obtain rfl := h.linked
        simp only [Delivery.after, Receiver.resume, hphase]
        exact ⟨⟨_, rfl, Links.channels_modify h.channel _, h.stands.close⟩, rfl⟩
  · rw [Delivery.after_answer_of_idle fun rest table hphase => hhandling ⟨rest, table, hphase⟩]
    exact h.same rfl rfl

theorem after (h : Tended link before sent (!d.receiver.phase.hasClosed) d c)
    (happening : Happening) :
    Follows link before sent (!(d.after happening).receiver.phase.hasClosed) d
      (d.after happening) := by
  cases happening with
  | arrival r => exact h.arrival r
  | step => exact h.step
  | answer flow => exact h.answer flow
  | giveBack lease => exact h.same rfl rfl
  | verdict v payload => exact h.verdict v payload

end Tended

/-- What stopping came to: nothing was tried if the receiver had closed the channel, and otherwise
one request to unbind the queue, with this result. -/
def Stopped (exit : Exit) (trials : List Trial) (result : Except Error Unit) : Prop :=
  if exit.closes then trials = [] ∧ result = .ok ()
  else ∃ seq? x, trials = [⟨.unbind, seq?, x⟩] ∧ result = x.mapError (·.during Request.unbind.label)

namespace Service

/-- The invariant of services of a queue with these settings over channel `link`, whose socket was
as `before`. -/
inductive Sound (settings : QueueSettings) (link : Nat) (before : Socket) (w : Service) : Prop
  | going {c : Channel} (stopping : w.stopping = .idle ∨ w.stopping = .joining)
      (same : w.settings = settings) (trials : w.trials = [])
      (current : w.links.current = some link)
      (tended : Tended link before [] (!w.receiver.phase.hasClosed) w.delivery c)
  | unbinding {seq : UInt32} {exit : Exit} {c : Channel} (stopping : w.stopping = .unbinding seq)
      (same : w.settings = settings) (trials : w.trials = [])
      (current : w.links.current = some link)
      (phase : w.receiver.phase = .ended exit) (stays : exit.closes = false)
      (tended : Tended link before [Request.unbind.datagram settings before.port seq] true
        w.delivery c)
  | settled {result : Except Error Unit} {exit : Exit} {c : Channel}
      (stopping : w.stopping = .settled result) (phase : w.receiver.phase = .ended exit)
      (stopped : Stopped exit w.trials result)
      (tended : Tended link before (Trial.datagrams settings before.port w.trials) false
        w.delivery c)
  | abandoned (stopping : w.stopping = .abandoned)

variable {settings : QueueSettings} {link : Nat} {before : Socket} {w : Service} {c : Channel}

theorem sound_start (settings : QueueSettings) {links : Links} (huses : links.Uses link c)
    (hopen : c.isOpen = true) (hholder : c.turn.holder = none) (hcalls : c.calls = []) :
    Sound settings link c.socket (start settings link links c) :=
  .going (.inl rfl) rfl rfl huses.current
    ⟨rfl, huses.channel, hopen, hholder, hcalls, rfl, rfl, (List.append_nil _).symm⟩

theorem sound_conclude {t : Trial} {exit : Exit} (hrequest : t.request = .unbind)
    (hphase : w.receiver.phase = .ended exit) (hstays : exit.closes = false)
    (htrials : w.trials = []) (hcurrent : w.links.current = some link)
    (htended : Tended link before (Trial.datagrams settings before.port [t]) true w.delivery c) :
    Sound settings link before (w.conclude t) := by
  obtain ⟨request, seq?, x⟩ := t
  obtain rfl : request = .unbind := hrequest
  obtain ⟨-, hclosed⟩ := Links.Uses.close ⟨hcurrent, htended.channel⟩
  have hnow : (w.conclude ⟨.unbind, seq?, x⟩).trials = [⟨.unbind, seq?, x⟩] := by
    simp only [conclude, htrials, List.nil_append]
  refine .settled rfl hphase ?_ ⟨htended.linked, hclosed, ?_⟩
  · rw [Stopped, hstays, hnow]
    exact ⟨seq?, x, rfl, rfl⟩
  · rw [hnow]
    exact htended.stands.close

theorem isOpen_links (hcurrent : w.links.current = some link) {sent : List Bytes} {whole : Bool}
    (htended : Tended link before sent whole w.delivery c) : w.links.isOpen = whole := by
  have hchannel : w.links.channels[link]? = some c := htended.channel
  simp [Links.isOpen, Links.channel?, hcurrent, hchannel, htended.stands.isOpen]

theorem sound_unbind {exit : Exit} (hphase : w.receiver.phase = .ended exit)
    (hsame : w.settings = settings) (htrials : w.trials = [])
    (hcurrent : w.links.current = some link)
    (htended : Tended link before [] (!exit.closes) w.delivery c) :
    Sound settings link before w.unbind := by
  have hopen := isOpen_links hcurrent htended
  have huses : w.links.Uses link c := ⟨hcurrent, htended.channel⟩
  unfold unbind
  rw [hopen]
  -- a receiver that closed its channel leaves nothing to be unbound
  cases hcloses : exit.closes with
  | true =>
      have hstopped : Stopped exit w.trials (.ok ()) := by
        rw [Stopped, hcloses]
        exact ⟨htrials, rfl⟩
      refine .settled rfl hphase hstopped ⟨htended.linked, huses.close.2, ?_⟩
      change Channel.Stands before (Trial.datagrams settings before.port w.trials) false _
      rw [htrials]
      exact htended.stands.close
  | false =>
      rw [hcloses] at htended
      have hready := Channel.stands_true_iff.1 htended.stands
      rw [huses.request hready.isOpen, hsame]
      rcases hready.request (Request.unbind.draft settings) with
        ⟨e, c', hr, hready'⟩ | ⟨seq, c', hr, hready'⟩
      · rw [hr]
        exact sound_conclude (w := w.withLinks (w.links.put link c')) rfl hphase hcloses htrials
          hcurrent (htended.replaced (Channel.stands_true_iff.2 hready'))
      · rw [hr]
        exact .unbinding rfl hsame htrials hcurrent hphase hcloses
          (htended.replaced (Channel.stands_true_iff.2 hready'))

theorem sound_await {seq : UInt32} {exit : Exit} (hstopping : w.stopping = .unbinding seq)
    (hsame : w.settings = settings) (htrials : w.trials = [])
    (hcurrent : w.links.current = some link) (hphase : w.receiver.phase = .ended exit)
    (hstays : exit.closes = false)
    (htended : Tended link before [Request.unbind.datagram settings before.port seq] true
      w.delivery c) : Sound settings link before w.goOn := by
  have huses : w.links.Uses link c := ⟨hcurrent, htended.channel⟩
  have hstands := htended.stands.amid (c.await seq).2
  unfold goOn
  rw [hstopping]
  simp only [huses.await]
  cases (c.await seq).1 with
  | pending =>
      exact .unbinding hstopping hsame htrials hcurrent hphase hstays
        (htended.replaced hstands)
  | ok u =>
      exact sound_conclude (w := w.withLinks _) rfl hphase hstays htrials hcurrent
        (htended.replaced hstands)
  | error e =>
      exact sound_conclude (w := w.withLinks _) rfl hphase hstays htrials hcurrent
        (htended.replaced hstands)

theorem Sound.goOn (h : Sound settings link before w) : Sound settings link before w.goOn := by
  cases h with
  | going stopping same trials current tended =>
      unfold Service.goOn
      rcases stopping with hstopping | hstopping
      · rw [hstopping]
        exact .going (.inl hstopping) same trials current tended
      · rw [hstopping]
        dsimp only
        cases hphase : w.receiver.phase with
        | ended exit =>
            rw [if_pos (by simp [Receiver.hasEnded, hphase])]
            rw [hphase] at tended
            exact sound_unbind hphase same trials current tended
        | _ =>
            rw [if_neg (by simp [Receiver.hasEnded, hphase])]
            exact .going (.inr hstopping) same trials current tended
  | unbinding stopping same trials current phase stays tended =>
      exact sound_await stopping same trials current phase stays tended
  | settled stopping phase stopped tended =>
      have hsame : w.goOn = w := by simp only [Service.goOn, stopping]
      rw [hsame]
      exact .settled stopping phase stopped tended
  | abandoned stopping =>
      have hsame : w.goOn = w := by simp only [Service.goOn, stopping]
      rw [hsame]
      exact .abandoned stopping

theorem Sound.happens (h : Sound settings link before w) (happening : Happening) :
    Sound settings link before (w.after (.happens happening)) := by
  cases h with
  | going stopping same trials current tended =>
      obtain ⟨⟨c', hc'⟩, hcurrent⟩ := tended.after happening
      exact .going stopping same trials (hcurrent.trans current) hc'
  | unbinding stopping same trials current phase stays tended =>
      obtain ⟨⟨c', hc'⟩, hcurrent⟩ := tended.after_of_ended phase happening
      exact .unbinding stopping same trials (hcurrent.trans current)
        (Delivery.phase_after_of_ended phase happening) stays hc'
  | settled stopping phase stopped tended =>
      obtain ⟨⟨c', hc'⟩, -⟩ := tended.after_of_ended phase happening
      exact .settled stopping (Delivery.phase_after_of_ended phase happening) stopped hc'
  | abandoned stopping => exact .abandoned stopping

theorem Sound.breaksDown (h : Sound settings link before w) :
    Sound settings link before w.breakDown := by
  unfold breakDown
  split
  · next rest table hphase =>
      cases h with
      | going stopping same trials current tended =>
          rw [hphase] at tended
          exact .going stopping same trials current ⟨tended.linked, tended.channel, tended.stands⟩
      | unbinding stopping same trials current phase => rw [hphase] at phase; cases phase
      | settled stopping phase => rw [hphase] at phase; cases phase
      | abandoned stopping => exact .abandoned stopping
  · exact h

theorem Sound.after (h : Sound settings link before w) (event : ServiceEvent) :
    Sound settings link before (w.after event) := by
  cases event with
  | happens happening => exact h.happens happening
  | breaksDown => exact h.breaksDown
  | goOn => exact h.goOn
  | stop =>
      simp only [Service.after]
      split
      · next hidle =>
          cases h with
          | going stopping same trials current tended =>
              exact .going (.inr rfl) same trials current
                ⟨tended.linked, tended.channel, tended.stands⟩
          | unbinding stopping => rw [hidle] at stopping; cases stopping
          | settled stopping => rw [hidle] at stopping; cases stopping
          | abandoned stopping => rw [hidle] at stopping; cases stopping
      · exact h
  | abandon =>
      simp only [Service.after]
      split
      · exact h
      · exact .abandoned rfl

theorem Sound.run (h : Sound settings link before w) (events : List ServiceEvent) :
    Sound settings link before (w.run events) := by
  induction events generalizing w with
  | nil => exact h
  | cons event events ih => exact ih (h.after event)

end Service

theorem Verdict.send_of_not_isOpen (v : Verdict) (queue : UInt16) {payload : Bytes} {c : Channel}
    (hshut : c.isOpen = false) (hle : payload.length ≤ maxPayload) :
    (v.send queue payload c).1.1 = .error .notOpen := by
  obtain ⟨pieces, hpieces, -⟩ := v.exists_written queue c.nextSeq hle
  have hnumbered : c.takeSeq.2.isOpen = false := hshut
  rw [send_of_pieces hpieces, Channel.gather_of_not_isOpen hnumbered]
  rfl

/-- Verdicts about the queue of this channel are refused, whether they are sent through a handle or
with a packet that was kept. -/
structure Refused (link : Nat) (l : Links) : Prop where
  handles : ∀ (handle : VerdictHandle) (v : Verdict) (payload : Bytes), handle.link = link →
    payload.length ≤ 65531 → (handle.send v payload l).1.1 = .error .notOpen
  decided : ∀ (s : Session) (p : Packet), s.links = l → p.handle.link = link →
    ∀ disposition mark, (s.act p (.decide disposition mark)).1 = some (.sent (.error .notOpen))
  sentBack : ∀ (s : Session) (p : Packet), s.links = l → p.handle.link = link →
    ∀ disposition edit, (edit.apply p.payload).length ≤ 65531 →
      (s.act p (.sendBack disposition edit)).1 = some (.sent (.error .notOpen))

theorem refused_of_not_isOpen {link : Nat} {l : Links} {c : Channel}
    (hc : l.channels[link]? = some c) (hshut : c.isOpen = false) : Refused link l := by
  have hhandles (handle : VerdictHandle) (v : Verdict) (payload : Bytes)
      (hlink : handle.link = link) (hle : payload.length ≤ 65531) :
      (handle.send v payload l).1.1 = .error .notOpen := by
    obtain rfl := hlink
    rw [VerdictHandle.send, Links.onChannel_of_channel hc]
    exact v.send_of_not_isOpen handle.queue hshut hle
  refine ⟨hhandles, ?_, ?_⟩
  · rintro s p rfl hlink disposition mark
    exact congrArg (fun result => some (Done.sent result))
      (hhandles p.handle ⟨p.info.id, disposition, mark⟩ [] hlink (Nat.zero_le _))
  · rintro s p rfl hlink disposition edit hle
    exact congrArg (fun result => some (Done.sent result))
      (hhandles p.handle ⟨p.info.id, disposition, none⟩ _ hlink hle)

theorem Receiver.two_le_stepBound (r : Receiver) (l : Links) : 2 ≤ r.stepBound l := by
  have hfold (f : Receipt → Nat → Nat) (hf : ∀ receipt n, n ≤ f receipt n) (n : Nat)
      (inbox : List Receipt) : n ≤ inbox.foldr f n := by
    induction inbox with
    | nil => exact Nat.le_refl n
    | cons receipt inbox ih => exact ih.trans (hf receipt _)
  refine Nat.le_trans (Nat.le_trans ?_ (Nat.le_add_left 8 _)) (hfold _ ?_ _ _)
  · decide
  · exact fun receipt n => Nat.le_add_left n _

namespace Session

variable {s : Session} {r : Receiver}

/-- A receiver that was told to stop between two of its turns does nothing but end. -/
theorem runFor_of_stopRequested (hreceiver : s.receiver = some r)
    (hstop : r.stopRequested = true) (hphase : r.phase.isBetweenTurns = true) (fuel : Nat) :
    s.runFor (fuel + 2) =
      ([], { s with receiver := some { r with phase := r.phase.stopped } }) := by
  obtain ⟨handle, pool, stopRequested, phase⟩ := r
  obtain rfl : stopRequested = true := hstop
  cases phase with
  | receiving => simp only [runFor, hreceiver, Receiver.step, if_true]; rfl
  | leasing info payload rest table =>
      simp only [runFor, hreceiver, Receiver.step, if_true]; rfl
  | ended exit => simp only [runFor, hreceiver, Receiver.step]; rfl
  | reading rest table => cases hphase
  | handling rest table => cases hphase

theorem run_of_stopRequested (hreceiver : s.receiver = some r)
    (hstop : r.stopRequested = true) (hphase : r.phase.isBetweenTurns = true) :
    s.run = ([], { s with receiver := some { r with phase := r.phase.stopped } }) := by
  obtain ⟨fuel, hfuel⟩ := Nat.exists_eq_add_of_le' (r.two_le_stepBound s.links)
  have hrun : s.run = s.runFor (r.stepBound s.links) := by simp only [run, hreceiver]
  rw [hrun, hfuel]
  exact runFor_of_stopRequested hreceiver hstop hphase fuel

end Session

/-- What a session does with its binding when it stops: it unbinds the queue if its channel is open,
and closes the channel unless it has to wait. -/
def Binding.giveUp (b : Binding) : Outcome Unit × Binding :=
  match if b.isOpen then b.perform .unbind else (.ok (), b) with
  | (.pending, b) => (.pending, b)
  | (outcome, b) => (outcome, b.close)

theorem Session.stop_of_isBetweenTurns {s : Session} {r : Receiver} (hholder : s.holder = .receiver)
    (hreceiver : s.receiver = some r) (hphase : r.phase.isBetweenTurns = true) :
    ∃ s', s.stop = ([], some s.binding.giveUp.1, s') ∧
      s'.links.channels = s.binding.giveUp.2.links.channels ∧
      s'.receiver = some { r.requestStop with phase := r.phase.stopped } := by
  obtain ⟨binding, holder, receiver, plan, otherwise, handles, held⟩ := s
  obtain rfl : holder = .receiver := hholder
  obtain rfl : receiver = some r := hreceiver
  have hrun := Session.run_of_stopRequested
    (s := ⟨binding, .receiver, some r.requestStop, plan, otherwise, handles, held⟩) rfl rfl hphase
  simp only [stop, Option.map_some, hrun, Binding.giveUp]
  rcases (if binding.isOpen then binding.perform .unbind else (.ok (), binding)) with
    ⟨_ | _ | _, b⟩ <;> exact ⟨_, rfl, rfl, rfl⟩

namespace Service

variable {settings : QueueSettings} {link : Nat} {before : Socket} {w : Service}

/-- A binding that is given up goes the way of a service whose receiver has ended. -/
theorem Sound.giveUp (h : Sound settings link before w) (hstopping : w.stopping = .joining)
    {exit : Exit} (hphase : w.receiver.phase = .ended exit) {b : Binding}
    (hlinks : b.links = w.links) (hsettings : b.settings = w.settings) :
    b.giveUp.1 = w.goOn.goOn.outcome ∧
      b.giveUp.2.links.channels = w.goOn.goOn.links.channels := by
  have hjoined : w.goOn = w.unbind := by
    simp only [Service.goOn, hstopping, Receiver.hasEnded, hphase, if_true]
  cases h with
  | unbinding stopping => rw [hstopping] at stopping; cases stopping
  | settled stopping => rw [hstopping] at stopping; cases stopping
  | abandoned stopping => rw [hstopping] at stopping; cases stopping
  | @going c stopping same trials current tended =>
      -- a request that is sent and awaited at once goes the way of the two steps of the service
      have huses : w.links.Uses link c := ⟨current, tended.channel⟩
      have hopen := isOpen_links current tended
      have hbinding : b.isOpen = w.links.isOpen := congrArg Links.isOpen hlinks
      rw [hjoined]
      unfold unbind Binding.giveUp Binding.perform
      rw [hbinding, hlinks, hsettings]
      split_ifs with hwhole
      · have hready : c.Ready before [] := by
          rw [hopen] at hwhole
          exact Channel.stands_true_iff.1 (hwhole ▸ tended.stands)
        rw [huses.request hready.isOpen, huses.query hready.isOpen]
        rcases hr : c.request (Request.unbind.draft w.settings) with ⟨_ | seq, c'⟩
        · have hq : c.query (Request.unbind.draft w.settings) = (.error ‹_›, c') := by
            simp [Channel.query, hready.holder, hr]
          rw [hq]
          exact ⟨rfl, rfl⟩
        · have hawait := (huses.put c').await seq
          rw [Links.put_put] at hawait
          have hsent : links { w.withLinks (w.links.put link c') with stopping := .unbinding seq } =
              w.links.put link c' := rfl
          rw [Channel.query_of_request hready.holder hr]
          simp only [Service.goOn, hsent, hawait]
          rcases c'.await seq with ⟨_ | _ | _, c''⟩ <;> exact ⟨rfl, rfl⟩
      · exact ⟨rfl, by rw [← hlinks]; rfl⟩

theorem told_stop (hidle : w.stopping = .idle) :
    Told w.receiver.phase w.delivery.reports (w.after .stop) := by
  simp only [Service.after, hidle]
  exact ⟨rfl, .inl rfl, rfl⟩

theorem told_abandon (hidle : w.stopping = .idle) :
    Told w.receiver.phase w.delivery.reports (w.after .abandon) := by
  simp only [Service.after, hidle]
  exact ⟨rfl, .inl rfl, rfl⟩

/-- What a session does when it stops is what its service does, gone on with without a pause. -/
theorem Sound.stop_session (h : Sound settings link before w) (hidle : w.stopping = .idle)
    (hphase : w.receiver.phase.isBetweenTurns = true) {s : Session} (hholder : s.holder = .receiver)
    (hreceiver : s.receiver = some w.receiver) (hlinks : s.binding.links = w.links)
    (hsettings : s.binding.settings = w.settings) :
    let w' := w.run [.stop, .happens .step, .goOn, .goOn]
    ∃ s', s.stop = ([], some w'.outcome, s') ∧ s'.links.channels = w'.links.channels := by
  have htold := told_stop hidle
  have hstopped : w.after .stop = { w.requestStop with stopping := .joining } := by
    simp only [Service.after, hidle]
  have hjoining : (w.after .stop).stopping = .joining ∧ (w.after .stop).links = w.links ∧
      (w.after .stop).settings = w.settings := by
    rw [hstopped]
    exact ⟨rfl, rfl, rfl⟩
  obtain ⟨hended, hstill, -⟩ := htold.step hphase
  have hsound := (h.after .stop).after (.happens .step)
  have hexit : ∃ exit, w.receiver.phase.stopped = .ended exit := by
    cases w.receiver.phase with
    | ended exit => exact ⟨exit, rfl⟩
    | _ => exact ⟨.stopped, rfl⟩
  obtain ⟨exit, hexit⟩ := hexit
  have hnow : ((w.after .stop).after (.happens .step)).receiver.phase = .ended exit := by
    rw [hended]
    exact hexit
  obtain ⟨houtcome, hchannels⟩ := hsound.giveUp (b := s.binding) hjoining.1 hnow
    (by rw [hlinks, hstill, hjoining.2.1]) (hsettings.trans hjoining.2.2.symm)
  obtain ⟨s', hstop, hs', -⟩ := Session.stop_of_isBetweenTurns hholder hreceiver hphase
  refine ⟨s', ?_, hs'.trans hchannels⟩
  rw [hstop, houtcome]
  rfl

/-- From now on the receiver makes no report, it has no handler at work, and it leaves the channel
alone. When it is next gone on with it has ended, and if it had not ended before, it was stopped. -/
structure Prompt (w : Service) : Prop where
  reports : ∀ later, (w.run later).delivery.reports = w.delivery.reports
  handler : ∀ later, (∀ flow, (w.run later).after (.happens (.answer flow)) = w.run later) ∧
    (w.run later).after .breaksDown = w.run later
  turn : ∀ later, ((w.run later).after (.happens .step)).receiver.phase = w.receiver.phase.stopped ∧
    ((w.run later).after (.happens .step)).links = (w.run later).links

/-- The stopping is over with this result: one request to unbind the queue was made and had this
result, or none was made since the receiver had closed the channel. The channel is closed, its
socket was dropped once, and it refuses verdicts. -/
structure Completed (settings : QueueSettings) (link : Nat) (before : Socket) (w : Service)
    (result : Except Error Unit) : Prop where
  exit : ∃ exit, w.receiver.phase = .ended exit ∧ Stopped exit w.trials result
  channel : ∃ c, w.links.channels[link]? = some c ∧ c.isOpen = false ∧
    c.socket.drops = before.drops + 1 ∧
    c.socket.sent = before.sent ++ Trial.datagrams settings before.port w.trials
  refused : Refused link w.links

/-- How the stopping of a service goes, whenever it is asked for. The service is that of a queue
with these settings over channel `link`, whose socket was as `before` when it was started. -/
structure Orderly (settings : QueueSettings) (link : Nat) (before : Socket) (w : Service) :
    Prop where
  prompt : w.stopping = .idle → w.receiver.phase.isBetweenTurns = true →
    Prompt (w.after .stop) ∧ Prompt (w.after .abandon)
  joined : w.stopping = .joining → ∀ exit, w.receiver.phase = .ended exit →
    w.links.isOpen = !exit.closes
  completed : ∀ result, w.stopping = .settled result → Completed settings link before w result
  session : w.stopping = .idle → w.receiver.phase.isBetweenTurns = true → ∀ s : Session,
    s.holder = .receiver → s.receiver = some w.receiver → s.binding.links = w.links →
    s.binding.settings = w.settings →
      let w' := w.run [.stop, .happens .step, .goOn, .goOn]
      ∃ s', s.stop = ([], some w'.outcome, s') ∧ s'.links.channels = w'.links.channels

theorem Told.prompt {phase : Phase} {reports : List Report} (h : Told phase reports w)
    (hphase : phase.isBetweenTurns = true) : Prompt w := by
  have hrun (later : List ServiceEvent) := h.run hphase later
  refine ⟨fun later => (hrun later).reports.trans h.reports.symm,
    fun later => after_handler_of_isBetweenTurns ((hrun later).isBetweenTurns hphase),
    fun later => ?_⟩
  obtain ⟨hended, hstill, -⟩ := (hrun later).step hphase
  exact ⟨by rw [hended, h.stopped], hstill⟩

theorem Sound.completed (h : Sound settings link before w) {result : Except Error Unit}
    (hsettled : w.stopping = .settled result) : Completed settings link before w result := by
  cases h with
  | going stopping => rcases stopping with h | h <;> rw [hsettled] at h <;> cases h
  | unbinding stopping => rw [hsettled] at stopping; cases stopping
  | abandoned stopping => rw [hsettled] at stopping; cases stopping
  | @settled result' exit c stopping phase stopped tended =>
      obtain rfl : result = result' := Stopping.settled.inj (hsettled.symm.trans stopping)
      exact ⟨⟨exit, phase, stopped⟩,
        ⟨c, tended.channel, tended.stands.isOpen, tended.stands.drops, tended.stands.sent⟩,
        refused_of_not_isOpen tended.channel tended.stands.isOpen⟩

theorem Sound.joined (h : Sound settings link before w) (hjoining : w.stopping = .joining)
    {exit : Exit} (hphase : w.receiver.phase = .ended exit) : w.links.isOpen = !exit.closes := by
  cases h with
  | going stopping same trials current tended =>
      rw [hphase] at tended
      exact isOpen_links current tended
  | unbinding stopping => rw [hjoining] at stopping; cases stopping
  | settled stopping => rw [hjoining] at stopping; cases stopping
  | abandoned stopping => rw [hjoining] at stopping; cases stopping

/-- Whatever happens to a queue that was started, it is stopped promptly and in order. -/
theorem stopping_orderly (settings : QueueSettings) {link : Nat} {links : Links} {c : Channel}
    (huses : links.Uses link c) (hopen : c.isOpen = true) (hholder : c.turn.holder = none)
    (hcalls : c.calls = []) (events : List ServiceEvent) :
    Orderly settings link c.socket ((start settings link links c).run events) := by
  have h := (sound_start settings huses hopen hholder hcalls).run events
  exact ⟨fun hidle hphase => ⟨(told_stop hidle).prompt hphase, (told_abandon hidle).prompt hphase⟩,
    fun hjoining exit hphase => h.joined hjoining hphase,
    fun result hsettled => h.completed hsettled,
    fun hidle hphase s hholder hreceiver hlinks hsettings =>
      h.stop_session hidle hphase hholder hreceiver hlinks hsettings⟩

def sampleChannel : Channel := { socket := { port := 7 } }

def sampleLinks : Links := { channels := [sampleChannel], current := some 0 }

theorem stopping_orderly_sampleLinks :
    sampleLinks.Uses 0 sampleChannel ∧ sampleChannel.isOpen = true ∧
      sampleChannel.turn.holder = none ∧ sampleChannel.calls = [] ∧
      (∀ events, Orderly {} 0 sampleChannel.socket
        ((start {} 0 sampleLinks sampleChannel).run events)) ∧
      ((start {} 0 sampleLinks sampleChannel).run
        [.stop, .happens .step, .goOn, .goOn]).outcome = .ok () :=
  ⟨⟨rfl, rfl⟩, rfl, rfl, rfl, stopping_orderly {} ⟨rfl, rfl⟩ rfl rfl rfl, by cbv⟩

end Service

end Netfilter.Queue
