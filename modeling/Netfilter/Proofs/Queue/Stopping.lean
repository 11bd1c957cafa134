import Netfilter.Proofs.NotOpen
import Netfilter.Proofs.Queue.Delivery
import Netfilter.Proofs.Queue.Setup
import Netfilter.Proofs.Queue.VerdictMessage

/-!
# Stopping a queue, step by step

A service is a queue that was started. Whoever has it may stop it: the receiver
is told to stop and waited for, the queue is unbound if its channel is still
open, and then the channel is closed whatever came of that. The service may also
be abandoned, with the same word to the receiver and nothing else.

A receiver that was told to stop between two of its turns makes no report and
takes nothing from the inbox any more. The channel is closed by the receiver or
by the stopping, once.
-/

namespace Netfilter

namespace Channel

/-- The channel is open, or closed with its socket dropped once. Nobody's call is under way, and it
has sent these datagrams since its socket was as `before`. -/
structure Stands (before : Socket) (sent : List Bytes) (whole : Bool) (c : Channel) : Prop where
  isOpen : c.isOpen = whole
  holder : c.turn.holder = none
  calls : c.calls = []
  port : c.socket.port = before.port
  drops : c.socket.drops = before.drops + if whole then 0 else 1
  sent : c.socket.sent = before.sent ++ sent

variable {before : Socket} {sent : List Bytes} {whole : Bool} {c : Channel}

theorem stands_true_iff : c.Stands before sent true ↔ c.Ready before sent :=
  ⟨fun h => ⟨h.isOpen, h.holder, h.calls, h.port, h.drops, h.sent⟩,
    fun h => ⟨h.isOpen, h.holder, h.calls, h.port, h.drops, h.sent⟩⟩

/-- What does not touch these things does not change where the channel stands. -/
theorem Stands.amid (h : c.Stands before sent whole) (world : Channel) :
    (c.amid world).Stands before sent whole where
  isOpen := h.isOpen
  holder := h.holder
  calls := h.calls
  port := h.port
  drops := h.drops
  sent := h.sent

theorem Stands.close (h : c.Stands before sent whole) : c.close.2.Stands before sent false := by
  have hclose : c.close.2 = { c with
      isOpen := false
      socket := if whole then c.socket.drop else c.socket } := by
    cases whole <;> simp [Channel.close, settle, usesSocket, h.isOpen, h.calls]
  rw [hclose]
  refine ⟨rfl, h.holder, h.calls, ?_, ?_, ?_⟩ <;> cases whole
  · exact h.port
  · exact h.port
  · exact h.drops
  · exact congrArg (· + 1) h.drops
  · exact h.sent
  · exact h.sent

end Channel

namespace Queue

inductive Stopping
  | idle
  /-- The receiver was told to stop and is waited for. -/
  | joining
  /-- The queue is being unbound, by the request of this number. -/
  | unbinding (seq : UInt32)
  | settled (result : Except Error Unit)
  /-- Nobody has the queue any more. -/
  | abandoned

structure Service where
  delivery : Delivery
  settings : QueueSettings
  stopping : Stopping := .idle
  trials : List Trial := []

inductive ServiceEvent
  | happens (happening : Happening)
  | breaksDown
  | stop
  | abandon
  /-- The stopping is gone on with. -/
  | goOn

namespace Service

def start (settings : QueueSettings) (link : Nat) (links : Links) (c : Channel) : Service where
  delivery := .start ⟨link, settings.number⟩ settings.poolSize.toNat settings.bufferSize links c
  settings := settings

def receiver (w : Service) : Receiver := w.delivery.receiver

def links (w : Service) : Links := w.delivery.links

def withReceiver (w : Service) (receiver : Receiver) : Service :=
  { w with delivery := { w.delivery with receiver } }

def withLinks (w : Service) (links : Links) : Service :=
  { w with delivery := { w.delivery with links } }

/-- Whatever came of the attempt to unbind, the channel is closed. -/
def conclude (w : Service) (t : Trial) : Service :=
  { w.withLinks w.links.close with
    stopping := .settled (t.result.mapError (·.during t.request.label))
    trials := w.trials ++ [t] }

def unbind (w : Service) : Service :=
  if w.links.isOpen then
    match w.links.request (Request.unbind.draft w.settings) with
    | (.error e, links) => (w.withLinks links).conclude ⟨.unbind, none, .error e⟩
    | (.ok seq, links) => { w.withLinks links with stopping := .unbinding seq }
  else { w.withLinks w.links.close with stopping := .settled (.ok ()) }

def goOn (w : Service) : Service :=
  match w.stopping with
  | .joining => if w.receiver.hasEnded then w.unbind else w
  | .unbinding seq =>
      match w.links.await seq with
      | (.pending, links) => w.withLinks links
      | (.ok (), links) => (w.withLinks links).conclude ⟨.unbind, some seq, .ok ()⟩
      | (.error e, links) => (w.withLinks links).conclude ⟨.unbind, some seq, .error e⟩
  | .idle | .settled _ | .abandoned => w

def breakDown (w : Service) : Service :=
  match w.receiver.phase with
  | .handling _ _ => w.withReceiver (w.receiver.endWith .aborted)
  | _ => w

def requestStop (w : Service) : Service := w.withReceiver w.receiver.requestStop

def after (w : Service) : ServiceEvent → Service
  | .happens happening => { w with delivery := w.delivery.after happening }
  | .breaksDown => w.breakDown
  | .stop =>
      match w.stopping with
      | .idle => { w.requestStop with stopping := .joining }
      | _ => w
  | .abandon =>
      match w.stopping with
      | .settled _ => w
      | _ => { w.requestStop.withLinks w.links.release with stopping := .abandoned }
  | .goOn => w.goOn

def run (w : Service) (events : List ServiceEvent) : Service := events.foldl after w

def outcome (w : Service) : Outcome Unit :=
  match w.stopping with
  | .settled result => .ofExcept result
  | _ => .pending

end Service

/-- This is how a session starts a receiver. -/
theorem Service.receiver_start {s : Session} (hholder : s.holder = .binding)
    (hnone : s.receiver = none) {link : Nat} {c : Channel} (huses : s.links.Uses link c)
    (hopen : c.isOpen = true) (plan : List Instruction) :
    (s.start plan).2.receiver = some (Service.start s.binding.settings link s.links c).receiver ∧
      (s.start plan).2.binding = s.binding := by
  have hhandle : s.verdictHandle? = some (.ok ⟨link, s.binding.settings.number⟩) := by
    simp only [Session.verdictHandle?, hholder, hnone, huses.openNumber? hopen]
  rw [Session.start, hhandle]
  exact ⟨rfl, rfl⟩

/-- Between two of its turns, a receiver waits for a datagram or a buffer, or has ended. -/
def Phase.isBetweenTurns : Phase → Bool
  | .receiving | .leasing _ _ _ _ | .ended _ => true
  | .reading _ _ | .handling _ _ => false

/-- Where a receiver that is told to stop in this phase is after its next turn. -/
def Phase.stopped (phase : Phase) : Phase :=
  match phase with
  | .ended exit => .ended exit
  | _ => .ended .stopped

theorem Receiver.step_of_stopRequested {r : Receiver} (hstop : r.stopRequested = true)
    (hphase : r.phase.isBetweenTurns = true) (l : Links) :
    ∃ move, r.step l = (move, { r with phase := r.phase.stopped }, l) ∧ move.report? = none := by
  obtain ⟨handle, pool, stopRequested, phase⟩ := r
  obtain rfl : stopRequested = true := hstop
  cases phase with
  | receiving => exact ⟨.silent, rfl, rfl⟩
  | leasing info payload rest table => exact ⟨.silent, rfl, rfl⟩
  | ended exit => exact ⟨.waits, rfl, rfl⟩
  | reading rest table => cases hphase
  | handling rest table => cases hphase

namespace Service

structure Told (phase : Phase) (reports : List Report) (w : Service) : Prop where
  requested : w.receiver.stopRequested = true
  phase : w.receiver.phase = phase ∨ w.receiver.phase = phase.stopped
  reports : w.delivery.reports = reports

variable {phase : Phase} {reports : List Report} {w w' : Service}

theorem Phase.stopped_stopped (phase : Phase) : phase.stopped.stopped = phase.stopped := by
  cases phase <;> rfl

theorem Told.stopped (h : Told phase reports w) : w.receiver.phase.stopped = phase.stopped := by
  rcases h.phase with hp | hp <;> rw [hp]
  exact Phase.stopped_stopped phase

theorem Told.isBetweenTurns (h : Told phase reports w) (hphase : phase.isBetweenTurns = true) :
    w.receiver.phase.isBetweenTurns = true := by
  rcases h.phase with hp | hp <;> rw [hp]
  · exact hphase
  · cases phase <;> rfl

theorem Told.step (h : Told phase reports w) (hphase : phase.isBetweenTurns = true) :
    (w.after (.happens .step)).receiver = { w.receiver with phase := phase.stopped } ∧
      (w.after (.happens .step)).links = w.links ∧
      (w.after (.happens .step)).delivery.reports = reports := by
  obtain ⟨move, hstep, hnone⟩ :=
    Receiver.step_of_stopRequested h.requested (h.isBetweenTurns hphase) w.links
  rw [h.stopped] at hstep
  simp only [after, Delivery.after, receiver, links] at hstep ⊢
  rw [hstep, hnone, Option.toList_none, List.append_nil]
  exact ⟨rfl, rfl, h.reports⟩

theorem Told.of_same (h : Told phase reports w)
    (hrequested : w'.receiver.stopRequested = true)
    (hsame : w'.receiver.phase = w.receiver.phase)
    (hreports : w'.delivery.reports = w.delivery.reports) : Told phase reports w' :=
  ⟨hrequested, hsame ▸ h.phase, hreports.trans h.reports⟩

/-- Going on with the stopping leaves the receiver alone. -/
theorem receiver_goOn (w : Service) :
    w.goOn.receiver = w.receiver ∧ w.goOn.delivery.reports = w.delivery.reports := by
  unfold goOn unbind
  cases w.stopping with
  | idle => exact ⟨rfl, rfl⟩
  | settled result => exact ⟨rfl, rfl⟩
  | abandoned => exact ⟨rfl, rfl⟩
  | joining =>
      dsimp only
      split_ifs
      · rcases w.links.request (Request.unbind.draft w.settings) with ⟨_ | _, links⟩ <;>
          exact ⟨rfl, rfl⟩
      · exact ⟨rfl, rfl⟩
      · exact ⟨rfl, rfl⟩
  | unbinding seq =>
      dsimp only
      rcases w.links.await seq with ⟨_ | _ | _, links⟩ <;> exact ⟨rfl, rfl⟩

/-- Between two turns of the receiver, no handler is at work that could answer or break down. -/
theorem after_handler_of_isBetweenTurns (hphase : w.receiver.phase.isBetweenTurns = true) :
    (∀ flow, w.after (.happens (.answer flow)) = w) ∧ w.after .breaksDown = w := by
  have hnot (rest : Bytes) (table : FieldTable) : w.receiver.phase ≠ .handling rest table := by
    intro hhandling
    rw [hhandling] at hphase
    cases hphase
  constructor
  · intro flow
    exact congrArg (fun delivery => { w with delivery }) (Delivery.after_answer_of_idle hnot flow)
  · change w.breakDown = w
    unfold breakDown
    split
    · next hp => exact absurd hp (hnot _ _)
    · rfl

theorem Told.after (h : Told phase reports w) (hphase : phase.isBetweenTurns = true)
    (event : ServiceEvent) : Told phase reports (w.after event) := by
  obtain ⟨hanswer, hbreak⟩ := after_handler_of_isBetweenTurns (h.isBetweenTurns hphase)
  -- only a step of its own changes the receiver, and there is no handler at work
  cases event with
  | happens happening =>
      cases happening with
      | step =>
          obtain ⟨hreceiver, -, hreports⟩ := h.step hphase
          refine ⟨?_, .inr ?_, hreports⟩ <;> rw [hreceiver]
          exact h.requested
      | answer flow =>
          rw [hanswer flow]
          exact h
      | arrival r => exact h.of_same h.requested rfl rfl
      | giveBack lease => exact h.of_same h.requested rfl rfl
      | verdict v payload => exact h.of_same h.requested rfl rfl
  | breaksDown =>
      rw [hbreak]
      exact h
  | stop =>
      simp only [Service.after]
      cases w.stopping with
      | idle => exact h.of_same rfl rfl rfl
      | _ => exact h
  | abandon =>
      simp only [Service.after]
      cases w.stopping with
      | settled result => exact h
      | _ => exact h.of_same rfl rfl rfl
  | goOn =>
      obtain ⟨hreceiver, hreports⟩ := w.receiver_goOn
      have hrequested : (w.after .goOn).receiver.stopRequested = true := by
        change w.goOn.receiver.stopRequested = true
        rw [hreceiver]
        exact h.requested
      exact h.of_same hrequested (congrArg Receiver.phase hreceiver) hreports

theorem Told.run (h : Told phase reports w) (hphase : phase.isBetweenTurns = true)
    (events : List ServiceEvent) : Told phase reports (w.run events) := by
  induction events generalizing w with
  | nil => exact h
  | cons event events ih => exact ih (h.after hphase event)

end Service

end Queue

end Netfilter
