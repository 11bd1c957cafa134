import Mathlib
import Netfilter.Proofs.Queue.Delivery

/-!
# Receivers report exactly what is to be reported

Whatever happens, and in whatever order, the reports are the beginning of what is
to be reported. They are all of it when the receiver waits for a datagram, as far
as it has taken the receipts, and when it has ended. It waits only if it has to.
-/

namespace Netfilter.Queue

/-- The reports of a delivery are what the receipts give rise to, and a receiver that waits has a
reason to. `taken` are the receipts it has taken from the inbox of its channel `c`. -/
structure Exact (handle : VerdictHandle) (w : Delivery) (taken : List Receipt) (c : Channel) :
    Prop where
  channel : w.links.channels[handle.link]? = some c
  arrived : w.arrived = taken ++ c.socket.inbox
  /-- Nothing is reported out of order, twice, or after the end. -/
  inOrder : w.reports <+: expected handle w.answers (c.socket.handsOut w.arrived)
  /-- While the receiver waits for a datagram, nothing that was taken is unreported. -/
  complete : w.receiver.phase = .receiving →
    w.reports = (c.socket.handsOut taken).flatMap (Report.ofReceipt handle)
  /-- The receiver waits only if nothing is to be received or no buffer is free, or if the handler
  has not answered, or if it has ended. -/
  waiting : (w.receiver.step w.links).1 = .waits →
    (w.receiver.phase = .receiving ∧ c.socket.handsOut c.socket.inbox = []) ∨
      (∃ info payload rest table, w.receiver.phase = .leasing info payload rest table ∧
        w.receiver.pool.available = 0) ∨
      (∃ rest table, w.receiver.phase = .handling rest table) ∨
      ∃ exit, w.receiver.phase = .ended exit
  /-- The receiver ends after a fatal receipt or a packet after which the handler wants no more,
  when all is reported and the channel is closed. -/
  ended : ∀ exit, w.receiver.phase = .ended exit →
    w.reports = expected handle w.answers (c.socket.handsOut w.arrived) ∧ c.isOpen = false ∧
      ((exit = .failed ∧ ∃ before r, c.socket.handsOut taken = before ++ [r] ∧ isFatal r = true) ∨
        exit = .finished ∧ w.answers.getLast? = some .stop)

namespace Accounted

variable {handle : VerdictHandle} {w : Delivery} {taken : List Receipt} {c : Channel}

theorem waiting (h : Accounted handle w taken c) (hw : (w.receiver.step w.links).1 = .waits) :
    (w.receiver.phase = .receiving ∧ c.socket.handsOut c.socket.inbox = []) ∨
      (∃ info payload rest table, w.receiver.phase = .leasing info payload rest table ∧
        w.receiver.pool.available = 0) ∨
      (∃ rest table, w.receiver.phase = .handling rest table) ∨
      ∃ exit, w.receiver.phase = .ended exit := by
  obtain rfl := h.handle_eq
  unfold Receiver.step at hw
  cases hphase : w.receiver.phase with
  | receiving =>
      have hlooks : w.receiver.phase.isLooking = true := by rw [hphase]; rfl
      obtain ⟨hopen, -⟩ := (Standing.looking_iff hlooks).1 h.standing
      simp only [hphase, h.unstopped, Bool.false_eq_true, if_false] at hw
      rcases Receiver.receive_cases h.channel hopen with ⟨hands, -⟩ | ⟨now, later, -, hr⟩
      · exact .inl ⟨rfl, hands⟩
      · rcases hr with ⟨data, -, hr⟩ | ⟨cause, -, -, hr⟩ | ⟨cause, -, -, hr⟩ <;>
          rw [hr] at hw <;> cases hw
  | reading rest table =>
      obtain ⟨move, phase, hread, -, -, -, hmove⟩ := w.receiver.read_cases rest table
      simp only [hphase, hread] at hw
      exact absurd hw hmove
  | leasing info payload rest table =>
      simp only [hphase, h.unstopped, Bool.false_eq_true, if_false] at hw
      rcases Receiver.handOver_cases h.pool info payload rest table with
        ⟨hnone, -⟩ | ⟨event, pool, -, -, hh⟩
      · exact .inr (.inl ⟨info, payload, rest, table, rfl, hnone⟩)
      · rw [hh] at hw
        cases hw
  | handling rest table => exact .inr (.inr (.inl ⟨rest, table, rfl⟩))
  | ended exit => exact .inr (.inr (.inr ⟨exit, rfl⟩))

theorem exact (h : Accounted handle w taken c) : Exact handle w taken c := by
  have hstanding := h.standing
  obtain ⟨hbegins, hend⟩ := hstanding.reports_prefix_expected (c.socket.handsOut c.socket.inbox)
  rw [← Socket.handsOut_append, ← h.arrived] at hbegins hend
  refine ⟨h.channel, h.arrived, hbegins, ?_, h.waiting, ?_⟩
  · intro hphase
    have hlooks : w.receiver.phase.isLooking = true := by rw [hphase]; rfl
    obtain ⟨-, -, -, -, total⟩ := (Standing.looking_iff hlooks).1 hstanding
    rw [total, hphase]
    exact (List.append_nil _).symm
  · intro exit hphase
    refine ⟨hend exit hphase, ?_⟩
    rw [hphase] at hstanding
    obtain ⟨hclosed, hwhy⟩ := hstanding.of_ended
    exact ⟨hclosed, hwhy⟩

end Accounted

/-- Whatever arrives, and whenever steps are made, packets are answered, buffers are given back and
verdicts are sent: a receiver on an open channel reports exactly what its receipts give rise to. -/
theorem delivery_exact (handle : VerdictHandle) (count bufferSize : Nat) (links : Links)
    (c : Channel) (hc : links.channels[handle.link]? = some c) (hopen : c.isOpen = true)
    (happenings : List Happening) :
    ∃ taken c', Exact handle ((Delivery.start handle count bufferSize links c).run happenings)
      taken c' := by
  obtain ⟨taken, c', h⟩ := (accounted_start hc hopen).run happenings
  exact ⟨taken, c', h.exact⟩

def sampleNotification : Bytes :=
  Message.Header.encode ⟨32, Message.typeOf Subsystem.queue Operation.packet.number, 0, 0, 0⟩
    ++ FamilyHeader.encode { family := 2, resource := 7 }
    ++ Attribute.encode ⟨Field.packetHeader.rawType, [0, 0, 0, 42, 8, 0, 1]⟩

/-- The same packet is notified twice, notifications are lost, and then the socket breaks. -/
def sampleChannel : Channel where
  socket := {
    port := 4242
    inbox := [.ok (sampleNotification ++ sampleNotification), .error (.os Errno.noBufferSpace),
      .error .brokenPipe] }

/-- With one buffer, the second packet has to wait until the first one is given back. -/
def sampleRun : Delivery :=
  (Delivery.start ⟨0, 7⟩ 1 64 { channels := [sampleChannel] } sampleChannel).run
    [.step, .step, .step, .answer .proceed, .step, .step, .giveBack ⟨0, 0, []⟩, .step,
      .answer .proceed, .step, .step, .step]

def sampleReport : Report :=
  .packet ⟨42, 0x0800, 1, none, none, none, none, none, none, none, none⟩ [] ⟨0, 7⟩

theorem delivery_exact_sampleRun :
    sampleChannel.isOpen = true ∧ (∃ taken c, Exact ⟨0, 7⟩ sampleRun taken c) ∧
      sampleRun.receiver.phase = .ended .failed ∧ sampleRun.reports =
        [sampleReport, sampleReport, .failed .noBuffers, .failed (.io .brokenPipe)] := by
  refine ⟨rfl, delivery_exact ⟨0, 7⟩ 1 64 _ sampleChannel rfl rfl _, ?_, ?_⟩
  · cbv
  · cbv

end Netfilter.Queue
