import Netfilter.Proofs.Link.Links
import Netfilter.Proofs.Link.Receiving
import Netfilter.Proofs.Pool.Basic
import Netfilter.Proofs.Queue.Expected

/-!
# What a receiver does in one step

In each phase a step takes receipts from the inbox, or reports the first of what
is pending, or hands a packet over, or finds that it has to wait.
-/

namespace Netfilter.Queue

/-- What may come of a receive, given the receipts taken for it, the receipts left behind and what
was handed out. -/
theorem Receiver.receive_cases {r : Receiver} {l : Links} {c : Channel}
    (hc : l.channels[r.handle.link]? = some c) (hopen : c.isOpen = true) :
    (c.socket.handsOut c.socket.inbox = [] ∧
        r.receive l = (.waits, r, l.put r.handle.link (c.withInbox []))) ∨
      ∃ taken later, c.socket.inbox = taken ++ later ∧
        ((∃ data, c.socket.handsOut taken = [.ok data] ∧
            r.receive l = (.silent, { r with phase := .reading data Table.empty },
              l.put r.handle.link (c.withInbox later))) ∨
          (∃ cause, c.socket.handsOut taken = [.error cause] ∧ cause.isNoBufferSpace = true ∧
            r.receive l = (.reports (.failed (.ofReceive cause)), r,
              l.put r.handle.link (c.withInbox later))) ∨
          ∃ cause, c.socket.handsOut taken = [.error cause] ∧ cause.isNoBufferSpace = false ∧
            r.receive l = (.reports (.failed (.ofReceive cause)), r.endWith .failed,
              r.closing (l.put r.handle.link (c.withInbox later)))) := by
  unfold receive
  rw [Links.onChannel_of_channel hc]
  rcases Channel.receive_cases hopen with ⟨hands, hr⟩ | ⟨taken, later, receipt, hinbox, hands, hr⟩
  · rw [hr]
    exact .inl ⟨hands, rfl⟩
  · refine .inr ⟨taken, later, hinbox, ?_⟩
    rw [hr]
    cases receipt with
    | ok data => exact .inl ⟨data, hands, rfl⟩
    | error cause =>
        cases hno : cause.isNoBufferSpace with
        | true =>
            have hof : Error.ofReceive cause = .noBuffers := by simp [Error.ofReceive, hno]
            refine .inr (.inl ⟨cause, hands, hno, ?_⟩)
            simp only [Channel.received, Except.mapError, hof, Outcome.ofExcept]
        | false =>
            have hof : Error.ofReceive cause = .io cause := by simp [Error.ofReceive, hno]
            refine .inr (.inr ⟨cause, hands, hno, ?_⟩)
            simp only [Channel.received, Except.mapError, hof, Outcome.ofExcept]

def Move.report? : Move → Option Report
  | .waits | .silent => none
  | .reports event => some event.report

/-- What a receiver still has to report of the datagram it has at hand. -/
def pending (handle : VerdictHandle) : Phase → List Report
  | .receiving | .ended _ => []
  | .reading rest _ | .handling rest _ => Report.ofDatagram handle rest
  | .leasing info payload rest _ => .packet info payload handle :: Report.ofDatagram handle rest

def Phase.isLooking : Phase → Bool
  | .receiving | .reading _ _ | .leasing _ _ _ _ => true
  | .handling _ _ | .ended _ => false

/-- Reading the next message reports the first of what was pending, or nothing yet. -/
theorem Receiver.read_cases (r : Receiver) (rest : Bytes) (table : FieldTable) :
    ∃ move phase, r.read rest table = (move, { r with phase }) ∧ phase.isLooking = true ∧
      Report.ofDatagram r.handle rest = move.report?.toList ++ pending r.handle phase ∧
      (∀ report ∈ move.report?, report.isPacket = false) ∧ move ≠ .waits := by
  unfold read
  match hn : Message.next rest with
  | none =>
      exact ⟨_, _, rfl, rfl, Report.ofDatagram_of_next_none hn, fun _ hr => (by cases hr), nofun⟩
  | some (.error e, left) =>
      refine ⟨_, _, rfl, rfl, Report.ofDatagram_of_next_error hn, ?_, nofun⟩
      intro report hreport
      obtain rfl := Option.some.inj hreport
      rfl
  | some (.ok m, left) =>
      have hreads := Notice.report?_ofMessage r.handle m table
      have hlist : Report.ofDatagram r.handle rest = _ := Report.ofDatagram_of_next_ok hn
      rw [← hreads] at hlist
      dsimp only
      generalize Notice.ofMessage r.handle.queue m table = read at hlist ⊢
      obtain ⟨notice, table⟩ := read
      cases notice with
      | nothing => exact ⟨_, _, rfl, rfl, hlist, fun _ hr => (by cases hr), nofun⟩
      | packet info payload => exact ⟨_, _, rfl, rfl, hlist, fun _ hr => (by cases hr), nofun⟩
      | failed e =>
          refine ⟨_, _, rfl, rfl, hlist, ?_, nofun⟩
          intro report hreport
          obtain rfl := Option.some.inj hreport
          rfl

theorem Receiver.handOver_cases {r : Receiver} (h : r.pool.Consistent) (info : PacketInfo)
    (payload rest : Bytes) (table : FieldTable) :
    (r.pool.available = 0 ∧ r.handOver info payload rest table = (.waits, r)) ∨
      ∃ event pool, pool.Consistent ∧ event.report = .packet info payload r.handle ∧
        r.handOver info payload rest table =
          (.reports event, { r with pool, phase := .handling rest table }) := by
  have hpool := h.lease?
  unfold handOver
  rcases h.lease?_cases with ⟨hnone, hl⟩ | ⟨i, free, data, generation, -, -, hl⟩
  · rw [hl]
    exact .inl ⟨hnone, rfl⟩
  · rw [hl] at hpool ⊢
    exact .inr ⟨_, _, hpool, rfl, rfl⟩

theorem Receiver.receive_frame (r : Receiver) (l : Links) :
    ∃ phase, (r.receive l).2.1 = { r with phase } := by
  unfold receive
  generalize l.onChannel r.handle.link (.error .notOpen) (·.receive) = received
  obtain ⟨outcome, l⟩ := received
  cases outcome with
  | pending => exact ⟨_, rfl⟩
  | ok data => exact ⟨_, rfl⟩
  | error e => cases e <;> exact ⟨_, rfl⟩

/-- A step changes the phase, and the pool when a buffer is taken out of it. -/
theorem Receiver.step_frame (r : Receiver) (l : Links) :
    ∃ pool phase, (r.step l).2.1 = { r with pool, phase } ∧
      (pool = r.pool ∨ pool = r.pool.lease?.2) := by
  obtain ⟨handle, pool, stopRequested, phase⟩ := r
  cases phase with
  | receiving =>
      cases stopRequested with
      | true => exact ⟨pool, .ended .stopped, rfl, .inl rfl⟩
      | false =>
          obtain ⟨phase, hreceive⟩ := receive_frame ⟨handle, pool, false, .receiving⟩ l
          exact ⟨pool, phase, hreceive, .inl rfl⟩
  | reading rest table =>
      obtain ⟨move, phase, hread, -⟩ :=
        read_cases ⟨handle, pool, stopRequested, .reading rest table⟩ rest table
      refine ⟨pool, phase, ?_, .inl rfl⟩
      simp only [step, hread]
  | leasing info payload rest table =>
      cases stopRequested with
      | true => exact ⟨pool, .ended .stopped, rfl, .inl rfl⟩
      | false =>
          simp only [step, handOver, Bool.false_eq_true, if_false]
          rcases pool.lease? with ⟨_ | lease, pool'⟩
          · exact ⟨pool', .leasing info payload rest table, rfl, .inr rfl⟩
          · exact ⟨pool', .handling rest table, rfl, .inr rfl⟩
  | handling rest table => exact ⟨pool, .handling rest table, rfl, .inl rfl⟩
  | ended exit => exact ⟨pool, .ended exit, rfl, .inl rfl⟩

theorem Receiver.resume_frame (r : Receiver) (flow : Flow) (l : Links) :
    ∃ phase, (r.resume flow l).1 = { r with phase } := by
  unfold resume
  split <;> exact ⟨_, rfl⟩

end Netfilter.Queue
