import Netfilter.Proofs.Queue.Serving
import Netfilter.Proofs.Queue.Verdict

/-!
# A datagram of one message

Whatever a handler does with a packet, it takes nothing from the inbox of the
channel that the packet came from. So a session that is handed one message gives
the report of this message, if there is one, and no other.
-/

namespace Netfilter.Queue

theorem VerdictHandle.channel_send {handle : VerdictHandle} {l : Links} {c : Channel}
    (hc : l.channels[handle.link]? = some c) (v : Verdict) (payload : Bytes) :
    ∃ c', (handle.send v payload l).2.channels[handle.link]? = some c' ∧ c'.isOpen = c.isOpen ∧
      c'.socket.inbox = c.socket.inbox ∧ c'.socket.handsOut = c.socket.handsOut := by
  rw [send, Links.onChannel_of_channel hc]
  exact ⟨_, Links.channels_put hc _, v.send_frame handle.queue payload c⟩

namespace Session

variable {s : Session} {r : Receiver} {c : Channel}

/-- There is nothing to report: the receiver has ended, or nothing is left of the datagram it reads
and nothing is to be received. -/
inductive Idle (s : Session) : Prop
  | ended {r : Receiver} {exit : Exit} (receiver : s.receiver = some r)
      (phase : r.phase = .ended exit)
  | looking {r : Receiver} {c : Channel} (receiver : s.receiver = some r)
      (channel : s.links.channels[r.handle.link]? = some c) (isOpen : c.isOpen = true)
      (hands : c.socket.handsOut c.socket.inbox = [])
      (phase : r.phase = .receiving ∨ ∃ table, r.phase = .reading [] table)

theorem Idle.runFor (h : s.Idle) (fuel : Nat) : (s.runFor fuel).1 = [] := by
  induction fuel generalizing s with
  | zero => rfl
  | succ fuel ih =>
      cases h with
      | @ended r exit receiver phase =>
          have hstep : r.step s.links = (.waits, r, s.links) := by
            simp only [Receiver.step, phase]
          simp only [Session.runFor, receiver, hstep]
      | @looking r c receiver channel isOpen hands phase =>
          rcases phase with phase | ⟨table, phase⟩
          · cases hstop : r.stopRequested with
            | true =>
                have hstep : r.step s.links = (.silent, r.endWith .stopped, s.links) := by
                  simp [Receiver.step, phase, hstop]
                simp only [Session.runFor, receiver, hstep]
                exact ih (.ended rfl rfl)
            | false =>
                have hstep : r.step s.links = r.receive s.links := by
                  simp [Receiver.step, phase, hstop]
                rcases Receiver.receive_cases channel isOpen with
                  ⟨-, hr⟩ | ⟨taken, later, hinbox, hr⟩
                · simp only [Session.runFor, receiver, hstep, hr]
                · rw [hinbox, Socket.handsOut_append, List.append_eq_nil_iff] at hands
                  rcases hr with ⟨data, h, -⟩ | ⟨cause, h, -⟩ | ⟨cause, h, -⟩ <;>
                    rw [hands.1] at h <;> cases h
          · have hstep : r.step s.links = (.silent, { r with phase := .receiving }, s.links) := by
              simp [Receiver.step, phase, Receiver.read, Message.next]
            simp only [Session.runFor, receiver, hstep]
            exact ih (.looking rfl channel isOpen hands (.inl rfl))

theorem receiver_act (s : Session) (p : Packet) (a : Action) :
    (s.act p a).2.receiver = s.receiver ∨
      (s.act p a).2.receiver = s.receiver.map (·.takeBack p.lease) := by
  cases a with
  | hold => exact .inl rfl
  | decide disposition mark => exact .inr rfl
  | sendBack disposition edit => exact .inr rfl
  | free => exact .inr rfl
  | breakDown => exact .inr rfl

theorem channel_act {p : Packet} (hc : s.links.channels[p.handle.link]? = some c) (a : Action) :
    ∃ c', (s.act p a).2.links.channels[p.handle.link]? = some c' ∧ c'.isOpen = c.isOpen ∧
      c'.socket.inbox = c.socket.inbox ∧ c'.socket.handsOut = c.socket.handsOut := by
  cases a with
  | decide disposition mark => exact VerdictHandle.channel_send hc ⟨p.info.id, disposition, mark⟩ []
  | sendBack disposition edit =>
      exact VerdictHandle.channel_send hc ⟨p.info.id, disposition, none⟩ (edit.apply p.payload)
  | hold => exact ⟨c, hc, rfl, rfl, rfl⟩
  | free => exact ⟨c, hc, rfl, rfl, rfl⟩
  | breakDown => exact ⟨c, hc, rfl, rfl, rfl⟩

/-- The handler is called once, and after the last packet of the last datagram nothing is left. -/
theorem handle_last {p : Packet} {table : FieldTable} (hr : s.receiver = some r)
    (hphase : r.phase = .handling [] table) (hhandle : p.handle = r.handle)
    (hc : s.links.channels[r.handle.link]? = some c) (hopen : c.isOpen = true)
    (hands : c.socket.handsOut c.socket.inbox = []) :
    (s.handle p).1.filterMap Event.report? = [.packet p.info p.payload p.handle] ∧
      (s.handle p).2.Idle := by
  let instruction := s.plan.headD s.otherwise
  let s₁ : Session := { s with plan := s.plan.tail }
  have hreceiver := receiver_act s₁ p instruction.action
  obtain ⟨c', hc', hopen', hinbox, hsame⟩ := channel_act (s := s₁) (hhandle ▸ hc) instruction.action
  rw [hhandle] at hc'
  rw [← hopen'] at hopen
  rw [← hsame, ← hinbox] at hands
  -- an action may take a buffer back, but it leaves the receiver in its phase
  have hacted : ∃ r', (s₁.act p instruction.action).2.receiver = some r' ∧
      r'.phase = .handling [] table ∧ r'.handle = r.handle := by
    have hr₁ : s₁.receiver = some r := hr
    rcases hreceiver with h | h
    · exact ⟨r, h.trans hr₁, hphase, rfl⟩
    · rw [hr₁] at h
      exact ⟨_, h, hphase, rfl⟩
  obtain ⟨r', hr', hphase', hsamehandle⟩ := hacted
  rw [← hsamehandle] at hc'
  rcases hacts : s₁.act p instruction.action with ⟨done, s₂⟩
  rw [hacts] at hr' hc'
  dsimp only at hr' hc'
  cases done with
  | none =>
      have hdone : s.handle p =
          ([.packet p], { s₂ with receiver := s₂.receiver.map (·.endWith .aborted) }) := by
        simp only [handle, s₁, instruction, hacts] at hacts ⊢
      rw [hdone]
      exact ⟨rfl, .ended (congrArg (Option.map _) hr') rfl⟩
  | some done =>
      have hdone : s.handle p = ([.packet p, .done done],
          { s₂.withLinks (r'.resume instruction.flow s₂.links).2 with
            receiver := some (r'.resume instruction.flow s₂.links).1 }) := by
        simp only [handle, s₁, instruction, hacts, hr'] at hacts ⊢
      rw [hdone]
      refine ⟨rfl, ?_⟩
      cases instruction.flow with
      | proceed =>
          simp only [Receiver.resume, hphase']
          exact .looking rfl hc' hopen hands (.inr ⟨table, rfl⟩)
      | stop =>
          simp only [Receiver.resume, hphase']
          exact .ended rfl rfl

structure Awaits (s : Session) (r : Receiver) (c : Channel) : Prop where
  receiver : s.receiver = some r
  phase : r.phase = .receiving
  unstopped : r.stopRequested = false
  channel : s.links.channels[r.handle.link]? = some c
  isOpen : c.isOpen = true
  pool : r.pool.Consistent
  available : 0 < r.pool.available

/-- The receiver leases a buffer for the packet and hands it to the handler. -/
theorem reports_of_leasing {info : PacketInfo} {payload : Bytes} {table : FieldTable}
    (hr : s.receiver = some r) (hphase : r.phase = .leasing info payload [] table)
    (hstop : r.stopRequested = false) (hpool : r.pool.Consistent) (hfree : 0 < r.pool.available)
    (hc : s.links.channels[r.handle.link]? = some c) (hopen : c.isOpen = true)
    (hands : c.socket.handsOut c.socket.inbox = []) (fuel : Nat) :
    (s.runFor (fuel + 1)).1.filterMap Event.report? = [.packet info payload r.handle] := by
  rcases hpool.lease?_cases with ⟨hnone, -⟩ | ⟨i, free, data, generation, -, -, hlease⟩
  · omega
  · let p : Packet := ⟨info, ⟨i, generation, payload⟩, r.handle⟩
    have hstep : ∃ pool, r.step s.links =
        (.reports (.packet p), { r with pool, phase := .handling [] table }, s.links) :=
      ⟨_, by simp only [Receiver.step, hphase, hstop, Bool.false_eq_true, if_false,
        Receiver.handOver, hlease]; rfl⟩
    obtain ⟨pool, hstep⟩ := hstep
    have hhandled := handle_last
      (s := { s.withLinks s.links with
        receiver := some { r with pool, phase := .handling [] table } })
      (p := p) rfl rfl rfl hc hopen hands
    simp only [Session.runFor, hr, hstep]
    generalize handle _ p = handled at hhandled ⊢
    obtain ⟨events, s'⟩ := handled
    obtain ⟨hreports, hidle⟩ := hhandled
    simp only [List.filterMap_append, hidle.runFor fuel]
    rw [hreports]
    rfl

theorem reports_of_reading {data : Bytes} {m : Message} {table : FieldTable}
    (hr : s.receiver = some r) (hphase : r.phase = .reading data table)
    (hstop : r.stopRequested = false) (hpool : r.pool.Consistent) (hfree : 0 < r.pool.available)
    (hc : s.links.channels[r.handle.link]? = some c) (hopen : c.isOpen = true)
    (hands : c.socket.handsOut c.socket.inbox = [])
    (hnext : Message.next data = some (.ok m, [])) (fuel : Nat) :
    (s.runFor (fuel + 2)).1.filterMap Event.report? =
      (Report.ofMessage? r.handle m).toList := by
  have hreads := Notice.report?_ofMessage r.handle m table
  have hstep : r.step s.links = ((r.read data table).1, (r.read data table).2, s.links) := by
    simp only [Receiver.step, hphase]
  simp only [Receiver.read, hnext] at hstep
  generalize Notice.ofMessage r.handle.queue m table = read at hreads hstep
  obtain ⟨notice, table⟩ := read
  rw [← hreads]
  cases notice with
  | nothing =>
      have hidle : Idle { s.withLinks s.links with
          receiver := some { r with phase := .reading [] table } } :=
        .looking rfl hc hopen hands (.inr ⟨table, rfl⟩)
      simp only [Session.runFor.eq_2 _ (fuel + 1), hr, hstep, hidle.runFor (fuel + 1)]
      rfl
  | failed cause =>
      have hidle : Idle { s.withLinks s.links with
          receiver := some { r with phase := .reading [] table } } :=
        .looking rfl hc hopen hands (.inr ⟨table, rfl⟩)
      simp only [Session.runFor.eq_2 _ (fuel + 1), hr, hstep, hidle.runFor (fuel + 1)]
      rfl
  | packet info payload =>
      have hleased := reports_of_leasing
        (s := { s.withLinks s.links with
          receiver := some { r with phase := .leasing info payload [] table } })
        rfl rfl hstop hpool hfree hc hopen hands fuel
      simp only [Session.runFor.eq_2 _ (fuel + 1), hr, hstep, hleased]
      rfl

theorem Awaits.reports (h : s.Awaits r c) {data : Bytes} {m : Message}
    (hands : c.socket.handsOut c.socket.inbox = [.ok data])
    (hnext : Message.next data = some (.ok m, [])) :
    s.run.1.filterMap Event.report? = (Report.ofMessage? r.handle m).toList := by
  have hrun : s.run = s.runFor (r.stepBound s.links) := by simp only [Session.run, h.receiver]
  have hcost := Receiver.cost_lt_stepBound h.channel
  have hreceipt := receiptCost_le_of_handsOut hands
  rw [h.phase] at hcost
  simp only [Phase.cost, receiptCost] at hcost hreceipt
  obtain ⟨fuel, hfuel⟩ := Nat.exists_eq_add_of_le' (show 3 ≤ r.stepBound s.links by omega)
  have hstep : r.step s.links = r.receive s.links := by
    simp [Receiver.step, h.phase, h.unstopped]
  rw [hrun, hfuel]
  rcases Receiver.receive_cases h.channel h.isOpen with ⟨hnone, -⟩ | ⟨taken, later, hinbox, hr⟩
  · rw [hands] at hnone
    cases hnone
  rw [hinbox, Socket.handsOut_append] at hands
  -- what is handed out first is all that is handed out
  rcases hr with ⟨data', htaken, hr⟩ | ⟨cause, htaken, -⟩ | ⟨cause, htaken, -⟩
  · rw [htaken, List.singleton_append, List.cons.injEq, Except.ok.injEq] at hands
    obtain ⟨rfl, hlater⟩ := hands
    have hread := reports_of_reading
      (s := { s.withLinks (s.links.put r.handle.link (c.withInbox later)) with
        receiver := some { r with phase := .reading data' Table.empty } })
      rfl rfl h.unstopped h.pool h.available (Links.channels_put h.channel _) h.isOpen hlater
      hnext fuel
    simp only [Session.runFor.eq_2 _ (fuel + 2), h.receiver, hstep, hr, hread]
  · rw [htaken] at hands
    cases hands
  · rw [htaken] at hands
    cases hands

end Session

end Netfilter.Queue
