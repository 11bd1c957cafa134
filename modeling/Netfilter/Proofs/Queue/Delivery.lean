import Netfilter.Proofs.Queue.Standing
import Netfilter.Proofs.Queue.Verdict

/-!
# Deliveries

A delivery is a receiver together with its links and a record of what arrived, of
what was reported and of what the handler answered. Whatever happens, what arrived
is accounted for, and the receiver stands where it should.
-/

namespace Netfilter.Queue

structure Delivery where
  receiver : Receiver
  links : Links
  /-- Everything that ever was in the inbox of the channel. -/
  arrived : List Receipt
  reports : List Report := []
  /-- What the handler answered to the packets it got. -/
  answers : List Flow := []

inductive Happening
  | arrival (r : Receipt)
  | step
  | answer (flow : Flow)
  | giveBack (lease : Lease)
  | verdict (v : Verdict) (payload : Bytes)

namespace Delivery

def start (handle : VerdictHandle) (count bufferSize : Nat) (links : Links) (c : Channel) :
    Delivery where
  receiver := { handle, pool := Pool.ofCount count bufferSize }
  links := links
  arrived := c.socket.inbox

def after (w : Delivery) : Happening → Delivery
  | .arrival r => { w with
      links := w.links.modify w.receiver.handle.link fun c => c.withInbox (c.socket.inbox ++ [r])
      arrived := w.arrived ++ [r] }
  | .step =>
      let (move, receiver, links) := w.receiver.step w.links
      { w with receiver, links, reports := w.reports ++ move.report?.toList }
  | .answer flow =>
      let (receiver, links) := w.receiver.resume flow w.links
      match w.receiver.phase with
      | .handling _ _ => { w with receiver, links, answers := w.answers ++ [flow] }
      | _ => { w with receiver, links }
  | .giveBack lease => { w with receiver := w.receiver.takeBack lease }
  | .verdict v payload => { w with links := (w.receiver.handle.send v payload w.links).2 }

def run (w : Delivery) (happenings : List Happening) : Delivery := happenings.foldl after w

theorem after_step_of_idle {w : Delivery}
    (h : w.receiver.step w.links = (.waits, w.receiver, w.links)) : w.after .step = w := by
  simp only [after, h, Move.report?, Option.toList_none, List.append_nil]

/-- An answer goes nowhere while no handler is at work. -/
theorem after_answer_of_idle {w : Delivery}
    (h : ∀ rest table, w.receiver.phase ≠ .handling rest table) (flow : Flow) :
    w.after (.answer flow) = w := by
  simp only [after, Receiver.resume]
  cases hphase : w.receiver.phase with
  | handling rest table => exact absurd hphase (h rest table)
  | _ => rfl

/-- A receiver that has ended does nothing any more. -/
theorem phase_after_of_ended {w : Delivery} {exit : Exit} (h : w.receiver.phase = .ended exit)
    (happening : Happening) : (w.after happening).receiver.phase = .ended exit := by
  cases happening with
  | step =>
      rw [after_step_of_idle (by simp only [Receiver.step, h])]
      exact h
  | answer flow =>
      rw [after_answer_of_idle (by simp [h])]
      exact h
  | _ => exact h

/-- Whatever happens changes the phase of the receiver, and its pool when a buffer is taken out of
it or given back. -/
theorem receiver_after (w : Delivery) (happening : Happening) :
    ∃ pool phase, (w.after happening).receiver = { w.receiver with pool, phase } ∧
      (pool = w.receiver.pool ∨ pool = w.receiver.pool.lease?.2 ∨
        ∃ lease, happening = .giveBack lease ∧ pool = w.receiver.pool.giveBack lease) := by
  cases happening with
  | arrival r => exact ⟨_, _, rfl, .inl rfl⟩
  | step =>
      obtain ⟨pool, phase, hstep, hpool⟩ := w.receiver.step_frame w.links
      exact ⟨pool, phase, hstep, hpool.imp_right .inl⟩
  | answer flow =>
      obtain ⟨phase, hresume⟩ := w.receiver.resume_frame flow w.links
      refine ⟨w.receiver.pool, phase, ?_, .inl rfl⟩
      rw [← hresume]
      simp only [after]
      split <;> rfl
  | giveBack lease => exact ⟨_, _, rfl, .inr (.inr ⟨lease, rfl, rfl⟩)⟩
  | verdict v payload => exact ⟨_, _, rfl, .inl rfl⟩

theorem after_consistent {w : Delivery} (h : w.receiver.pool.Consistent) (happening : Happening) :
    (w.after happening).receiver.pool.Consistent := by
  obtain ⟨pool, phase, hreceiver, hpool⟩ := w.receiver_after happening
  rw [hreceiver]
  rcases hpool with rfl | rfl | ⟨lease, -, rfl⟩
  · exact h
  · exact h.lease?
  · exact h.giveBack lease

theorem run_consistent {w : Delivery} (h : w.receiver.pool.Consistent)
    (happenings : List Happening) : (w.run happenings).receiver.pool.Consistent := by
  induction happenings generalizing w with
  | nil => exact h
  | cons happening later ih => exact ih (after_consistent h happening)

end Delivery

/-- The invariant of deliveries: what arrived was taken from the inbox or is still there, and the
receiver stands where the receipts taken have brought it. -/
structure Accounted (handle : VerdictHandle) (w : Delivery) (taken : List Receipt) (c : Channel) :
    Prop where
  handle_eq : w.receiver.handle = handle
  channel : w.links.channels[handle.link]? = some c
  arrived : w.arrived = taken ++ c.socket.inbox
  unstopped : w.receiver.stopRequested = false
  pool : w.receiver.pool.Consistent
  standing : Standing handle (c.socket.handsOut taken) c.isOpen w.reports w.answers
    w.receiver.phase

namespace Accounted

variable {handle : VerdictHandle} {w : Delivery} {taken : List Receipt} {c : Channel}

theorem of_same (h : Accounted handle w taken c) {links : Links} {c' : Channel} {pool : Pool}
    (hpool : pool.Consistent) (hc : links.channels[handle.link]? = some c')
    (hopen : c'.isOpen = c.isOpen) (hinbox : c'.socket.inbox = c.socket.inbox)
    (hhands : c'.socket.handsOut = c.socket.handsOut) :
    Accounted handle { w with receiver := { w.receiver with pool }, links } taken c' where
  handle_eq := h.handle_eq
  channel := hc
  arrived := by rw [hinbox]; exact h.arrived
  unstopped := h.unstopped
  pool := hpool
  standing := by rw [hhands, hopen]; exact h.standing

theorem arrival (h : Accounted handle w taken c) (r : Receipt) :
    Accounted handle (w.after (.arrival r)) taken (c.withInbox (c.socket.inbox ++ [r])) where
  handle_eq := h.handle_eq
  channel := by
    obtain rfl := h.handle_eq
    exact Links.channels_modify h.channel _
  arrived := by
    change w.arrived ++ [r] = taken ++ (c.socket.inbox ++ [r])
    rw [h.arrived, List.append_assoc]
  unstopped := h.unstopped
  pool := h.pool
  standing := h.standing

theorem giveBack (h : Accounted handle w taken c) (lease : Lease) :
    Accounted handle (w.after (.giveBack lease)) taken c :=
  h.of_same (h.pool.giveBack lease) h.channel rfl rfl rfl

theorem verdict (h : Accounted handle w taken c) (v : Verdict) (payload : Bytes) :
    ∃ c', Accounted handle (w.after (.verdict v payload)) taken c' := by
  obtain rfl := h.handle_eq
  have hsend : (w.receiver.handle.send v payload w.links).2 = w.links.put w.receiver.handle.link
      (v.send w.receiver.handle.queue payload c).2 :=
    congrArg Prod.snd (Links.onChannel_of_channel h.channel _ _)
  have hc := Links.channels_put h.channel (v.send w.receiver.handle.queue payload c).2
  rw [← hsend] at hc
  refine ⟨_, h.of_same h.pool hc ?_ ?_ ?_⟩ <;>
    rcases v.send_cases w.receiver.handle.queue payload c with ⟨_, hs⟩ | ⟨_, _, -, hs⟩ <;>
    rw [hs] <;> rfl

theorem closing (h : Accounted handle w taken c) :
    ∃ drops, (w.receiver.closing w.links).channels[handle.link]? =
      some { c with isOpen := false, socket := { c.socket with drops } } := by
  obtain rfl := h.handle_eq
  obtain ⟨drops, hclose⟩ := c.close_eq
  exact ⟨drops, hclose ▸ Links.channels_modify h.channel _⟩

theorem answer (h : Accounted handle w taken c) (flow : Flow) :
    ∃ c', Accounted handle (w.after (.answer flow)) taken c' := by
  have hstanding := h.standing
  cases hphase : w.receiver.phase with
  | handling rest table =>
      rw [hphase] at hstanding
      cases flow with
      | proceed =>
          simp only [Delivery.after, Receiver.resume, hphase]
          exact ⟨c, h.handle_eq, h.channel, h.arrived, h.unstopped, h.pool, hstanding.proceeded⟩
      | stop =>
          obtain ⟨drops, hclosed⟩ := h.closing
          simp only [Delivery.after, Receiver.resume, hphase]
          exact ⟨_, h.handle_eq, hclosed, h.arrived, h.unstopped, h.pool, hstanding.stopped⟩
  | receiving => exact ⟨c, by simpa only [Delivery.after, Receiver.resume, hphase] using h⟩
  | reading rest table => exact ⟨c, by simpa only [Delivery.after, Receiver.resume, hphase] using h⟩
  | leasing info payload rest table =>
      exact ⟨c, by simpa only [Delivery.after, Receiver.resume, hphase] using h⟩
  | ended exit => exact ⟨c, by simpa only [Delivery.after, Receiver.resume, hphase] using h⟩

theorem receive (h : Accounted handle w taken c) (hphase : w.receiver.phase = .receiving) :
    ∃ taken' c', Accounted handle (w.after .step) taken' c' := by
  obtain rfl := h.handle_eq
  have hstanding := h.standing
  rw [hphase] at hstanding
  obtain ⟨hopen, -⟩ := (Standing.looking_iff rfl).1 hstanding
  have hstep : w.receiver.step w.links = w.receiver.receive w.links := by
    simp [Receiver.step, hphase, h.unstopped]
  rcases Receiver.receive_cases h.channel hopen with
    ⟨hands, hr⟩ | ⟨now, later, hinbox, hr⟩
  · -- nothing was handed out, but lost notifications may have been taken
    simp only [Delivery.after, hstep, hr]
    refine ⟨taken ++ c.socket.inbox, _, rfl, Links.channels_put h.channel _, ?_, h.unstopped,
      h.pool, ?_⟩
    · rw [h.arrived]
      exact (List.append_nil _).symm
    · change Standing _ (c.socket.handsOut (taken ++ c.socket.inbox)) c.isOpen (w.reports ++ []) _ _
      rw [Socket.handsOut_append, hands, List.append_nil, List.append_nil]
      exact h.standing
  · have harrived : w.arrived = (taken ++ now) ++ later := by
      rw [h.arrived, hinbox, List.append_assoc]
    have hput := Links.channels_put h.channel (c.withInbox later)
    have hitems := c.socket.handsOut_append taken now
    rcases hr with ⟨data, hands, hr⟩ | ⟨cause, hands, hno, hr⟩ | ⟨cause, hands, hno, hr⟩
    · simp only [Delivery.after, hstep, hr]
      refine ⟨taken ++ now, _, rfl, hput, harrived, h.unstopped, h.pool, ?_⟩
      change Standing _ (c.socket.handsOut (taken ++ now)) c.isOpen (w.reports ++ []) _ _
      rw [hitems, hands, List.append_nil]
      exact hstanding.received data _
    · simp only [Delivery.after, hstep, hr]
      refine ⟨taken ++ now, _, rfl, hput, harrived, h.unstopped, h.pool, ?_⟩
      change Standing _ (c.socket.handsOut (taken ++ now)) c.isOpen _ _ _
      rw [hitems, hands, hphase]
      exact hstanding.lost hno
    · obtain ⟨drops, hclose⟩ := (c.withInbox later).close_eq
      simp only [Delivery.after, hstep, hr]
      refine ⟨taken ++ now, _, rfl, Links.channels_modify hput _, ?_, h.unstopped, h.pool, ?_⟩
      · rw [hclose]
        exact harrived
      · rw [hclose]
        change Standing _ (c.socket.handsOut (taken ++ now)) false _ _ _
        rw [hitems, hands]
        exact hstanding.broke hno

theorem read (h : Accounted handle w taken c) {rest : Bytes} {table : FieldTable}
    (hphase : w.receiver.phase = .reading rest table) :
    Accounted handle (w.after .step) taken c := by
  obtain rfl := h.handle_eq
  have hstanding := h.standing
  rw [hphase] at hstanding
  obtain ⟨move, phase, hread, hl, hreports, hmute, -⟩ := w.receiver.read_cases rest table
  simp only [Delivery.after, Receiver.step, hphase, hread]
  exact ⟨rfl, h.channel, h.arrived, h.unstopped, h.pool, hstanding.read hl hreports hmute⟩

theorem lease (h : Accounted handle w taken c) {info : PacketInfo} {payload rest : Bytes}
    {table : FieldTable} (hphase : w.receiver.phase = .leasing info payload rest table) :
    Accounted handle (w.after .step) taken c := by
  obtain rfl := h.handle_eq
  have hstanding := h.standing
  rw [hphase] at hstanding
  have hstep : w.receiver.step w.links = ((w.receiver.handOver info payload rest table).1,
      (w.receiver.handOver info payload rest table).2, w.links) := by
    simp [Receiver.step, hphase, h.unstopped]
  rcases Receiver.handOver_cases h.pool info payload rest table with
    ⟨-, hh⟩ | ⟨event, pool, hpool, hevent, hh⟩
  · rw [Delivery.after_step_of_idle (by rw [hstep, hh])]
    exact h
  · simp only [Delivery.after, hstep, hh, Move.report?, hevent, Option.toList_some]
    exact ⟨rfl, h.channel, h.arrived, h.unstopped, hpool, hstanding.handedOver⟩

theorem step (h : Accounted handle w taken c) :
    ∃ taken' c', Accounted handle (w.after .step) taken' c' := by
  cases hphase : w.receiver.phase with
  | receiving => exact h.receive hphase
  | reading rest table => exact ⟨taken, c, h.read hphase⟩
  | leasing info payload rest table => exact ⟨taken, c, h.lease hphase⟩
  | handling rest table =>
      rw [Delivery.after_step_of_idle (by simp only [Receiver.step, hphase])]
      exact ⟨taken, c, h⟩
  | ended exit =>
      rw [Delivery.after_step_of_idle (by simp only [Receiver.step, hphase])]
      exact ⟨taken, c, h⟩

theorem after (h : Accounted handle w taken c) (happening : Happening) :
    ∃ taken' c', Accounted handle (w.after happening) taken' c' := by
  cases happening with
  | arrival r => exact ⟨taken, _, h.arrival r⟩
  | step => exact h.step
  | answer flow =>
      obtain ⟨c', h'⟩ := h.answer flow
      exact ⟨taken, c', h'⟩
  | giveBack lease => exact ⟨taken, c, h.giveBack lease⟩
  | verdict v payload =>
      obtain ⟨c', h'⟩ := h.verdict v payload
      exact ⟨taken, c', h'⟩

theorem run (h : Accounted handle w taken c) (happenings : List Happening) :
    ∃ taken' c', Accounted handle (w.run happenings) taken' c' := by
  induction happenings generalizing w taken c with
  | nil => exact ⟨taken, c, h⟩
  | cons happening later ih =>
      obtain ⟨taken', c', h'⟩ := h.after happening
      exact ih h'

end Accounted

theorem accounted_start {handle : VerdictHandle} {count bufferSize : Nat} {links : Links}
    {c : Channel} (hc : links.channels[handle.link]? = some c) (hopen : c.isOpen = true) :
    Accounted handle (Delivery.start handle count bufferSize links c) [] c where
  handle_eq := rfl
  channel := hc
  arrived := rfl
  unstopped := rfl
  pool := Pool.consistent_ofCount count bufferSize
  standing := (Standing.looking_iff rfl).2 ⟨hopen, nofun, nofun, rfl, rfl⟩

end Netfilter.Queue
