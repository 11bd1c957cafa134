import Netfilter.Proofs.Queue.Serving

/-!
# Receipts that arrive at any time

Between any two steps of a receiver, receipts may arrive. As long as none of them
is fatal, a session with a prompt handler goes on: what it has reported is a
beginning of what the receipts give rise to, and each packet was answered before
the next step. Nothing is left out when the session comes to rest.
-/

namespace Netfilter.Queue

/-- The receiver makes a step, its handler included, or a receipt arrives. -/
inductive Tick
  | turn
  | arrival (receipt : Receipt)

def Tick.receipt? : Tick → Option Receipt
  | .turn => none
  | .arrival receipt => some receipt

def arrivalsOf (ticks : List Tick) : List Receipt := ticks.filterMap Tick.receipt?

theorem arrivalsOf_append (ticks later : List Tick) :
    arrivalsOf (ticks ++ later) = arrivalsOf ticks ++ arrivalsOf later := List.filterMap_append

theorem arrivalsOf_turns (count : Nat) : arrivalsOf (List.replicate count .turn) = [] := by
  rw [arrivalsOf, List.filterMap_eq_nil_iff]
  intro t ht
  obtain rfl := List.eq_of_mem_replicate ht
  rfl

namespace Session

def tick (s : Session) (link : Nat) : Tick → List Event × Session
  | .turn => s.runFor 1
  | .arrival receipt => ([], s.push link [receipt])

def attend (s : Session) (link : Nat) : List Tick → List Event × Session
  | [] => ([], s)
  | t :: ticks =>
      let (events, s) := s.tick link t
      let (later, s) := attend s link ticks
      (events ++ later, s)

theorem attend_append (s : Session) (link : Nat) (ticks later : List Tick) :
    s.attend link (ticks ++ later) =
      ((s.attend link ticks).1 ++ ((s.attend link ticks).2.attend link later).1,
        ((s.attend link ticks).2.attend link later).2) := by
  induction ticks generalizing s with
  | nil => rfl
  | cons t ticks ih =>
      rw [List.cons_append]
      simp only [attend, ih, List.append_assoc]

/-- Running is to take one turn after the other. -/
theorem exists_turns_runFor (s : Session) (link fuel : Nat) :
    ∃ count, s.runFor fuel = s.attend link (List.replicate count .turn) := by
  induction fuel generalizing s with
  | zero => exact ⟨0, rfl⟩
  | succ fuel ih =>
      cases hr : s.receiver with
      | none => exact ⟨0, by simp only [runFor, hr]; rfl⟩
      | some r =>
          rcases hstep : r.step s.links with ⟨move, r', links⟩
          let next : Session := { s.withLinks links with receiver := some r' }
          cases move with
          | waits => exact ⟨1, by simp only [attend, tick, List.replicate, runFor, hr, hstep]; rfl⟩
          | silent =>
              obtain ⟨count, hlater⟩ := ih next
              refine ⟨count + 1, ?_⟩
              rw [List.replicate_succ]
              simp only [attend, tick, runFor, hr, hstep]
              exact hlater
          | reports event =>
              cases event with
              | failed cause =>
                  obtain ⟨count, hlater⟩ := ih next
                  refine ⟨count + 1, ?_⟩
                  rw [List.replicate_succ]
                  simp only [attend, tick, runFor, hr, hstep, List.singleton_append]
                  rw [← hlater]
              | packet p =>
                  obtain ⟨count, hlater⟩ := ih (next.handle p).2
                  refine ⟨count + 1, ?_⟩
                  rw [List.replicate_succ]
                  simp only [attend, tick, runFor, hr, hstep, List.append_nil]
                  rw [← hlater]

theorem exists_turns_run (s : Session) (link : Nat) :
    ∃ count, s.run = s.attend link (List.replicate count .turn) := by
  unfold run
  cases s.receiver with
  | none => exact ⟨0, rfl⟩
  | some r => exact s.exists_turns_runFor link (r.stepBound s.links)

end Session

namespace Serving

variable {a : Action} {s : Session} {r : Receiver} {c : Channel}

structure Follows (a : Action) (source : VerdictHandle) (c : Channel) (events : List Session.Event)
    (s : Session) (r : Receiver) (c' : Channel) : Prop where
  serving : Serving a s r c'
  looks : r.phase.isLooking = true
  handle : r.handle = source
  calm : IsCalm c'
  answered : Answered a source c events c'

theorem Follows.trans {source : VerdictHandle} {events later : List Session.Event} {s' : Session}
    {r' r'' : Receiver} {c' c'' : Channel} (h : Follows a source c events s r' c')
    (h' : Follows a r'.handle c' later s' r'' c'') :
    Follows a source c (events ++ later) s' r'' c'' where
  serving := h'.serving
  looks := h'.looks
  handle := h'.handle.trans h.handle
  calm := h'.calm
  answered := h.answered.trans (h.handle ▸ h'.answered)

theorem turn (h : Serving a s r c) (hl : r.phase.isLooking = true) (hcalm : IsCalm c) :
    ∃ r' c', Follows a r.handle c (s.runFor 1).1 (s.runFor 1).2 r' c' ∧
      total r c = (s.runFor 1).1.filterMap Session.Event.report? ++ total r' c' := by
  cases h.advances hl hcalm with
  | waits serving phase none run =>
      rw [run 0]
      refine ⟨r, _, ⟨serving, hl, rfl, fun x hx => absurd hx List.not_mem_nil, .nil []⟩, ?_⟩
      rw [none, total, phase]
      rfl
  | goes events serving looks calm handle answered reports less run =>
      rw [run 0, Session.runFor, List.append_nil]
      exact ⟨_, _, ⟨serving, looks, handle, calm, answered⟩, reports⟩

theorem arrival (h : Serving a s r c) (hl : r.phase.isLooking = true) (hcalm : IsCalm c)
    {receipt : Receipt} (hreceipt : ∀ x ∈ c.socket.handsOut [receipt], isFatal x = false) :
    ∃ c', Follows a r.handle c [] (s.push r.handle.link [receipt]) r c' ∧
      total r c ++ (c.socket.handsOut [receipt]).flatMap (Report.ofReceipt r.handle) =
        total r c' := by
  have hsplit := c.socket.handsOut_append c.socket.inbox [receipt]
  refine ⟨_, ⟨h.push [receipt], hl, rfl, fun x hx => ?_, .nil _⟩, ?_⟩
  · change x ∈ c.socket.handsOut (c.socket.inbox ++ [receipt]) at hx
    rw [hsplit] at hx
    rcases List.mem_append.1 hx with hx | hx
    · exact hcalm x hx
    · exact hreceipt x hx
  · change _ = pending r.handle r.phase ++
      (c.socket.handsOut (c.socket.inbox ++ [receipt])).flatMap (Report.ofReceipt r.handle)
    rw [hsplit, List.flatMap_append, ← List.append_assoc]
    rfl

/-- What was to be reported at first and what arrives is reported, or is still to be. -/
theorem attend (h : Serving a s r c) (hl : r.phase.isLooking = true) (hcalm : IsCalm c)
    (ticks : List Tick)
    (harrivals : ∀ x ∈ c.socket.handsOut (arrivalsOf ticks), isFatal x = false) :
    ∃ r' c', Follows a r.handle c (s.attend r.handle.link ticks).1
        (s.attend r.handle.link ticks).2 r' c' ∧
      total r c ++ (c.socket.handsOut (arrivalsOf ticks)).flatMap (Report.ofReceipt r.handle) =
        (s.attend r.handle.link ticks).1.filterMap Session.Event.report? ++ total r' c' := by
  induction ticks generalizing s r c with
  | nil => exact ⟨r, c, ⟨h, hl, rfl, hcalm, .nil c.socket.inbox⟩, List.append_nil _⟩
  | cons t ticks ih =>
      cases t with
      | turn =>
          obtain ⟨r', c', hturn, hreports⟩ := h.turn hl hcalm
          have hands := hturn.answered.handsOut
          obtain ⟨r'', c'', hlater, hreports'⟩ := ih hturn.serving hturn.looks hturn.calm
            fun x hx => harrivals x (hands ▸ hx)
          have hafter := hturn.trans hlater
          rw [hturn.handle, hands] at hreports'
          rw [hturn.handle] at hafter
          refine ⟨r'', c'', hafter, ?_⟩
          change total r c ++ (c.socket.handsOut (arrivalsOf ticks)).flatMap _ = _
          rw [hreports, List.append_assoc, hreports', ← List.append_assoc, ← List.filterMap_append]
          rfl
      | arrival receipt =>
          have hsplit := c.socket.handsOut_append [receipt] (arrivalsOf ticks)
          have hall : arrivalsOf (.arrival receipt :: ticks) = [receipt] ++ arrivalsOf ticks := rfl
          rw [hall, hsplit] at harrivals ⊢
          obtain ⟨c', hpushed, hreports⟩ := h.arrival hl hcalm fun x hx =>
            harrivals x (List.mem_append_left _ hx)
          have hands := hpushed.answered.handsOut
          obtain ⟨r'', c'', hlater, hreports'⟩ := ih hpushed.serving hpushed.looks hpushed.calm
            fun x hx => harrivals x (List.mem_append_right _ (hands ▸ hx))
          rw [hands, ← hreports] at hreports'
          refine ⟨r'', c'', hpushed.trans hlater, ?_⟩
          rw [List.flatMap_append, ← List.append_assoc, hreports']
          rfl

/-- The receiver waits for datagrams, never for a buffer. -/
theorem receiving_of_waits (h : Serving a s r c) (hl : r.phase.isLooking = true)
    (hwaits : (r.step s.links).1 = .waits) : r.phase = .receiving := by
  cases hphase : r.phase with
  | receiving => rfl
  | reading rest table =>
      obtain ⟨move, phase, hread, -, -, -, hgoes⟩ := r.read_cases rest table
      simp only [Receiver.step, hphase, hread] at hwaits
      exact absurd hwaits hgoes
  | leasing info payload rest table =>
      obtain ⟨lease, pool, hlease, -⟩ := h.pool.lease?_giveBack h.capacity
      simp [Receiver.step, Receiver.handOver, hphase, h.unstopped, hlease] at hwaits
  | handling rest table | ended exit =>
      rw [hphase] at hl
      cases hl

end Serving

end Netfilter.Queue
