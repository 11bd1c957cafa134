import Netfilter.Proofs.Pool.Leases
import Netfilter.Proofs.Queue.Prompt
import Netfilter.Proofs.Queue.Receiver
import Netfilter.Proofs.Wire.Batch

/-!
# Sessions with a prompt handler

The handler of such a session wants every packet and is done with it at once, so
the receiver never waits for a buffer. It runs until all that has arrived is
reported. Each of its steps uses up some of what is at hand, so the number of
steps that a run may take is enough.
-/

namespace Netfilter

namespace Queue

def Phase.cost : Phase → Nat
  | .receiving | .ended _ => 0
  | .reading rest _ | .handling rest _ => rest.length + 1
  | .leasing _ _ rest _ => rest.length + 2

def receiptCost : Receipt → Nat
  | .ok data => data.length + 2
  | .error _ => 1

def inboxCost : List Receipt → Nat
  | [] => 0
  | r :: later => receiptCost r + inboxCost later

theorem inboxCost_append (before after : List Receipt) :
    inboxCost (before ++ after) = inboxCost before + inboxCost after := by
  induction before with
  | nil => exact (Nat.zero_add _).symm
  | cons r before ih =>
      rw [List.cons_append, inboxCost, inboxCost, ih]
      omega

theorem receiptCost_cut (room : Option Nat) (r : Receipt) :
    receiptCost (Socket.cut room r) ≤ receiptCost r := by
  cases r with
  | error cause => exact Nat.le_refl _
  | ok data =>
      cases room with
      | none => exact Nat.le_refl _
      | some size => exact Nat.add_le_add_right (List.length_take_le' _ _) 2

theorem inboxCost_handsOut (s : Socket) (taken : List Receipt) :
    inboxCost (s.handsOut taken) ≤ inboxCost taken := by
  induction taken with
  | nil => exact Nat.le_refl _
  | cons r taken ih =>
      have hcut := receiptCost_cut s.room r
      rw [Socket.handsOut_cons, inboxCost_append, inboxCost]
      by_cases hpassed : Socket.isPassedOver s.patient r = true
      · rw [if_pos hpassed, inboxCost]
        omega
      · rw [if_neg hpassed, inboxCost, inboxCost]
        omega

theorem receiptCost_le_of_handsOut {s : Socket} {taken : List Receipt} {x : Receipt}
    (hands : s.handsOut taken = [x]) : receiptCost x ≤ inboxCost taken := by
  have hcost := inboxCost_handsOut s taken
  rwa [hands] at hcost

theorem Receiver.cost_lt_stepBound {r : Receiver} {l : Links} {c : Channel}
    (hc : l.channels[r.handle.link]? = some c) :
    r.phase.cost + inboxCost c.socket.inbox < r.stepBound l := by
  have hinbox (inbox : List Receipt) (n : Nat) : n + inboxCost inbox ≤
      inbox.foldr (fun receipt n => (match receipt with
        | .ok data => data.length + 4
        | .error _ => 4) + n) n := by
    induction inbox with
    | nil => exact Nat.le_refl _
    | cons r inbox ih =>
        rw [List.foldr_cons, inboxCost]
        cases r with
        | ok data =>
            simp only [receiptCost]
            omega
        | error cause =>
            simp only [receiptCost]
            omega
  unfold stepBound
  simp only [hc, Option.map_some, Option.getD_some]
  refine Nat.lt_of_lt_of_le ?_ (hinbox _ _)
  cases r.phase <;> simp only [Phase.cost] <;> omega

theorem Receiver.cost_read (r : Receiver) (rest : Bytes) (table : FieldTable) :
    (r.read rest table).2.phase.cost < rest.length + 1 := by
  unfold read
  match hn : Message.next rest with
  | none => exact Nat.succ_pos _
  | some (.error e, left) => exact Nat.succ_pos _
  | some (.ok m, left) =>
      have hshort := Message.length_of_next hn
      unfold Message.headerSize at hshort
      dsimp only
      generalize Notice.ofMessage r.handle.queue m table = read
      obtain ⟨notice, table⟩ := read
      cases notice <;> simp only [Phase.cost] <;> omega

def Session.Event.report? : Session.Event → Option Report
  | .failed cause => some (.failed cause)
  | .packet p => some (.packet p.info p.payload p.handle)
  | .done _ => none

/-- The receiver `r` of the session may go on over its open channel `c`. All buffers are free, and
`a` will be done with every packet at once. -/
structure Serving (a : Action) (s : Session) (r : Receiver) (c : Channel) : Prop where
  prompt : a.isPrompt = true
  plan : s.plan = []
  otherwise : s.otherwise = { action := a, flow := .proceed }
  holder : s.holder = .receiver
  receiver : s.receiver = some r
  channel : s.links.channels[r.handle.link]? = some c
  isOpen : c.isOpen = true
  unstopped : r.stopRequested = false
  pool : r.pool.Accounts []
  capacity : 0 < r.pool.capacity

/-- A session serves from its start. -/
theorem Session.serving_start {b : Binding} {a : Action} (ha : a.isPrompt = true) {link : Nat}
    {c : Channel} (hnumber : b.links.openNumber? = some link)
    (hc : b.links.channels[link]? = some c) (hopen : c.isOpen = true) :
    Serving a (({ binding := b, otherwise := { action := a, flow := .proceed } } :
        Session).start []).2
      { handle := ⟨link, b.settings.number⟩
        pool := Pool.ofCount b.settings.poolSize.toNat b.settings.bufferSize } c := by
  have hhandle : ({ binding := b, otherwise := { action := a, flow := .proceed } } :
      Session).verdictHandle? = some (.ok ⟨link, b.settings.number⟩) := by
    simp only [verdictHandle?, links, hnumber]
  rw [start, hhandle]
  refine ⟨ha, rfl, rfl, rfl, rfl, hc, hopen, rfl, Pool.accounts_ofCount _ _, ?_⟩
  simp only [Pool.capacity, Pool.ofCount, List.length_replicate]
  omega

def total (r : Receiver) (c : Channel) : List Report :=
  pending r.handle r.phase ++
    (c.socket.handsOut c.socket.inbox).flatMap (Report.ofReceipt r.handle)

def cost (r : Receiver) (c : Channel) : Nat := r.phase.cost + inboxCost c.socket.inbox

def IsCalm (c : Channel) : Prop :=
  ∀ x ∈ c.socket.handsOut c.socket.inbox, isFatal x = false

/-- What one step of a run comes to: the session waits, or it gives some events and goes on with
less at hand. -/
inductive Advances (a : Action) (s : Session) (r : Receiver) (c : Channel) : Prop
  | waits {s' : Session} (serving : Serving a s' r (c.withInbox [])) (phase : r.phase = .receiving)
      (none : total r c = []) (run : ∀ fuel, s.runFor (fuel + 1) = ([], s'))
  | goes (events : List Session.Event) {s' : Session} {r' : Receiver} {c' : Channel}
      (serving : Serving a s' r' c') (looks : r'.phase.isLooking = true) (calm : IsCalm c')
      (handle : r'.handle = r.handle) (answered : Answered a r.handle c events c')
      (reports : total r c = events.filterMap Session.Event.report? ++ total r' c')
      (less : cost r' c' < cost r c)
      (run : ∀ fuel, s.runFor (fuel + 1) = (events ++ (s'.runFor fuel).1, (s'.runFor fuel).2))

namespace Serving

variable {a : Action} {s : Session} {r : Receiver} {c : Channel}

theorem enters (h : Serving a s r c) {links : Links} {c' : Channel}
    (hc : links.channels[r.handle.link]? = some c') (hopen : c'.isOpen = true) (phase : Phase)
    {pool : Pool} (hpool : pool.Accounts []) (hcapacity : 0 < pool.capacity) :
    Serving a { s.withLinks links with receiver := some { r with phase, pool } }
      { r with phase, pool } c' where
  prompt := h.prompt
  plan := h.plan
  otherwise := h.otherwise
  holder := h.holder
  receiver := rfl
  channel := hc
  isOpen := hopen
  unstopped := h.unstopped
  pool := hpool
  capacity := hcapacity

theorem advances_receiving (h : Serving a s r c) (hphase : r.phase = .receiving)
    (hcalm : IsCalm c) : Advances a s r c := by
  have hstep : r.step s.links = r.receive s.links := by
    simp [Receiver.step, hphase, h.unstopped]
  have henters (inbox : List Receipt) (phase : Phase) := h.enters
    (Links.channels_put h.channel (c.withInbox inbox)) h.isOpen phase h.pool h.capacity
  rcases Receiver.receive_cases h.channel h.isOpen with
    ⟨hands, hr⟩ | ⟨taken, later, hinbox, hr⟩
  · refine .waits (henters [] r.phase) hphase ?_ fun fuel => ?_
    · rw [total, hphase, hands]
      rfl
    · simp only [Session.runFor, h.receiver, hstep, hr]
  -- otherwise one receipt is used up, and what it costs is more than what it leaves to be done
  have hsplit := c.socket.handsOut_append taken later
  have hlater : IsCalm (c.withInbox later) := by
    intro x hx
    refine hcalm x ?_
    rw [hinbox, hsplit]
    exact List.mem_append_right _ hx
  have htotal : total r c = (c.socket.handsOut taken).flatMap (Report.ofReceipt r.handle) ++
      (c.socket.handsOut later).flatMap (Report.ofReceipt r.handle) := by
    rw [total, hphase, hinbox, hsplit, List.flatMap_append]
    rfl
  have hcost : cost r c = inboxCost taken + inboxCost later := by
    rw [cost, hphase, hinbox, inboxCost_append]
    exact Nat.zero_add _
  rcases hr with ⟨data, hands, hr⟩ | ⟨cause, hands, hno, hr⟩ | ⟨cause, hands, hno, hr⟩
  · have htaken := receiptCost_le_of_handsOut hands
    refine .goes [] (henters later (.reading data Table.empty)) rfl hlater rfl (.nil later) ?_ ?_
      fun fuel => ?_
    · rw [htotal, hands, List.flatMap_singleton]
      rfl
    · rw [hcost]
      change data.length + 1 + inboxCost later < _
      rw [receiptCost] at htaken
      omega
    · simp only [Session.runFor, h.receiver, hstep, hr, List.nil_append]
  · have htaken := receiptCost_le_of_handsOut hands
    refine .goes [.failed (.ofReceive cause)] (henters later r.phase) (by rw [hphase]; rfl) hlater
      rfl (.failed _ later) ?_ ?_ fun fuel => ?_
    · rw [htotal, hands, List.flatMap_singleton, total, hphase]
      rfl
    · rw [hcost, cost, hphase]
      change 0 + inboxCost later < _
      rw [receiptCost] at htaken
      omega
    · simp only [Session.runFor, h.receiver, hstep, hr]
      rfl
  · -- a receipt that ends the receiver is fatal
    have hfatal := hcalm (.error cause) (by
      rw [hinbox, hsplit, hands]
      exact List.mem_append_left _ List.mem_cons_self)
    rw [isFatal, hno] at hfatal
    cases hfatal

theorem advances_reading (h : Serving a s r c) {rest : Bytes} {table : FieldTable}
    (hphase : r.phase = .reading rest table) (hcalm : IsCalm c) : Advances a s r c := by
  obtain ⟨move, phase, hread, hl, hreports, hmute, hgoes⟩ := r.read_cases rest table
  have hshort := r.cost_read rest table
  rw [hread] at hshort
  have hstep : r.step s.links = (move, { r with phase }, s.links) := by
    simp only [Receiver.step, hphase, hread]
  have hserving := h.enters h.channel h.isOpen phase h.pool h.capacity
  have htotal : total r c = move.report?.toList ++ total { r with phase } c := by
    rw [total, hphase, pending, hreports, List.append_assoc]
    rfl
  have hless : cost { r with phase } c < cost r c := by
    rw [cost, cost, hphase]
    exact Nat.add_lt_add_right hshort _
  cases move with
  | waits => exact absurd rfl hgoes
  | silent =>
      refine .goes [] hserving hl hcalm rfl (.nil c.socket.inbox) htotal hless fun fuel => ?_
      simp only [Session.runFor, h.receiver, hstep, List.nil_append]
  | reports event =>
      cases event with
      | packet p => cases hmute _ rfl
      | failed cause =>
          refine .goes [.failed cause] hserving hl hcalm rfl (.failed cause c.socket.inbox) htotal
            hless fun fuel => ?_
          simp only [Session.runFor, h.receiver, hstep]
          rfl

theorem advances_leasing (h : Serving a s r c) {info : PacketInfo} {payload rest : Bytes}
    {table : FieldTable} (hphase : r.phase = .leasing info payload rest table)
    (hcalm : IsCalm c) : Advances a s r c := by
  obtain ⟨lease, pool, hlease, hback⟩ := h.pool.lease?_giveBack h.capacity
  obtain ⟨hpool, hcapacity⟩ := hback payload
  let p : Packet := { info, lease := { lease with data := payload }, handle := r.handle }
  have hstep : r.step s.links =
      (.reports (.packet p), { r with pool, phase := .handling rest table }, s.links) := by
    simp [Receiver.step, Receiver.handOver, hphase, h.unstopped, hlease, p]
  obtain ⟨hopen, hinbox, hands⟩ := a.answer_frame p c
  have hserving := h.enters (Links.channels_put h.channel (a.answer p c).2)
    (hopen.trans h.isOpen) (.reading rest table) hpool (hcapacity ▸ h.capacity)
  refine .goes [.packet p, .done (a.answer p c).1] hserving rfl ?_ rfl (.packet a p c) ?_ ?_
    fun fuel => ?_
  · intro x hx
    rw [hands, hinbox] at hx
    exact hcalm x hx
  · rw [total, total, hphase, hands, hinbox]
    rfl
  · rw [cost, cost, hphase, hinbox]
    exact Nat.add_lt_add_right (Nat.lt_succ_self _) _
  · have hhandle := Session.handle_of_isPrompt
      (s := { s.withLinks s.links with
        receiver := some { r with pool, phase := .handling rest table } })
      (p := p) h.prompt h.plan h.otherwise rfl rfl h.channel
    simp only [Session.runFor, h.receiver, hstep, hhandle]
    rfl

theorem advances (h : Serving a s r c) (hl : r.phase.isLooking = true) (hcalm : IsCalm c) :
    Advances a s r c := by
  cases hphase : r.phase with
  | receiving => exact h.advances_receiving hphase hcalm
  | reading rest table => exact h.advances_reading hphase hcalm
  | leasing info payload rest table => exact h.advances_leasing hphase hcalm
  | handling rest table =>
      rw [hphase] at hl
      cases hl
  | ended exit =>
      rw [hphase] at hl
      cases hl

/-- The session has come to rest after these events: the receiver waits for datagrams, and there is
nothing in its inbox. -/
structure Rests (a : Action) (source : VerdictHandle) (c : Channel) (events : List Session.Event)
    (s : Session) (r : Receiver) (c' : Channel) : Prop where
  serving : Serving a s r c'
  phase : r.phase = .receiving
  handle : r.handle = source
  inbox : c'.socket.inbox = []
  answered : Answered a source c events c'

theorem Rests.trans {source : VerdictHandle} {events later : List Session.Event} {s' : Session}
    {r' r'' : Receiver} {c' c'' : Channel} (hhandle : r'.handle = source)
    (h : Answered a source c events c') (h' : Rests a r'.handle c' later s' r'' c'') :
    Rests a source c (events ++ later) s' r'' c'' where
  serving := h'.serving
  phase := h'.phase
  handle := h'.handle.trans hhandle
  inbox := h'.inbox
  answered := h.trans (hhandle ▸ h'.answered)

theorem runFor (h : Serving a s r c) (hl : r.phase.isLooking = true) (hcalm : IsCalm c)
    {fuel : Nat} (hfuel : cost r c < fuel) :
    (s.runFor fuel).1.filterMap Session.Event.report? = total r c ∧
      ∃ r' c', Rests a r.handle c (s.runFor fuel).1 (s.runFor fuel).2 r' c' := by
  -- by induction on the steps left: each step uses up some of what is at hand
  induction fuel generalizing s r c with
  | zero => cases hfuel
  | succ fuel ih =>
      cases h.advances hl hcalm with
      | waits serving phase none run =>
          rw [run fuel, none]
          exact ⟨rfl, r, _, serving, phase, rfl, rfl, .nil []⟩
      | @goes events s' r' c' serving looks calm handle answered reports less run =>
          obtain ⟨hreports, r'', c'', hrests⟩ := ih serving looks calm (by omega)
          rw [run fuel, List.filterMap_append, hreports, reports]
          exact ⟨rfl, r'', c'', .trans handle answered hrests⟩

theorem run (h : Serving a s r c) (hl : r.phase.isLooking = true) (hcalm : IsCalm c) :
    s.run.1.filterMap Session.Event.report? = total r c ∧
      ∃ r' c', Rests a r.handle c s.run.1 s.run.2 r' c' := by
  have hrun : s.run = s.runFor (r.stepBound s.links) := by simp only [Session.run, h.receiver]
  rw [hrun]
  exact h.runFor hl hcalm (Receiver.cost_lt_stepBound h.channel)

end Serving

def Session.push (s : Session) (link : Nat) (receipts : List Receipt) : Session :=
  s.withLinks (s.links.modify link fun c => c.withInbox (c.socket.inbox ++ receipts))

def Session.serve (s : Session) (link : Nat) : List (List Receipt) → List Session.Event × Session
  | [] => ([], s)
  | receipts :: later =>
      let (events, s) := (s.push link receipts).run
      let (more, s) := serve s link later
      (events ++ more, s)

namespace Serving

variable {a : Action} {s : Session} {r : Receiver} {c : Channel}

theorem push (h : Serving a s r c) (receipts : List Receipt) :
    Serving a (s.push r.handle.link receipts) r (c.withInbox (c.socket.inbox ++ receipts)) where
  prompt := h.prompt
  plan := h.plan
  otherwise := h.otherwise
  holder := h.holder
  receiver := h.receiver
  channel := Links.channels_modify h.channel _
  isOpen := h.isOpen
  unstopped := h.unstopped
  pool := h.pool
  capacity := h.capacity

/-- However the arrivals are spread over the runs, they give rise to the same reports. -/
theorem serve (h : Serving a s r c) (hphase : r.phase = .receiving) (hempty : c.socket.inbox = [])
    (arrivals : List (List Receipt))
    (hcalm : ∀ x ∈ c.socket.handsOut arrivals.flatten, isFatal x = false) :
    (s.serve r.handle.link arrivals).1.filterMap Session.Event.report? =
      (c.socket.handsOut arrivals.flatten).flatMap (Report.ofReceipt r.handle) := by
  induction arrivals generalizing s r c with
  | nil => rfl
  | cons receipts later ih =>
      rw [List.flatten_cons, Socket.handsOut_append] at hcalm ⊢
      have hpushed := h.push receipts
      rw [hempty, List.nil_append] at hpushed
      have hnow : IsCalm (c.withInbox receipts) := fun x hx => hcalm x (List.mem_append_left _ hx)
      obtain ⟨hreports, r', c', hrests⟩ := hpushed.run (by rw [hphase]; rfl) hnow
      have hands : c'.socket.handsOut = c.socket.handsOut := hrests.answered.handsOut
      have hlater := ih hrests.serving hrests.phase hrests.inbox fun x hx =>
        hcalm x (List.mem_append_right _ (hands ▸ hx))
      rw [hrests.handle, hands] at hlater
      rw [Session.serve, List.filterMap_append, hreports, hlater, List.flatMap_append, total,
        hphase]
      rfl

end Serving

end Queue

end Netfilter
