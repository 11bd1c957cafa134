import Netfilter.CommandLine.Run
import Netfilter.Proofs.CommandLine.Reporting
import Netfilter.Proofs.Queue.Attending
import Netfilter.Proofs.Queue.Ruling
import Netfilter.Proofs.Queue.Shutdown
import Netfilter.Proofs.Requests.Handles

/-!
# Every packet is answered once

The command that answers packets does the same with each of them: it shows it on
a line and writes one verdict about it, in one piece. A write that fails makes no
difference to the packets after it. Between two steps all buffers are free, so
the receiver never waits for one.
-/

namespace Netfilter

namespace Queue

namespace Binding

variable {b : Binding} {i : Nat} {c : Channel}

theorem uses_perform (h : b.links.Uses i c) (hopen : c.isOpen = true) (r : Request) :
    ∃ c', (b.perform r).2.links = b.links.put i c' ∧ c'.isOpen = true := by
  refine ⟨(c.query (r.draft b.settings)).2, ?_, (c.query_frame _).1.trans hopen⟩
  rw [b.links_perform r]
  exact congrArg Prod.snd (h.query hopen _)

theorem uses_performAll (h : b.links.Uses i c) (hopen : c.isOpen = true)
    (requests : List Request) :
    ∃ c', (b.performAll requests).2.links = b.links.put i c' ∧ c'.isOpen = true := by
  induction requests generalizing b c with
  | nil => exact ⟨c, (Links.put_self h.channel).symm, hopen⟩
  | cons r requests ih =>
      obtain ⟨c', hlinks, hopen'⟩ := uses_perform h hopen r
      rw [performAll]
      generalize b.perform r = performed at hlinks ⊢
      obtain ⟨outcome, b'⟩ := performed
      cases outcome with
      | ok =>
          obtain ⟨c'', hlater, hopen''⟩ := ih (b := b') (hlinks ▸ h.put c') hopen'
          refine ⟨c'', hlater.trans ?_, hopen''⟩
          rw [hlinks, Links.put_put]
      | error e | pending => exact ⟨c', hlinks, hopen'⟩

/-- A queue that is up has its channel open. -/
theorem uses_bringUp (h : b.links.Uses i c) (hopen : c.isOpen = true)
    (hup : b.bringUp.1 = .ok ()) :
    b.bringUp.2.settings.number = b.settings.number ∧
      ∃ c', b.bringUp.2.links = b.links.put i c' ∧ c'.isOpen = true := by
  obtain ⟨-, hnumber, -⟩ := settings_performAll (b := b)
    fun r (hr : r ∈ Request.bringUp b.settings) number hn => number_of_mem_bringUp hr hn
  have hall := uses_performAll h hopen (Request.bringUp b.settings)
  rw [bringUp] at hup ⊢
  generalize b.performAll (Request.bringUp b.settings) = performed at hup hnumber hall ⊢
  obtain ⟨outcome, b'⟩ := performed
  cases outcome with
  | ok => exact ⟨hnumber, hall⟩
  | pending => cases hup
  | error e =>
      unfold unwind at hup
      dsimp only at hup
      split_ifs at hup
      split at hup <;> cases hup

theorem writes_giveUp (b : Binding) : b.giveUp.2.links.writes = b.links.writes := by
  unfold giveUp
  split_ifs
  · have hperform : (b.perform .unbind).2.links.writes = b.links.writes := by
      rw [b.links_perform]
      exact b.links.writes_query _
    generalize b.perform .unbind = performed at hperform ⊢
    obtain ⟨outcome, b'⟩ := performed
    cases outcome with
    | pending => exact hperform
    | ok | error e => exact b'.links.writes_close.trans hperform
  · exact b.links.writes_close

end Binding

theorem Serving.isRunning {a : Action} {s : Session} {r : Receiver} {c : Channel}
    (h : Serving a s r c) (hphase : r.phase = .receiving) : s.isRunning = true := by
  simp [Session.isRunning, h.receiver, Receiver.hasEnded, hphase]

end Queue

namespace CommandLine

open Queue

theorem socketOf_of_channel {l : Links} {c : Channel} (h : l.channels[0]? = some c)
    (fallback : Socket) : socketOf l fallback = c.socket := by
  rw [socketOf, List.head?_eq_getElem?, h]
  rfl

theorem writes_socketOf {l l' : Links} {c : Channel} (h : l.channels[0]? = some c)
    (hsame : l'.writes = l.writes) (fallback : Socket) :
    (socketOf l' fallback).writes = c.socket.writes := by
  have hwrites : l'.writes[0]? = some c.socket.writes := by
    rw [hsame, Links.writes, List.getElem?_map, h]
    rfl
  rw [Links.writes, List.getElem?_map] at hwrites
  obtain ⟨c', hc', heq⟩ := Option.map_eq_some_iff.1 hwrites
  rw [socketOf_of_channel hc']
  exact heq

/-- The receiver takes one turn after the other each time something has arrived, and nothing is left
out. -/
theorem deliver_eq_attend {a : Action} {s : Session} {r : Receiver} {c : Channel}
    (h : Serving a s r c) (hphase : r.phase = .receiving) (hempty : c.socket.inbox = [])
    (hlink : r.handle.link = 0) {arrivals : List Receipt}
    (hcalm : ∀ x ∈ c.socket.handsOut arrivals, isFatal x = false) :
    ∃ ticks, arrivalsOf ticks = arrivals ∧
      deliver arrivals s = ((s.attend 0 ticks).1, [], (s.attend 0 ticks).2) ∧
      (s.attend 0 ticks).1.filterMap Session.Event.report? =
        (c.socket.handsOut arrivals).flatMap (Report.ofReceipt r.handle) ∧
      ∃ r' c', Serving.Rests a r.handle c (s.attend 0 ticks).1 (s.attend 0 ticks).2 r' c' := by
  induction arrivals generalizing s r c with
  | nil => exact ⟨[], rfl, rfl, rfl, r, c, h, hphase, rfl, hempty, .nil c.socket.inbox⟩
  | cons x arrivals ih =>
      have hsplit := c.socket.handsOut_append [x] arrivals
      rw [← List.singleton_append, hsplit] at hcalm
      have hpushed := h.push [x]
      rw [hempty, List.nil_append, hlink] at hpushed
      obtain ⟨hreports, r', c', hrests⟩ := hpushed.run (by rw [hphase]; rfl)
        fun y hy => hcalm y (List.mem_append_left _ hy)
      -- one receipt, as many turns as the session makes of it, and the rest by induction
      obtain ⟨count, hturns⟩ := (s.push 0 [x]).exists_turns_run 0
      have hands : c'.socket.handsOut = c.socket.handsOut := hrests.answered.handsOut
      obtain ⟨ticks, harrivals, hdeliver, hlater, r'', c'', hrests'⟩ := ih hrests.serving
        hrests.phase hrests.inbox (by rw [hrests.handle, hlink]) fun y hy =>
          hcalm y (List.mem_append_right _ (hands ▸ hy))
      have hattend : s.attend 0 (.arrival x :: List.replicate count .turn ++ ticks) =
          ((s.push 0 [x]).run.1 ++ ((s.push 0 [x]).run.2.attend 0 ticks).1,
            ((s.push 0 [x]).run.2.attend 0 ticks).2) := by
        rw [List.cons_append, hturns]
        simp only [Session.attend, Session.tick, Session.attend_append, List.nil_append]
      have hrunning := h.isRunning hphase
      rw [hrests.handle, hands] at hlater
      refine ⟨.arrival x :: List.replicate count .turn ++ ticks, ?_, ?_, ?_, r'', c'', ?_⟩
      · rw [arrivalsOf_append, harrivals]
        change arrivalsOf ([.arrival x] ++ List.replicate count .turn) ++ arrivals = _
        rw [arrivalsOf_append, arrivalsOf_turns, List.append_nil]
        rfl
      · have hrun : (s.withLinks (arrival x s.links)).run = (s.push 0 [x]).run := rfl
        simp only [hattend, deliver, if_pos hrunning, hrun, hdeliver]
      · rw [hattend, List.filterMap_append, hreports, hlater]
        change _ = (c.socket.handsOut ([x] ++ arrivals)).flatMap _
        rw [hsplit, List.flatMap_append, total, hphase]
        rfl
      · rw [hattend]
        have hanswered := (Answered.nil [x]).trans hrests.answered
        exact .trans hrests.handle hanswered hrests'

namespace QueueArguments

def bringUp (a : QueueArguments) (socket : Socket) : Outcome Unit × Binding :=
  (({ settings := a.settings } : Binding).openWith
    (socket.withBuffer a.settings.socket.receiveBuffer.toNat)).bringUp

def session (a : QueueArguments) (b : Binding) : Session :=
  (({ binding := b, otherwise := a.instruction } : Session).start []).2

def verdict (a : QueueArguments) (p : Packet) : Verdict where
  packet := p.info.id
  disposition := a.ruling.disposition
  mark := a.mark

def datagrams (a : QueueArguments) (seq : UInt32) (packets : List Packet) : List Bytes :=
  rulings a.ruling.disposition a.mark a.number seq packets

/-- Since the channel was `c`, these receipts have arrived, and the session gave these events and
became `s`. Each packet was answered by the write of one verdict, whatever came of it, and all
buffers are free. -/
structure Attended (a : QueueArguments) (c : Channel) (arrivals : List Receipt)
    (events : List Session.Event) (s : Session) : Prop where
  reports : events.filterMap Session.Event.report? <+:
    (c.socket.handsOut (c.socket.inbox ++ arrivals)).flatMap (Report.ofReceipt ⟨0, a.number⟩)
  verdicts : List.Forall₂ (fun p data => ∃ seq, (a.verdict p).Says a.number seq data)
    (packetsOf events) (a.datagrams c.nextSeq (packetsOf events))
  answers : events.filter (fun event => !event.isFailure) = answersTo (packetsOf events)
    (c.socket.gatherEach (a.datagrams c.nextSeq (packetsOf events))).1
  writes : (socketOf s.links c.socket).writes =
    (c.socket.gatherEach (a.datagrams c.nextSeq (packetsOf events))).2.writes
  receiver : ∃ r, s.receiver = some r ∧ r.pool.available = r.pool.capacity ∧
    0 < r.pool.capacity ∧ ((r.step s.links).1 = .waits → r.phase = .receiving)

/-- Whenever the receipts arrive, the session attends to them. The command shows each packet on a
line, notes failures only, and writes nothing else in pieces. -/
structure AnswersEachPacket (a : QueueArguments) (format : Format) (socket : Socket) (s : Session)
    (c : Channel) (arrivals : List Receipt) : Prop where
  throughout : ∀ ticks, arrivalsOf ticks <+: arrivals →
    a.Attended c (arrivalsOf ticks) (s.attend 0 ticks).1 (s.attend 0 ticks).2
  report : ∃ ticks events s', arrivalsOf ticks = arrivals ∧ s.attend 0 ticks = (events, s') ∧
    events.filterMap Session.Event.report? =
      (c.socket.handsOut (c.socket.inbox ++ arrivals)).flatMap (Report.ofReceipt ⟨0, a.number⟩) ∧
    (a.run format none socket arrivals).pieces = events.flatMap (a.piecesOf format) ∧
    (a.run format none socket arrivals).lines = (packetsOf events).map (Line.ofPacket format) ∧
    (a.run format none socket arrivals).unread = [] ∧
    (a.run format none socket arrivals).socket.writes = (socketOf s'.links c.socket).writes

variable {a : QueueArguments} {socket : Socket}

theorem attended {s : Session} {r : Receiver} {c : Channel}
    (h : Serving (.decide a.ruling.disposition a.mark) s r c) (hphase : r.phase = .receiving)
    (hhandle : r.handle = ⟨0, a.number⟩) {ticks : List Tick}
    (hcalm : ∀ x ∈ c.socket.handsOut (c.socket.inbox ++ arrivalsOf ticks), isFatal x = false) :
    a.Attended c (arrivalsOf ticks) (s.attend 0 ticks).1 (s.attend 0 ticks).2 := by
  have hsplit := c.socket.handsOut_append c.socket.inbox (arrivalsOf ticks)
  rw [hsplit] at hcalm
  obtain ⟨r', c', hfollows, hreports⟩ := h.attend (by rw [hphase]; rfl)
    (fun x hx => hcalm x (List.mem_append_left _ hx)) ticks
    fun x hx => hcalm x (List.mem_append_right _ hx)
  rw [hhandle] at hfollows hreports
  have hserving := hfollows.serving
  have hanswered := hfollows.answered
  obtain ⟨hevents, hsocket⟩ := Action.answerAll_decide h.isOpen
    (fun p hp => congrArg VerdictHandle.queue (hanswered.handles p hp))
    a.ruling.disposition a.mark
  refine ⟨⟨total r' c', ?_⟩, says_rulings _ _ _ _ _, hanswered.answers.trans hevents, ?_,
    r', hserving.receiver, hserving.pool.available_add_length, hserving.capacity,
    hserving.receiving_of_waits hfollows.looks⟩
  · rw [← hreports, hsplit, List.flatMap_append, total, hphase, hhandle]
    rfl
  · have hchannel : (s.attend 0 ticks).2.links.channels[0]? = some c' := by
      have hc := hserving.channel
      rwa [hfollows.handle] at hc
    rw [datagrams, ← hsocket, socketOf_of_channel hchannel, hanswered.channel]
    rfl

/-- When a session that waits for datagrams is stopped, nothing more comes of it, and nothing more
is written in pieces. -/
theorem exists_settled {action : Action} {s : Session} {r : Receiver} {c : Channel}
    (h : Serving action s r c) (hphase : r.phase = .receiving) :
    ∃ outcome s', s.stop = ([], outcome, s') ∧ s'.settle.2.links.writes = s.links.writes := by
  obtain ⟨s', hstop, hchannels, hended⟩ := Session.stop_of_isBetweenTurns h.holder h.receiver
    (by rw [hphase]; rfl)
  refine ⟨_, s', hstop, ?_⟩
  have hrun := Session.run_of_stopRequested hended rfl (by rw [hphase]; rfl)
  have hwrites : s'.links.writes = s.links.writes := by
    rw [Links.writes, hchannels]
    exact s.binding.writes_giveUp
  rw [Session.settle, hrun]
  exact (Links.writes_sweep _ _).trans hwrites

/-- The command serves from the moment its queue is up. -/
theorem exists_serving (hup : (a.bringUp socket).1 = .ok ()) :
    ∃ r c, (a.bringUp socket).2.links.channels = [c] ∧ r.phase = .receiving ∧
      r.handle = ⟨0, a.number⟩ ∧
      Serving (.decide a.ruling.disposition a.mark) (a.session (a.bringUp socket).2) r c := by
  let opened := socket.withBuffer a.settings.socket.receiveBuffer.toNat
  have hup' : (({ settings := a.settings } : Binding).openWith opened).bringUp.1 = .ok () := by
    unfold bringUp at hup
    exact hup
  have hready := Channel.ready_tune opened a.settings.socket.options
  obtain ⟨hnumber, c, hlinks, hopen⟩ := Binding.uses_bringUp
    (Links.uses_openWith {} a.settings.socket opened) hready.isOpen hup'
  unfold bringUp session
  generalize Binding.bringUp _ = up at hnumber hlinks ⊢
  obtain ⟨outcome, b⟩ := up
  have hchannels : b.links.channels = [c] := congrArg Links.channels hlinks
  have hcurrent : b.links.current = some 0 := congrArg Links.current hlinks
  have hc : b.links.channels[0]? = some c := by
    rw [hchannels]
    rfl
  have hserving := Session.serving_start (a := .decide a.ruling.disposition a.mark) rfl
    (Links.Uses.openNumber? ⟨hcurrent, hc⟩ hopen) hc hopen
  exact ⟨_, c, hchannels, rfl, congrArg (VerdictHandle.mk 0) hnumber, hserving⟩

theorem lines_piecesOf (a : QueueArguments) (format : Format) (events : List Session.Event) :
    (events.flatMap (a.piecesOf format)).filterMap Piece.line? =
      (packetsOf events).map (Line.ofPacket format) := by
  induction events with
  | nil => rfl
  | cons event events ih =>
      rw [List.flatMap_cons, List.filterMap_append, ih]
      match event with
      | .packet p => rfl
      | .failed e =>
          rw [piecesOf, Piece.lines_notes]
          rfl
      | .done (.sent (.error e)) | .done (.sent (.ok _)) | .done .held | .done .freed => rfl

theorem run_eq (hup : (a.bringUp socket).1 = .ok ()) (format : Format) (arrivals : List Receipt) :
    let first := (a.session (a.bringUp socket).2).run
    let later := deliver arrivals first.2
    let last := later.2.2.stop
    (a.run format none socket arrivals).pieces =
        (first.1 ++ later.1).flatMap (a.piecesOf format)
          ++ (if later.2.2.isRunning then [] else [.note a.loopEnded])
          ++ last.1.flatMap (a.piecesOf format) ∧
      (a.run format none socket arrivals).unread = later.2.1 ∧
      ∃ fallback, (a.run format none socket arrivals).socket =
        socketOf last.2.2.settle.2.links fallback := by
  have hserve : a.run format none socket arrivals = a.serve format socket arrivals := rfl
  rcases hb : a.bringUp socket with ⟨outcome, b⟩
  rw [hb] at hup
  obtain rfl : outcome = .ok () := hup
  rw [hserve]
  unfold bringUp at hb
  unfold serve
  dsimp only
  rw [hb]
  exact ⟨rfl, rfl, _, rfl⟩

/-- Once its queue is up, the command answers each packet once, whatever else arrives and whenever
it does, as long as the receiver has no reason to end. -/
theorem run_answersEachPacket (a : QueueArguments) (socket : Socket)
    (hup : (a.bringUp socket).1 = .ok ()) :
    ∃ c, (a.bringUp socket).2.links.channels = [c] ∧ ∀ (format : Format) (arrivals : List Receipt),
      (∀ x ∈ c.socket.handsOut (c.socket.inbox ++ arrivals), isFatal x = false) →
      a.AnswersEachPacket format socket (a.session (a.bringUp socket).2) c arrivals := by
  obtain ⟨r, c, hchannels, hphase, hhandle, hserving⟩ := exists_serving hup
  refine ⟨c, hchannels, fun format arrivals hcalm => ⟨fun ticks hticks => ?_, ?_⟩⟩
  · obtain ⟨later, rfl⟩ := hticks
    refine attended hserving hphase hhandle fun x hx => hcalm x ?_
    rw [← List.append_assoc, Socket.handsOut_append]
    exact List.mem_append_left _ hx
  · have hsplit := c.socket.handsOut_append c.socket.inbox arrivals
    rw [hsplit] at hcalm
    obtain ⟨hfirst, r', c', hrests⟩ := hserving.run (by rw [hphase]; rfl)
      fun x hx => hcalm x (List.mem_append_left _ hx)
    have hands := hrests.answered.handsOut
    have hhandle' := hrests.handle.trans hhandle
    obtain ⟨ticks, harrivals, hdeliver, hlater, r'', c'', hrests'⟩ := deliver_eq_attend
      hrests.serving hrests.phase hrests.inbox (congrArg VerdictHandle.link hhandle')
      fun x hx => hcalm x (List.mem_append_right _ (hands ▸ hx))
    obtain ⟨count, hturns⟩ := (a.session (a.bringUp socket).2).exists_turns_run 0
    obtain ⟨outcome, s', hstop, hwrites⟩ := exists_settled hrests'.serving hrests'.phase
    obtain ⟨hpieces, hunread, fallback, hsocket⟩ := run_eq hup format arrivals
    have hattend := (a.session (a.bringUp socket).2).attend_append 0
      (List.replicate count .turn) ticks
    rw [← hturns] at hattend
    rw [hdeliver] at hpieces hunread hsocket
    dsimp only at hpieces hsocket
    rw [hstop] at hpieces hsocket
    -- the receiver still waits, so its loop has not ended
    have hrunning := hrests'.serving.isRunning hrests'.phase
    rw [if_pos hrunning, List.append_nil, List.flatMap_nil, List.append_nil] at hpieces
    refine ⟨List.replicate count .turn ++ ticks, _, _, ?_, hattend, ?_, hpieces, ?_, hunread, ?_⟩
    · rw [arrivalsOf_append, arrivalsOf_turns, harrivals]
      rfl
    · rw [List.filterMap_append, hfirst, hlater, total, hphase, hhandle', hhandle, hands, hsplit,
        List.flatMap_append]
      rfl
    · rw [Report.lines, hpieces, lines_piecesOf]
    · have hc := hrests'.serving.channel
      rw [hrests'.handle, hhandle'] at hc
      rw [hsocket, writes_socketOf hc hwrites, socketOf_of_channel hc]

def sampleArguments : QueueArguments where
  number := 7
  ruling := .drop
  mark := some 99

/-- The first verdict will not get through. -/
def sampleSocket : Socket where
  port := 4242
  gatherFaults := [11]

def samplePacket (id : UInt8) : Message where
  header := ⟨32, Message.typeOf Subsystem.queue Operation.packet.number, 0, 0, 0⟩
  payload := FamilyHeader.encode { family := 2, resource := 7 }
    ++ Attribute.encode ⟨Field.packetHeader.rawType, [0, 0, 0, id, 8, 0, 1]⟩

/-- Two packets in one datagram, a loss, and one more packet. -/
def sampleTraffic : List Receipt :=
  [.ok (Message.join [samplePacket 42, samplePacket 43]), .error (.os Errno.noBufferSpace),
    .ok (Message.join [samplePacket 44])]

theorem run_answersEachPacket_sampleTraffic :
    (sampleArguments.bringUp sampleSocket).1 = .ok () ∧
      ∃ c, (sampleArguments.bringUp sampleSocket).2.links.channels = [c] ∧
        (∀ x ∈ c.socket.handsOut (c.socket.inbox ++ sampleTraffic), isFatal x = false) ∧
        sampleArguments.AnswersEachPacket .text sampleSocket
          (sampleArguments.session (sampleArguments.bringUp sampleSocket).2) c sampleTraffic := by
  have hup : (sampleArguments.bringUp sampleSocket).1 = .ok () := by cbv
  have hinboxes : (sampleArguments.bringUp sampleSocket).2.links.channels.map (·.socket.inbox) =
      [[]] := by cbv
  obtain ⟨c, hchannels, hanswers⟩ := run_answersEachPacket sampleArguments sampleSocket hup
  rw [hchannels] at hinboxes
  have hinbox : c.socket.inbox = [] := List.singleton_inj.1 hinboxes
  have hcalm : ∀ x ∈ c.socket.handsOut (c.socket.inbox ++ sampleTraffic), isFatal x = false := by
    have hcut (x : Receipt) : isFatal (Socket.cut c.socket.room x) = isFatal x := by
      cases x <;> cases c.socket.room <;> rfl
    have hall : ∀ x ∈ sampleTraffic, isFatal x = false := by
      simp [sampleTraffic, isFatal, IoError.isNoBufferSpace]
    intro x hx
    rw [hinbox, List.nil_append, Socket.handsOut] at hx
    obtain ⟨y, hy, rfl⟩ := List.mem_map.1 hx
    rw [hcut]
    exact hall y (List.mem_filter.1 hy).1
  exact ⟨hup, c, hchannels, hcalm, hanswers .text sampleTraffic hcalm⟩

example : (packetsOf ((sampleArguments.session (sampleArguments.bringUp sampleSocket).2).attend 0
    (sampleTraffic.map .arrival ++ List.replicate 12 .turn)).1).map (·.info.id) = [42, 43, 44] := by
  cbv

end QueueArguments

end CommandLine

end Netfilter
