import Netfilter.Proofs.Queue.Conduct
import Netfilter.Proofs.Queue.Shutdown
import Netfilter.Proofs.Requests.Upkeep

/-!
# A queue drops each of its sockets once

Sockets are given up when a handle is opened again, when it is closed and when
bringing the queue up fails. Whatever is undertaken, one socket at most is not
dropped, the last one, and only while the handle is open. A handle for verdicts
that was taken before its channel was given up is refused from then on.
-/

namespace Netfilter

namespace Links

structure Retired (i : Nat) (l : Links) : Prop where
  lt : i < l.channels.length
  unused : l.current ≠ some i

namespace Retired

variable {l l' : Links} {i : Nat}

theorem of_same (h : l.Retired i) (hlength : l'.channels.length = l.channels.length)
    (hcurrent : l'.current = l.current) : l'.Retired i :=
  ⟨hlength ▸ h.lt, hcurrent ▸ h.unused⟩

theorem close (h : l.Retired i) : l.close.Retired i := by
  refine ⟨l.length_channels_close ▸ h.lt, ?_⟩
  rw [current_close]
  exact nofun

end Retired

/-- A channel is not in use any more once another one is opened. -/
theorem retired_openWith {l : Links} {i : Nat} (hi : i < l.channels.length)
    (settings : SocketSettings) (socket : Socket) : (l.openWith settings socket).Retired i := by
  rw [← l.length_channels_close] at hi
  refine ⟨?_, ?_⟩
  · simp only [openWith, List.length_append, List.length_singleton]
    omega
  · intro hcurrent
    have hlatest : some l.close.channels.length = some i := hcurrent
    exact Nat.lt_irrefl _ (Option.some.inj hlatest ▸ hi)

end Links

namespace Queue

namespace Binding

variable {b : Binding} {sockets : List Socket}

structure Tidy (sockets : List Socket) (b : Binding) : Prop where
  links : b.links.Tidy sockets
  stage : b.stage = .closed ↔ b.links.current = none

namespace Tidy

theorem isOpen_iff (h : b.Tidy sockets) : b.isOpen = true ↔ b.stage ≠ .closed := by
  rw [isOpen, h.links.isOpen_eq, Ne, h.stage, Option.isSome_iff_ne_none]

theorem openWith (h : b.Tidy sockets) (socket : Socket) :
    (b.openWith socket).Tidy (sockets ++ [socket]) :=
  ⟨h.links.openWith b.settings.socket socket, iff_of_false nofun nofun⟩

theorem close (h : b.Tidy sockets) : b.close.Tidy sockets :=
  ⟨h.links.close, iff_of_true rfl b.links.current_close⟩

end Tidy

theorem stage_acknowledged_ne (h : b.stage ≠ .closed) (r : Request) :
    (b.acknowledged r).stage ≠ .closed := by
  have hnote (b : Binding) (hb : b.stage ≠ .closed) : b.noteConfigured.stage ≠ .closed := by
    unfold noteConfigured
    split_ifs
    · exact nofun
    · exact hb
  cases r with
  | setMode mode range => exact hnote _ h
  | setMaxLength maxLength => exact hnote _ h
  | setFlags mask flags => exact h
  | unbindFamily | bindFamily | bind number | unbind => exact nofun

theorem Tidy.attempt (h : b.Tidy sockets) (r : Request) (course : List Moment) :
    (b.attempt r course).2.Tidy sockets := by
  have hbears := b.bears_attempt r course
  refine ⟨?_, ?_⟩
  · rw [links_attempt]
    exact h.links.pursue _ course
  rw [hbears.current, ← h.stage]
  by_cases hok : (b.attempt r course).1.answer r.label = .ok ()
  · -- only a binding that is open has a request acknowledged
    have hfree := Links.isFree_of_isAcknowledged ((Headway.isAcknowledged_iff_answer _ _).2 hok)
    obtain ⟨i, c, huses, -⟩ := (Links.isFree_eq_true_iff _).1 hfree
    have hstage : b.stage ≠ .closed := by
      rw [Ne, h.stage, huses.current]
      exact nofun
    have hafter := congrArg Binding.stage (record_attempt_of_ok hok)
    change (b.attempt r course).2.stage = _ at hafter
    rw [hafter]
    exact iff_of_false (stage_acknowledged_ne (b := b.record) hstage r) hstage
  · have hsame := congrArg Binding.stage (record_attempt_of_ne hok)
    change (b.attempt r course).2.stage = b.stage at hsame
    rw [hsame]

theorem Tidy.establish (h : b.Tidy sockets) (courses : Request → List Moment) :
    (b.establish courses).2.2.Tidy sockets :=
  @establish_keeps (fun _ b => b.Tidy sockets) [] b
    (fun h r course => h.attempt r course) (fun h => h.close) h courses

def Undertaking.socket? : Undertaking → Option Socket
  | openWith socket => some socket
  | _ => none

theorem Tidy.undertake (h : b.Tidy sockets) (u : Undertaking) :
    (b.undertake u).2.2.Tidy (sockets ++ u.socket?.toList) := by
  have hsame {b : Binding} (h : b.Tidy sockets) : b.Tidy (sockets ++ []) := by
    rwa [List.append_nil]
  cases u with
  | openWith socket => exact h.openWith socket
  | request r course => exact hsame (h.attempt r course)
  | bringUp courses => exact hsame (h.establish courses)
  | close => exact hsame h.close

def GivesUp (b : Binding) : Undertaking → Prop
  | .openWith _ | .close => True
  | .bringUp courses => ∃ cause, (b.establish courses).2.1 = .error cause
  | .request _ _ => False

theorem current_withdraw {courses : Request → List Moment} {cause e : Error}
    (h : (b.withdraw courses cause).2.1 = .error e) :
    (b.withdraw courses cause).2.2.links.current = none := by
  unfold withdraw at h ⊢
  by_cases hbound : b.stage.isBound = true
  · rw [if_pos hbound] at h ⊢
    generalize b.attempt .unbind (courses .unbind) = attempted at h ⊢
    obtain ⟨h', b'⟩ := attempted
    dsimp only at h ⊢
    cases houtcome : h'.outcome with
    | pending =>
        rw [houtcome] at h
        cases h
    | ok u | error e' => exact b'.links.current_close
  · rw [if_neg hbound]
    exact b.links.current_close

theorem current_establish {courses : Request → List Moment} {cause : Error}
    (h : (b.establish courses).2.1 = .error cause) :
    (b.establish courses).2.2.links.current = none := by
  rw [establish] at h ⊢
  generalize b.attemptAll courses (Request.bringUp b.settings) = attempted at h ⊢
  obtain ⟨marks, outcome, b'⟩ := attempted
  cases outcome with
  | ok u | pending => cases h
  | error cause' => exact current_withdraw h

theorem length_channels_establish (b : Binding) (courses : Request → List Moment) :
    (b.establish courses).2.2.links.channels.length = b.links.channels.length :=
  @establish_keeps (fun _ b' => b'.links.channels.length = b.links.channels.length) [] b
    (fun h r course => (bears_attempt _ r course).length.trans h)
    (fun h => (Links.length_channels_close _).trans h) rfl courses

theorem retired_of_givesUp {i : Nat} (hi : i < b.links.channels.length) {u : Undertaking}
    (h : b.GivesUp u) : (b.undertake u).2.2.links.Retired i := by
  cases u with
  | openWith socket => exact Links.retired_openWith hi _ socket
  | request r course => cases h
  | bringUp courses =>
      obtain ⟨cause, hcause⟩ := h
      refine ⟨(b.length_channels_establish courses).symm ▸ hi, ?_⟩
      rw [undertake, current_establish hcause]
      exact nofun
  | close =>
      refine ⟨b.links.length_channels_close.symm ▸ hi, ?_⟩
      rw [undertake, close, Links.current_close]
      exact nofun

theorem retired_undertake {i : Nat} (h : b.links.Retired i) (u : Undertaking) :
    (b.undertake u).2.2.links.Retired i :=
  @undertake_keeps (fun _ b => b.links.Retired i) [] b
    (fun h r course => h.of_same (bears_attempt _ r course).length
      (bears_attempt _ r course).current)
    (fun h => h.close) (fun h socket => Links.retired_openWith h.lt _ socket) h u

end Binding

namespace Verdict

/-- The socket of a closed channel takes no verdict. -/
theorem socket_send_of_not_isOpen (v : Verdict) (queue : UInt16) (payload : Bytes) {c : Channel}
    (h : c.isOpen = false) : (v.send queue payload c).2.socket = c.socket := by
  cases hpieces : v.pieces queue payload c.nextSeq with
  | error e =>
      rw [send_of_refusal hpieces]
      rfl
  | ok pieces =>
      have hnumbered : c.takeSeq.2.isOpen = false := h
      rw [send_of_pieces hpieces, Channel.gather_of_not_isOpen hnumbered]
      rfl

end Verdict

namespace Session

inductive Dealing
  | undertake (u : Binding.Undertaking)
  | takeHandle
  /-- Send a verdict through the handle of this number. -/
  | send (number : Nat) (v : Verdict) (payload : Bytes)

def Dealing.socket? : Dealing → Option Socket
  | undertake u => u.socket?
  | _ => none

def deal (s : Session) : Dealing → Session
  | .undertake u =>
      (s.onBinding fun b =>
        let (marks, outcome, b) := b.undertake u
        ((marks, outcome), b)).2
  | .takeHandle => s.takeHandle.2
  | .send number v payload =>
      match s.handles[number]? with
      | none => s
      | some handle => (s.sendThrough handle v payload).2

/-- One dealing, after which the channels are let go of that nothing refers to. -/
def after (s : Session) (d : Dealing) : Session := (s.deal d).settle.2

def dealAll (s : Session) (dealings : List Dealing) : Session := dealings.foldl after s

def GivesUp (s : Session) : Dealing → Prop
  | .undertake u => s.binding.GivesUp u
  | _ => False

structure Tidy (sockets : List Socket) (s : Session) : Prop where
  holder : s.holder = .binding
  receiver : s.receiver = none
  binding : s.binding.Tidy sockets
  handles : ∀ handle ∈ s.handles, handle.link < sockets.length

variable {s : Session} {sockets : List Socket}

theorem settle_of_no_receiver (h : s.receiver = none) :
    s.settle.2 = s.withLinks (s.links.sweep s.refersTo) := by
  rw [settle, run, h]

theorem deal_undertake (h : s.holder = .binding) (u : Binding.Undertaking) :
    s.deal (.undertake u) = { s with binding := (s.binding.undertake u).2.2 } := by
  simp only [deal, onBinding, h]

theorem Tidy.takeHandle (h : s.Tidy sockets) : s.takeHandle.2.Tidy sockets := by
  cases hnumber : s.links.openNumber? with
  | none =>
      have hhandle : s.verdictHandle? = some (.error .notOpen) := by
        simp only [verdictHandle?, h.holder, h.receiver, hnumber]
      rw [Session.takeHandle, hhandle]
      exact h
  | some link =>
      have hhandle : s.verdictHandle? = some (.ok ⟨link, s.binding.settings.number⟩) := by
        simp only [verdictHandle?, h.holder, h.receiver, hnumber]
      obtain ⟨c, huses, -⟩ := Links.exists_of_openNumber? hnumber
      rw [Session.takeHandle, hhandle]
      refine ⟨h.holder, h.receiver, h.binding, fun handle hmem => ?_⟩
      rcases List.mem_append.1 hmem with hmem | hmem
      · exact h.handles handle hmem
      · obtain rfl := List.mem_singleton.1 hmem
        have hlatest := h.binding.links.latest link huses.current
        exact hlatest ▸ Nat.lt_succ_self link

theorem Tidy.withLinks (h : s.Tidy sockets) {links : Links} (hlinks : links.Tidy sockets)
    (hcurrent : links.current = s.links.current) : (s.withLinks links).Tidy sockets := by
  refine ⟨h.holder, h.receiver, ⟨hlinks, ?_⟩, h.handles⟩
  change s.binding.stage = .closed ↔ links.current = none
  rw [hcurrent]
  exact h.binding.stage

theorem sendThrough_eq {handle : VerdictHandle} {c : Channel}
    (hc : s.links.channels[handle.link]? = some c) (v : Verdict) (payload : Bytes) :
    s.sendThrough handle v payload = ((v.send handle.queue payload c).1,
      s.withLinks (s.links.put handle.link (v.send handle.queue payload c).2)) := by
  rw [sendThrough, VerdictHandle.send, Links.onChannel_of_channel hc]

theorem Tidy.exists_channel (h : s.Tidy sockets) {handle : VerdictHandle}
    (hhandle : handle ∈ s.handles) : ∃ c, s.links.channels[handle.link]? = some c := by
  have hlt : handle.link < s.links.channels.length :=
    h.binding.links.length ▸ h.handles handle hhandle
  exact ⟨_, List.getElem?_eq_getElem hlt⟩

theorem Tidy.deal (h : s.Tidy sockets) (d : Dealing) :
    (s.deal d).Tidy (sockets ++ d.socket?.toList) := by
  have hsame {s : Session} (h : s.Tidy sockets) : s.Tidy (sockets ++ []) := by
    rwa [List.append_nil]
  cases d with
  | undertake u =>
      rw [deal_undertake h.holder]
      refine ⟨h.holder, h.receiver, h.binding.undertake u, fun handle hmem => ?_⟩
      rw [List.length_append]
      exact Nat.lt_add_right _ (h.handles handle hmem)
  | takeHandle => exact hsame h.takeHandle
  | send number v payload =>
      refine hsame ?_
      simp only [Session.deal]
      cases hhandle : s.handles[number]? with
      | none => exact h
      | some handle =>
          obtain ⟨c, hc⟩ := h.exists_channel (List.mem_of_getElem? hhandle)
          dsimp only
          rw [sendThrough_eq hc]
          refine h.withLinks (h.binding.links.put hc ?_) rfl
          rw [← v.amid_send]
          exact c.standsBy_amid _

theorem Tidy.after (h : s.Tidy sockets) (d : Dealing) :
    (s.after d).Tidy (sockets ++ d.socket?.toList) := by
  have hdealt := h.deal d
  rw [Session.after, settle_of_no_receiver hdealt.receiver]
  exact hdealt.withLinks (hdealt.binding.links.sweep _) rfl

theorem Tidy.dealAll (h : s.Tidy sockets) (dealings : List Dealing) :
    (s.dealAll dealings).Tidy (sockets ++ dealings.filterMap Dealing.socket?) := by
  induction dealings generalizing s sockets with
  | nil => simpa [Session.dealAll] using h
  | cons d dealings ih =>
      have hlater := ih (h.after d)
      have hsockets : (d :: dealings).filterMap Dealing.socket? =
          d.socket?.toList ++ dealings.filterMap Dealing.socket? := by
        rw [List.filterMap_cons]
        cases d.socket? <;> rfl
      rwa [List.append_assoc, ← hsockets] at hlater

theorem links_takeHandle (s : Session) : s.takeHandle.2.links = s.links := by
  unfold takeHandle
  split <;> rfl

theorem Tidy.retired_after (h : s.Tidy sockets) {i : Nat} (hretired : s.links.Retired i)
    (d : Dealing) : (s.after d).links.Retired i := by
  have hdealt : (s.deal d).links.Retired i := by
    cases d with
    | undertake u =>
        rw [deal_undertake h.holder]
        exact Binding.retired_undertake hretired u
    | takeHandle =>
        rw [Session.deal, links_takeHandle]
        exact hretired
    | send number v payload =>
        simp only [Session.deal]
        cases hhandle : s.handles[number]? with
        | none => exact hretired
        | some handle =>
            obtain ⟨c, hc⟩ := h.exists_channel (List.mem_of_getElem? hhandle)
            dsimp only
            rw [sendThrough_eq hc]
            exact hretired.of_same List.length_set rfl
  rw [Session.after, settle_of_no_receiver (h.deal d).receiver]
  exact hdealt.of_same List.length_mapIdx rfl

theorem Tidy.retired_dealAll (h : s.Tidy sockets) {i : Nat} (hretired : s.links.Retired i)
    (dealings : List Dealing) : (s.dealAll dealings).links.Retired i := by
  induction dealings generalizing s sockets with
  | nil => exact hretired
  | cons d dealings ih => exact ih (h.after d) (h.retired_after hretired d)

/-- The channel of a handle is retired as soon as the channel in use is given up. -/
theorem Tidy.retired_of_givesUp (h : s.Tidy sockets) {d : Dealing} (hgives : s.GivesUp d)
    {handle : VerdictHandle} (hhandle : handle ∈ s.handles) :
    (s.after d).links.Retired handle.link := by
  have hlt : handle.link < s.binding.links.channels.length :=
    h.binding.links.length ▸ h.handles handle hhandle
  cases d with
  | undertake u =>
      have hretired := Binding.retired_of_givesUp hlt hgives
      rw [Session.after, settle_of_no_receiver (h.deal _).receiver, deal_undertake h.holder]
      exact hretired.of_same List.length_mapIdx rfl
  | takeHandle => cases hgives
  | send number v payload => cases hgives

/-- Verdicts through this handle are refused, and no socket takes anything of them. -/
structure Spurns (s : Session) (handle : VerdictHandle) : Prop where
  refused : ∀ v payload, payload.length ≤ Verdict.maxPayload →
    (s.sendThrough handle v payload).1.1 = .error .notOpen
  sockets : ∀ v payload, (s.sendThrough handle v payload).2.links.channels.map Channel.socket =
    s.links.channels.map Channel.socket

theorem Tidy.spurns (h : s.Tidy sockets) {handle : VerdictHandle}
    (hretired : s.links.Retired handle.link) : s.Spurns handle := by
  obtain ⟨c, hc⟩ : ∃ c, s.links.channels[handle.link]? = some c :=
    ⟨_, List.getElem?_eq_getElem hretired.lt⟩
  have hshut : c.isOpen = false := by
    rw [h.binding.links.isOpen_channel hc]
    exact decide_eq_false hretired.unused
  refine ⟨fun v payload hle => ?_, fun v payload => ?_⟩
  · rw [sendThrough_eq hc]
    exact v.send_of_not_isOpen handle.queue hshut hle
  · rw [sendThrough_eq hc]
    change (s.links.channels.set _ _).map _ = _
    obtain ⟨hlt, rfl⟩ := List.getElem?_eq_some_iff.1 hc
    rw [List.map_set, v.socket_send_of_not_isOpen _ _ hshut]
    have hlt' : handle.link < (s.links.channels.map Channel.socket).length := by simpa using hlt
    rw [← List.getElem_map Channel.socket]
    · exact List.set_getElem_self hlt'

structure KeepsSockets (sockets : List Socket) (s : Session) : Prop where
  /-- The queue can be opened at any time, whatever options the socket does not take. -/
  opens : ∀ socket, (s.binding.openWith socket).isOpen = true ∧
    (s.binding.openWith socket).stage = .opened ∧
    ∃ c, (s.binding.openWith socket).links.Uses sockets.length c ∧ c.Ready socket []
  isOpen : s.binding.isOpen = true ↔ s.binding.stage ≠ .closed
  length : s.links.channels.length = sockets.length
  /-- All sockets were dropped once, but for the last one as long as the queue is open. -/
  drops : ∀ (i : Nat) (socket : Socket), sockets[i]? = some socket →
    ∃ c, s.links.channels[i]? = some c ∧ c.socket.port = socket.port ∧
      c.socket.drops = socket.drops +
        if s.binding.isOpen = true ∧ i + 1 = sockets.length then 0 else 1
  /-- The handles for verdicts that work are those on the channel in use. -/
  handles : ∀ handle ∈ s.handles,
    handle.isOpen s.links = decide (s.links.current = some handle.link)

theorem Tidy.keepsSockets (h : s.Tidy sockets) : s.KeepsSockets sockets := by
  refine ⟨fun socket => ?_, h.binding.isOpen_iff, h.binding.links.length,
    fun i socket hi => h.binding.links.drops hi, fun handle hmem => ?_⟩
  · have hopened := h.binding.openWith socket
    have huses := s.binding.links.uses_openWith s.binding.settings.socket socket
    rw [h.binding.links.close.length] at huses
    exact ⟨hopened.isOpen_iff.2 nofun, rfl, _, huses, Channel.ready_tune socket _⟩
  · obtain ⟨c, hc⟩ := h.exists_channel hmem
    rw [VerdictHandle.isOpen, hc]
    exact h.binding.links.isOpen_channel hc

theorem tidy_nil (settings : QueueSettings) : Tidy [] { binding := { settings } } where
  holder := rfl
  receiver := rfl
  binding := ⟨Links.tidy_nil, iff_of_true rfl rfl⟩
  handles := nofun

theorem dealAll_append (s : Session) (before later : List Dealing) :
    s.dealAll (before ++ later) = (s.dealAll before).dealAll later := List.foldl_append

/-- Whatever is done with a new handle on a queue, each socket that it was opened over is dropped
once, but for the last one while the handle is open. What was taken for verdicts before is refused
once the channel is given up. -/
theorem sockets_dropped_once (settings : QueueSettings) (dealings : List Dealing) :
    KeepsSockets (dealings.filterMap Dealing.socket?)
        (dealAll { binding := { settings } } dealings) ∧
      ∀ before d after, dealings = before ++ d :: after →
        (dealAll { binding := { settings } } before).GivesUp d →
        ∀ handle ∈ (dealAll { binding := { settings } } before).handles,
          (dealAll { binding := { settings } } dealings).Spurns handle := by
  refine ⟨((tidy_nil settings).dealAll dealings).keepsSockets, ?_⟩
  rintro before d after rfl hgives handle hhandle
  have hbefore := (tidy_nil settings).dealAll before
  have hretired := hbefore.retired_of_givesUp hgives hhandle
  have hlater := (hbefore.after d).retired_dealAll hretired after
  have hall := (tidy_nil settings).dealAll (before ++ d :: after)
  rw [dealAll_append] at hall ⊢
  exact hall.spurns hlater

def opening : List Dealing := [.undertake (.openWith { port := 7 }), .takeHandle]

/-- The queue cannot be brought up, since nothing can be sent. -/
def failing : Dealing :=
  .undertake (.bringUp fun _ => [.meanwhile { socket := { port := 0, sendFaults := [5] } }, .look])

def reopening : List Dealing := [.undertake (.openWith { port := 8 })]

theorem sockets_dropped_once_reopening :
    let settings : QueueSettings := {}
    (dealAll { binding := { settings } } opening).GivesUp failing ∧
      ⟨0, 0⟩ ∈ (dealAll { binding := { settings } } opening).handles ∧
      Spurns (dealAll { binding := { settings } } (opening ++ failing :: reopening)) ⟨0, 0⟩ ∧
      (dealAll { binding := { settings } } (opening ++ failing :: reopening)).binding.isOpen =
        true := by
  have hgives : (dealAll { binding := { settings := {} } } opening).GivesUp failing :=
    ⟨.io (.os 5), by cbv⟩
  have htaken : ⟨0, 0⟩ ∈ (dealAll { binding := { settings := {} } } opening).handles := by
    have hhandles : (dealAll { binding := { settings := {} } } opening).handles = [⟨0, 0⟩] := by cbv
    rw [hhandles]
    exact List.mem_singleton_self _
  have hstage : (dealAll { binding := { settings := {} } }
      (opening ++ failing :: reopening)).binding.stage = .opened := by cbv
  obtain ⟨hkeeps, hspurns⟩ := sockets_dropped_once {} (opening ++ failing :: reopening)
  refine ⟨hgives, htaken, hspurns _ _ _ rfl hgives _ htaken, hkeeps.isOpen.2 ?_⟩
  rw [hstage]
  decide

end Session

end Queue

end Netfilter
