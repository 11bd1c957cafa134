import Netfilter.Queue.Binding
import Netfilter.Queue.Delivery

/-!
# Sessions

A session is a program that uses one queue: it sets the queue up, starts a
receiver, answers each packet as planned or keeps it for later, sends verdicts
through handles, and stops. After each of its actions the receiver runs until it
waits, and channels that nothing refers to any more are let go of.
-/

namespace Netfilter.Queue

structure Edit where
  replacement : Option Bytes := none
  addition : Bytes := []
  cut : Option Nat := none
  deriving DecidableEq, Repr

def Edit.apply (e : Edit) (data : Bytes) : Bytes :=
  let edited := e.replacement.getD data ++ e.addition
  match e.cut with
  | none => edited
  | some n => edited.take n

inductive Action
  | decide (disposition : Disposition) (mark : Option UInt32)
  | sendBack (disposition : Disposition) (edit : Edit)
  | hold
  | free
  | breakDown
  deriving Repr

inductive Done
  | sent (result : Except Error Unit)
  | held
  | freed
  deriving Repr

structure Instruction where
  action : Action := .decide .accept none
  flow : Flow := .proceed
  deriving Repr

inductive Holder
  | binding
  | receiver
  | nobody
  deriving DecidableEq, Repr

structure Session where
  binding : Binding
  holder : Holder := .binding
  receiver : Option Receiver := none
  /-- What is done with the next packets. -/
  plan : List Instruction := []
  /-- What is done with a packet when the plan is used up. -/
  otherwise : Instruction := {}
  handles : List VerdictHandle := []
  /-- The packets kept so far; `none` in place of one that was used since. -/
  held : List (Option Packet) := []
  deriving Repr

namespace Session

inductive Event
  | failed (cause : Error)
  | packet (packet : Packet)
  | done (done : Done)
  deriving Repr

def links (s : Session) : Links := s.binding.links

def withLinks (s : Session) (links : Links) : Session :=
  { s with binding := { s.binding with links } }

def isRunning (s : Session) : Bool := s.receiver.any fun r => !r.hasEnded

def release (s : Session) (p : Packet) : Session :=
  { s with receiver := s.receiver.map (·.takeBack p.lease) }

def conclude (s : Session) (p : Packet) (disposition : Disposition) (mark : Option UInt32)
    (payload : Bytes) : Done × Session :=
  let verdict : Verdict := { packet := p.info.id, disposition, mark }
  let ((result, _), links) := p.handle.send verdict payload s.links
  (.sent result, (s.withLinks links).release p)

/-- Does something with a packet; a breakdown has no result. -/
def act (s : Session) (p : Packet) : Action → Option Done × Session
  | .decide disposition mark =>
      let (done, s) := s.conclude p disposition mark []
      (some done, s)
  | .sendBack disposition edit =>
      let (done, s) := s.conclude p disposition none (edit.apply p.payload)
      (some done, s)
  | .hold => (some .held, { s with held := s.held ++ [some p] })
  | .free => (some .freed, s.release p)
  | .breakDown => (none, s.release p)

def handle (s : Session) (p : Packet) : List Event × Session :=
  let instruction := s.plan.headD s.otherwise
  let s := { s with plan := s.plan.tail }
  match s.act p instruction.action with
  | (none, s) => ([.packet p], { s with receiver := s.receiver.map (·.endWith .aborted) })
  | (some done, s) =>
      let s := match s.receiver with
        | none => s
        | some r =>
            let (r, links) := r.resume instruction.flow s.links
            { s.withLinks links with receiver := some r }
      ([.packet p, .done done], s)

def runFor : Nat → Session → List Event × Session
  | 0, s => ([], s)
  | fuel + 1, s =>
      match s.receiver with
      | none => ([], s)
      | some r =>
          let (move, r, links) := r.step s.links
          let s := { s.withLinks links with receiver := some r }
          match move with
          | .waits => ([], s)
          | .silent => runFor fuel s
          | .reports (.failed e) =>
              let (events, s) := runFor fuel s
              (.failed e :: events, s)
          | .reports (.packet p) =>
              let (handled, s) := s.handle p
              let (events, s) := runFor fuel s
              (handled ++ events, s)

def run (s : Session) : List Event × Session :=
  match s.receiver with
  | none => ([], s)
  | some r => runFor (r.stepBound s.links) s

/-- Whether a verdict handle, a held packet or a running receiver refers to channel `i`. -/
def refersTo (s : Session) (i : Nat) : Bool :=
  s.handles.any (·.link = i)
    || s.held.any (fun p => p.any (·.handle.link = i))
    || s.receiver.any fun r => !r.hasEnded && r.handle.link = i

def settle (s : Session) : List Event × Session :=
  let (events, s) := s.run
  (events, s.withLinks (s.links.sweep s.refersTo))

def onBinding {α : Type} (s : Session) (f : Binding → α × Binding) : Option α × Session :=
  match s.holder with
  | .nobody => (none, s)
  | _ =>
      let (a, binding) := f s.binding
      (some a, { s with binding })

def dropQueue (s : Session) : Session :=
  { s.withLinks s.links.release with
    holder := .nobody
    receiver := s.receiver.map Receiver.requestStop }

/-- A handle for verdicts on the queue. A receiver has one even when its channel is closed. -/
def verdictHandle? (s : Session) : Option (Except Error VerdictHandle) :=
  match s.holder, s.receiver with
  | .nobody, _ => none
  | _, some r => some (.ok r.handle)
  | _, none =>
      match s.links.openNumber? with
      | none => some (.error .notOpen)
      | some link => some (.ok { link, queue := s.binding.settings.number })

def takeHandle (s : Session) : Option (Except Error Unit) × Session :=
  match s.verdictHandle? with
  | none => (none, s)
  | some (.error e) => (some (.error e), s)
  | some (.ok h) => (some (.ok ()), { s with handles := s.handles ++ [h] })

/-- Starts a receiver. Without an open channel the queue is lost. -/
def start (s : Session) (plan : List Instruction) : Option (Except Error Unit) × Session :=
  match s.verdictHandle? with
  | none => (none, s)
  | some (.error e) => (some (.error e), s.dropQueue)
  | some (.ok handle) =>
      let settings := s.binding.settings
      let pool := Pool.ofCount settings.poolSize.toNat settings.bufferSize
      (some (.ok ()), { s with holder := .receiver, plan, receiver := some { handle, pool } })

/-- Stops the receiver, unbinds the queue if its channel is still open, and closes. If unbinding
waits, the queue is dropped as it is. -/
def stop (s : Session) : List Event × Option (Outcome Unit) × Session :=
  match s.holder with
  | .nobody => ([], none, s)
  | _ =>
      let (events, s) := run { s with receiver := s.receiver.map Receiver.requestStop }
      let (outcome, binding) :=
        if s.binding.isOpen then s.binding.perform .unbind else (.ok (), s.binding)
      let binding := match outcome with
        | .pending => binding
        | _ => binding.close
      (events, some outcome, { s with binding }.dropQueue)

def sendThrough (s : Session) (handle : VerdictHandle) (verdict : Verdict) (payload : Bytes) :
    (Except Error Unit × Bytes) × Session :=
  let (result, links) := handle.send verdict payload s.links
  (result, s.withLinks links)

def useHeld (s : Session) (number : Nat) (action : Action) :
    Option (Packet × Option Done) × Session :=
  match s.held[number]?.join with
  | none => (none, s)
  | some p =>
      let (done, s) := { s with held := s.held.set number none }.act p action
      (some (p, done), s)

def describe (s : Session) : String :=
  match s.holder with
  | .receiver =>
      "QueueHandle \x7b queue: " ++ s.binding.describe ++ ", running: " ++ toString s.isRunning
        ++ " \x7d"
  | _ => s.binding.describe

end Session

end Netfilter.Queue
