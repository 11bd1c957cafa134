import Netfilter.Queue.Packet

/-!
# Delivering packets

A receiver takes datagrams from a channel and hands the packets queued for it,
one by one, to a handler, each in a buffer leased from a pool. It waits for a
datagram or for a buffer, and looks for a request to stop before each of the
two. Everything defective is reported and passed over; a receive that fails for
good closes the channel, and so does a handler that wants no more.

`Receiver.step` makes one step. Between the report of a packet and the answer of
the handler the receiver stands still.
-/

namespace Netfilter.Queue

inductive Flow
  | proceed
  | stop
  deriving DecidableEq, Repr

inductive Exit
  | stopped
  /-- The handler wanted no more. -/
  | finished
  | failed
  /-- The handler broke down. -/
  | aborted
  deriving DecidableEq, Repr

inductive Notice
  | nothing
  | failed (cause : Error)
  | packet (info : PacketInfo) (payload : Bytes)
  deriving Repr

namespace Notice

def ofAttributes (data : Bytes) (table : FieldTable) : Notice × FieldTable :=
  match table.decode data with
  | (.error e, table) => (.failed e, table)
  | (.ok (), table) =>
      match PacketInfo.ofTable table with
      | .error e => (.failed e, table)
      | .ok info => (.packet info (PacketInfo.payload table), table)

/-- Reads a message: a refusal is reported, a packet queued elsewhere and anything that is no packet
notification mean nothing. -/
def ofMessage (queue : UInt16) (m : Message) (table : FieldTable) : Notice × FieldTable :=
  if m.header.isError then
    match Message.checkAck m.payload with
    | .ok () => (.nothing, table)
    | .error e => (.failed e, table)
  else if m.header.type ≠ Message.typeOf Subsystem.queue Operation.packet.number then
    (.nothing, table)
  else
    match FamilyHeader.read m.payload with
    | .error e => (.failed e, table)
    | .ok (family, attributes) =>
        if family.resource = queue then ofAttributes attributes table else (.nothing, table)

end Notice

inductive Phase
  | receiving
  | reading (rest : Bytes) (table : FieldTable)
  /-- Waiting for a buffer to hand over a packet. -/
  | leasing (info : PacketInfo) (payload rest : Bytes) (table : FieldTable)
  | handling (rest : Bytes) (table : FieldTable)
  | ended (exit : Exit)
  deriving Repr

structure Receiver where
  handle : VerdictHandle
  pool : Pool
  stopRequested : Bool := false
  phase : Phase := .receiving
  deriving Repr

inductive Event
  | failed (cause : Error)
  | packet (packet : Packet)
  deriving Repr

inductive Move
  | waits
  | silent
  | reports (event : Event)
  deriving Repr

namespace Receiver

def hasEnded (r : Receiver) : Bool :=
  match r.phase with
  | .ended _ => true
  | _ => false

def requestStop (r : Receiver) : Receiver := { r with stopRequested := true }

def endWith (r : Receiver) (exit : Exit) : Receiver := { r with phase := .ended exit }

def closing (r : Receiver) (l : Links) : Links := l.modify r.handle.link fun c => c.close.2

/-- Takes the next datagram, or reports that the receive failed. Lost notifications are no reason
to end. -/
def receive (r : Receiver) (l : Links) : Move × Receiver × Links :=
  match l.onChannel r.handle.link (.error .notOpen) (·.receive) with
  | (.pending, l) => (.waits, r, l)
  | (.ok data, l) => (.silent, { r with phase := .reading data Table.empty }, l)
  | (.error .noBuffers, l) => (.reports (.failed .noBuffers), r, l)
  | (.error e, l) => (.reports (.failed e), r.endWith .failed, r.closing l)

def read (r : Receiver) (rest : Bytes) (table : FieldTable) : Move × Receiver :=
  match Message.next rest with
  | none => (.silent, { r with phase := .receiving })
  | some (.error e, _) => (.reports (.failed e), { r with phase := .receiving })
  | some (.ok m, rest) =>
      match Notice.ofMessage r.handle.queue m table with
      | (.nothing, table) => (.silent, { r with phase := .reading rest table })
      | (.failed e, table) => (.reports (.failed e), { r with phase := .reading rest table })
      | (.packet info payload, table) =>
          (.silent, { r with phase := .leasing info payload rest table })

def handOver (r : Receiver) (info : PacketInfo) (payload rest : Bytes) (table : FieldTable) :
    Move × Receiver :=
  match r.pool.lease? with
  | (none, pool) => (.waits, { r with pool })
  | (some lease, pool) =>
      let packet : Packet := { info, lease := { lease with data := payload }, handle := r.handle }
      (.reports (.packet packet), { r with pool, phase := .handling rest table })

def step (r : Receiver) (l : Links) : Move × Receiver × Links :=
  match r.phase with
  | .receiving => if r.stopRequested then (.silent, r.endWith .stopped, l) else r.receive l
  | .reading rest table =>
      let (move, r) := r.read rest table
      (move, r, l)
  | .leasing info payload rest table =>
      if r.stopRequested then (.silent, r.endWith .stopped, l)
      else
        let (move, r) := r.handOver info payload rest table
        (move, r, l)
  | .handling _ _ | .ended _ => (.waits, r, l)

def resume (r : Receiver) (flow : Flow) (l : Links) : Receiver × Links :=
  match r.phase, flow with
  | .handling rest table, .proceed => ({ r with phase := .reading rest table }, l)
  | .handling _ _, .stop => (r.endWith .finished, r.closing l)
  | _, _ => (r, l)

def takeBack (r : Receiver) (lease : Lease) : Receiver := { r with pool := r.pool.giveBack lease }

/-- A number of steps within which the receiver comes to a stand, handlers included. -/
def stepBound (r : Receiver) (l : Links) : Nat :=
  let remaining := match r.phase with
    | .reading rest _ | .leasing _ _ rest _ | .handling rest _ => rest.length
    | _ => 0
  let arriving (receipt : Receipt) : Nat :=
    match receipt with
    | .ok data => data.length + 4
    | .error _ => 4
  let inbox := (l.channels[r.handle.link]?.map (·.socket.inbox)).getD []
  inbox.foldr (fun receipt n => arriving receipt + n) (remaining + 8)

end Receiver

end Netfilter.Queue
