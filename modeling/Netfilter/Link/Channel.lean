import Netfilter.Link.Acknowledgement
import Netfilter.Link.Turn
import Netfilter.Wire.Draft

/-!
# Channels

A channel numbers the messages sent over one socket and matches requests with
their acknowledgements. One request is under way at a time. Calls that wait are
kept under a name and hold on to the socket; a closed channel gives its socket
up only when the last such call is over. A channel that nobody owns closes when
it has no calls left.
-/

namespace Netfilter

inductive Call
  | send (data : Bytes)
  | post (draft : Draft)
  | query (draft : Draft)
  | receive
  deriving Repr

inductive Stage
  | fresh
  | inLine
  /-- The request with this number was sent. -/
  | awaiting (seq : UInt32)
  | receiving
  deriving DecidableEq, Repr

structure Running where
  name : Nat
  call : Call
  stage : Stage
  deriving Repr

inductive Answer
  | done
  | numbered (seq : UInt32)
  | received (data : Bytes)
  deriving DecidableEq, Repr

/-- A socket with the numbering of its messages and the calls under way. -/
structure Channel where
  socket : Socket
  isOpen : Bool := true
  /-- Somebody besides the calls under way still refers to the channel. -/
  owned : Bool := true
  nextSeq : UInt32 := 1
  turn : Turn := {}
  calls : List Running := []
  deriving Repr

def Running.holdsSocket (r : Running) : Bool :=
  match r.stage with
  | .awaiting _ | .receiving => true
  | .fresh | .inLine => false

namespace Channel

def port (c : Channel) : UInt32 := c.socket.port

def describe (c : Channel) : String :=
  "Transport \x7b open: " ++ toString c.isOpen ++ ", pid: " ++ toString c.port ++ " \x7d"

def usesSocket (c : Channel) : Bool := c.isOpen || c.calls.any Running.holdsSocket

/-- Closes the channel if nothing refers to it, and drops the socket if nothing refers to that
any more although something did `before`. -/
def settle (before c : Channel) : Channel :=
  let c := { c with isOpen := c.isOpen && (c.owned || !c.calls.isEmpty) }
  if before.usesSocket && !c.usesSocket then { c with socket := c.socket.drop } else c

def close (c : Channel) : Bool × Channel := (c.isOpen, settle c { c with isOpen := false })

def disown (c : Channel) : Channel := settle c { c with owned := false }

def takeSeq (c : Channel) : UInt32 × Channel :=
  (c.nextSeq, { c with nextSeq := c.nextSeq + 1 })

def withSocket {α : Type} (c : Channel) (f : Socket → Except IoError α × Socket) :
    Except Error α × Channel :=
  if c.isOpen then
    let (result, socket) := f c.socket
    (result.mapError Error.io, { c with socket })
  else (.error .notOpen, c)

def send (c : Channel) (data : Bytes) : Except Error Unit × Channel := c.withSocket (·.send data)

def gather (c : Channel) (pieces : List Bytes) : Except Error Nat × Channel :=
  c.withSocket (·.gather pieces)

def setOption (c : Channel) (level name value : Int) : Except Error Unit × Channel :=
  c.withSocket (·.setOption level name value)

def post (c : Channel) (d : Draft) : Except Error UInt32 × Channel :=
  let (seq, c) := c.takeSeq
  let (result, c) := c.send { d with seq, port := c.port }.finish
  (result.map fun _ => seq, c)

def request (c : Channel) (d : Draft) : Except Error UInt32 × Channel :=
  if c.isOpen then (c.post (d.addFlags (Message.request ||| Message.wantsAck)))
  else (.error .notOpen, c)

def await (c : Channel) (seq : UInt32) : Outcome Unit × Channel :=
  let (outcome, socket) := Acknowledgement.await seq c.socket
  (outcome, { c with socket })

def received (r : Receipt) : Except Error Bytes := r.mapError Error.ofReceive

/-- Receives one datagram; a receive that waits is given up. -/
def receive (c : Channel) : Outcome Bytes × Channel :=
  if c.isOpen then
    match c.socket.receive with
    | (none, socket) => (.pending, { c with socket })
    | (some r, socket) => (.ofExcept (received r), { c with socket })
  else (.error .notOpen, c)

/-- Sends a request and waits for its acknowledgement; a request that waits is given up. -/
def query (c : Channel) (d : Draft) : Outcome Unit × Channel :=
  if c.turn.holder.isSome then (.pending, c)
  else
    match c.request d with
    | (.error e, c) => (.error e, c)
    | (.ok seq, c) => c.await seq

abbrev Progress := Except Error Answer ⊕ Stage

def goOnReceiving (c : Channel) : Progress × Channel :=
  match c.socket.receive with
  | (none, socket) => (.inr .receiving, { c with socket })
  | (some r, socket) => (.inl ((received r).map .received), { c with socket })

def goOnAwaiting (c : Channel) (seq : UInt32) : Progress × Channel :=
  match c.await seq with
  | (.ok (), c) => (.inl (.ok .done), c)
  | (.error e, c) => (.inl (.error e), c)
  | (.pending, c) => (.inr (.awaiting seq), c)

def goOn (c : Channel) (r : Running) : Progress × Channel :=
  match r.call, r.stage with
  | .send data, _ =>
      let (result, c) := c.send data
      (.inl (result.map fun _ => .done), c)
  | .post d, _ =>
      let (result, c) := c.post d
      (.inl (result.map .numbered), c)
  | .receive, .receiving => c.goOnReceiving
  | .receive, _ => if c.isOpen then c.goOnReceiving else (.inl (.error .notOpen), c)
  | .query _, .awaiting seq => c.goOnAwaiting seq
  | .query d, _ =>
      let c := { c with turn := c.turn.request r.name }
      if c.turn.isOf r.name then
        match c.request d with
        | (.error e, c) => (.inl (.error e), c)
        | (.ok seq, c) => c.goOnAwaiting seq
      else (.inr .inLine, c)

def endCall (before c : Channel) (name : Nat) : Channel :=
  settle before { c with
    calls := c.calls.filter (·.name ≠ name)
    turn := c.turn.leave name }

def cancel (c : Channel) (name : Nat) : Channel := endCall c c name

/-- Begins a call without going on with it; an older call of this name is given up. -/
def start (c : Channel) (name : Nat) (call : Call) : Channel :=
  let c := c.cancel name
  { c with calls := c.calls ++ [⟨name, call, .fresh⟩] }

def poll (c : Channel) (name : Nat) : Option (Outcome Answer) × Channel :=
  match c.calls.find? (·.name = name) with
  | none => (none, c)
  | some r =>
      match c.goOn r with
      | (.inl result, after) => (some (.ofExcept result), endCall c after name)
      | (.inr stage, after) =>
          (some .pending, { after with
            calls := after.calls.map fun r => if r.name = name then { r with stage } else r })

end Channel

end Netfilter
