import Netfilter.Wire.Message

/-!
# Sockets

A socket is seen from the program's side: what will be received, how the next
system calls will fail, and what has been sent so far. The other side may
acknowledge by itself every message that asks for it. A datagram longer than the
space it is received into is cut. A socket is released by dropping it.
-/

namespace Netfilter

abbrev Receipt := Except IoError Bytes

inductive OpeningCall
  | create
  | bind
  | name
  deriving DecidableEq, Repr

/-- A socket and the world behind it. -/
structure Socket where
  port : UInt32
  /-- What will be received, the next one first. -/
  inbox : List Receipt := []
  /-- Messages that ask for an acknowledgement get one. -/
  acknowledges : Bool := true
  /-- The codes of the next acknowledgements; zero when used up. -/
  codes : List Int := []
  /-- The error numbers of the next sends; zero, as when used up, is success. -/
  sendFaults : List Int := []
  gatherFaults : List Int := []
  optionFaults : List Int := []
  /-- Sends and receives that would block are tried again. -/
  patient : Bool := false
  /-- The space for one datagram, of which the rest is lost; `none` takes datagrams whole. -/
  room : Option Nat := none
  sent : List Bytes := []
  gathered : List (List Bytes) := []
  /-- The options set so far: level, name and value. -/
  options : List (Int × Int × Int) := []
  drops : Nat := 0
  deriving Repr

namespace Socket

def acknowledgement (seq : Bytes) (code : Int) : Bytes :=
  Bytes.little 4 36 ++ Bytes.little 2 Message.errorType.toNat ++ Bytes.little 2 0 ++ seq
    ++ Bytes.little 4 0 ++ Bytes.little 4 (code % UInt32.size).toNat ++ List.replicate 16 0

def asksForAck? (data : Bytes) : Option Bytes :=
  match Message.Header.decode data with
  | .ok h => if h.flags &&& Message.wantsAck = 0 then none else some (Bytes.little 4 h.seq.toNat)
  | .error _ => none

def nextFault : List Int → Option IoError × List Int
  | [] => (none, [])
  | code :: faults => (if code = 0 then none else some (.os code), faults)

def reply (s : Socket) (data : Bytes) : Socket :=
  match asksForAck? data with
  | some seq =>
      if s.acknowledges then
        { s with
          inbox := s.inbox ++ [.ok (acknowledgement seq (s.codes.headD 0))]
          codes := s.codes.tail }
      else s
  | none => s

def isRetried (patient : Bool) (errno : Int) : Bool := patient && errno = Errno.wouldBlock

def send (s : Socket) (data : Bytes) : Except IoError Unit × Socket :=
  let (fault, sendFaults) := nextFault (s.sendFaults.dropWhile (isRetried s.patient))
  let s := { s with sendFaults }
  match fault with
  | some e => (.error e, s)
  | none => (.ok (), { s with sent := s.sent ++ [data] }.reply data)

def gather (s : Socket) (pieces : List Bytes) : Except IoError Nat × Socket :=
  let (fault, gatherFaults) := nextFault s.gatherFaults
  let s := { s with gatherFaults }
  match fault with
  | some e => (.error e, s)
  | none => (.ok pieces.flatten.length, { s with gathered := s.gathered ++ [pieces] })

def setOption (s : Socket) (level name value : Int) : Except IoError Unit × Socket :=
  let (fault, optionFaults) := nextFault s.optionFaults
  let s := { s with optionFaults }
  match fault with
  | some e => (.error e, s)
  | none => (.ok (), { s with options := s.options ++ [(level, name, value)] })

def isPassedOver (patient : Bool) : Receipt → Bool
  | .error (.os errno) => isRetried patient errno
  | _ => false

/-- The space that a buffer without any makes when it is needed. -/
def leastRoom : Nat := 64

def withBuffer (s : Socket) (size : Nat) : Socket :=
  { s with room := some (if size = 0 then leastRoom else size) }

def cut (room : Option Nat) : Receipt → Receipt
  | .error cause => .error cause
  | .ok data =>
      match room with
      | none => .ok data
      | some size => .ok (data.take size)

def receive (s : Socket) : Option Receipt × Socket :=
  match s.inbox.dropWhile (isPassedOver s.patient) with
  | [] => (none, { s with inbox := [] })
  | r :: inbox => (some (cut s.room r), { s with inbox })

def drop (s : Socket) : Socket := { s with drops := s.drops + 1 }

/-- Opens a socket. If a call fails after the socket was created, the socket is dropped. -/
def opened (s : Socket) (fault : Option (OpeningCall × Int)) : Except IoError Unit × Socket :=
  match fault with
  | none => (.ok (), s)
  | some (.create, errno) => (.error (.os errno), s)
  | some (_, errno) => (.error (.os errno), s.drop)

end Socket

end Netfilter
