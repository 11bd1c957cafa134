import Netfilter.Errno

/-!
# What can go wrong

Every failure of the library is one of nine kinds. A kind carries its cause as
data; `Error.message` is the only place where causes become text.
-/

namespace Netfilter

inductive IoError
  | os (errno : Int)
  | brokenPipe
  | unexpectedEnd
  | wouldBlock
  | timedOut
  | custom (text : String)
  deriving DecidableEq, Repr

namespace IoError

def message : IoError → String
  | os errno => Errno.describe errno
  | brokenPipe => "broken pipe"
  | unexpectedEnd => "unexpected end of file"
  | wouldBlock => "operation would block"
  | timedOut => "timed out"
  | custom text => text

def isNoBufferSpace (e : IoError) : Bool := e = .os Errno.noBufferSpace

end IoError

structure Utf8Defect where
  /-- The index of the first byte of the defective character. -/
  index : Nat
  /-- How many bytes are wrong; none if the text ends inside a character. -/
  length : Option Nat
  deriving DecidableEq, Repr

def Utf8Defect.message (d : Utf8Defect) : String :=
  match d.length with
  | some n => s!"invalid utf-8 sequence of {n} bytes from index {d.index}"
  | none => s!"incomplete utf-8 byte sequence from index {d.index}"

inductive MessageDefect
  /-- The declared length does not cover a header, or exceeds the bytes at hand. -/
  | length (declared available : Nat)
  | queuedPacketWithoutHeader
  | logEntryWithoutHeader
  | other (text : String)
  deriving DecidableEq, Repr

def MessageDefect.message : MessageDefect → String
  | length declared available =>
      s!"invalid message length: {declared} ({available} bytes available)"
  | queuedPacketWithoutHeader => "packet without NFQA_PACKET_HDR"
  | logEntryWithoutHeader => "log entry without NFULA_PACKET_HDR"
  | other text => text

inductive AttributeDefect
  | oversized (kind length : Nat)
  | oversizedNest (length : Nat)
  | trailing (count : Nat)
  /-- A declared length that does not cover the header. -/
  | tooShort (kind length : Nat)
  | overrun (kind length available : Nat)
  | emptyByte
  | cutShort (bits : Nat)
  | notUtf8 (defect : Utf8Defect)
  | oversizedPacket (length : Nat)
  | other (text : String)
  deriving DecidableEq, Repr

def AttributeDefect.message : AttributeDefect → String
  | oversized kind length => s!"attribute {kind} value of {length} bytes exceeds 65531"
  | oversizedNest length => s!"nested attribute of {length} bytes exceeds 65535"
  | trailing count => s!"{count} trailing bytes, too short for a header"
  | tooShort kind length => s!"type {kind} declares length {length}"
  | overrun kind length available =>
      s!"type {kind} declares length {length} but only {available} bytes remain"
  | emptyByte => "empty u8 attribute"
  | cutShort bits => s!"truncated u{bits} attribute"
  | notUtf8 defect => s!"invalid UTF-8: {defect.message}"
  | oversizedPacket length => s!"verdict payload of {length} bytes exceeds 65531"
  | other text => text

inductive Record
  | familyHeader
  | packetHeader
  | logHeader
  | timestamp
  | hardwareAddress
  deriving DecidableEq, Repr

def Record.name : Record → String
  | familyHeader => "nfnl::netlink::nfgen::NfGenMsg"
  | packetHeader => "nfnl::nfqueue::packet::PacketHdr"
  | logHeader => "nfnl::nflog::entry::LogPacketHdr"
  | timestamp => "nfnl::nflog::entry::Timestamp"
  | hardwareAddress => "nfnl::nflog::entry::HwAddr"

inductive RecordDefect
  /-- The record was expected in a value of `available` bytes, which are too few. -/
  | cutShort (record : Record) (available : Nat)
  | other (text : String)
  deriving DecidableEq, Repr

def RecordDefect.message : RecordDefect → String
  | cutShort record available =>
      record.name ++ ": Backtrack(ContextError \x7b context: [], cause: None \x7d) ("
        ++ toString available ++ " bytes)"
  | other text => text

inductive Error
  | io (cause : IoError)
  | kernel (errno : Nat)
  | kernelDuring (operation : String) (errno : Nat)
  | truncated (expected actual : Nat)
  | invalidMessage (defect : MessageDefect)
  | invalidAttribute (defect : AttributeDefect)
  | unreadable (defect : RecordDefect)
  /-- The kernel dropped notifications because the receive buffer was full. -/
  | noBuffers
  | notOpen
  deriving DecidableEq, Repr

namespace Error

def message : Error → String
  | io cause => s!"I/O error: {cause.message}"
  | kernel errno => s!"kernel error: {Errno.describe errno} (errno {errno})"
  | kernelDuring operation errno => s!"{operation}: {Errno.describe errno} (errno {errno})"
  | truncated expected actual => s!"message truncated: expected {expected} bytes, got {actual}"
  | invalidMessage defect => s!"invalid message: {defect.message}"
  | invalidAttribute defect => s!"invalid attribute: {defect.message}"
  | unreadable defect => s!"parse error: {defect.message}"
  | noBuffers => "no buffer space: kernel dropped messages"
  | notOpen => "no socket open"

def causes (e : Error) : List String :=
  match e with
  | io cause => [e.message, cause.message]
  | _ => [e.message]

/-- The refusal announced by an acknowledgement code: its absolute value, kept within 31 bits. -/
def ofCode (code : Int) : Error := .kernel (min code.natAbs 0x7fffffff)

/-- A failed receive. Lack of buffer space means lost notifications, not a broken socket. -/
def ofReceive (cause : IoError) : Error := if cause.isNoBufferSpace then .noBuffers else .io cause

/-- Names the operation during which the kernel refused; every other error stays as it is. -/
def during (operation : String) : Error → Error
  | kernel errno => .kernelDuring operation errno
  | e => e

def errno? : Error → Option Nat
  | kernel errno | kernelDuring _ errno => some errno
  | _ => none

def isNotFound (e : Error) : Bool :=
  e.errno? = some Errno.noEntry || e.errno? = some Errno.noDevice

def isPermissionDenied (e : Error) : Bool :=
  e.errno? = some Errno.notPermitted || e.errno? = some Errno.accessDenied

def isAlreadyExists (e : Error) : Bool := e.errno? = some Errno.fileExists

def isBusy (e : Error) : Bool := e.errno? = some Errno.busy

def isNoBuffers : Error → Bool
  | noBuffers => true
  | io cause => cause.isNoBufferSpace
  | _ => false

def isNotOpen (e : Error) : Bool := e = .notOpen

end Error

end Netfilter
