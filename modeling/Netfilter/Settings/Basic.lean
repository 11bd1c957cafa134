/-!
# Settings

What a user can choose: how much of each packet is copied, how a socket is
tuned, and how a queue or a list of log groups is set up. Every setting has a
default.
-/

namespace Netfilter

inductive CopyMode
  | nothing
  /-- What is known about the packet, but not the packet. -/
  | description
  /-- The packet too, up to the copy range. -/
  | packet
  deriving DecidableEq, Repr

namespace CopyMode

def number : CopyMode → UInt8
  | nothing => 0 | description => 1 | packet => 2

def name : CopyMode → String
  | nothing => "none" | description => "meta" | packet => "packet"

def all : List CopyMode := [nothing, description, packet]

def named? (name : String) : Option CopyMode := all.find? (·.name = name)

end CopyMode

def inetFamily : UInt16 := 2

structure SocketSettings where
  receiveBuffer : UInt64 := 76800
  /-- The space the kernel is asked to keep in each direction. -/
  socketBuffer : UInt64 := 38400000
  /-- Overruns are not to be reported. -/
  hidesOverruns : Bool := true
  deriving DecidableEq, Repr

namespace SocketSettings

/-- The level, the name and the value of each option to be set. A size beyond the range of an
option is cut to the largest one. -/
def options (s : SocketSettings) : List (Int × Int × Int) :=
  let size : Int := min s.socketBuffer.toNat 0x7fffffff
  (if s.hidesOverruns then [(270, 5, 1)] else []) ++ [(1, 8, size), (1, 7, size)]

end SocketSettings

structure QueueSettings where
  number : UInt16 := 0
  /-- How many packets may wait for a verdict. -/
  maxLength : UInt32 := 1024
  copyMode : CopyMode := .packet
  copyRange : UInt32 := 0xffff
  family : UInt16 := inetFamily
  flags : Option UInt32 := none
  poolSize : UInt64 := 100
  socket : SocketSettings := {}
  deriving DecidableEq, Repr

namespace QueueSettings

def maxCopyRange : Nat := 0xffff

/-- The size of a packet buffer: the copy range, with room for padding. -/
def bufferSize (s : QueueSettings) : Nat :=
  match s.copyMode with
  | .packet => min s.copyRange.toNat maxCopyRange + 3
  | _ => 0

end QueueSettings

structure LogSettings where
  groups : List UInt16 := []
  copyMode : CopyMode := .packet
  copyRange : UInt32 := 0xffff
  family : UInt16 := inetFamily
  bufferSize : Option UInt32 := none
  /-- How long entries wait to be sent together, in hundredths of a second. -/
  timeout : Option UInt32 := none
  threshold : Option UInt32 := none
  flags : Option UInt16 := none
  socket : SocketSettings := {}
  deriving DecidableEq, Repr

end Netfilter
