import Netfilter.Wire.Attribute

/-!
# Frames

A frame is a buffer made in one size and filled from the front. Every entry
starts at a multiple of four, and the bytes passed over are zero. Bytes written
beyond the end would make a frame longer, so a frame that still has the size it
was made in was never written beyond its end.
-/

namespace Netfilter

/-- A buffer made in one size and filled from the front. -/
structure Frame where
  bytes : Bytes
  /-- Where the next entry goes. -/
  used : Nat
  deriving DecidableEq, Repr

namespace Frame

def reserve (size used : Nat) : Frame := ⟨List.replicate size 0, used⟩

def write (f : Frame) (offset : Nat) (data : Bytes) : Frame :=
  { f with bytes := f.bytes.take offset ++ data ++ f.bytes.drop (offset + data.length) }

def push (f : Frame) (data : Bytes) : Frame :=
  { f.write f.used data with used := Bytes.alignUp (f.used + data.length) }

def pushAttribute (f : Frame) (rawType : UInt16) (value : Bytes) : Except Error Frame :=
  (Attribute.Header.forValue rawType value.length).map fun h => (f.push h.encode).push value

def filled (f : Frame) : Bytes := f.bytes.take f.used

end Frame

end Netfilter
