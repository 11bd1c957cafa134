import Netfilter.Wire.Message

/-!
# Family headers

Netfilter messages open with four bytes: an address family, a protocol version
that is always zero in what is sent, and the number of the resource (a queue or
a log group) the message is about.
-/

namespace Netfilter

structure FamilyHeader where
  family : UInt8
  version : UInt8 := 0
  resource : UInt16
  deriving DecidableEq, Repr

namespace FamilyHeader

def size : Nat := 4

def unspecified : UInt8 := 0

def currentVersion : UInt8 := 0

def encode (h : FamilyHeader) : Bytes :=
  [h.family, h.version] ++ Bytes.big 2 h.resource.toNat

def read (data : Bytes) : Except Error (FamilyHeader × Bytes) :=
  match data with
  | family :: version :: r₁ :: r₀ :: rest =>
      .ok (⟨family, version, UInt16.ofNat (Bytes.ofBig [r₁, r₀])⟩, rest)
  | short => .error (.unreadable (.cutShort .familyHeader short.length))

def describe (h : FamilyHeader) : String :=
  "NfGenMsg \x7b family: " ++ toString h.family ++ ", version: " ++ toString h.version
    ++ ", res_id: " ++ toString h.resource ++ " \x7d"

end FamilyHeader

namespace Subsystem

def general : UInt8 := 0
def connections : UInt8 := 1
def expectations : UInt8 := 2
def queue : UInt8 := 3
def log : UInt8 := 4

end Subsystem

end Netfilter
