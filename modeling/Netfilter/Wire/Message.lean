import Netfilter.Wire.Attribute

/-!
# Messages

A datagram is a sequence of messages, each a header of sixteen bytes and a
payload, each starting at a multiple of four. `Message.next` takes one message
off a datagram and `Message.walk` takes all of them, up to the first defect.
An error message whose code is zero is an acknowledgement.
-/

namespace Netfilter

namespace Message

def headerSize : Nat := 16

def request : UInt16 := 1
def multi : UInt16 := 2
def wantsAck : UInt16 := 4
def echo : UInt16 := 8

def noopType : UInt16 := 1
def errorType : UInt16 := 2
def doneType : UInt16 := 3
def overrunType : UInt16 := 4

structure Header where
  /-- The length of header and payload. -/
  length : UInt32
  type : UInt16
  flags : UInt16
  seq : UInt32
  port : UInt32
  deriving DecidableEq, Repr

namespace Header

def bare (type flags : UInt16) : Header := ⟨UInt32.ofNat headerSize, type, flags, 0, 0⟩

/-- The length of the payload; a length that does not cover the header counts as none. -/
def payloadSize (h : Header) : Nat := h.length.toNat - headerSize

def subsystem (h : Header) : Nat := h.type.toNat / 256

def operation (h : Header) : Nat := h.type.toNat % 256

def isError (h : Header) : Bool := h.type = errorType

def isDone (h : Header) : Bool := h.type = doneType

def encode (h : Header) : Bytes :=
  Bytes.little 4 h.length.toNat ++ Bytes.little 2 h.type.toNat ++ Bytes.little 2 h.flags.toNat
    ++ Bytes.little 4 h.seq.toNat ++ Bytes.little 4 h.port.toNat

def field (data : Bytes) (offset k : Nat) : Nat := Bytes.ofLittle ((data.drop offset).take k)

def decode (data : Bytes) : Except Error Header :=
  if Bytes.hasAtLeast headerSize data then
    .ok {
      length := UInt32.ofNat (field data 0 4)
      type := UInt16.ofNat (field data 4 2)
      flags := UInt16.ofNat (field data 6 2)
      seq := UInt32.ofNat (field data 8 4)
      port := UInt32.ofNat (field data 12 4) }
  else .error (.truncated headerSize data.length)

end Header

def typeOf (subsystem operation : UInt8) : UInt16 :=
  UInt16.ofNat (subsystem.toNat * 256 + operation.toNat)

def paddedSize (n : Nat) : Nat := headerSize + Bytes.alignUp n

end Message

structure Message where
  header : Message.Header
  payload : Bytes
  deriving DecidableEq, Repr

namespace Message

/-- The message at the front of `data`, or what is wrong there, and the bytes still to be looked
at: none after a defect. -/
def next (data : Bytes) : Option (Except Error Message × Bytes) :=
  if data.isEmpty then none
  else
    match Header.decode data with
    | .error e => some (.error e, [])
    | .ok h =>
        let n := h.length.toNat
        if headerSize ≤ n && Bytes.hasAtLeast n data then
          some (.ok ⟨h, (data.drop headerSize).take (n - headerSize)⟩,
            data.drop (Bytes.alignUp n))
        else some (.error (.invalidMessage (.length n data.length)), [])

theorem next_shortens {data rest : Bytes} {m : Message} (h : next data = some (.ok m, rest)) :
    rest.length < data.length := by
  unfold next at h
  split at h
  · simp at h
  · cases hd : Header.decode data with
    | error e => simp [hd] at h
    | ok hdr =>
        have := Bytes.le_alignUp hdr.length.toNat
        by_cases hn : headerSize ≤ hdr.length.toNat ∧ hdr.length.toNat ≤ data.length
        · simp [hd, hn] at h
          simp only [headerSize] at hn
          rw [← h.2, List.length_drop]
          omega
        · simp [hd, hn] at h

def walk (data : Bytes) : Walk Message :=
  match _ : next data with
  | none => ⟨[], none⟩
  | some (.error e, _) => ⟨[], some e⟩
  | some (.ok m, rest) =>
      let later := walk rest
      ⟨m :: later.items, later.fault⟩
termination_by data.length
decreasing_by exact next_shortens ‹_›

def errorCode (payload : Bytes) : Except Error Int :=
  match Bytes.split? 4 payload with
  | some (bs, _) => .ok (Int.bmod (Bytes.ofLittle bs) UInt32.size)
  | none => .error (.truncated 4 payload.length)

/-- What the payload of an error message says: code zero acknowledges, any other code refuses. -/
def checkAck (payload : Bytes) : Except Error Unit :=
  match errorCode payload with
  | .error e => .error e
  | .ok code => if code = 0 then .ok () else .error (.ofCode code)

end Message

end Netfilter
