import Netfilter.Bytes
import Netfilter.Error

/-!
# Attributes

An attribute is a header of four bytes (a length that covers the header and the
value, and a type whose two top bits are flags), a value, and padding up to a
multiple of four. `Attribute.next` takes one attribute off a byte string;
`Attribute.walk` takes all of them, up to the first defect. Only the last
attribute of a list may lack its padding.
-/

namespace Netfilter

structure Attribute where
  rawType : UInt16
  value : Bytes
  deriving DecidableEq, Repr

/-- The items taken off a byte string, and the defect that ended the walk, if one did. -/
structure Walk (α : Type) where
  items : List α
  fault : Option Error
  deriving Repr

namespace Attribute

def headerSize : Nat := 4

def maxValue : Nat := 65535 - headerSize

def nestedBit : Nat := 0x8000

def networkOrderBit : Nat := 0x4000

def kindBound : Nat := 0x4000

def paddedSize (n : Nat) : Nat := Bytes.alignUp (headerSize + n)

structure Header where
  /-- The length of header and value. -/
  length : UInt16
  rawType : UInt16
  deriving DecidableEq, Repr

def kindOf (rawType : UInt16) : Nat := rawType.toNat % kindBound

def nestedOf (rawType : UInt16) : Bool := nestedBit ≤ rawType.toNat

namespace Header

def forValue (rawType : UInt16) (n : Nat) : Except Error Header :=
  if headerSize + n < 65536 then .ok ⟨UInt16.ofNat (headerSize + n), rawType⟩
  else .error (.invalidAttribute (.oversized (kindOf rawType) n))

def kind (h : Header) : Nat := kindOf h.rawType

def isNested (h : Header) : Bool := nestedOf h.rawType

/-- The length of the value; a length that does not cover the header counts as none. -/
def valueSize (h : Header) : Nat := h.length.toNat - headerSize

def encode (h : Header) : Bytes :=
  Bytes.little 2 h.length.toNat ++ Bytes.little 2 h.rawType.toNat

def decode (data : Bytes) : Except Error Header :=
  match data with
  | l₀ :: l₁ :: t₀ :: t₁ :: _ =>
      .ok ⟨UInt16.ofNat (Bytes.ofLittle [l₀, l₁]), UInt16.ofNat (Bytes.ofLittle [t₀, t₁])⟩
  | short => .error (.truncated headerSize short.length)

end Header

def kind (a : Attribute) : Nat := kindOf a.rawType

def isNested (a : Attribute) : Bool := nestedOf a.rawType

def size (a : Attribute) : Nat := headerSize + a.value.length

def encode (a : Attribute) : Bytes :=
  Bytes.padded (Bytes.little 2 a.size ++ Bytes.little 2 a.rawType.toNat ++ a.value)

/-- The attribute at the front of `data`, or what is wrong there, and the bytes still to be
looked at: none after a defect. -/
def next (data : Bytes) : Option (Except Error Attribute × Bytes) :=
  if data.isEmpty then none
  else
    match Header.decode data with
    | .error _ => some (.error (.invalidAttribute (.trailing data.length)), [])
    | .ok h =>
        let n := h.length.toNat
        if n < headerSize then some (.error (.invalidAttribute (.tooShort h.kind n)), [])
        else if Bytes.hasAtLeast n data then
          some (.ok ⟨h.rawType, (data.drop headerSize).take (n - headerSize)⟩,
            data.drop (Bytes.alignUp n))
        else some (.error (.invalidAttribute (.overrun h.kind n data.length)), [])

theorem next_shortens {data rest : Bytes} {a : Attribute} (h : next data = some (.ok a, rest)) :
    rest.length < data.length := by
  unfold next at h
  split at h
  · simp at h
  · cases hd : Header.decode data with
    | error e => simp [hd] at h
    | ok hdr =>
        have := Bytes.le_alignUp hdr.length.toNat
        by_cases hn : hdr.length.toNat < headerSize
        · simp [hd, hn] at h
        · by_cases hl : hdr.length.toNat ≤ data.length
          · simp [hd, hn, hl] at h
            simp only [headerSize] at hn
            rw [← h.2, List.length_drop]
            omega
          · simp [hd, hn, hl] at h

def walk (data : Bytes) : Walk Attribute :=
  match _ : next data with
  | none => ⟨[], none⟩
  | some (.error e, _) => ⟨[], some e⟩
  | some (.ok a, rest) =>
      let later := walk rest
      ⟨a :: later.items, later.fault⟩
termination_by data.length
decreasing_by exact next_shortens ‹_›

end Attribute

end Netfilter
