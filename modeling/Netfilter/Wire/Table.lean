import Netfilter.Wire.Attribute

/-!
# Attribute tables

A table has one slot for each attribute kind below its size. Decoding a list
of attributes fills the slots anew: a repeated kind keeps its last value, kinds
beyond the table are skipped, and a defective list leaves the table empty.
-/

namespace Netfilter

/-- The values of the attributes of the kinds below `size`. -/
structure Table (size : Nat) where
  slots : Vector (Option Bytes) size
  deriving Repr

namespace Table

variable {size : Nat}

def empty : Table size := ⟨Vector.replicate size none⟩

def clear (t : Table size) : Table size := ⟨t.slots.map fun _ => none⟩

def store (t : Table size) (a : Attribute) : Table size :=
  ⟨t.slots.setIfInBounds a.kind (some a.value)⟩

def decode (t : Table size) (data : Bytes) : Except Error Unit × Table size :=
  let walk := Attribute.walk data
  match walk.fault with
  | none => (.ok (), walk.items.foldl store t.clear)
  | some e => (.error e, t.clear)

def ofBytes (data : Bytes) : Except Error (Table size) :=
  match empty.decode data with
  | (.ok (), t) => .ok t
  | (.error e, _) => .error e

def get? (t : Table size) (kind : Nat) : Option Bytes := (t.slots[kind]?).join

def contains (t : Table size) (kind : Nat) : Bool := (t.get? kind).isSome

def present (t : Table size) : List (Nat × Bytes) :=
  (List.range size).filterMap fun kind => (t.get? kind).map (kind, ·)

end Table

end Netfilter
