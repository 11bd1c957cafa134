import Netfilter.Bytes

/-!
# Buffer pools

A pool owns a fixed number of slots, each with one reusable buffer. Leasing a
slot takes its buffer out; giving the lease back stores an empty buffer, begins
a new generation of the slot and puts it on top of the free list. A lease that
is not the current one of its slot is refused when it is given back.
-/

namespace Netfilter

structure Slot where
  /-- The stored buffer; `none` while the slot is leased. -/
  buffer : Option Bytes
  /-- How often the slot was given back, in 32 bits. -/
  generation : UInt32
  deriving DecidableEq, Repr

structure Pool where
  slots : List Slot
  /-- The slots to be leased, the next one first. -/
  free : List Nat
  bufferSize : Nat
  deriving DecidableEq, Repr

structure Lease where
  slot : Nat
  generation : UInt32
  data : Bytes
  deriving DecidableEq, Repr

def Lease.describe (l : Lease) : String :=
  "PooledBuf \x7b slot: " ++ toString l.slot ++ ", len: " ++ toString l.data.length ++ " \x7d"

namespace Pool

/-- A pool of `count` empty buffers, but of at least one. -/
def ofCount (count bufferSize : Nat) : Pool :=
  let n := max count 1
  { slots := List.replicate n ⟨some [], 0⟩, free := List.range n, bufferSize }

def capacity (p : Pool) : Nat := p.slots.length

def available (p : Pool) : Nat := p.free.length

def lease? (p : Pool) : Option Lease × Pool :=
  match p.free with
  | [] => (none, p)
  | i :: free =>
      match p.slots[i]? with
      | some ⟨some data, generation⟩ =>
          (some ⟨i, generation, data⟩,
            { p with slots := p.slots.set i ⟨none, generation⟩, free })
      | _ => (none, { p with free })

def giveBack? (p : Pool) (l : Lease) : Option Pool :=
  match p.slots[l.slot]? with
  | some ⟨none, generation⟩ =>
      if generation = l.generation then
        some { p with
          slots := p.slots.set l.slot ⟨some [], generation + 1⟩
          free := l.slot :: p.free }
      else none
  | _ => none

/-- Takes a lease back; a lease that is not current leaves the pool as it is. -/
def giveBack (p : Pool) (l : Lease) : Pool := (p.giveBack? l).getD p

def describe (p : Pool) : String :=
  "BufferPool \x7b available: " ++ toString p.available ++ ", capacity: " ++ toString p.capacity
    ++ ", buf_capacity: " ++ toString p.bufferSize ++ " \x7d"

end Pool

end Netfilter
