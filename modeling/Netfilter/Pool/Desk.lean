import Netfilter.Pool.Basic
import Netfilter.Pool.Wakeup

/-!
# Sharing a pool

A desk hands out the buffers of one pool to clients who name their leases and
their waits. Who finds no free buffer may wait for one. Each action is one
step; a wait is looked after only when it is polled.
-/

namespace Netfilter

structure Desk where
  pool : Pool
  wakeup : Wakeup := {}
  leases : List (Nat × Lease) := []
  /-- The names of the waits that were begun and are not over. -/
  waits : List Nat := []
  deriving Repr

namespace Desk

inductive Action
  /-- Lease a buffer if one is free. -/
  | lease (name : Nat)
  /-- Begin a wait; an older one of the same name is given up. -/
  | await (name : Nat)
  /-- See whether a wait is over. -/
  | poll (name : Nat)
  | cancel (name : Nat)
  /-- Replace the contents of a leased buffer. -/
  | fill (name : Nat) (data : Bytes)
  /-- Append to the contents of a leased buffer. -/
  | extend (name : Nat) (data : Bytes)
  | giveBack (name : Nat)
  deriving DecidableEq, Repr

inductive Reply
  | leased (lease : Lease)
  | nothing
  | pending
  | cancelled (existed : Bool)
  | noSuchWait
  | noSuchLease
  deriving DecidableEq, Repr

def ofCount (count bufferSize : Nat) : Desk := { pool := Pool.ofCount count bufferSize }

def lease? (d : Desk) (name : Nat) : Option Lease := d.leases.lookup name

def takeBack (d : Desk) (l : Lease) : Desk :=
  match d.pool.giveBack? l with
  | some pool => { d with pool, wakeup := d.wakeup.signal }
  | none => d

/-- Enters a lease under a name, and takes back the lease that had this name. -/
def enter (d : Desk) (name : Nat) (l : Lease) : Desk :=
  let others := d.leases.filter (·.1 ≠ name)
  match d.lease? name with
  | none => { d with leases := (name, l) :: others }
  | some older => { d with leases := (name, l) :: others }.takeBack older

def tryLease (d : Desk) (name : Nat) : Option Lease × Desk :=
  match d.pool.lease? with
  | (some l, pool) => (some l, { d with pool }.enter name l)
  | (none, pool) => (none, { d with pool })

def giveUp (d : Desk) (name : Nat) : Desk :=
  { d with waits := d.waits.erase name, wakeup := d.wakeup.leave name }

/-- Tries to lease a buffer for a wait; without one, a kept signal is used up for a second try,
and then the wait takes the last place in the line. -/
def lookAgain (d : Desk) (name : Nat) : Reply × Desk :=
  let d := { d with wakeup := d.wakeup.wake name }
  let served (l : Lease) (d : Desk) : Reply × Desk :=
    (.leased l, { d with waits := d.waits.erase name })
  match d.tryLease name with
  | (some l, d) => served l d
  | (none, d) =>
      if d.wakeup.permit then
        let d := { d with wakeup := { d.wakeup with permit := false } }
        match d.tryLease name with
        | (some l, d) => served l d
        | (none, d) => (.pending, { d with wakeup := d.wakeup.join name })
      else (.pending, { d with wakeup := d.wakeup.join name })

def edit (d : Desk) (name : Nat) (change : Bytes → Bytes) : Reply × Desk :=
  match d.lease? name with
  | none => (.noSuchLease, d)
  | some l =>
      let l := { l with data := change l.data }
      (.leased l, { d with leases := (name, l) :: d.leases.filter (·.1 ≠ name) })

def step (d : Desk) : Action → Reply × Desk
  | .lease name =>
      match d.tryLease name with
      | (some l, d) => (.leased l, d)
      | (none, d) => (.nothing, d)
  | .await name =>
      let d := if name ∈ d.waits then d.giveUp name else d
      (.nothing, { d with waits := d.waits ++ [name] })
  | .poll name =>
      if name ∉ d.waits then (.noSuchWait, d)
      else if name ∈ d.wakeup.waiting then (.pending, d)
      else d.lookAgain name
  | .cancel name =>
      if name ∈ d.waits then (.cancelled true, d.giveUp name) else (.cancelled false, d)
  | .fill name data => d.edit name fun _ => data
  | .extend name data => d.edit name (· ++ data)
  | .giveBack name =>
      match d.lease? name with
      | none => (.noSuchLease, d)
      | some l => (.nothing, { d with leases := d.leases.filter (·.1 ≠ name) }.takeBack l)

def run (d : Desk) : List Action → List Reply × Desk
  | [] => ([], d)
  | a :: actions =>
      let (reply, d) := d.step a
      let (replies, d) := run d actions
      (reply :: replies, d)

end Desk

end Netfilter
