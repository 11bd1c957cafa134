/-!
# Wakeups

Those who wait for something stand in a line. A signal goes to the one who has
waited longest; if nobody waits, it is kept as a permit for whoever comes next.
One signal is kept at most.
-/

namespace Netfilter

/-- Who waits, who was woken and has not looked yet, and whether a signal is kept. -/
structure Wakeup where
  /-- Those who wait, the oldest first. -/
  waiting : List Nat := []
  /-- Those who were woken and have not looked since. -/
  woken : List Nat := []
  permit : Bool := false
  deriving DecidableEq, Repr

namespace Wakeup

def signal (w : Wakeup) : Wakeup :=
  match w.waiting with
  | [] => { w with permit := true }
  | i :: waiting => { w with waiting, woken := w.woken ++ [i] }

def join (w : Wakeup) (i : Nat) : Wakeup := { w with waiting := w.waiting ++ [i] }

def wake (w : Wakeup) (i : Nat) : Wakeup := { w with woken := w.woken.erase i }

/-- `i` gives up. If it had been woken, the next one is woken instead. -/
def leave (w : Wakeup) (i : Nat) : Wakeup :=
  if i ∈ w.woken then (w.wake i).signal else { w with waiting := w.waiting.erase i }

end Wakeup

end Netfilter
