/-!
# Turns

A turn belongs to one caller at a time. The others stand in line; when the
holder leaves, the turn passes to the one who has stood longest, even before
that caller looks.
-/

namespace Netfilter

structure Turn where
  holder : Option Nat := none
  /-- Those in line, the oldest first. -/
  line : List Nat := []
  deriving DecidableEq, Repr

namespace Turn

def isOf (t : Turn) (i : Nat) : Bool := t.holder = some i

def request (t : Turn) (i : Nat) : Turn :=
  match t.holder with
  | none => { t with holder := some i }
  | some j => if j = i ∨ i ∈ t.line then t else { t with line := t.line ++ [i] }

/-- Leaves: the holder passes the turn on, anyone else loses the place in the line. -/
def leave (t : Turn) (i : Nat) : Turn :=
  if t.holder = some i then { holder := t.line.head?, line := t.line.tail }
  else { t with line := t.line.erase i }

end Turn

end Netfilter
