import Netfilter.Error

/-!
# Outcomes

An operation that waits for the other side is done, has failed, or still waits.
An operation that still waits is given up unless somebody keeps it.
-/

namespace Netfilter

inductive Outcome (α : Type)
  | ok (value : α)
  | error (cause : Error)
  | pending
  deriving DecidableEq, Repr

namespace Outcome

def ofExcept {α : Type} : Except Error α → Outcome α
  | .ok a => ok a
  | .error e => error e

def mapError {α : Type} (f : Error → Error) : Outcome α → Outcome α
  | ok a => ok a
  | error e => error (f e)
  | pending => pending

end Outcome

end Netfilter
