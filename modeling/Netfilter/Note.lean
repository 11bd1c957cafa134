import Netfilter.Error

/-!
# Notes

Beside what it gives, the library notes what somebody may want to look into.
Whether a note is shown, and where, is up to the program.
-/

namespace Netfilter

inductive Level
  | warning
  | error
  deriving DecidableEq, Repr

def Level.name : Level → String
  | warning => "WARN"
  | error => "ERROR"

inductive Particular
  | queue (number : UInt16)
  | error (cause : Error)
  deriving DecidableEq, Repr

def Particular.text : Particular → String
  | queue number => "queue=" ++ toString number
  | error cause => "error=" ++ cause.message

structure Note where
  level : Level
  text : String
  particulars : List Particular := []
  deriving DecidableEq, Repr

end Netfilter
