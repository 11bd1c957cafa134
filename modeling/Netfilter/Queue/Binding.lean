import Netfilter.Link.Links
import Netfilter.Queue.Request

/-!
# Binding a queue

A binding carries out requests one by one and records what was acknowledged.
A request that fails or is given up leaves the record as it is. Bringing a queue
up carries out a fixed list of requests; if one fails, the queue is unbound
again if it was bound, and the binding is closed.
-/

namespace Netfilter.Queue

inductive Stage
  | closed
  | opened
  | unbound
  | boundToFamily
  | queueBound
  /-- Copy mode and queue length are both set. -/
  | configured
  deriving DecidableEq, Repr

namespace Stage

def describe : Stage → String
  | closed => "Closed"
  | opened => "Opened"
  | unbound => "Unbound"
  | boundToFamily => "BoundToFamily"
  | queueBound => "QueueBound"
  | configured => "Configured"

def isBound (s : Stage) : Bool := s = queueBound || s = configured

end Stage

structure Binding where
  settings : QueueSettings
  links : Links := {}
  stage : Stage := .closed
  /-- The copy mode was set since the queue was bound. -/
  modeSet : Bool := false
  /-- The queue length was set since the queue was bound. -/
  lengthSet : Bool := false
  deriving Repr

namespace Binding

def isOpen (b : Binding) : Bool := b.links.isOpen

def describe (b : Binding) : String :=
  "Queue \x7b queue_num: " ++ toString b.settings.number ++ ", state: " ++ b.stage.describe
    ++ ", open: " ++ toString b.isOpen ++ " \x7d"

/-- Opens a channel over a socket; the channel that was in use is closed. -/
def openWith (b : Binding) (socket : Socket) : Binding :=
  { b with
    links := b.links.openWith b.settings.socket socket
    stage := .opened
    modeSet := false
    lengthSet := false }

def close (b : Binding) : Binding := { b with links := b.links.close, stage := .closed }

def noteConfigured (b : Binding) : Binding :=
  if b.modeSet && b.lengthSet then { b with stage := .configured } else b

def acknowledged (b : Binding) : Request → Binding
  | .unbindFamily => { b with stage := .unbound }
  | .bindFamily => { b with stage := .boundToFamily }
  | .bind number =>
      { b with
        settings := { b.settings with number }
        stage := .queueBound
        modeSet := false
        lengthSet := false }
  | .setMode copyMode copyRange =>
      noteConfigured
        { b with settings := { b.settings with copyMode, copyRange }, modeSet := true }
  | .setMaxLength maxLength =>
      noteConfigured { b with settings := { b.settings with maxLength }, lengthSet := true }
  | .setFlags mask flags =>
      let before := b.settings.flags.getD 0
      let after := (before &&& ~~~mask) ||| (flags &&& mask)
      { b with settings := { b.settings with flags := some after } }
  | .unbind => { b with stage := .boundToFamily, modeSet := false, lengthSet := false }

def perform (b : Binding) (r : Request) : Outcome Unit × Binding :=
  let (outcome, links) := b.links.query (r.draft b.settings)
  let b := { b with links }
  match outcome with
  | .ok () => (.ok (), b.acknowledged r)
  | .error e => (.error (e.during r.label), b)
  | .pending => (.pending, b)

def performAll (b : Binding) : List Request → Outcome Unit × Binding
  | [] => (.ok (), b)
  | r :: requests =>
      match b.perform r with
      | (.ok (), b) => b.performAll requests
      | (outcome, b) => (outcome, b)

/-- Undoes a failed attempt: unbinds the queue if it is bound, whatever comes of it, and closes. An
attempt to unbind that waits leaves the binding open. -/
def unwind (b : Binding) (cause : Error) : Outcome Unit × Binding :=
  if b.stage.isBound then
    match b.perform .unbind with
    | (.pending, b) => (.pending, b)
    | (_, b) => (.error cause, b.close)
  else (.error cause, b.close)

def bringUp (b : Binding) : Outcome Unit × Binding :=
  match b.performAll (Request.bringUp b.settings) with
  | (.error e, b) => b.unwind e
  | (outcome, b) => (outcome, b)

end Binding

end Netfilter.Queue
