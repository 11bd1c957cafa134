import Netfilter.Link.Links
import Netfilter.Log.Request

/-!
# Log groups

A handle on a list of log groups that share one socket. An operation stops at
the first request that is not acknowledged, and changes the settings only if
all were.
-/

namespace Netfilter.Log

structure Group where
  settings : LogSettings
  links : Links := {}
  deriving Repr

namespace Group

def isOpen (g : Group) : Bool := g.links.isOpen

def describe (g : Group) : String :=
  "LogGroup \x7b groups: [" ++ String.intercalate ", " (g.settings.groups.map toString)
    ++ "], open: " ++ toString g.isOpen ++ " \x7d"

def openWith (g : Group) (socket : Socket) : Group :=
  { g with links := g.links.openWith g.settings.socket socket }

def close (g : Group) : Group := { g with links := g.links.close }

def request (g : Group) (r : Request) : Outcome Unit × Group :=
  let (outcome, links) := g.links.query (r.draft g.settings.family)
  (outcome.mapError (·.during r.label), { g with links })

def requestAll (g : Group) : List Request → Outcome Unit × Group
  | [] => (.ok (), g)
  | r :: requests =>
      match g.request r with
      | (.ok (), g) => g.requestAll requests
      | (outcome, g) => (outcome, g)

/-- Carries out an operation on all groups and records it if all requests are acknowledged. -/
def perform (g : Group) (op : GroupOperation) : Outcome Unit × Group :=
  match g.requestAll (op.requests g.settings.groups) with
  | (.ok (), g) => (.ok (), { g with settings := op.acknowledged g.settings })
  | (outcome, g) => (outcome, g)

def performAll (g : Group) : List GroupOperation → Outcome Unit × Group
  | [] => (.ok (), g)
  | op :: ops =>
      match g.perform op with
      | (.ok (), g) => g.performAll ops
      | (outcome, g) => (outcome, g)

def bringUp (g : Group) : Outcome Unit × Group :=
  match g.performAll (GroupOperation.bringUp g.settings) with
  | (.error e, g) => (.error e, g.close)
  | (outcome, g) => (outcome, g)

end Group

end Netfilter.Log
