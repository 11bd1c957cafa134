import Netfilter.CommandLine.Report
import Netfilter.Log.Feed
import Netfilter.Queue.Session

/-!
# Running commands

A command opens its socket, sets up what it works on, shows what arrives piece by
piece, and shuts down. Nothing arrives before the set-up is over; from then on
one receipt arrives whenever the command waits. When none is left the command is
interrupted, and shuts down in order.
-/

namespace Netfilter.CommandLine

def failing (activity : String) (e : Error) : Except (List String) Unit :=
  .error (activity :: e.causes)

def socketOf (l : Links) (fallback : Socket) : Socket :=
  (l.channels.head?.map (·.socket)).getD fallback

def arrival (r : Receipt) (l : Links) : Links :=
  l.modify 0 fun c => { c with socket := { c.socket with inbox := c.socket.inbox ++ [r] } }

/-- Lets receipts arrive one by one as long as the receiver runs; gives those that do not arrive. -/
def deliver : List Receipt → Queue.Session →
    List Queue.Session.Event × List Receipt × Queue.Session
  | [], s => ([], [], s)
  | r :: arrivals, s =>
      if s.isRunning then
        let (events, s) := (s.withLinks (arrival r s.links)).run
        let (later, unread, s) := deliver arrivals s
        (events ++ later, unread, s)
      else ([], r :: arrivals, s)

namespace QueueArguments

def instruction (a : QueueArguments) : Queue.Instruction :=
  { action := .decide a.ruling.disposition a.mark }

/-- What the receiver notes before it reports a failed receive. -/
def receiverNotes (a : QueueArguments) (e : Error) : List Note :=
  match e with
  | .noBuffers => [{
      level := .warning
      text := "kernel dropped packets (ENOBUFS)"
      particulars := [.queue a.number] }]
  | .io _ | .notOpen => [{
      level := .error
      text := "receive failed, closing queue"
      particulars := [.queue a.number, .error e] }]
  | _ => []

def queueError (e : Error) : Note where
  level := .warning
  text := "queue error"
  particulars := [.error e]

def verdictFailed (e : Error) : Note where
  level := .warning
  text := "verdict failed"
  particulars := [.error e]

def loopEnded (a : QueueArguments) : Note where
  level := .error
  text := "receive loop ended"
  particulars := [.queue a.number]

def piecesOf (a : QueueArguments) (format : Format) : Queue.Session.Event → List Piece
  | .packet p => [.line (Line.ofPacket format p)]
  | .failed e => (a.receiverNotes e ++ [queueError e]).map .note
  | .done (.sent (.error e)) => [.note (verdictFailed e)]
  | .done _ => []

def serve (a : QueueArguments) (format : Format) (socket : Socket) (arrivals : List Receipt) :
    Report :=
  let binding : Queue.Binding := { settings := a.settings }
  let socket := socket.withBuffer a.settings.socket.receiveBuffer.toNat
  match (binding.openWith socket).bringUp with
  | (.error e, b) =>
      { result := failing s!"failed to start queue {a.number}" e
        unread := arrivals
        socket := socketOf b.links socket }
  | (.pending, b) => { unread := arrivals, socket := socketOf b.links.abandon socket }
  | (.ok (), binding) =>
      let (_, s) := { binding, otherwise := a.instruction : Queue.Session }.start []
      let (first, s) := s.run
      let (later, unread, s) := deliver arrivals s
      let ended : List Piece := if s.isRunning then [] else [.note a.loopEnded]
      let (last, outcome, s) := s.stop
      let (_, s) := s.settle
      let result := match outcome with
        | some (.error e) => failing s!"failed to unbind queue {a.number}" e
        | _ => .ok ()
      { pieces := (first ++ later).flatMap (a.piecesOf format) ++ ended
          ++ last.flatMap (a.piecesOf format)
        result
        unread
        socket := socketOf s.links socket }

def run (a : QueueArguments) (format : Format) (fault : Option (OpeningCall × Int))
    (socket : Socket) (arrivals : List Receipt) : Report :=
  match socket.opened fault with
  | (.error e, socket) =>
      { result := failing s!"failed to start queue {a.number}" (.io e), unread := arrivals, socket }
  | (.ok (), socket) => a.serve format socket arrivals

end QueueArguments

namespace LogArguments

def activity (a : LogArguments) : String :=
  "failed to bind log groups [" ++ String.intercalate ", " (a.groups.map toString) ++ "]"

def entriesLost : Note where
  level := .warning
  text := "log entries lost"

abbrev Shown := List Piece × Except (List String) Unit × List Receipt × Links

/-- Shows the items of a feed up to the first failure, but at most so many. Lost entries are no
failure, and are noted. -/
def showFor (a : LogArguments) (format : Format) :
    Nat → List Receipt → Log.Feed → Links → Shown
  | 0, arrivals, _, l => ([], .ok (), arrivals, l)
  | fuel + 1, arrivals, f, l =>
      match f.next l with
      | (.item (.ok e), f, l) =>
          let (pieces, rest) := a.showFor format fuel arrivals f l
          (f.notes.map .note ++ .line (Line.ofEntry format a.prefixOnly e) :: pieces, rest)
      | (.item (.error e), f, l) =>
          if e.isNoBuffers then
            let (pieces, rest) := a.showFor format fuel arrivals f l
            (f.notes.map .note ++ .note entriesLost :: pieces, rest)
          else (f.notes.map .note, .error e.causes, arrivals, l)
      | (.ended, f, l) => (f.notes.map .note, .ok (), arrivals, (f.close l).2)
      | (.pending, f, l) =>
          match arrivals with
          | [] => (f.notes.map .note, .ok (), [], (f.close l).2)
          | r :: arrivals =>
              let (pieces, rest) := a.showFor format fuel arrivals f (arrival r l)
              (f.notes.map .note ++ pieces, rest)

/-- More than the number of items and waits that receipts can cause. -/
def itemBound : List Receipt → Nat
  | [] => 2
  | .ok data :: receipts => data.length + 3 + itemBound receipts
  | .error _ :: receipts => 3 + itemBound receipts

def serve (a : LogArguments) (format : Format) (socket : Socket) (arrivals : List Receipt) :
    Report :=
  let group : Log.Group := { settings := a.settings }
  let socket := socket.withBuffer a.settings.socket.receiveBuffer.toNat
  let failed (e : Error) (l : Links) : Report :=
    { result := failing a.activity e, unread := arrivals, socket := socketOf l socket }
  match (group.openWith socket).bringUp with
  | (.error e, g) => failed e g.links
  | (.pending, g) => { unread := arrivals, socket := socketOf g.links.abandon socket }
  | (.ok (), g) =>
      match g.links.openNumber? with
      | none => failed .notOpen g.links
      | some link =>
          let bound := itemBound ((socketOf g.links socket).inbox ++ arrivals)
          let (pieces, result, unread, l) := a.showFor format bound arrivals { link } g.links
          { pieces, result, unread, socket := socketOf l.abandon socket }

def run (a : LogArguments) (format : Format) (fault : Option (OpeningCall × Int))
    (socket : Socket) (arrivals : List Receipt) : Report :=
  match socket.opened fault with
  | (.error e, socket) => { result := failing a.activity (.io e), unread := arrivals, socket }
  | (.ok (), socket) => a.serve format socket arrivals

end LogArguments

def Invocation.run (i : Invocation) (fault : Option (OpeningCall × Int)) (socket : Socket)
    (arrivals : List Receipt) : Report :=
  match i.command with
  | .queue a => a.run i.format fault socket arrivals
  | .log a => a.run i.format fault socket arrivals

end Netfilter.CommandLine
