import Netfilter.Log.Entry
import Netfilter.Log.Group
import Netfilter.Note

/-!
# Feeds of log entries

A feed gives the entries that arrive on a channel, one at a time and in order.
What a datagram gives beyond the first item is kept. Lost notifications are
reported and the feed goes on; after any other failed receive it closes the
channel, gives what it has kept, and ends. Both are noted.
-/

namespace Netfilter.Log

structure Feed where
  link : Nat
  /-- The items read and not given yet. -/
  kept : List (Except Error Entry) := []
  isDone : Bool := false
  /-- What was noted when the feed was last asked. -/
  notes : List Note := []
  deriving Repr

inductive Next
  | item (item : Except Error Entry)
  | ended
  | pending
  deriving Repr

namespace Feed

def isOpen (f : Feed) (l : Links) : Bool := l.channels[f.link]?.any (·.isOpen)

def describe (f : Feed) (l : Links) : String :=
  "LogStream \x7b open: " ++ toString (f.isOpen l) ++ ", pending: " ++ toString f.kept.length
    ++ ", done: " ++ toString f.isDone ++ " \x7d"

/-- Closes the channel. What was read already can still be had. -/
def close (f : Feed) (l : Links) : Feed × Links :=
  ({ f with isDone := true }, l.modify f.link fun c => c.close.2)

def overflowed : Note where
  level := .warning
  text := "log receive buffer overflowed, entries lost"

def broke (e : Error) : Note where
  level := .error
  text := "log receive failed, closing socket"
  particulars := [.error e]

def withNotes (f : Feed) (notes : List Note) : Feed := { f with notes }

/-- Receives datagrams, at most so many, until one of them gives an item. -/
def receiveFor : Nat → Feed → Links → Next × Feed × Links
  | 0, f, l => (.pending, f, l)
  | fuel + 1, f, l =>
      match l.onChannel f.link (.error .notOpen) (·.receive) with
      | (.pending, l) => (.pending, f, l)
      | (.ok data, l) =>
          match itemsOfDatagram data with
          | [] => receiveFor fuel f l
          | item :: kept => (.item item, { f with kept }, l)
      | (.error .noBuffers, l) => (.item (.error .noBuffers), f.withNotes [overflowed], l)
      | (.error .notOpen, l) => (.ended, { f with isDone := true }, l)
      | (.error e, l) =>
          let (f, l) := (f.withNotes [broke e]).close l
          (.item (.error e), f, l)

def waiting (f : Feed) (l : Links) : Nat :=
  (l.channels[f.link]?.map fun c => c.socket.inbox.length).getD 0

def next (f : Feed) (l : Links) : Next × Feed × Links :=
  let f := f.withNotes []
  match f.kept with
  | item :: kept => (.item item, { f with kept }, l)
  | [] => if f.isDone then (.ended, f, l) else receiveFor (f.waiting l + 1) f l

end Feed

/-- A group that may become a feed. -/
structure Listener where
  group : Group
  feed : Option Feed := none
  isGone : Bool := false
  deriving Repr

namespace Listener

def links (s : Listener) : Links := s.group.links

def withLinks (s : Listener) (links : Links) : Listener :=
  { s with group := { s.group with links } }

def drop (s : Listener) : Listener :=
  { s.withLinks s.links.abandon with feed := none, isGone := true }

/-- Turns the group into a feed. Without an open channel the group is lost. -/
def toFeed (s : Listener) : Except Error Unit × Listener :=
  match s.links.openNumber? with
  | none => (.error .notOpen, s.drop)
  | some link => (.ok (), { s with feed := some { link } })

def next (s : Listener) (f : Feed) : Next × Listener :=
  let (answer, f, links) := f.next s.links
  (answer, { s.withLinks links with feed := some f })

def close (s : Listener) : Listener :=
  match s.feed with
  | none => { s with group := s.group.close }
  | some f =>
      let (f, links) := f.close s.links
      { s.withLinks links with feed := some f }

end Listener

end Netfilter.Log
