import Netfilter.CommandLine.Line
import Netfilter.Link.Socket
import Netfilter.Note

/-!
# Reports

A command leaves a report of how it went. What it shows comes in pieces, and a
piece is a line that the command prints, or a note. Notes are not printed by the
command. They go to a subscriber, which the program installs before it starts the
command, and which writes to the standard output as well. Warnings and errors are
written unless the environment says otherwise; finer notes, which `-v` asks for,
are no pieces of a report. What the subscriber makes of a note, with the time and
in colour, is up to it: a journal says what it writes, and when.
-/

namespace Netfilter.CommandLine

inductive Piece
  | line (text : List Char)
  | note (n : Note)
  deriving DecidableEq, Repr

namespace Piece

def line? : Piece → Option (List Char)
  | line text => some text
  | note _ => none

end Piece

/-- What a subscriber writes. -/
structure Journal where
  /-- What is written for a note that is the piece with this number. -/
  entry : Nat → Note → List Char
  /-- What is written before the piece with this number and is no piece: what was noted before the
  command had anything to show, and finer notes. -/
  aside : Nat → List Char := fun _ => []

namespace Journal

/-- No subscriber is there. -/
def silent : Journal where
  entry _ _ := []

def plain : Journal where
  entry _ note := Line.written (Line.ofWords
    (note.level.name.toList :: note.text.toList :: note.particulars.map (·.text.toList)))

/-- The standard output from the piece with number `n` on. -/
def around (j : Journal) (n : Nat) : List Piece → List Char
  | [] => j.aside n
  | .line text :: pieces => j.aside n ++ Line.written text ++ j.around (n + 1) pieces
  | .note note :: pieces => j.aside n ++ j.entry n note ++ j.around (n + 1) pieces

end Journal

structure Report where
  pieces : List Piece := []
  /-- What went wrong and why, the most general reason first. -/
  result : Except (List String) Unit := .ok ()
  /-- What never arrived. -/
  unread : List Receipt := []
  socket : Socket
  deriving Repr

namespace Report

def lines (r : Report) : List (List Char) := r.pieces.filterMap Piece.line?

/-- What the command itself prints. -/
def output (r : Report) : String := String.ofList (r.lines.flatMap Line.written)

/-- What is on the standard output in the end. -/
def standardOutput (r : Report) (j : Journal) : String := String.ofList (j.around 0 r.pieces)

end Report

end Netfilter.CommandLine
