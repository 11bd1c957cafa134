import Netfilter.CommandLine.Report

/-!
# The lines of a report

Notes are no lines. What the command prints is on the standard output in any
case; where there is no subscriber, nothing else is.
-/

namespace Netfilter.CommandLine

namespace Piece

theorem lines_notes (notes : List Note) : (notes.map note).filterMap line? = [] := by
  rw [List.filterMap_map, List.filterMap_eq_nil_iff]
  exact fun n _ => rfl

end Piece

theorem Journal.around_silent (n : Nat) (pieces : List Piece) :
    silent.around n pieces = (pieces.filterMap Piece.line?).flatMap Line.written := by
  induction pieces generalizing n with
  | nil => rfl
  | cons piece pieces ih =>
      cases piece with
      | line text =>
          rw [around, ih]
          rfl
      | note note =>
          rw [around, ih]
          rfl

theorem Report.standardOutput_silent (r : Report) : r.standardOutput .silent = r.output := by
  rw [standardOutput, Journal.around_silent]
  rfl

end Netfilter.CommandLine
