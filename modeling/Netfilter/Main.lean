import Netfilter.CommandLine.Run
import Netfilter.CommandLine.Traffic

/-!
# The program

Does what the command line asks for, on recorded traffic from the standard
input.
-/

open Netfilter.CommandLine

/-- Reads lines up to the end of the input. -/
partial def readLines (input : IO.FS.Stream) : IO (List String) := do
  let line ← input.getLine
  if line.isEmpty then return []
  return line :: (← readLines input)

def runInvocation (invocation : Invocation) : IO UInt32 := do
  let lines ← readLines (← IO.getStdin)
  let report := invocation.run none { port := 1, patient := true } (lines.filterMap receiptOfLine?)
  IO.print (report.standardOutput .plain)
  match report.result with
  | .ok () => return 0
  | .error causes =>
      IO.eprintln (String.intercalate ": " causes)
      return 1

def main (arguments : List String) : IO UInt32 := do
  match Invocation.read arguments with
  | .ok invocation => runInvocation invocation
  | .error rejection =>
      IO.eprintln rejection.message
      return UInt32.ofNat rejection.exitCode
