import Netfilter.Link.Socket

/-!
# Recorded traffic

What arrived on a socket, one receipt a line: a datagram in hexadecimal, or the
word `errno` and a number for a receive that failed.
-/

namespace Netfilter.CommandLine

def nibble? (c : Char) : Option Nat := (List.range 16).find? fun n => Nat.digitChar n = c.toLower

def bytesOfDigits? : List Char → Option Bytes
  | [] => some []
  | [_] => none
  | high :: low :: digits => do
      let high ← nibble? high
      let low ← nibble? low
      let bytes ← bytesOfDigits? digits
      return UInt8.ofNat (16 * high + low) :: bytes

def receiptOfLine? (line : String) : Option Receipt :=
  match line.trimAscii.toString.splitOn " " with
  | ["errno", number] => number.toNat?.map fun n => .error (.os (Int.ofNat n))
  | [digits] => (bytesOfDigits? digits.toList).map .ok
  | _ => none

end Netfilter.CommandLine
