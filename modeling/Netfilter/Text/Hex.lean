/-!
# Hexadecimal numbers

Numbers in lower-case hexadecimal, padded to a width with zeros.
-/

namespace Netfilter.Hex

def text (n : Nat) : String := String.ofList (Nat.toDigits 16 n)

def fixed (width n : Nat) : String :=
  let digits := Nat.toDigits 16 n
  String.ofList (List.replicate (width - digits.length) '0' ++ digits)

end Netfilter.Hex
