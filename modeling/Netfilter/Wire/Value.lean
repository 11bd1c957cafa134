import Netfilter.Text.Utf8

/-!
# Typed values

Reading numbers and text out of attribute values. A number is read from the
front of the value; bytes after it are ignored. Text ends at the first zero
byte, or with the value.
-/

namespace Netfilter.Value

def digits (k : Nat) (value : Bytes) : Except Error Bytes :=
  match Bytes.split? k value with
  | some (bs, _) => .ok bs
  | none => .error (.invalidAttribute (.cutShort (8 * k)))

def word8 (value : Bytes) : Except Error UInt8 :=
  match value with
  | b :: _ => .ok b
  | [] => .error (.invalidAttribute .emptyByte)

def word16 (value : Bytes) : Except Error UInt16 :=
  (digits 2 value).map fun bs => UInt16.ofNat (Bytes.ofBig bs)

def word32 (value : Bytes) : Except Error UInt32 :=
  (digits 4 value).map fun bs => UInt32.ofNat (Bytes.ofBig bs)

def word64 (value : Bytes) : Except Error UInt64 :=
  (digits 8 value).map fun bs => UInt64.ofNat (Bytes.ofBig bs)

def hostWord32 (value : Bytes) : Except Error UInt32 :=
  (digits 4 value).map fun bs => UInt32.ofNat (Bytes.ofLittle bs)

def text (value : Bytes) : Except Error String :=
  match Utf8.decode (value.takeWhile (· ≠ 0)) with
  | .ok s => .ok s
  | .error defect => .error (.invalidAttribute (.notUtf8 defect))

end Netfilter.Value
