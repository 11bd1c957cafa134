import Netfilter.Bytes
import Netfilter.Error

/-!
# UTF-8

Text as bytes and back. Decoding refuses over-long forms, surrogates and
numbers above the last code point, and says where the first defect starts and
how many bytes belong to it.
-/

namespace Netfilter.Utf8

def encode (text : String) : Bytes := text.toList.flatMap String.utf8EncodeChar

def size (text : String) : Nat := (encode text).length

def isTail (b : UInt8) : Bool := 0x80 ≤ b && b ≤ 0xBF

def secondOfThree (a b : UInt8) : Bool :=
  if a = 0xE0 then 0xA0 ≤ b && b ≤ 0xBF
  else if a = 0xED then 0x80 ≤ b && b ≤ 0x9F
  else isTail b

def secondOfFour (a b : UInt8) : Bool :=
  if a = 0xF0 then 0x90 ≤ b && b ≤ 0xBF
  else if a = 0xF4 then 0x80 ≤ b && b ≤ 0x8F
  else isTail b

def tailBits (b : UInt8) : Nat := b.toNat % 64

/-- The character that starts with the bytes `a :: rest` and the bytes after it; otherwise the
length of the defect, which is none if `rest` ends too early. -/
def next (a : UInt8) (rest : Bytes) : Except (Option Nat) (Char × Bytes) :=
  if a < 0x80 then .ok (Char.ofNat a.toNat, rest)
  else if 0xC2 ≤ a && a ≤ 0xDF then
    match rest with
    | [] => .error none
    | b :: rest =>
        if isTail b then .ok (Char.ofNat (a.toNat % 32 * 64 + tailBits b), rest)
        else .error (some 1)
  else if 0xE0 ≤ a && a ≤ 0xEF then
    match rest with
    | [] => .error none
    | b :: rest =>
        if secondOfThree a b then
          match rest with
          | [] => .error none
          | c :: rest =>
              if isTail c then
                .ok (Char.ofNat (a.toNat % 16 * 4096 + tailBits b * 64 + tailBits c), rest)
              else .error (some 2)
        else .error (some 1)
  else if 0xF0 ≤ a && a ≤ 0xF4 then
    match rest with
    | [] => .error none
    | b :: rest =>
        if secondOfFour a b then
          match rest with
          | [] => .error none
          | c :: rest =>
              if isTail c then
                match rest with
                | [] => .error none
                | d :: rest =>
                    if isTail d then
                      .ok (Char.ofNat (a.toNat % 8 * 262144 + tailBits b * 4096
                        + tailBits c * 64 + tailBits d), rest)
                    else .error (some 3)
              else .error (some 2)
        else .error (some 1)
  else .error (some 1)

theorem next_shortens {a : UInt8} {bs rest : Bytes} {c : Char} (h : next a bs = .ok (c, rest)) :
    rest.length ≤ bs.length := by
  unfold next at h
  repeat' split at h
  all_goals simp_all
  all_goals (obtain ⟨_, rfl⟩ := h; omega)

def decodeFrom (index : Nat) (done : List Char) : Bytes → Except Utf8Defect (List Char)
  | [] => .ok done.reverse
  | a :: bs =>
      match _ : next a bs with
      | .error length => .error ⟨index, length⟩
      | .ok (c, rest) => decodeFrom (index + c.utf8Size) (c :: done) rest
termination_by bs => bs.length
decreasing_by
  have := next_shortens ‹_›
  simp; omega

def decode (bs : Bytes) : Except Utf8Defect String :=
  (decodeFrom 0 [] bs).map String.ofList

end Netfilter.Utf8
