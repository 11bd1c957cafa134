import Netfilter.Proofs.Bytes
import Netfilter.Proofs.Text.Utf8
import Netfilter.Wire.Value

/-!
# Typed values read back

Numbers in network order are read off the front of a value, whatever follows
them. A text is read up to the zero byte after it, or up to the first character
zero in it.
-/

namespace Netfilter

namespace Bytes

theorem split?_append {k : Nat} {front : Bytes} (h : front.length = k) (rest : Bytes) :
    split? k (front ++ rest) = some (front, rest) := by
  have hlong : hasAtLeast k (front ++ rest) = true := by
    rw [hasAtLeast_iff, List.length_append, h]
    exact Nat.le_add_right k rest.length
  rw [split?, if_pos hlong, List.take_left' h, List.drop_left' h]

theorem readBig?_big_append {k n : Nat} (h : n < 256 ^ k) (rest : Bytes) :
    readBig? k (big k n ++ rest) = some (n, rest) := by
  have hn : ofBig (big k n) = n := (ofBig_big k n).trans (Nat.mod_eq_of_lt h)
  simp only [readBig?, split?_append (length_big k n), Option.map_some, hn]

end Bytes

namespace Value

theorem digits_append {k : Nat} {front : Bytes} (h : front.length = k) (rest : Bytes) :
    digits k (front ++ rest) = .ok front := by
  rw [digits, Bytes.split?_append h]

theorem word16_big_append (x : UInt16) (rest : Bytes) :
    word16 (Bytes.big 2 x.toNat ++ rest) = .ok x := by
  rw [word16, digits_append (Bytes.length_big 2 _)]
  exact congrArg Except.ok (Bytes.ofBig_big_word16 x)

theorem word32_big_append (x : UInt32) (rest : Bytes) :
    word32 (Bytes.big 4 x.toNat ++ rest) = .ok x := by
  have hx : Bytes.ofBig (Bytes.big 4 x.toNat) = x.toNat :=
    (Bytes.ofBig_big 4 _).trans (Nat.mod_eq_of_lt x.toNat_lt)
  rw [word32, digits_append (Bytes.length_big 4 _), Except.map, hx, UInt32.ofNat_toNat]

theorem word32_big (x : UInt32) : word32 (Bytes.big 4 x.toNat) = .ok x := by
  have hx := word32_big_append x []
  rwa [List.append_nil] at hx

theorem word16_big (x : UInt16) : word16 (Bytes.big 2 x.toNat) = .ok x := by
  have hx := word16_big_append x []
  rwa [List.append_nil] at hx

def number (x : Option UInt32) : Option Bytes := x.map fun x => Bytes.big 4 x.toNat

theorem length_of_number {x : Option UInt32} {bytes : Bytes} (h : number x = some bytes) :
    bytes.length = 4 := by
  obtain ⟨x, -, rfl⟩ := Option.map_eq_some_iff.1 h
  exact Bytes.length_big 4 _

theorem text_encode_append {s : String} (h : '\x00' ∉ s.toList) (rest : Bytes) :
    text (Utf8.encode s ++ 0 :: rest) = .ok s := by
  have hplain : ∀ b ∈ Utf8.encode s, decide (b ≠ 0) = true := by
    intro b hb
    rw [decide_eq_true_iff]
    rintro rfl
    exact Utf8.zero_not_mem_encode h hb
  have htake : (Utf8.encode s ++ 0 :: rest).takeWhile (· ≠ 0) = Utf8.encode s := by
    rw [List.takeWhile_append_of_pos hplain, List.takeWhile_cons_of_neg (by simp),
      List.append_nil]
  rw [text, htake, Utf8.decode_encode]

theorem text_encode_append_zero (s : String) (rest : Bytes) :
    text (Utf8.encode s ++ 0 :: rest) = .ok (Utf8.untilZero s) := by
  obtain ⟨rest', hsplit⟩ := Utf8.exists_encode_untilZero s rest
  rw [hsplit, text_encode_append (Utf8.isPlainFront_untilZero s).plain]

end Value

end Netfilter
