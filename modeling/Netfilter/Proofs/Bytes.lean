import Mathlib.Algebra.GroupWithZero.Nat
import Mathlib.Data.List.Infix
import Netfilter.Bytes

/-!
# Numbers and padding read back

A number that fits its digits is read back as it was written, and padding only
depends on the length of what is padded, up to multiples of four.
-/

namespace Netfilter.Bytes

theorem ofLittle_little_of_lt {k n : Nat} (h : n < 256 ^ k) : ofLittle (little k n) = n :=
  (ofLittle_little k n).trans (Nat.mod_eq_of_lt h)

theorem ofLittle_little_word16 (x : UInt16) :
    UInt16.ofNat (ofLittle (little 2 x.toNat)) = x := by
  rw [ofLittle_little_of_lt (by have := x.toNat_lt; omega), UInt16.ofNat_toNat]

theorem ofLittle_little_word32 (x : UInt32) :
    UInt32.ofNat (ofLittle (little 4 x.toNat)) = x := by
  rw [ofLittle_little_of_lt (by have := x.toNat_lt; omega), UInt32.ofNat_toNat]

theorem ofBig_big_word16 (x : UInt16) : UInt16.ofNat (ofBig (big 2 x.toNat)) = x := by
  have h : ofBig (big 2 x.toNat) = x.toNat :=
    (ofBig_big 2 x.toNat).trans (Nat.mod_eq_of_lt x.toNat_lt)
  rw [h, UInt16.ofNat_toNat]

theorem ofLittle_lt (bs : Bytes) : ofLittle bs < 256 ^ bs.length := by
  induction bs with
  | nil => exact Nat.one_pos
  | cons b bs ih =>
      have hb := b.toNat_lt
      rw [ofLittle, List.length_cons, Nat.pow_succ]
      omega

/-- The digits of a number that was read are the bytes it was read from. -/
theorem little_ofLittle (bs : Bytes) : little bs.length (ofLittle bs) = bs := by
  induction bs with
  | nil => rfl
  | cons b bs ih =>
      have hb := b.toNat_lt
      have hdigit : (b.toNat + 256 * ofLittle bs) % 256 = b.toNat := by omega
      have hrest : (b.toNat + 256 * ofLittle bs) / 256 = ofLittle bs := by omega
      rw [ofLittle, List.length_cons, little, hdigit, hrest, ih, UInt8.ofNat_toNat]

theorem little_ofLittle_word16 {bs : Bytes} (h : bs.length = 2) :
    little 2 (UInt16.ofNat (ofLittle bs)).toNat = bs := by
  have hlt := ofLittle_lt bs
  have hdigits := little_ofLittle bs
  rw [h] at hlt hdigits
  change ofLittle bs < 2 ^ 16 at hlt
  rw [UInt16.toNat_ofNat', Nat.mod_eq_of_lt hlt, hdigits]

theorem little_ofLittle_word32 {bs : Bytes} (h : bs.length = 4) :
    little 4 (UInt32.ofNat (ofLittle bs)).toNat = bs := by
  have hlt := ofLittle_lt bs
  have hdigits := little_ofLittle bs
  rw [h] at hlt hdigits
  change ofLittle bs < 2 ^ 32 at hlt
  rw [UInt32.toNat_ofNat', Nat.mod_eq_of_lt hlt, hdigits]

theorem alignUp_mod (n : Nat) : alignUp n % 4 = 0 := by unfold alignUp; omega

theorem alignUp_of_mod_eq_zero {n : Nat} (h : n % 4 = 0) : alignUp n = n := by
  unfold alignUp; omega

theorem alignUp_add_of_mod_eq_zero {m : Nat} (h : m % 4 = 0) (n : Nat) :
    alignUp (m + n) = m + alignUp n := by
  unfold alignUp; omega

theorem padded_append {front : Bytes} (h : front.length % 4 = 0) (bs : Bytes) :
    padded (front ++ bs) = front ++ padded bs := by
  unfold padded
  rw [List.length_append, alignUp_add_of_mod_eq_zero h, Nat.add_sub_add_left, List.append_assoc]

theorem padded_of_mod_eq_zero {bs : Bytes} (h : bs.length % 4 = 0) : padded bs = bs := by
  rw [padded, alignUp_of_mod_eq_zero h, Nat.sub_self, List.replicate_zero, List.append_nil]

theorem take_padded (b : Bytes) : (padded b).take b.length = b := by
  rw [padded, List.take_left]

theorem drop_padded_append (bs rest : Bytes) :
    (padded bs ++ rest).drop (alignUp bs.length) = rest := by
  rw [← length_padded, List.drop_left]

end Netfilter.Bytes
