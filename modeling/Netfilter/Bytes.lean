/-!
# Bytes on the wire

Byte strings, numbers written in base 256 in either byte order, and the
rounding of lengths to four bytes that every netlink structure uses.
-/

namespace Netfilter

abbrev Bytes := List UInt8

namespace Bytes

/-- The `k` lowest base-256 digits of `n`, least significant first. -/
def little : Nat → Nat → Bytes
  | 0, _ => []
  | k + 1, n => UInt8.ofNat (n % 256) :: little k (n / 256)

def big (k n : Nat) : Bytes := (little k n).reverse

def ofLittle : Bytes → Nat
  | [] => 0
  | b :: bs => b.toNat + 256 * ofLittle bs

def ofBig (bs : Bytes) : Nat := ofLittle bs.reverse

@[simp] theorem length_little (k n : Nat) : (little k n).length = k := by
  induction k generalizing n with
  | zero => rfl
  | succ k ih => simp [little, ih]

@[simp] theorem length_big (k n : Nat) : (big k n).length = k := by simp [big]

theorem ofLittle_little (k n : Nat) : ofLittle (little k n) = n % Nat.pow 256 k := by
  induction k generalizing n with
  | zero => simp [little, ofLittle, Nat.mod_one]
  | succ k ih =>
      have h : (UInt8.ofNat (n % 256)).toNat = n % 256 := by
        simp [UInt8.toNat_ofNat']
      have hp : Nat.pow 256 (k + 1) = 256 * Nat.pow 256 k := Nat.mul_comm _ _
      rw [little, ofLittle, ih, h, hp, Nat.mod_mul]

theorem ofBig_big (k n : Nat) : ofBig (big k n) = n % Nat.pow 256 k := by
  simp [ofBig, big, ofLittle_little]

def hasAtLeast : Nat → Bytes → Bool
  | 0, _ => true
  | _ + 1, [] => false
  | k + 1, _ :: bs => hasAtLeast k bs

@[simp] theorem hasAtLeast_iff (k : Nat) (bs : Bytes) : hasAtLeast k bs = true ↔ k ≤ bs.length := by
  induction k generalizing bs with
  | zero => simp [hasAtLeast]
  | succ k ih => cases bs <;> simp [hasAtLeast, ih]

/-- The first `k` bytes and the bytes after them, if there are `k`. -/
def split? (k : Nat) (bs : Bytes) : Option (Bytes × Bytes) :=
  if hasAtLeast k bs then some (bs.take k, bs.drop k) else none

def readBig? (k : Nat) (bs : Bytes) : Option (Nat × Bytes) :=
  (split? k bs).map fun (digits, rest) => (ofBig digits, rest)

def alignUp (n : Nat) : Nat := (n + 3) / 4 * 4

/-- `bs` followed by the zero bytes that make its length a multiple of four. -/
def padded (bs : Bytes) : Bytes := bs ++ List.replicate (alignUp bs.length - bs.length) 0

theorem le_alignUp (n : Nat) : n ≤ alignUp n := by unfold alignUp; omega

theorem length_padded (bs : Bytes) : (padded bs).length = alignUp bs.length := by
  have := le_alignUp bs.length
  simp [padded]; omega

end Bytes

end Netfilter
