import Mathlib.Tactic.SplitIfs
import Netfilter.Text.Utf8

/-!
# Text read back from its bytes

What is decoded out of the UTF-8 form of a text is that text. A zero byte stands
in it only for the character with number zero, so the bytes before the first one
are again the form of a text.
-/

namespace Netfilter.Utf8

section

variable {a b c d : UInt8} (rest : Bytes)

theorem next_of_one (ha : a.toNat < 0x80) : next a rest = .ok (Char.ofNat a.toNat, rest) := by
  have hlow : a < 0x80 := UInt8.lt_iff_toNat_lt.2 ha
  unfold next
  exact if_pos hlow

theorem next_of_two (hlow : 0xC2 ≤ a.toNat) (hhigh : a.toNat ≤ 0xDF) (hb : isTail b = true) :
    next a (b :: rest) = .ok (Char.ofNat (a.toNat % 32 * 64 + tailBits b), rest) := by
  have hnone : ¬ a.toNat < 0x80 := by omega
  simp [next, UInt8.lt_iff_toNat_lt, UInt8.le_iff_toNat_le, hnone, hlow, hhigh, hb]

theorem next_of_three (hlow : 0xE0 ≤ a.toNat) (hhigh : a.toNat ≤ 0xEF)
    (hb : secondOfThree a b = true) (hc : isTail c = true) :
    next a (b :: c :: rest) =
      .ok (Char.ofNat (a.toNat % 16 * 4096 + tailBits b * 64 + tailBits c), rest) := by
  have hnone : ¬ a.toNat < 0x80 := by omega
  have hntwo : ¬ a.toNat ≤ 0xDF := by omega
  simp [next, UInt8.lt_iff_toNat_lt, UInt8.le_iff_toNat_le, hnone, hntwo, hlow, hhigh, hb, hc]

theorem next_of_four (hlow : 0xF0 ≤ a.toNat) (hhigh : a.toNat ≤ 0xF4)
    (hb : secondOfFour a b = true) (hc : isTail c = true) (hd : isTail d = true) :
    next a (b :: c :: d :: rest) = .ok (Char.ofNat
      (a.toNat % 8 * 262144 + tailBits b * 4096 + tailBits c * 64 + tailBits d), rest) := by
  have hnone : ¬ a.toNat < 0x80 := by omega
  have hntwo : ¬ a.toNat ≤ 0xDF := by omega
  have hnthree : ¬ a.toNat ≤ 0xEF := by omega
  simp [next, UInt8.lt_iff_toNat_lt, UInt8.le_iff_toNat_le, hnone, hntwo, hnthree, hlow, hhigh, hb,
    hc, hd]

end

theorem toNat_ofNat_of_lt {n : Nat} (h : n < 256) : (UInt8.ofNat n).toNat = n := by
  rw [UInt8.toNat_ofNat', Nat.mod_eq_of_lt h]

theorem isTail_ofNat (n : Nat) : isTail (UInt8.ofNat (n % 64 + 0x80)) = true := by
  have hbyte : (UInt8.ofNat (n % 64 + 0x80)).toNat = n % 64 + 0x80 := toNat_ofNat_of_lt (by omega)
  simp only [isTail, UInt8.le_iff_toNat_le, hbyte, UInt8.reduceToNat, Bool.and_eq_true,
    decide_eq_true_eq]
  omega

theorem tailBits_ofNat (n : Nat) : tailBits (UInt8.ofNat (n % 64 + 0x80)) = n % 64 := by
  rw [tailBits, toNat_ofNat_of_lt (by omega)]
  omega

/-- No over-long form of three bytes, and no surrogate. -/
theorem secondOfThree_ofNat {n : Nat} (hlow : 0x7FF < n) (hhigh : n ≤ 0xFFFF)
    (hvalid : n < 0xD800 ∨ 0xDFFF < n) :
    secondOfThree (UInt8.ofNat (n / 4096 % 16 + 0xE0)) (UInt8.ofNat (n / 64 % 64 + 0x80)) =
      true := by
  have ha : (UInt8.ofNat (n / 4096 % 16 + 0xE0)).toNat = n / 4096 % 16 + 0xE0 :=
    toNat_ofNat_of_lt (by omega)
  have hb : (UInt8.ofNat (n / 64 % 64 + 0x80)).toNat = n / 64 % 64 + 0x80 :=
    toNat_ofNat_of_lt (by omega)
  unfold secondOfThree
  split_ifs with h₁ h₂
  · rw [← UInt8.toNat_inj, ha] at h₁
    simp only [UInt8.le_iff_toNat_le, hb, UInt8.reduceToNat, Bool.and_eq_true,
      decide_eq_true_eq] at h₁ ⊢
    omega
  · rw [← UInt8.toNat_inj, ha] at h₂
    simp only [UInt8.le_iff_toNat_le, hb, UInt8.reduceToNat, Bool.and_eq_true,
      decide_eq_true_eq] at h₂ ⊢
    omega
  · exact isTail_ofNat (n / 64)

/-- No over-long form of four bytes, and nothing above the last code point. -/
theorem secondOfFour_ofNat {n : Nat} (hlow : 0xFFFF < n) (hhigh : n < 0x110000) :
    secondOfFour (UInt8.ofNat (n / 262144 % 8 + 0xF0)) (UInt8.ofNat (n / 4096 % 64 + 0x80)) =
      true := by
  have ha : (UInt8.ofNat (n / 262144 % 8 + 0xF0)).toNat = n / 262144 % 8 + 0xF0 :=
    toNat_ofNat_of_lt (by omega)
  have hb : (UInt8.ofNat (n / 4096 % 64 + 0x80)).toNat = n / 4096 % 64 + 0x80 :=
    toNat_ofNat_of_lt (by omega)
  unfold secondOfFour
  split_ifs with h₁ h₂
  · rw [← UInt8.toNat_inj, ha] at h₁
    simp only [UInt8.le_iff_toNat_le, hb, UInt8.reduceToNat, Bool.and_eq_true,
      decide_eq_true_eq] at h₁ ⊢
    omega
  · rw [← UInt8.toNat_inj, ha] at h₂
    simp only [UInt8.le_iff_toNat_le, hb, UInt8.reduceToNat, Bool.and_eq_true,
      decide_eq_true_eq] at h₂ ⊢
    omega
  · exact isTail_ofNat (n / 4096)

/-- The first character of a text is read off its UTF-8 form. -/
theorem next_encodeChar (c : Char) (rest : Bytes) :
    ∃ a bs, String.utf8EncodeChar c = a :: bs ∧ next a (bs ++ rest) = .ok (c, rest) := by
  have hvalid : c.toNat < 0xD800 ∨ 0xDFFF < c.toNat ∧ c.toNat < 0x110000 := c.valid
  have hself : Char.ofNat c.toNat = c := Char.ofNat_toNat c
  have hval : c.val.toNat = c.toNat := rfl
  unfold String.utf8EncodeChar
  rw [hval]
  dsimp only
  generalize c.toNat = n at hvalid hself
  -- the length of the form depends on the number of the character
  split_ifs with h₁ h₂ h₃
  · refine ⟨_, [], rfl, ?_⟩
    have ha : (UInt8.ofNat n).toNat = n := toNat_ofNat_of_lt (by omega)
    rw [List.nil_append, next_of_one rest (by omega), ha, hself]
  · refine ⟨_, _, rfl, ?_⟩
    have ha : (UInt8.ofNat (n / 64 % 32 + 0xC0)).toNat = n / 64 % 32 + 0xC0 :=
      toNat_ofNat_of_lt (by omega)
    have hn : (n / 64 % 32 + 0xC0) % 32 * 64 + n % 64 = n := by omega
    rw [List.cons_append, List.nil_append,
      next_of_two rest (by omega) (by omega) (isTail_ofNat n), ha, tailBits_ofNat, hn, hself]
  · refine ⟨_, _, rfl, ?_⟩
    have ha : (UInt8.ofNat (n / 4096 % 16 + 0xE0)).toNat = n / 4096 % 16 + 0xE0 :=
      toNat_ofNat_of_lt (by omega)
    have hn : (n / 4096 % 16 + 0xE0) % 16 * 4096 + n / 64 % 64 * 64 + n % 64 = n := by omega
    rw [List.cons_append, List.cons_append, List.nil_append,
      next_of_three rest (by omega) (by omega)
        (secondOfThree_ofNat (by omega) (by omega) (by omega)) (isTail_ofNat n),
      ha, tailBits_ofNat, tailBits_ofNat, hn, hself]
  · refine ⟨_, _, rfl, ?_⟩
    have ha : (UInt8.ofNat (n / 262144 % 8 + 0xF0)).toNat = n / 262144 % 8 + 0xF0 :=
      toNat_ofNat_of_lt (by omega)
    have hn : (n / 262144 % 8 + 0xF0) % 8 * 262144 + n / 4096 % 64 * 4096 + n / 64 % 64 * 64 +
        n % 64 = n := by omega
    rw [List.cons_append, List.cons_append, List.cons_append, List.nil_append,
      next_of_four rest (by omega) (by omega) (secondOfFour_ofNat (by omega) (by omega))
        (isTail_ofNat (n / 64)) (isTail_ofNat n),
      ha, tailBits_ofNat, tailBits_ofNat, tailBits_ofNat, hn, hself]

theorem eq_zero_of_mem_encodeChar {c : Char} (h : 0 ∈ String.utf8EncodeChar c) :
    c.toNat = 0 := by
  have hzero {n : Nat} (hn : n < 256) (h : (0 : UInt8) = UInt8.ofNat n) : n = 0 := by
    have hnat := congrArg UInt8.toNat h
    rw [toNat_ofNat_of_lt hn] at hnat
    exact hnat.symm
  have hval : c.val.toNat = c.toNat := rfl
  unfold String.utf8EncodeChar at h
  rw [hval] at h
  dsimp only at h
  generalize c.toNat = n at h
  split_ifs at h with h₁ h₂ h₃ <;>
    simp only [List.mem_cons, List.not_mem_nil, or_false] at h
  · exact hzero (by omega) h
  · rcases h with h | h <;> have := hzero (by omega) h <;> omega
  · rcases h with h | h | h <;> have := hzero (by omega) h <;> omega
  · rcases h with h | h | h | h <;> have := hzero (by omega) h <;> omega

theorem decodeFrom_flatMap (cs : List Char) (index : Nat) (done : List Char) :
    decodeFrom index done (cs.flatMap String.utf8EncodeChar) = .ok (done.reverse ++ cs) := by
  induction cs generalizing index done with
  | nil => rw [List.flatMap_nil, decodeFrom, List.append_nil]
  | cons c cs ih =>
      obtain ⟨a, bs, hencode, hnext⟩ := next_encodeChar c (cs.flatMap String.utf8EncodeChar)
      rw [List.flatMap_cons, hencode, List.cons_append, decodeFrom]
      split
      · next length herror => rw [hnext] at herror; cases herror
      · next c' rest hok =>
          rw [hnext] at hok
          obtain ⟨rfl, rfl⟩ := Prod.mk.inj (Except.ok.inj hok)
          rw [ih, List.reverse_cons, List.append_assoc, List.singleton_append]

theorem decode_encode (s : String) : decode (encode s) = .ok s := by
  rw [decode, encode, decodeFrom_flatMap]
  exact congrArg Except.ok String.ofList_toList

theorem zero_not_mem_encode {s : String} (h : '\x00' ∉ s.toList) : 0 ∉ encode s := by
  intro hmem
  obtain ⟨c, hc, hzero⟩ := List.mem_flatMap.1 hmem
  have hnul : c = '\x00' := by
    rw [← Char.ofNat_toNat c, eq_zero_of_mem_encodeChar hzero]
  exact h (hnul ▸ hc)

/-- `t` is the longest beginning of `s` in which no character has the number zero. -/
structure IsPlainFront (t s : String) : Prop where
  isPrefix : t.toList <+: s.toList
  plain : '\x00' ∉ t.toList
  longest : ∀ cs, cs <+: s.toList → '\x00' ∉ cs → cs <+: t.toList

theorem IsPlainFront.unique {s t u : String} (ht : IsPlainFront t s) (hu : IsPlainFront u s) :
    t = u := by
  have hle := hu.longest t.toList ht.isPrefix ht.plain
  have hge := ht.longest u.toList hu.isPrefix hu.plain
  exact String.toList_inj.1 (hle.eq_of_length_le hge.length_le)

def untilZero (s : String) : String := String.ofList (s.toList.takeWhile (· ≠ '\x00'))

theorem toList_untilZero (s : String) :
    (untilZero s).toList = s.toList.takeWhile (· ≠ '\x00') := String.toList_ofList

theorem takeWhile_append_of_plain {cs : List Char} (h : '\x00' ∉ cs) (later : List Char) :
    (cs ++ later).takeWhile (· ≠ '\x00') = cs ++ later.takeWhile (· ≠ '\x00') := by
  apply List.takeWhile_append_of_pos
  intro c hc
  rw [decide_eq_true_iff]
  rintro rfl
  exact h hc

theorem isPlainFront_untilZero (s : String) : IsPlainFront (untilZero s) s := by
  refine ⟨?_, ?_, ?_⟩ <;> rw [toList_untilZero]
  · exact List.takeWhile_prefix _
  · intro hzero
    simpa using List.all_eq_true.1 List.all_takeWhile _ hzero
  · rintro cs ⟨later, hs⟩ hplain
    rw [← hs, takeWhile_append_of_plain hplain]
    exact List.prefix_append _ _

theorem untilZero_of_plain {s : String} (h : '\x00' ∉ s.toList) : untilZero s = s := by
  have hall := takeWhile_append_of_plain h []
  rw [List.append_nil, List.takeWhile_nil, List.append_nil] at hall
  rw [untilZero, hall, String.ofList_toList]

/-- Before the first zero byte stands the form of the text up to its first character zero. -/
theorem exists_encode_untilZero (s : String) (rest : Bytes) :
    ∃ rest', encode s ++ 0 :: rest = encode (untilZero s) ++ 0 :: rest' := by
  have hsplit : s.toList = s.toList.takeWhile (· ≠ '\x00') ++ s.toList.dropWhile (· ≠ '\x00') :=
    List.takeWhile_append_dropWhile.symm
  have hstop := List.head?_dropWhile_not (· ≠ '\x00') s.toList
  have hencode : encode s = encode (untilZero s) ++
      (s.toList.dropWhile (· ≠ '\x00')).flatMap String.utf8EncodeChar := by
    rw [encode, encode, toList_untilZero, ← List.flatMap_append, ← hsplit]
  rw [hencode, List.append_assoc]
  -- the zero byte is that of the character, or the one that ends the whole
  cases hlater : s.toList.dropWhile (· ≠ '\x00') with
  | nil => exact ⟨rest, by rw [List.flatMap_nil, List.nil_append]⟩
  | cons c later =>
      rw [hlater] at hstop
      obtain rfl : c = '\x00' := by simpa using hstop
      exact ⟨later.flatMap String.utf8EncodeChar ++ 0 :: rest, rfl⟩

end Netfilter.Utf8
