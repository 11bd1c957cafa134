import Netfilter.Json.Reader
import Netfilter.Text.Hex

/-!
# JSON strings

A string stands between quotation marks; marks, backslashes and control
characters in it are escaped. An escape may name a character by four
hexadecimal digits, and one beyond the first 65536 by two such names.
-/

namespace Netfilter.Json.Quoted

def escapeCode (c : Char) : List Char := '\\' :: 'u' :: (Hex.fixed 4 c.toNat).toList

def escape (c : Char) : List Char :=
  if c = '"' then ['\\', '"']
  else if c = '\\' then ['\\', '\\']
  else if c = '\n' then ['\\', 'n']
  else if c = '\r' then ['\\', 'r']
  else if c = '\t' then ['\\', 't']
  else if c.toNat = 8 then ['\\', 'b']
  else if c.toNat = 12 then ['\\', 'f']
  else if c.toNat < 32 then escapeCode c
  else [c]

def write (text : List Char) : List Char := '"' :: text.flatMap escape ++ ['"']

def hexValue? (c : Char) : Option Nat :=
  if '0' ≤ c && c ≤ '9' then some (c.toNat - '0'.toNat)
  else if 'a' ≤ c && c ≤ 'f' then some (c.toNat - 'a'.toNat + 10)
  else if 'A' ≤ c && c ≤ 'F' then some (c.toNat - 'A'.toNat + 10)
  else none

def hasFourBytes (cs : List Char) : Bool := 4 ≤ (cs.take 4).foldr (fun c n => c.utf8Size + n) 0

/-- Takes four hexadecimal digits off a text. With less than four bytes the text ends too early. -/
def fourDigits (cs : List Char) : Except Fault (Nat × List Char) :=
  if hasFourBytes cs then
    match cs with
    | a :: b :: c :: d :: rest =>
        match hexValue? a, hexValue? b, hexValue? c, hexValue? d with
        | some a, some b, some c, some d => .ok (((a * 16 + b) * 16 + c) * 16 + d, rest)
        | _, _, _, _ => .error .malformed
    | _ => .error .malformed
  else .error .ends

theorem fourDigits_shortens {cs rest : List Char} {n : Nat} (h : fourDigits cs = .ok (n, rest)) :
    rest.length < cs.length := by
  unfold fourDigits at h
  repeat' split at h
  all_goals simp_all
  obtain ⟨_, rfl⟩ := h
  omega

/-- Whether a number names the first half of a character beyond the first 65536. -/
def isFirstHalf (n : Nat) : Bool := 0xD800 ≤ n && n ≤ 0xDBFF

/-- Whether a number names the second half of such a character. -/
def isSecondHalf (n : Nat) : Bool := 0xDC00 ≤ n && n ≤ 0xDFFF

def secondHalf (first : Nat) : Reader Char
  | [] => .error .ends
  | '\\' :: [] => .error .ends
  | '\\' :: 'u' :: cs =>
      match fourDigits cs with
      | .error f => .error f
      | .ok (second, rest) =>
          if isSecondHalf second then
            .ok (Char.ofNat ((first - 0xD800) * 1024 + (second - 0xDC00) + 0x10000), rest)
          else .error .malformed
  | _ => .error .malformed

theorem secondHalf_shortens {first : Nat} {cs rest : List Char} {c : Char}
    (h : secondHalf first cs = .ok (c, rest)) : rest.length < cs.length := by
  unfold secondHalf at h
  repeat' split at h
  all_goals simp_all
  have := fourDigits_shortens ‹_›
  obtain ⟨_, rfl⟩ := h
  omega

def namedByNumber (cs : List Char) : Except Fault (Char × List Char) :=
  match fourDigits cs with
  | .error f => .error f
  | .ok (n, rest) =>
      if isSecondHalf n then .error .malformed
      else if isFirstHalf n then secondHalf n rest
      else .ok (Char.ofNat n, rest)

theorem namedByNumber_shortens {cs rest : List Char} {c : Char}
    (h : namedByNumber cs = .ok (c, rest)) : rest.length < cs.length := by
  unfold namedByNumber at h
  split at h
  · cases h
  · rename_i n after hn
    have shorter := fourDigits_shortens hn
    split at h
    · cases h
    · split at h
      · exact Nat.lt_trans (secondHalf_shortens h) shorter
      · cases h
        exact shorter

def shortEscape? (c : Char) : Option Char :=
  match c with
  | '"' => some '"'
  | '\\' => some '\\'
  | '/' => some '/'
  | 'b' => some (Char.ofNat 8)
  | 'f' => some (Char.ofNat 12)
  | 'n' => some '\n'
  | 'r' => some '\r'
  | 't' => some '\t'
  | _ => none

def escaped : Reader Char
  | [] => .error .ends
  | 'u' :: cs => namedByNumber cs
  | c :: cs =>
      match shortEscape? c with
      | some d => .ok (d, cs)
      | none => .error .malformed

/-- Skips an escape, after the backslash. A half of a character needs no other half. -/
def skipEscaped : List Char → Except Fault (List Char)
  | [] => .error .ends
  | 'u' :: cs => (fourDigits cs).map (·.2)
  | c :: cs => if (shortEscape? c).isSome then .ok cs else .error .malformed

theorem escaped_shortens {cs rest : List Char} {c : Char} (h : escaped cs = .ok (c, rest)) :
    rest.length < cs.length := by
  unfold escaped at h
  split at h
  · cases h
  · exact Nat.lt_succ_of_lt (namedByNumber_shortens h)
  · split at h
    · cases h
      simp
    · cases h

theorem skipEscaped_shortens {cs rest : List Char} (h : skipEscaped cs = .ok rest) :
    rest.length < cs.length := by
  unfold skipEscaped at h
  split at h
  · cases h
  · rename_i digits
    cases hd : fourDigits digits with
    | error f => simp [hd, Except.map] at h
    | ok found =>
        simp only [hd, Except.map, Except.ok.injEq] at h
        subst h
        exact Nat.lt_succ_of_lt (fourDigits_shortens hd)
  · split at h
    · cases h
      simp
    · cases h

/-- Reads the rest of a string, after the characters `done`, of which the last comes first. -/
def readOnto (done cs : List Char) : Except Fault (List Char × List Char) :=
  match cs with
  | [] => .error .ends
  | '"' :: cs => .ok (done.reverse, cs)
  | '\\' :: cs =>
      match _ : escaped cs with
      | .error f => .error f
      | .ok (c, rest) => readOnto (c :: done) rest
  | c :: cs => if c.toNat < 32 then .error .malformed else readOnto (c :: done) cs
termination_by cs.length
decreasing_by
  · exact Nat.lt_succ_of_lt (escaped_shortens ‹_›)
  · simp

def read : Reader (List Char) := readOnto []

def skip (cs : List Char) : Except Fault (List Char) :=
  match cs with
  | [] => .error .ends
  | '"' :: cs => .ok cs
  | '\\' :: cs =>
      match _ : skipEscaped cs with
      | .error f => .error f
      | .ok rest => skip rest
  | c :: cs => if c.toNat < 32 then .error .malformed else skip cs
termination_by cs.length
decreasing_by
  · exact Nat.lt_succ_of_lt (skipEscaped_shortens ‹_›)
  · simp

theorem skip_shortens {cs rest : List Char} (h : skip cs = .ok rest) :
    rest.length < cs.length := by
  fun_induction skip cs with
  | case1 => cases h
  | case2 => cases h; simp
  | case3 => cases h
  | case4 cs after ha ih => exact Nat.lt_trans (ih h) (Nat.lt_succ_of_lt (skipEscaped_shortens ha))
  | case5 => cases h
  | case6 c cs _ _ _ ih => exact Nat.lt_succ_of_lt (ih h)

end Netfilter.Json.Quoted
