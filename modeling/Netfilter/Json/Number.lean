import Netfilter.Json.Reader

/-!
# JSON numbers

A number is read as far as it matters for whole numbers: either it is a whole
number below 2^64 written without sign, point and exponent, or it is some other
number. Digits that no longer fit 64 bits only count towards the exponent. A
number too large for double precision is no number at all.
-/

namespace Netfilter.Json

inductive Number
  | whole (n : Nat)
  | other
  deriving DecidableEq, Repr

namespace Number

def significandBound : Nat := UInt64.size

def digitValue (c : Char) : Nat := c.toNat - '0'.toNat

/-- Extends a significand by the leading digits of a text, as long as it fits; gives the number of
digits taken too. -/
def extend (significand : Nat) : List Char → Nat × Nat × List Char
  | [] => (significand, 0, [])
  | c :: cs =>
      let longer := significand * 10 + digitValue c
      if isDigit c && longer < significandBound then
        let (result, taken, rest) := extend longer cs
        (result, taken + 1, rest)
      else (significand, 0, c :: cs)

/-- `n` rounded to 53 significant bits, a tie to the even neighbour. -/
def roundToDouble (n : Nat) : Nat :=
  let excess := n.log2 + 1 - 53
  let unit := Nat.pow 2 excess
  let quotient := n / unit
  let twice := 2 * (n % unit)
  if unit < twice || twice = unit && quotient % 2 = 1 then (quotient + 1) * unit
  else quotient * unit

/-- The smallest number that rounds to infinity. -/
def overflowBound : Nat := Nat.pow 2 1024 - Nat.pow 2 970

def isFinite (significand : Nat) (exponent : Int) : Bool :=
  match exponent with
  | .negSucc _ => true
  | .ofNat e =>
      if e ≤ 308 then roundToDouble significand * roundToDouble (Nat.pow 10 e) < overflowBound
      else significand = 0

def sized (significand : Nat) (exponent : Int) : Except Fault Number :=
  if isFinite significand exponent then .ok other else .error .malformed

def exponentDigits (significand : Nat) (exponent : Int) (isNegative : Bool) : Reader Number
  | [] => .error .ends
  | c :: cs =>
      if isDigit c then
        let digits := c :: cs.takeWhile isDigit
        let e : Int := digits.foldl (fun n c => n * 10 + digitValue c) 0
        match sized significand (if isNegative then exponent - e else exponent + e) with
        | .ok n => .ok (n, cs.dropWhile isDigit)
        | .error f => .error f
      else .error .malformed

def exponentPart (significand : Nat) (exponent : Int) : Reader Number
  | '-' :: cs => exponentDigits significand exponent true cs
  | '+' :: cs => exponentDigits significand exponent false cs
  | cs => exponentDigits significand exponent false cs

def afterFraction (significand : Nat) (exponent : Int) : Reader Number
  | 'e' :: cs | 'E' :: cs => exponentPart significand exponent cs
  | cs => (sized significand exponent).map (·, cs)

def fraction (significand : Nat) (exponent : Int) : Reader Number
  | [] => .error .ends
  | c :: cs =>
      if isDigit c then
        let (significand, taken, rest) := extend significand (c :: cs)
        afterFraction significand (exponent - taken) (rest.dropWhile isDigit)
      else .error .malformed

/-- Reads what may follow the digits of a whole number, of which the last `skipped` did not fit. -/
def afterDigits (isNegative : Bool) (significand skipped : Nat) : Reader Number
  | '.' :: cs => fraction significand skipped cs
  | 'e' :: cs | 'E' :: cs => exponentPart significand skipped cs
  | cs =>
      if skipped = 0 then .ok (if isNegative then other else whole significand, cs)
      else (sized significand skipped).map (·, cs)

/-- Reads a number, after its sign. A number of more than one digit does not start with zero. -/
def unsigned (isNegative : Bool) : Reader Number
  | [] => .error .ends
  | '0' :: cs =>
      if (cs.head?.map isDigit).getD false then .error .malformed
      else afterDigits isNegative 0 0 cs
  | c :: cs =>
      if isDigit c then
        let (significand, _, rest) := extend 0 (c :: cs)
        let skipped := (rest.takeWhile isDigit).length
        afterDigits isNegative significand skipped (rest.dropWhile isDigit)
      else .error .malformed

def read : Reader Number
  | '-' :: cs => unsigned true cs
  | cs => unsigned false cs

def skipDigits : List Char → Except Fault (List Char)
  | [] => .error .malformed
  | c :: cs => if isDigit c then .ok (cs.dropWhile isDigit) else .error .malformed

theorem skipDigits_shortens {cs rest : List Char} (h : skipDigits cs = .ok rest) :
    rest.length < cs.length := by
  unfold skipDigits at h
  split at h
  · cases h
  · split at h
    · cases h
      exact Nat.lt_succ_of_le (List.dropWhile_sublist _).length_le
    · cases h

def skipExponent : List Char → Except Fault (List Char)
  | 'e' :: '+' :: cs | 'e' :: '-' :: cs | 'E' :: '+' :: cs | 'E' :: '-' :: cs => skipDigits cs
  | 'e' :: cs | 'E' :: cs => skipDigits cs
  | cs => .ok cs

theorem skipExponent_length {cs rest : List Char} (h : skipExponent cs = .ok rest) :
    rest.length ≤ cs.length := by
  unfold skipExponent at h
  split at h
  case h_7 => cases h; exact Nat.le_refl _
  all_goals
    have := skipDigits_shortens h
    simp only [List.length_cons]
    omega

def skipFraction : List Char → Except Fault (List Char)
  | '.' :: cs =>
      match skipDigits cs with
      | .error f => .error f
      | .ok cs => skipExponent cs
  | cs => skipExponent cs

theorem skipFraction_length {cs rest : List Char} (h : skipFraction cs = .ok rest) :
    rest.length ≤ cs.length := by
  unfold skipFraction at h
  split at h
  · split at h
    · cases h
    · have digits := skipDigits_shortens ‹_›
      have exponent := skipExponent_length h
      simp only [List.length_cons]
      omega
  · exact skipExponent_length h

/-- Skips a number, after its sign, whatever its size. A number that ends too early is malformed. -/
def skipUnsigned : List Char → Except Fault (List Char)
  | '0' :: cs => if (cs.head?.map isDigit).getD false then .error .malformed else skipFraction cs
  | cs =>
      match skipDigits cs with
      | .error f => .error f
      | .ok cs => skipFraction cs

def skip : List Char → Except Fault (List Char)
  | '-' :: cs => skipUnsigned cs
  | cs => skipUnsigned cs

theorem skipUnsigned_shortens {cs rest : List Char} (h : skipUnsigned cs = .ok rest) :
    rest.length < cs.length := by
  unfold skipUnsigned at h
  split at h
  · split at h
    · cases h
    · exact Nat.lt_succ_of_le (skipFraction_length h)
  · split at h
    · cases h
    · exact Nat.lt_of_le_of_lt (skipFraction_length h) (skipDigits_shortens ‹_›)

theorem skip_shortens {cs rest : List Char} (h : skip cs = .ok rest) :
    rest.length < cs.length := by
  unfold skip at h
  split at h
  · exact Nat.lt_succ_of_lt (skipUnsigned_shortens h)
  · exact skipUnsigned_shortens h

def write (n : Nat) : List Char := Nat.toDigits 10 n

end Number

end Netfilter.Json
