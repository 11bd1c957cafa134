import Netfilter.Json.Number
import Netfilter.Json.Quoted

/-!
# Skipping JSON values

A value that nobody asks for only has to be well formed. It may nest to any
depth: the lists and records that are open are kept in a list of their own.
-/

namespace Netfilter.Json

inductive Frame
  | list
  | record
  deriving DecidableEq, Repr

inductive Expectation
  | value
  | member
  /-- A comma or the end of what is open. -/
  | continuation
  deriving DecidableEq, Repr

namespace Skip

def scalar : List Char → Except Fault (List Char)
  | [] => .error .ends
  | 'n' :: cs => exactly ['u', 'l', 'l'] cs
  | 't' :: cs => exactly ['r', 'u', 'e'] cs
  | 'f' :: cs => exactly ['a', 'l', 's', 'e'] cs
  | '"' :: cs => Quoted.skip cs
  | c :: cs => if c = '-' || isDigit c then Number.skip (c :: cs) else .error .malformed

theorem scalar_shortens {cs rest : List Char} (h : scalar cs = .ok rest) :
    rest.length < cs.length := by
  unfold scalar at h
  split at h
  · cases h
  · have := exactly_length h
    simp at this ⊢
    omega
  · have := exactly_length h
    simp at this ⊢
    omega
  · have := exactly_length h
    simp at this ⊢
    omega
  · exact Nat.lt_succ_of_lt (Quoted.skip_shortens h)
  · split at h
    · exact Number.skip_shortens h
    · cases h

def memberName (cs : List Char) : Except Fault (List Char) :=
  match punctuation '"' cs with
  | .error f => .error f
  | .ok cs =>
      match Quoted.skip cs with
      | .error f => .error f
      | .ok cs => punctuation ':' cs

theorem memberName_shortens {cs rest : List Char} (h : memberName cs = .ok rest) :
    rest.length < cs.length := by
  unfold memberName at h
  cases hq : punctuation '"' cs with
  | error f => simp [hq] at h
  | ok quoted =>
      cases hn : Quoted.skip quoted with
      | error f => simp [hq, hn] at h
      | ok named =>
          simp only [hq, hn] at h
          have quote := punctuation_shortens hq
          have name := Quoted.skip_shortens hn
          have colon := punctuation_shortens h
          omega

/-- One step: what is expected next, what is open then, and what is left. Where nothing is open,
nothing can go on. -/
def step (e : Expectation) (frames : List Frame) (cs : List Char) :
    Except Fault (Expectation × List Frame × List Char) :=
  match e with
  | .value =>
      match skipBlanks cs with
      | '[' :: cs =>
          match skipBlanks cs with
          | [] => .error .ends
          | ']' :: cs => .ok (.continuation, frames, cs)
          | cs => .ok (.value, .list :: frames, cs)
      | '{' :: cs =>
          match skipBlanks cs with
          | [] => .error .ends
          | '}' :: cs => .ok (.continuation, frames, cs)
          | cs => .ok (.member, .record :: frames, cs)
      | cs => (scalar cs).map fun cs => (.continuation, frames, cs)
  | .member => (memberName cs).map fun cs => (.value, frames, cs)
  | .continuation =>
      match frames, skipBlanks cs with
      | _, [] => .error .ends
      | .list :: _, ',' :: cs => .ok (.value, frames, cs)
      | .list :: frames, ']' :: cs => .ok (.continuation, frames, cs)
      | .record :: _, ',' :: cs => .ok (.member, frames, cs)
      | .record :: frames, '}' :: cs => .ok (.continuation, frames, cs)
      | _, _ => .error .malformed

theorem step_shortens {e expected : Expectation} {frames opened : List Frame} {cs rest : List Char}
    (h : step e frames cs = .ok (expected, opened, rest)) : rest.length < cs.length := by
  have blanks := skipBlanks_length cs
  unfold step at h
  cases e with
  | value =>
      simp only at h
      split at h
      case h_3 =>
        cases hs : scalar (skipBlanks cs) with
        | error f => simp [hs, Except.map] at h
        | ok after =>
            simp only [hs, Except.map, Except.ok.injEq, Prod.mk.injEq] at h
            obtain ⟨_, _, rfl⟩ := h
            exact Nat.lt_of_lt_of_le (scalar_shortens hs) blanks
      all_goals
        rename_i after opening
        have inner := skipBlanks_length after
        split at h
        all_goals simp_all
        all_goals omega
  | member =>
      cases hm : memberName cs with
      | error f => simp [hm, Except.map] at h
      | ok after =>
          simp only [hm, Except.map, Except.ok.injEq, Prod.mk.injEq] at h
          obtain ⟨_, _, rfl⟩ := h
          exact memberName_shortens hm
  | continuation =>
      simp only at h
      split at h
      all_goals cases h
      all_goals
        rename_i opening
        rw [opening] at blanks
        exact blanks

def finish (e : Expectation) (frames : List Frame) (cs : List Char) : Except Fault (List Char) :=
  match e, frames with
  | .continuation, [] => .ok cs
  | e, frames =>
      match _ : step e frames cs with
      | .error f => .error f
      | .ok (expected, opened, rest) => finish expected opened rest
termination_by cs.length
decreasing_by exact step_shortens ‹_›

end Skip

def skipValue (cs : List Char) : Except Fault (List Char) := Skip.finish .value [] cs

end Netfilter.Json
