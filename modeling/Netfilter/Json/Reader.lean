/-!
# Reading JSON from left to right

A reader takes a value off the front of a text and gives what is left of it, or
the kind of the first fault. Three kinds are told apart: the text ends too
early, it is not JSON, or it is JSON of the wrong shape.
-/

namespace Netfilter.Json

inductive Fault
  /-- The text ends too early. -/
  | ends
  | malformed
  /-- The value is not one that is asked for. -/
  | unsuitable
  deriving DecidableEq, Repr

abbrev Reader (α : Type) := List Char → Except Fault (α × List Char)

def isBlank (c : Char) : Bool := c = ' ' || c = '\n' || c = '\t' || c = '\r'

def isDigit (c : Char) : Bool := '0' ≤ c && c ≤ '9'

def skipBlanks (cs : List Char) : List Char := cs.dropWhile isBlank

theorem skipBlanks_length (cs : List Char) : (skipBlanks cs).length ≤ cs.length :=
  (List.dropWhile_sublist _).length_le

def exactly : List Char → List Char → Except Fault (List Char)
  | [], cs => .ok cs
  | _ :: _, [] => .error .ends
  | w :: word, c :: cs => if w = c then exactly word cs else .error .malformed

theorem exactly_length {word cs rest : List Char} (h : exactly word cs = .ok rest) :
    word.length + rest.length = cs.length := by
  induction word generalizing cs with
  | nil => cases h; simp
  | cons w word ih =>
      cases cs with
      | nil => cases h
      | cons c cs =>
          unfold exactly at h
          split at h
          · have := ih h
            simp
            omega
          · cases h

def punctuation (mark : Char) (cs : List Char) : Except Fault (List Char) :=
  exactly [mark] (skipBlanks cs)

theorem punctuation_shortens {mark : Char} {cs rest : List Char}
    (h : punctuation mark cs = .ok rest) : rest.length < cs.length := by
  have taken := exactly_length h
  have blanks := skipBlanks_length cs
  simp at taken
  omega

def atEnd (cs : List Char) : Except Fault Unit :=
  if (skipBlanks cs).isEmpty then .ok () else .error .malformed

def Reader.readAll {α : Type} (r : Reader α) (text : String) : Except Fault α :=
  match r text.toList with
  | .error f => .error f
  | .ok (a, rest) => (atEnd rest).map fun _ => a

def Fault.name : Fault → String
  | ends => "Eof"
  | malformed => "Syntax"
  | unsuitable => "Data"

end Netfilter.Json
