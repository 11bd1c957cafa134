import Netfilter.Json.Skip

/-!
# JSON records with known members

A codec writes values of a type as JSON and reads them back. A record is
described by the list of its members. Written, it has all members in this order.
Read, it may have them in any order; a member that is absent keeps its default,
one that is repeated is a fault, and one of another name is skipped. A record
may also be given as a list of values in the order of its members, of which the
last ones may be missing.
-/

namespace Netfilter.Json

structure Codec (α : Type) where
  write : α → List Char
  read : Reader α

structure Member (ρ : Type) where
  name : String
  write : ρ → List Char
  read : ρ → Reader ρ

def Member.of {ρ α : Type} (name : String) (c : Codec α) (get : ρ → α) (set : ρ → α → ρ) :
    Member ρ where
  name
  write r := c.write (get r)
  read r cs := (c.read cs).map fun (a, rest) => (set r a, rest)

def separated (parts : List (List Char)) : List Char := [','].intercalate parts

def array (elements : List (List Char)) : List Char := '[' :: separated elements ++ [']']

def object (members : List (String × List Char)) : List Char :=
  '{' :: separated (members.map fun (name, value) => Quoted.write name.toList ++ ':' :: value)
    ++ ['}']

/-- The fault of a value that is not of the kind asked for: being well formed so far, it is
unsuitable. -/
def wrongKind (cs : List Char) : Fault :=
  let after (result : Except Fault Unit) : Fault :=
    match result with
    | .error f => f
    | .ok () => .unsuitable
  match cs with
  | 'n' :: cs => after ((exactly ['u', 'l', 'l'] cs).map fun _ => ())
  | 't' :: cs => after ((exactly ['r', 'u', 'e'] cs).map fun _ => ())
  | 'f' :: cs => after ((exactly ['a', 'l', 's', 'e'] cs).map fun _ => ())
  | '"' :: cs => after ((Quoted.read cs).map fun _ => ())
  | '[' :: _ | '{' :: _ => .unsuitable
  | [] => .ends
  | c :: cs =>
      if c = '-' || isDigit c then after ((Number.read (c :: cs)).map fun _ => ()) else .malformed

namespace Codec

def natural (bound : Nat) : Codec Nat where
  write := Number.write
  read cs :=
    match skipBlanks cs with
    | [] => .error .ends
    | c :: cs =>
        if c = '-' || isDigit c then
          match Number.read (c :: cs) with
          | .error f => .error f
          | .ok (.whole n, rest) => if n < bound then .ok (n, rest) else .error .unsuitable
          | .ok (.other, _) => .error .unsuitable
        else .error (wrongKind (c :: cs))

def map {α β : Type} (c : Codec α) (of : α → β) (back : β → α) : Codec β where
  write b := c.write (back b)
  read cs := (c.read cs).map fun (a, rest) => (of a, rest)

def word16 : Codec UInt16 := (natural UInt16.size).map UInt16.ofNat UInt16.toNat

def word32 : Codec UInt32 := (natural UInt32.size).map UInt32.ofNat UInt32.toNat

def word64 : Codec UInt64 := (natural UInt64.size).map UInt64.ofNat UInt64.toNat

def boolean : Codec Bool where
  write b := (if b then "true" else "false").toList
  read cs :=
    match skipBlanks cs with
    | [] => .error .ends
    | 't' :: cs => (exactly ['r', 'u', 'e'] cs).map (true, ·)
    | 'f' :: cs => (exactly ['a', 'l', 's', 'e'] cs).map (false, ·)
    | cs => .error (wrongKind cs)

def optional {α : Type} (c : Codec α) : Codec (Option α) where
  write
    | none => "null".toList
    | some a => c.write a
  read cs :=
    match skipBlanks cs with
    | 'n' :: cs => (exactly ['u', 'l', 'l'] cs).map (none, ·)
    | cs => (c.read cs).map fun (a, rest) => (some a, rest)

def another (isFirst : Bool) (cs : List Char) : Except Fault (Bool × List Char) :=
  match skipBlanks cs with
  | [] => .error .ends
  | ']' :: cs => .ok (false, ']' :: cs)
  | ',' :: cs =>
      if isFirst then .ok (true, ',' :: cs)
      else
        match skipBlanks cs with
        | [] => .error .ends
        | ']' :: _ => .error .malformed
        | cs => .ok (true, cs)
  | cs => if isFirst then .ok (true, cs) else .error .malformed

/-- Takes the end of a list off. Another element is one too many. -/
def listEnd (cs : List Char) : Except Fault (List Char) := punctuation ']' cs

def elementsFor {α : Type} (c : Codec α) : Nat → List α → Reader (List α)
  | 0, _, _ => .error .ends
  | fuel + 1, done, cs =>
      match another done.isEmpty cs with
      | .error f => .error f
      | .ok (false, cs) => .ok (done.reverse, cs)
      | .ok (true, cs) =>
          match c.read cs with
          | .error f => .error f
          | .ok (a, cs) => elementsFor c fuel (a :: done) cs

def list {α : Type} (c : Codec α) : Codec (List α) where
  write as := array (as.map c.write)
  read cs :=
    match skipBlanks cs with
    | [] => .error .ends
    | '[' :: cs =>
        match elementsFor c (cs.length + 1) [] cs with
        | .error f => .error f
        | .ok (as, cs) => (listEnd cs).map (as, ·)
    | cs => .error (wrongKind cs)

def named? {α : Type} (name : α → String) (all : List α) (text : List Char) : Except Fault α :=
  match all.find? fun a => (name a).toList = text with
  | some a => .ok a
  | none => .error .unsuitable

/-- Reads the only member of a record whose name stands for a value, after the brace. The member is
null. What is no string is no name. -/
def nullMember {α : Type} (name : α → String) (all : List α) (cs : List Char) :
    Except Fault (α × List Char) :=
  match skipBlanks cs with
  | [] => .error .ends
  | '"' :: cs => do
      let (text, cs) ← Quoted.read cs
      let a ← named? name all text
      let cs ← punctuation ':' cs
      match skipBlanks cs with
      | [] => .error .ends
      | 'n' :: cs =>
          let cs ← exactly ['u', 'l', 'l'] cs
          let cs ← punctuation '}' cs
          .ok (a, cs)
      | cs => .error (wrongKind cs)
  | _ => .error .malformed

/-- Values with names. A name may also be given as the only member of a record, which is null. -/
def enumeration {α : Type} (name : α → String) (all : List α) : Codec α where
  write a := Quoted.write (name a).toList
  read cs :=
    match skipBlanks cs with
    | [] => .error .ends
    | '"' :: cs =>
        match Quoted.read cs with
        | .error f => .error f
        | .ok (text, rest) => (named? name all text).map (·, rest)
    | '{' :: cs => nullMember name all cs
    | _ => .error .malformed

def readInOrder {ρ : Type} : List (Member ρ) → Bool → ρ → Reader ρ
  | [], _, r, cs => .ok (r, cs)
  | m :: members, isFirst, r, cs =>
      match another isFirst cs with
      | .error f => .error f
      | .ok (false, cs) => .ok (r, cs)
      | .ok (true, cs) =>
          match m.read r cs with
          | .error f => .error f
          | .ok (r, cs) => readInOrder members false r cs

/-- Whether a record has another member; the comma before it and the quotation mark of its name are
taken off. -/
def anotherMember (isFirst : Bool) (cs : List Char) : Except Fault (Bool × List Char) :=
  match skipBlanks cs with
  | [] => .error .ends
  | '}' :: cs => .ok (false, '}' :: cs)
  | '"' :: cs => if isFirst then .ok (true, cs) else .error .malformed
  | ',' :: cs =>
      if isFirst then .error .malformed
      else (punctuation '"' cs).map (true, ·)
  | _ => .error .malformed

/-- Reads a member into a record, after the quotation mark of its name; gives the names seen so
far. -/
def readMember {ρ : Type} (members : List (Member ρ)) (seen : List String) (r : ρ)
    (cs : List Char) : Except Fault (List String × ρ × List Char) :=
  match Quoted.read cs with
  | .error f => .error f
  | .ok (name, cs) =>
      match members.find? fun m => m.name.toList = name with
      | none => do
          let cs ← punctuation ':' cs
          let cs ← skipValue cs
          .ok (seen, r, cs)
      | some m =>
          if m.name ∈ seen then .error .unsuitable
          else do
            let cs ← punctuation ':' cs
            let (r, cs) ← m.read r cs
            .ok (m.name :: seen, r, cs)

def readByName {ρ : Type} (members : List (Member ρ)) :
    Nat → Bool → List String → ρ → Reader ρ
  | 0, _, _, _, _ => .error .ends
  | fuel + 1, isFirst, seen, r, cs =>
      match anotherMember isFirst cs with
      | .error f => .error f
      | .ok (false, cs) => .ok (r, cs)
      | .ok (true, cs) =>
          match readMember members seen r cs with
          | .error f => .error f
          | .ok (seen, r, cs) => readByName members fuel false seen r cs

def record {ρ : Type} (default : ρ) (members : List (Member ρ)) : Codec ρ where
  write r := object (members.map fun m => (m.name, m.write r))
  read cs :=
    match skipBlanks cs with
    | [] => .error .ends
    | '[' :: cs =>
        match readInOrder members true default cs with
        | .error f => .error f
        | .ok (r, cs) => (listEnd cs).map (r, ·)
    | '{' :: cs =>
        match readByName members (cs.length + 1) true [] default cs with
        | .error f => .error f
        | .ok (r, cs) => (punctuation '}' cs).map (r, ·)
    | cs => .error (wrongKind cs)

end Codec

end Netfilter.Json
