import Netfilter.Proofs.Json.Codec

/-!
# Records whose text was edited

An object is read as well when members are missing from its text, when they
stand in another order, and when members of other names stand among them. A
record is then taken over member by member: reading one part of the text takes
over one member, and what a whole text takes over depends only on which members
it has.
-/

namespace Netfilter

namespace Json

/-- A member as it stands in the text of an object: what stands between the quotation marks of its
name, the name this spells, and the text of its value. -/
structure Part where
  spelling : List Char
  name : List Char
  value : List Char

namespace Part

def text (p : Part) : List Char := '"' :: (p.spelling ++ '"' :: ':' :: p.value)

def of (name : String) (value : List Char) : Part where
  spelling := name.toList.flatMap Quoted.escape
  name := name.toList
  value

end Part

def textOf (parts : List Part) : List Char := '{' :: (separated (parts.map Part.text) ++ ['}'])

theorem object_eq_textOf (known : List (String × List Char)) :
    object known = textOf (known.map fun k => Part.of k.1 k.2) := by
  have hpart : (Part.text ∘ fun k : String × List Char => Part.of k.1 k.2) =
      fun k => Quoted.write k.1.toList ++ ':' :: k.2 := by
    funext k
    simp [Part.text, Part.of, Quoted.write]
  rw [object, textOf, List.map_map, hpart, List.cons_append]

structure Part.IsStranger (known : List (String × List Char)) (p : Part) : Prop where
  spells : Quoted.Spells p.spelling p.name
  unknown : ∀ k ∈ known, p.name ≠ k.1.toList
  isValue : IsValue p.value

/-- What is done to the text of an object with the given members: some of them stay, strangers join
them, and all stand in some order. -/
structure Edit (known : List (String × List Char)) where
  keeps : String → Bool
  strangers : List Part
  areStrangers : ∀ p ∈ strangers, p.IsStranger known
  parts : List Part
  rearranges :
    parts.Perm ((known.filter fun k => keeps k.1).map (fun k => Part.of k.1 k.2) ++ strangers)

def Edit.text {known : List (String × List Char)} (e : Edit known) : List Char := textOf e.parts

def Edit.nothing (known : List (String × List Char)) : Edit known where
  keeps _ := true
  strangers := []
  areStrangers _ hp := absurd hp List.not_mem_nil
  parts := known.map fun k => Part.of k.1 k.2
  rearranges := by simp

theorem Edit.text_nothing (known : List (String × List Char)) :
    (Edit.nothing known).text = object known :=
  (object_eq_textOf known).symm

section

variable {ρ : Type} {members : List (Member ρ)} {take : (String → Bool) → ρ → ρ → ρ}

/-- How the members whose names are kept are taken from one record over into another: members have
names of their own, only these names count, and it does not matter in how many steps it is
done. -/
structure Takes (members : List (Member ρ)) (take : (String → Bool) → ρ → ρ → ρ) : Prop where
  distinct : (members.map Member.name).Nodup
  none : ∀ s r, take (fun _ => false) s r = r
  again : ∀ keeps more s r, take more s (take keeps s r) = take (fun n => keeps n || more n) s r
  congr : ∀ keeps keeps' s r, (∀ m ∈ members, keeps m.name = keeps' m.name) →
    take keeps s r = take keeps' s r

def Member.Gives (m : Member ρ) (take : (String → Bool) → ρ → ρ → ρ) (s : ρ)
    (value : List Char) : Prop :=
  ∀ r rest, Delimited rest → m.read r (value ++ rest) = .ok (take (· == m.name) s r, rest)

namespace Part

def isNamed (p : Part) (name : String) : Bool := p.name = name.toList

/-- A part gives a member what it is in `s`, or is of another name. -/
inductive Tells (members : List (Member ρ)) (take : (String → Bool) → ρ → ρ → ρ) (s : ρ)
    (p : Part) : Prop
  | known (m : Member ρ) : m ∈ members → p.name = m.name.toList → m.Gives take s p.value →
      Tells members take s p
  | stranger : (∀ m ∈ members, p.name ≠ m.name.toList) → IsValue p.value →
      Tells members take s p

def Apart (members : List (Member ρ)) (p q : Part) : Prop :=
  p.name = q.name → ∀ m ∈ members, p.name ≠ m.name.toList

end Part

namespace Codec

theorem find?_of_mem (hdistinct : (members.map Member.name).Nodup) {m : Member ρ}
    (hm : m ∈ members) : members.find? (fun m' => m'.name.toList = m.name.toList) = some m := by
  cases hfind : members.find? fun m' => m'.name.toList = m.name.toList with
  | none => exact absurd (List.find?_eq_none.1 hfind m hm) (by simp)
  | some m' =>
      have hname : m'.name = m.name := String.toList_inj.1 (by simpa using List.find?_some hfind)
      rw [List.inj_on_of_nodup_map hdistinct (List.mem_of_find?_eq_some hfind) hm hname]

theorem punctuation_cons {mark : Char} (rest : List Char) (h : isBlank mark = false) :
    punctuation mark (mark :: rest) = .ok rest :=
  punctuation_append (fun _ hb => absurd hb List.not_mem_nil) h

def Unseen (seen : List String) (p : Part) : Prop := ∀ n ∈ seen, p.name ≠ n.toList

/-- Reading one part takes over what it is about, and no part apart from it was seen. -/
theorem readMember_part (ht : Takes members take) {s r : ρ} {seen : List String} {p : Part}
    {rest : List Char} (hspells : Quoted.Spells p.spelling p.name) (htells : p.Tells members take s)
    (hseen : Unseen seen p) (hrest : Delimited rest) :
    ∃ seen', readMember members seen r (p.spelling ++ '"' :: ':' :: (p.value ++ rest)) =
        .ok (seen', take p.isNamed s r, rest) ∧
      ∀ q, p.Apart members q → Unseen seen q → Unseen seen' q := by
  have hname := Quoted.read_spells hspells (':' :: (p.value ++ rest))
  have hcolon := punctuation_cons (p.value ++ rest) (show isBlank ':' = false by decide)
  cases htells with
  | known m hm hpm hgives =>
      have hunseen : m.name ∉ seen := fun hmem => hseen _ hmem hpm
      have hfind := find?_of_mem ht.distinct hm
      have htake : take (· == m.name) s r = take p.isNamed s r := by
        apply ht.congr
        intro m' _
        rw [Part.isNamed, hpm, Bool.eq_iff_iff, beq_iff_eq, decide_eq_true_iff,
          String.toList_inj, eq_comm]
      refine ⟨m.name :: seen, ?_, ?_⟩
      · rw [← hpm] at hfind
        simp only [readMember, hname, hfind, hunseen, if_false, hcolon, hgives r rest hrest, htake,
          bind, Except.bind]
      · intro q hapart hq n hn heq
        rcases List.mem_cons.1 hn with rfl | hn
        · exact hapart (hpm.trans heq.symm) m hm hpm
        · exact hq n hn heq
  | stranger hunknown hvalue =>
      have hfind : (members.find? fun m => m.name.toList = p.name) = none := by
        rw [List.find?_eq_none]
        intro m hm
        simpa using fun h => hunknown m hm h.symm
      have htake : take p.isNamed s r = r := by
        rw [ht.congr _ (fun _ => false) s r fun m hm => by simpa [Part.isNamed] using hunknown m hm]
        exact ht.none s r
      refine ⟨seen, ?_, fun q _ hq => hq⟩
      simp only [readMember, hname, hfind, hcolon, skipValue_append hvalue hrest, htake, bind,
        Except.bind]

theorem anotherMember_end (isFirst : Bool) (rest : List Char) :
    anotherMember isFirst ('}' :: rest) = .ok (false, '}' :: rest) := by
  unfold anotherMember
  rw [skipBlanks_cons _ (by decide)]
  rfl

theorem anotherMember_first (rest : List Char) :
    anotherMember true ('"' :: rest) = .ok (true, rest) := by
  unfold anotherMember
  rw [skipBlanks_cons _ (by decide)]
  rfl

theorem anotherMember_comma (rest : List Char) :
    anotherMember false (',' :: '"' :: rest) = .ok (true, rest) := by
  have hquote := punctuation_cons rest (show isBlank '"' = false by decide)
  unfold anotherMember
  rw [skipBlanks_cons _ (by decide)]
  change (punctuation '"' ('"' :: rest)).map (true, ·) = _
  rw [hquote, Except.map]

theorem delimited_brace (rest : List Char) : Delimited ('}' :: rest) :=
  delimited_cons rest (by simp)

def named (parts : List Part) (name : String) : Bool := parts.any (·.isNamed name)

/-- With one call for each part and one for the end, the parts behind one that was read are read to
the end of the object. -/
theorem readByName_behind (ht : Takes members take) {s r : ρ} {parts : List Part}
    {seen : List String} {fuel : Nat} (hfuel : parts.length < fuel)
    (hspells : ∀ p ∈ parts, Quoted.Spells p.spelling p.name)
    (htells : ∀ p ∈ parts, p.Tells members take s) (hapart : parts.Pairwise (Part.Apart members))
    (hseen : ∀ p ∈ parts, Unseen seen p) (rest : List Char) :
    readByName members fuel false seen r (behind (parts.map Part.text) ('}' :: rest)) =
      .ok (take (named parts) s r, '}' :: rest) := by
  induction parts generalizing fuel seen r with
  | nil =>
      obtain ⟨fuel, rfl⟩ := Nat.exists_eq_add_one.2 (Nat.zero_lt_of_lt hfuel)
      have hnone : take (named []) s r = r := ht.none s r
      rw [readByName, List.map_nil, behind, List.flatMap_nil, List.nil_append, anotherMember_end,
        hnone]
  | cons p parts ih =>
      obtain ⟨fuel, rfl⟩ := Nat.exists_eq_add_one.2 (Nat.zero_lt_of_lt hfuel)
      rw [List.forall_mem_cons] at hspells htells hseen
      rw [List.pairwise_cons] at hapart
      obtain ⟨seen', hread, hunseen⟩ := readMember_part ht hspells.1 htells.1 hseen.1
        (delimited_behind (parts.map Part.text) (delimited_brace rest)) (r := r)
      have hparts := ih (r := take p.isNamed s r) (Nat.lt_of_succ_lt_succ hfuel) hspells.2 htells.2
        hapart.2 fun q hq => hunseen q (hapart.1 q hq) (hseen.2 q hq)
      rw [ht.again] at hparts
      rw [List.map_cons, behind_cons, Part.text, List.cons_append, List.append_assoc,
        List.cons_append, List.cons_append]
      simp only [readByName, anotherMember_comma, hread]
      exact hparts

theorem text_append (p : Part) (rest : List Char) :
    p.text ++ rest = '"' :: (p.spelling ++ '"' :: ':' :: (p.value ++ rest)) := by
  simp only [Part.text, List.cons_append, List.append_assoc]

structure Told (members : List (Member ρ)) (take : (String → Bool) → ρ → ρ → ρ) (s : ρ)
    (parts : List Part) : Prop where
  spells : ∀ p ∈ parts, Quoted.Spells p.spelling p.name
  tells : ∀ p ∈ parts, p.Tells members take s
  apart : parts.Pairwise (Part.Apart members)

theorem readByName_separated (ht : Takes members take) {s r : ρ} {parts : List Part}
    (htold : Told members take s parts) {fuel : Nat} (hfuel : parts.length < fuel)
    (rest : List Char) :
    readByName members fuel true [] r (separated (parts.map Part.text) ++ '}' :: rest) =
      .ok (take (named parts) s r, '}' :: rest) := by
  obtain ⟨fuel, rfl⟩ := Nat.exists_eq_add_one.2 (Nat.zero_lt_of_lt hfuel)
  cases parts with
  | nil =>
      have hnone : take (named []) s r = r := ht.none s r
      change readByName members (fuel + 1) true [] r ('}' :: rest) = _
      rw [readByName, anotherMember_end, hnone]
  | cons p parts =>
      obtain ⟨hspells, htells, hapart⟩ := htold
      rw [List.forall_mem_cons] at hspells htells
      rw [List.pairwise_cons] at hapart
      have hnone (q : Part) : Unseen [] q := fun n hn => absurd hn List.not_mem_nil
      obtain ⟨seen, hread, hunseen⟩ := readMember_part ht hspells.1 htells.1 (hnone p)
        (delimited_behind (parts.map Part.text) (delimited_brace rest)) (r := r)
      have hparts := readByName_behind ht (r := take p.isNamed s r) (Nat.lt_of_succ_lt_succ hfuel)
        hspells.2 htells.2 hapart.2 (fun q hq => hunseen q (hapart.1 q hq) (hnone q)) rest
      rw [ht.again] at hparts
      rw [List.map_cons, separated_append, text_append]
      simp only [readByName, anotherMember_first, hread]
      exact hparts

/-- An object is read as the members that its parts give, and the defaults of all others. -/
theorem record_reads_textOf (ht : Takes members take) {s : ρ} {parts : List Part}
    (htold : Told members take s parts) (default : ρ) :
    (record default members).Reads (textOf parts) (take (named parts) s default) := by
  intro rest _
  have hlength : parts.length < (separated (parts.map Part.text) ++ '}' :: rest).length + 1 := by
    cases parts with
    | nil => simp
    | cons p parts =>
        have := length_le_behind (parts.map Part.text) ('}' :: rest)
        rw [List.map_cons, separated_append, List.length_append]
        simp only [List.length_map, List.length_cons] at this ⊢
        omega
  have hparts := readByName_separated ht htold (r := default) hlength rest
  have hend := punctuation_cons rest (show isBlank '}' = false by decide)
  simp only [record, textOf, List.cons_append, List.append_assoc, List.nil_append,
    skipBlanks_cons _ (show isBlank '{' = false by decide), hparts, hend, Except.map]

end Codec

def known (members : List (Member ρ)) (value : Member ρ → List Char) :
    List (String × List Char) :=
  members.map fun m => (m.name, value m)

variable {value : Member ρ → List Char}

theorem mem_known {k : String × List Char} :
    k ∈ known members value ↔ ∃ m ∈ members, (m.name, value m) = k :=
  List.mem_map

/-- A part of an edited text is a member that stayed or a stranger. -/
theorem Edit.mem_parts (e : Edit (known members value)) {p : Part} (hp : p ∈ e.parts) :
    (∃ m ∈ members, e.keeps m.name = true ∧ p = Part.of m.name (value m)) ∨
      p ∈ e.strangers := by
  rcases List.mem_append.1 (e.rearranges.mem_iff.1 hp) with hkept | hstranger
  · obtain ⟨k, hk, rfl⟩ := List.mem_map.1 hkept
    obtain ⟨hk, hkeeps⟩ := List.mem_filter.1 hk
    obtain ⟨m, hm, rfl⟩ := mem_known.1 hk
    exact .inl ⟨m, hm, hkeeps, rfl⟩
  · exact .inr hstranger

theorem Part.IsStranger.unknown_member {p : Part} (h : p.IsStranger (known members value))
    {m : Member ρ} (hm : m ∈ members) : p.name ≠ m.name.toList :=
  h.unknown (m.name, value m) (mem_known.2 ⟨m, hm, rfl⟩)

theorem apart_comm {p q : Part} (h : p.Apart members q) : q.Apart members p := by
  intro hname m hm hq
  exact h hname.symm m hm (hname.symm.trans hq)

theorem Edit.apart_parts (e : Edit (known members value))
    (hdistinct : (members.map Member.name).Nodup) :
    e.parts.Pairwise (Part.Apart members) := by
  rw [e.rearranges.pairwise_iff apart_comm, List.pairwise_append]
  refine ⟨?_, ?_, ?_⟩
  · rw [List.pairwise_map]
    apply List.Pairwise.filter
    rw [known, List.pairwise_map]
    rw [List.Nodup, List.pairwise_map] at hdistinct
    exact hdistinct.imp fun hne hname => absurd (String.toList_inj.1 hname) hne
  · apply List.pairwise_of_forall_mem_list
    intro p hp q _ _ m hm
    exact (e.areStrangers p hp).unknown_member hm
  · intro p _ q hq hname m hm hp
    exact (e.areStrangers q hq).unknown_member hm (hname.symm.trans hp)

/-- What an edited text gives is what stayed. -/
theorem Edit.named_parts (e : Edit (known members value)) {m : Member ρ} (hm : m ∈ members) :
    Codec.named e.parts m.name = e.keeps m.name := by
  rw [Bool.eq_iff_iff, Codec.named, List.any_eq_true]
  constructor
  · rintro ⟨p, hp, hname⟩
    have hname : p.name = m.name.toList := of_decide_eq_true hname
    rcases e.mem_parts hp with ⟨m', _, hkeeps, rfl⟩ | hstranger
    · rwa [String.toList_inj.1 hname] at hkeeps
    · exact absurd hname ((e.areStrangers p hstranger).unknown_member hm)
  · intro hkeeps
    refine ⟨Part.of m.name (value m), e.rearranges.mem_iff.2 (List.mem_append_left _ ?_), ?_⟩
    · exact List.mem_map.2 ⟨(m.name, value m),
        List.mem_filter.2 ⟨mem_known.2 ⟨m, hm, rfl⟩, hkeeps⟩, rfl⟩
    · exact decide_eq_true rfl

/-- However the text of an object is edited, it is read as the members that stayed, and the defaults
of all others. -/
theorem record_reads_edit (ht : Takes members take) {s : ρ}
    (hgives : ∀ m ∈ members, m.Gives take s (value m)) (e : Edit (known members value))
    (default : ρ) : (Codec.record default members).Reads e.text (take e.keeps s default) := by
  have htold : Codec.Told members take s e.parts := by
    refine ⟨?_, ?_, e.apart_parts ht.distinct⟩
    · intro p hp
      rcases e.mem_parts hp with ⟨m, _, _, rfl⟩ | hstranger
      · exact Quoted.spells_escape m.name.toList
      · exact (e.areStrangers p hstranger).spells
    · intro p hp
      rcases e.mem_parts hp with ⟨m, hm, _, rfl⟩ | hstranger
      · exact .known m hm rfl (hgives m hm)
      · exact .stranger (fun m hm => (e.areStrangers p hstranger).unknown_member hm)
          (e.areStrangers p hstranger).isValue
  rw [← ht.congr _ _ s default fun m hm => e.named_parts hm]
  exact Codec.record_reads_textOf ht htold default

theorem Member.of_gives {α : Type} {name : String} {c : Codec α} {get : ρ → α} {set : ρ → α → ρ}
    {text : List Char} {s : ρ} (h : c.Reads text (get s))
    (hset : ∀ r, take (· == name) s r = set r (get s)) :
    (Member.of name c get set).Gives take s text := by
  intro r rest hrest
  simp only [Member.of, h rest hrest, Except.map, hset]

end

end Json

end Netfilter
