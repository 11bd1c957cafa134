import Netfilter.Json.Skip
import Netfilter.Proofs.Json.Number
import Netfilter.Proofs.Json.Quoted

/-!
# Values that are skipped

The grammar of JSON values, one rule for each constructor, with blanks wherever
they may stand. Values nest to any depth in it, while they are skipped with an
explicit list of what is open: what the skipping makes of each kind of phrase is
written down beside the grammar and proved along its rules.
-/

namespace Netfilter

namespace Json

inductive Phrase
  | value
  /-- A value with blanks around it. -/
  | element
  | elements
  /-- A name and a value, with blanks around them. -/
  | member
  | members
  deriving DecidableEq, Repr

def IsBlanks (bs : List Char) : Prop := ∀ b ∈ bs, isBlank b = true

inductive IsPhrase : Phrase → List Char → Prop
  | null : IsPhrase .value ['n', 'u', 'l', 'l']
  | true : IsPhrase .value ['t', 'r', 'u', 'e']
  | false : IsPhrase .value ['f', 'a', 'l', 's', 'e']
  | number {n : List Char} : Number.IsSpelled n → IsPhrase .value n
  | string {q : List Char} : Quoted.IsBody q → IsPhrase .value ('"' :: (q ++ ['"']))
  | emptyList {bs : List Char} : IsBlanks bs → IsPhrase .value ('[' :: (bs ++ [']']))
  | list {es : List Char} : IsPhrase .elements es → IsPhrase .value ('[' :: (es ++ [']']))
  | emptyRecord {bs : List Char} : IsBlanks bs → IsPhrase .value ('{' :: (bs ++ ['}']))
  | record {ms : List Char} : IsPhrase .members ms → IsPhrase .value ('{' :: (ms ++ ['}']))
  | element {as v bs : List Char} : IsBlanks as → IsPhrase .value v → IsBlanks bs →
      IsPhrase .element (as ++ (v ++ bs))
  | lastElement {e : List Char} : IsPhrase .element e → IsPhrase .elements e
  | moreElements {e es : List Char} : IsPhrase .element e → IsPhrase .elements es →
      IsPhrase .elements (e ++ ',' :: es)
  | member {as q bs e : List Char} : IsBlanks as → Quoted.IsBody q → IsBlanks bs →
      IsPhrase .element e → IsPhrase .member (as ++ '"' :: (q ++ '"' :: (bs ++ ':' :: e)))
  | lastMember {m : List Char} : IsPhrase .member m → IsPhrase .members m
  | moreMembers {m ms : List Char} : IsPhrase .member m → IsPhrase .members ms →
      IsPhrase .members (m ++ ',' :: ms)

abbrev IsValue : List Char → Prop := IsPhrase .value

theorem skipBlanks_append {bs rest : List Char} (h : IsBlanks bs) :
    skipBlanks (bs ++ rest) = skipBlanks rest :=
  List.dropWhile_append_of_pos h

theorem skipBlanks_cons {c : Char} (cs : List Char) (h : isBlank c = false) :
    skipBlanks (c :: cs) = c :: cs :=
  List.dropWhile_cons_of_neg (by simp [h])

theorem skipBlanks_skipBlanks (cs : List Char) : skipBlanks (skipBlanks cs) = skipBlanks cs :=
  dropWhile_of_head fun c hc => by
    have := List.head?_dropWhile_not isBlank cs
    unfold skipBlanks at hc
    rwa [Option.mem_def.1 hc] at this

theorem exactly_append (word rest : List Char) : exactly word (word ++ rest) = .ok rest := by
  induction word with
  | nil => rfl
  | cons w word ih => rw [List.cons_append, exactly, if_pos rfl, ih]

theorem punctuation_append {mark : Char} {bs rest : List Char} (hbs : IsBlanks bs)
    (h : isBlank mark = false) : punctuation mark (bs ++ mark :: rest) = .ok rest := by
  rw [punctuation, skipBlanks_append hbs, skipBlanks_cons _ h]
  exact exactly_append [mark] rest

/-- What the first character of a phrase may be: what starts with a name starts with its quotation
mark, and nothing else starts like the end of a list. -/
def Opens : Phrase → Char → Prop
  | .member, c | .members, c => c = '"'
  | _, c => c ≠ ']'

theorem skipBlanks_append_of_cons {text cs rest : List Char} {c : Char}
    (h : skipBlanks text = c :: cs) : skipBlanks (text ++ rest) = c :: (cs ++ rest) := by
  unfold skipBlanks at h ⊢
  rw [List.dropWhile_append, h]
  simp

/-- What starts a number starts nothing else. -/
theorem ne_of_number {c d : Char} (hc : c = '-' ∨ isDigit c = true)
    (hd : ¬ (d = '-' ∨ isDigit d = true)) : c ≠ d :=
  fun h => hd (h ▸ hc)

theorem isBlank_number {c : Char} (h : c = '-' ∨ isDigit c = true) : isBlank c = false := by
  simp [isBlank, ne_of_number h (show ¬ (' ' = '-' ∨ _) by decide),
    ne_of_number h (show ¬ ('\n' = '-' ∨ _) by decide),
    ne_of_number h (show ¬ ('\t' = '-' ∨ _) by decide),
    ne_of_number h (show ¬ ('\r' = '-' ∨ _) by decide)]

/-- After blanks, a phrase starts with a character of its own. -/
theorem IsPhrase.starts {kind : Phrase} {text : List Char} (h : IsPhrase kind text) :
    ∃ c cs, skipBlanks text = c :: cs ∧ Opens kind c := by
  induction h with
  | null | true | false | string _ | emptyList _ | list _ _ | emptyRecord _ | record _ _ =>
      exact ⟨_, _, skipBlanks_cons _ (by decide), by simp [Opens]⟩
  | number hn =>
      obtain ⟨c, cs, rfl, hc⟩ := hn.exists_cons
      exact ⟨c, cs, skipBlanks_cons _ (isBlank_number hc), ne_of_number hc (by decide)⟩
  | element has _ _ ih =>
      obtain ⟨c, cs, hstarts, hopens⟩ := ih
      exact ⟨c, _, (skipBlanks_append has).trans (skipBlanks_append_of_cons hstarts), hopens⟩
  | lastElement _ ih | lastMember _ ih => exact ih
  | moreElements _ _ ih _ | moreMembers _ _ ih _ =>
      obtain ⟨c, cs, hstarts, hopens⟩ := ih
      exact ⟨c, _, skipBlanks_append_of_cons hstarts, hopens⟩
  | member has _ _ _ _ =>
      exact ⟨'"', _, (skipBlanks_append has).trans (skipBlanks_cons _ (by decide)), rfl⟩

namespace Skip

/-- What skipping makes of a phrase, where it is expected, with anything open around it. -/
def Skips : Phrase → List Char → Prop
  | .value, v => ∀ frames rest, Delimited rest →
      finish .value frames (v ++ rest) = finish .continuation frames rest
  | .element, e => ∀ frame frames rest, Delimited rest →
      finish .value (frame :: frames) (e ++ rest) = finish .continuation (frame :: frames) rest
  | .elements, es => ∀ frames rest,
      finish .value (.list :: frames) (es ++ ']' :: rest) = finish .continuation frames rest
  | .member, m => ∀ frames rest, Delimited rest →
      finish .member (.record :: frames) (m ++ rest) = finish .continuation (.record :: frames) rest
  | .members, ms => ∀ frames rest,
      finish .member (.record :: frames) (ms ++ '}' :: rest) = finish .continuation frames rest

theorem finish_of_step {e expected : Expectation} {frames opened : List Frame}
    {cs rest : List Char} (hgoes : ¬ (e = .continuation ∧ frames = []))
    (h : step e frames cs = .ok (expected, opened, rest)) :
    finish e frames cs = finish expected opened rest := by
  rw [finish]
  · split
    · next heq => rw [h] at heq; cases heq
    · next heq =>
        rw [h] at heq
        cases heq
        rfl
  · simpa using hgoes

theorem finish_of_error {e : Expectation} {frames : List Frame} {cs : List Char} {f : Fault}
    (hgoes : ¬ (e = .continuation ∧ frames = [])) (h : step e frames cs = .error f) :
    finish e frames cs = .error f := by
  rw [finish]
  · split
    · next heq =>
        rw [h] at heq
        cases heq
        rfl
    · next heq => rw [h] at heq; cases heq
  · simpa using hgoes

/-- What comes next depends on the next step alone. -/
theorem finish_congr {e : Expectation} {frames : List Frame} {cs ds : List Char}
    (hgoes : ¬ (e = .continuation ∧ frames = [])) (h : step e frames cs = step e frames ds) :
    finish e frames cs = finish e frames ds := by
  cases hs : step e frames ds with
  | error f => rw [finish_of_error hgoes (h.trans hs), finish_of_error hgoes hs]
  | ok next =>
      obtain ⟨expected, opened, rest⟩ := next
      rw [finish_of_step hgoes (h.trans hs), finish_of_step hgoes hs]

theorem finish_value_skipBlanks (frames : List Frame) (cs : List Char) :
    finish .value frames (skipBlanks cs) = finish .value frames cs :=
  finish_congr (by simp) (by simp only [step, skipBlanks_skipBlanks])

theorem finish_value_blanks {bs cs : List Char} (frames : List Frame) (h : IsBlanks bs) :
    finish .value frames (bs ++ cs) = finish .value frames cs :=
  finish_congr (by simp) (by simp only [step, skipBlanks_append h])

theorem finish_continuation_blanks {bs cs : List Char} (frame : Frame) (frames : List Frame)
    (h : IsBlanks bs) :
    finish .continuation (frame :: frames) (bs ++ cs) =
      finish .continuation (frame :: frames) cs :=
  finish_congr (by simp) (by simp only [step, skipBlanks_append h])

theorem finish_scalar {v rest : List Char} (frames : List Frame)
    (hfirst : ∀ c ∈ v.head?, isBlank c = false ∧ c ≠ '[' ∧ c ≠ '{') (hne : v ≠ [])
    (h : scalar (v ++ rest) = .ok rest) :
    finish .value frames (v ++ rest) = finish .continuation frames rest := by
  obtain ⟨c, cs, rfl⟩ := List.exists_cons_of_ne_nil hne
  obtain ⟨hblank, hlist, hrecord⟩ := hfirst c rfl
  apply finish_of_step (by simp)
  rw [List.cons_append] at h ⊢
  unfold step
  simp only [skipBlanks_cons _ hblank]
  split
  · next heq => exact absurd (List.cons.inj heq).1 hlist
  · next heq => exact absurd (List.cons.inj heq).1 hrecord
  · rw [h]
    rfl

theorem finish_emptyList {bs : List Char} (frames : List Frame) (rest : List Char)
    (h : IsBlanks bs) :
    finish .value frames ('[' :: (bs ++ ']' :: rest)) = finish .continuation frames rest := by
  apply finish_of_step (by simp)
  simp only [step, skipBlanks_cons _ (show isBlank '[' = false by decide), skipBlanks_append h,
    skipBlanks_cons _ (show isBlank ']' = false by decide)]

theorem finish_emptyRecord {bs : List Char} (frames : List Frame) (rest : List Char)
    (h : IsBlanks bs) :
    finish .value frames ('{' :: (bs ++ '}' :: rest)) =
      finish .continuation frames rest := by
  apply finish_of_step (by simp)
  simp only [step, skipBlanks_cons _ (show isBlank '{' = false by decide), skipBlanks_append h,
    skipBlanks_cons _ (show isBlank '}' = false by decide)]

theorem finish_list {es rest : List Char} (frames : List Frame) (h : IsPhrase .elements es) :
    finish .value frames ('[' :: (es ++ rest)) = finish .value (.list :: frames) (es ++ rest) := by
  obtain ⟨c, cs, hstarts, hopens⟩ := h.starts
  have hinside : skipBlanks (es ++ rest) = c :: (cs ++ rest) := skipBlanks_append_of_cons hstarts
  rw [← finish_value_skipBlanks (.list :: frames) (es ++ rest)]
  apply finish_of_step (by simp)
  simp only [step, skipBlanks_cons _ (show isBlank '[' = false by decide), hinside]
  split
  · next heq => cases heq
  · next heq => exact absurd (List.cons.inj heq).1 hopens
  · rfl

theorem finish_member_skipBlanks (frames : List Frame) (cs : List Char) :
    finish .member frames (skipBlanks cs) = finish .member frames cs :=
  finish_congr (by simp) (by simp only [step, memberName, punctuation, skipBlanks_skipBlanks])

theorem finish_record {ms rest : List Char} (frames : List Frame) (h : IsPhrase .members ms) :
    finish .value frames ('{' :: (ms ++ rest)) =
      finish .member (.record :: frames) (ms ++ rest) := by
  obtain ⟨_, cs, hstarts, rfl⟩ := h.starts
  have hinside : skipBlanks (ms ++ rest) = '"' :: (cs ++ rest) :=
    skipBlanks_append_of_cons hstarts
  rw [← finish_member_skipBlanks (.record :: frames) (ms ++ rest)]
  apply finish_of_step (by simp)
  simp only [step, skipBlanks_cons _ (show isBlank '{' = false by decide), hinside]
  rfl

theorem finish_memberName {as q bs rest : List Char} (frames : List Frame) (has : IsBlanks as)
    (hq : Quoted.IsBody q) (hbs : IsBlanks bs) :
    finish .member frames (as ++ '"' :: (q ++ '"' :: (bs ++ ':' :: rest))) =
      finish .value frames rest := by
  apply finish_of_step (by simp)
  simp only [step, memberName, punctuation_append has (show isBlank '"' = false by decide),
    Quoted.skip_append hq, punctuation_append hbs (show isBlank ':' = false by decide), Except.map]

theorem finish_comma_list (frames : List Frame) (cs : List Char) :
    finish .continuation (.list :: frames) (',' :: cs) = finish .value (.list :: frames) cs := by
  apply finish_of_step (by simp)
  unfold step
  rw [skipBlanks_cons _ (by decide)]
  rfl

theorem finish_comma_record (frames : List Frame) (cs : List Char) :
    finish .continuation (.record :: frames) (',' :: cs) =
      finish .member (.record :: frames) cs := by
  apply finish_of_step (by simp)
  unfold step
  rw [skipBlanks_cons _ (by decide)]
  rfl

theorem finish_end_list (frames : List Frame) (cs : List Char) :
    finish .continuation (.list :: frames) (']' :: cs) = finish .continuation frames cs := by
  apply finish_of_step (by simp)
  unfold step
  rw [skipBlanks_cons _ (by decide)]
  rfl

theorem finish_end_record (frames : List Frame) (cs : List Char) :
    finish .continuation (.record :: frames) ('}' :: cs) = finish .continuation frames cs := by
  apply finish_of_step (by simp)
  unfold step
  rw [skipBlanks_cons _ (by decide)]
  rfl

theorem finish_word {w rest : List Char} {c : Char} (frames : List Frame)
    (hblank : isBlank c = false ∧ c ≠ '[' ∧ c ≠ '{')
    (h : scalar (c :: (w ++ rest)) = exactly w (w ++ rest)) :
    finish .value frames (c :: w ++ rest) = finish .continuation frames rest :=
  finish_scalar frames (by simpa using hblank) (by simp) (h.trans (exactly_append w rest))

theorem scalar_number {c : Char} {cs : List Char} (h : c = '-' ∨ isDigit c = true) :
    scalar (c :: cs) = Number.skip (c :: cs) := by
  have hnumber : (decide (c = '-') || isDigit c) = true := by simpa using h
  unfold scalar
  split
  · next heq => cases heq
  · next heq => exact absurd (List.cons.inj heq).1 (ne_of_number h (by decide))
  · next heq => exact absurd (List.cons.inj heq).1 (ne_of_number h (by decide))
  · next heq => exact absurd (List.cons.inj heq).1 (ne_of_number h (by decide))
  · next heq => exact absurd (List.cons.inj heq).1 (ne_of_number h (by decide))
  · next heq =>
      obtain ⟨rfl, rfl⟩ := List.cons.inj heq
      rw [if_pos hnumber]

theorem finish_number {n rest : List Char} (frames : List Frame) (hn : Number.IsSpelled n)
    (hrest : Delimited rest) :
    finish .value frames (n ++ rest) = finish .continuation frames rest := by
  have hskip := Number.skip_append hn hrest.stops
  obtain ⟨c, cs, rfl, hc⟩ := hn.exists_cons
  apply finish_scalar frames _ (List.cons_ne_nil c cs)
  · rw [List.cons_append, scalar_number hc]
    exact hskip
  · intro d hd
    cases hd
    exact ⟨isBlank_number hc, ne_of_number hc (by decide), ne_of_number hc (by decide)⟩

theorem delimited_append {bs rest : List Char} (hbs : IsBlanks bs) (hrest : Delimited rest) :
    Delimited (bs ++ rest) := by
  cases bs with
  | nil => exact hrest
  | cons b bs => exact delimited_cons _ (.inl (hbs b List.mem_cons_self))

/-- Every phrase is skipped up to what stands behind it. -/
theorem skips_of_isPhrase {kind : Phrase} {text : List Char} (h : IsPhrase kind text) :
    Skips kind text := by
  -- by induction on the grammar, whose rules the machine follows with one frame for what is open
  induction h with
  | null => exact fun frames rest _ => finish_word frames (by decide) rfl
  | true => exact fun frames rest _ => finish_word frames (by decide) rfl
  | false => exact fun frames rest _ => finish_word frames (by decide) rfl
  | number hn => exact fun frames rest hrest => finish_number frames hn hrest
  | @string q hq =>
      intro frames rest _
      have hskip : scalar ('"' :: (q ++ ['"']) ++ rest) = .ok rest := by
        rw [List.cons_append, List.append_assoc]
        exact Quoted.skip_append hq
      exact finish_scalar frames (by simp [isBlank]) (by simp) hskip
  | emptyList hbs =>
      intro frames rest _
      rw [List.cons_append, List.append_assoc]
      exact finish_emptyList frames rest hbs
  | list hes ih =>
      intro frames rest _
      rw [List.cons_append, List.append_assoc, finish_list frames hes]
      exact ih frames rest
  | emptyRecord hbs =>
      intro frames rest _
      rw [List.cons_append, List.append_assoc]
      exact finish_emptyRecord frames rest hbs
  | record hms ih =>
      intro frames rest _
      rw [List.cons_append, List.append_assoc, finish_record frames hms]
      exact ih frames rest
  | element has _ hbs ih =>
      intro frame frames rest hrest
      rw [List.append_assoc, List.append_assoc, finish_value_blanks _ has,
        ih _ _ (delimited_append hbs hrest), finish_continuation_blanks frame frames hbs]
  | lastElement _ ih =>
      intro frames rest
      rw [ih .list frames _ (delimited_cons _ (by simp)), finish_end_list]
  | moreElements _ _ ih ihmore =>
      intro frames rest
      rw [List.append_assoc, List.cons_append, ih .list frames _ (delimited_cons _ (by simp)),
        finish_comma_list, ihmore]
  | member has hq hbs _ ih =>
      intro frames rest hrest
      simp only [List.append_assoc, List.cons_append]
      rw [finish_memberName _ has hq hbs, ih .record frames rest hrest]
  | lastMember _ ih =>
      intro frames rest
      rw [ih frames _ (delimited_cons _ (by simp)), finish_end_record]
  | moreMembers _ _ ih ihmore =>
      intro frames rest
      rw [List.append_assoc, List.cons_append, ih frames _ (delimited_cons _ (by simp)),
        finish_comma_record, ihmore]

end Skip

/-- Any well-formed value is skipped, and nothing behind it. -/
theorem skipValue_append {v rest : List Char} (hv : IsValue v) (hrest : Delimited rest) :
    skipValue (v ++ rest) = .ok rest := by
  rw [skipValue, Skip.skips_of_isPhrase hv [] rest hrest, Skip.finish]

end Json

end Netfilter
