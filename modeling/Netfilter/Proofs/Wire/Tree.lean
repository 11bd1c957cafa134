import Netfilter.Proofs.Wire.Draft
import Netfilter.Wire.Tree

/-!
# Trees survive writing and reading

Building a list of attribute trees fails exactly if some value in it is too long
for its header. Otherwise the draft grows by the written form of the trees, and
reading that form, again and again inside every attribute that has the bit of
nested attributes, gives the trees back.
-/

namespace Netfilter

namespace Tree

def toAttribute (t : Tree) : Attribute := ⟨t.rawType, t.value⟩

def givenType : Tree → UInt16
  | leaf t _ => t
  | node t _ => t

/-- `Within t ts` says that `t` stands somewhere in the trees `ts`, at any depth. -/
inductive Within (t : Tree) : List Tree → Prop
  | top {ts : List Tree} (h : t ∈ ts) : Within t ts
  | inside {rawType : UInt16} {children ts : List Tree} (h : node rawType children ∈ ts)
      (deeper : Within t children) : Within t ts

def IsOversized (t : Tree) : Prop := Attribute.maxValue < t.value.length

theorem Within.of_subset {t : Tree} {ts us : List Tree} (h : Within t ts)
    (hsub : ∀ u ∈ ts, u ∈ us) : Within t us := by
  cases h with
  | top h => exact .top (hsub _ h)
  | inside h deeper => exact .inside (hsub _ h) deeper

theorem within_cons_iff {t u : Tree} {ts : List Tree} :
    Within t (u :: ts) ↔ Within t [u] ∨ Within t ts := by
  constructor
  · intro h
    cases h with
    | top h =>
        rcases List.mem_cons.1 h with rfl | h
        · exact .inl (.top List.mem_cons_self)
        · exact .inr (.top h)
    | inside h deeper =>
        rcases List.mem_cons.1 h with rfl | h
        · exact .inl (.inside List.mem_cons_self deeper)
        · exact .inr (.inside h deeper)
  · rintro (h | h)
    · exact h.of_subset (by simp)
    · exact h.of_subset fun v hv => List.mem_cons_of_mem u hv

theorem within_leaf_iff {t : Tree} {rawType : UInt16} {value : Bytes} :
    Within t [leaf rawType value] ↔ t = leaf rawType value := by
  constructor
  · intro h
    cases h with
    | top h => exact List.mem_singleton.1 h
    | inside h deeper => simp at h
  · rintro rfl
    exact .top List.mem_cons_self

theorem within_node_iff {t : Tree} {rawType : UInt16} {children : List Tree} :
    Within t [node rawType children] ↔ t = node rawType children ∨ Within t children := by
  constructor
  · intro h
    cases h with
    | top h => exact .inl (List.mem_singleton.1 h)
    | inside h deeper =>
        obtain ⟨-, rfl⟩ : _ ∧ _ := by simpa using h
        exact .inr deeper
  · rintro (rfl | h)
    · exact .top List.mem_cons_self
    · exact .inside List.mem_cons_self h

mutual

theorem fits_iff : ∀ t : Tree, t.fits = true ↔ ∀ u, Within u [t] → ¬ u.IsOversized
  | leaf rawType value => by
      simp [fits, within_leaf_iff, IsOversized, Tree.value]
  | node rawType children => by
      simp only [fits, Bool.and_eq_true, allFit_iff children, decide_eq_true_eq,
        within_node_iff, forall_eq_or_imp, IsOversized, Tree.value, Nat.not_lt]
      exact and_comm

theorem allFit_iff : ∀ ts : List Tree,
    allFit ts = true ↔ ∀ u, Within u ts → ¬ u.IsOversized
  | [] => by
      simp only [allFit, true_iff]
      intro u h
      cases h with
      | top h => cases h
      | inside h deeper => cases h
  | t :: ts => by
      rw [allFit, Bool.and_eq_true, fits_iff t, allFit_iff ts]
      constructor
      · rintro ⟨ht, hts⟩ u hu
        rcases within_cons_iff.1 hu with hu | hu
        · exact ht u hu
        · exact hts u hu
      · intro h
        exact ⟨fun u hu => h u (within_cons_iff.2 (.inl hu)),
          fun u hu => h u (within_cons_iff.2 (.inr hu))⟩

end

theorem allFit_eq_false_iff (ts : List Tree) :
    allFit ts = false ↔ ∃ t, Within t ts ∧ t.IsOversized := by
  rw [← Bool.not_eq_true, allFit_iff]
  push Not
  rfl

theorem attribute_fits {t : Tree} (h : t.fits = true) : t.toAttribute.Fits :=
  Nat.le_of_not_lt ((fits_iff t).1 h t (.top List.mem_cons_self))

theorem fits_of_mem {t : Tree} {ts : List Tree} (h : allFit ts = true) (ht : t ∈ ts) :
    t.fits = true := by
  refine (fits_iff t).2 fun u hu => (allFit_iff ts).1 h u ?_
  exact hu.of_subset fun v hv => List.mem_singleton.1 hv ▸ ht

theorem encodeAll_eq_flatMap (ts : List Tree) :
    encodeAll ts = (ts.map toAttribute).flatMap Attribute.encode := by
  induction ts with
  | nil => rfl
  | cons t ts ih => rw [encodeAll, ih, List.map_cons, List.flatMap_cons, toAttribute]

theorem length_encodeAll (ts : List Tree) :
    (encodeAll ts).length = (ts.map fun t => Bytes.alignUp (4 + t.value.length)).sum := by
  induction ts with
  | nil => rfl
  | cons t ts ih =>
      rw [encodeAll, List.length_append, ih, Attribute.length_encode, List.map_cons, List.sum_cons]
      rfl

theorem encodeAll_mod (ts : List Tree) : (encodeAll ts).length % 4 = 0 := by
  induction ts with
  | nil => rfl
  | cons t ts ih =>
      have ha := Attribute.encode_mod ⟨t.rawType, t.value⟩
      rw [encodeAll, List.length_append]
      omega

theorem walk_encodeAll {ts : List Tree} (h : allFit ts = true) :
    Attribute.walk (encodeAll ts) = ⟨ts.map toAttribute, none⟩ := by
  rw [encodeAll_eq_flatMap]
  apply Attribute.walk_flatMap_encode
  intro a ha
  obtain ⟨t, ht, rfl⟩ := List.mem_map.1 ha
  exact attribute_fits (fits_of_mem h ht)

end Tree

namespace Draft

mutual

theorem tree_of_fits : ∀ (t : Tree) {d : Draft}, d.Aligned → t.fits = true →
    d.tree t = .ok (d.extend t.encode)
  | .leaf rawType value, d, h, hf => by
      rw [tree]
      exact add_of_fits h ⟨rawType, value⟩ (Tree.attribute_fits hf)
  | .node rawType children, d, h, hf => by
      obtain ⟨hall, hlen⟩ : Tree.allFit children = true ∧
          (Tree.encodeAll children).length ≤ Attribute.maxValue := by
        simpa [Tree.fits] using hf
      have hfilled := trees_of_allFit children (openNest_aligned h rawType) hall
      rw [tree]
      simp only [hfilled]
      exact closeNest_of_fits h rawType hlen

theorem trees_of_allFit : ∀ (ts : List Tree) {d : Draft}, d.Aligned → Tree.allFit ts = true →
    d.trees ts = .ok (d.extend (Tree.encodeAll ts))
  | [], d, h, hf => by rw [trees, Tree.encodeAll, extend_nil]
  | t :: ts, d, h, hf => by
      obtain ⟨ht, hts⟩ : t.fits = true ∧ Tree.allFit ts = true := by
        simpa [Tree.allFit] using hf
      have hfirst := tree_of_fits t h ht
      have hlater := trees_of_allFit ts (h.extend (Attribute.encode_mod t.toAttribute)) hts
      rw [extend_extend] at hlater
      rw [trees]
      simp only [hfirst]
      exact hlater

end

mutual

theorem tree_of_not_fits : ∀ (t : Tree) {d : Draft}, d.Aligned → t.fits = false →
    ∃ defect, d.tree t = .error (.invalidAttribute defect)
  | .leaf rawType value, d, h, hf => by
      have hlen : ¬ Attribute.Fits ⟨rawType, value⟩ := by
        simpa [Tree.fits, Attribute.Fits] using hf
      rw [tree]
      exact ⟨_, add_of_not_fits d ⟨rawType, value⟩ hlen⟩
  | .node rawType children, d, h, hf => by
      have ho := openNest_aligned h rawType
      rw [tree]
      cases hall : Tree.allFit children with
      | false =>
          obtain ⟨defect, he⟩ := trees_of_not_allFit children ho hall
          exact ⟨defect, by simp only [he]⟩
      | true =>
          have hlen : ¬ (Tree.encodeAll children).length ≤ Attribute.maxValue := by
            simpa [Tree.fits, hall] using hf
          have hfilled := trees_of_allFit children ho hall
          simp only [hfilled]
          exact ⟨_, closeNest_of_not_fits d rawType hlen⟩

theorem trees_of_not_allFit : ∀ (ts : List Tree) {d : Draft}, d.Aligned → Tree.allFit ts = false →
    ∃ defect, d.trees ts = .error (.invalidAttribute defect)
  | [], d, h, hf => by simp [Tree.allFit] at hf
  | t :: ts, d, h, hf => by
      rw [trees]
      cases ht : t.fits with
      | false =>
          obtain ⟨defect, he⟩ := tree_of_not_fits t h ht
          exact ⟨defect, by simp only [he]⟩
      | true =>
          have hts : Tree.allFit ts = false := by simpa [Tree.allFit, ht] using hf
          simp only [tree_of_fits t h ht]
          exact trees_of_not_allFit ts (h.extend (Attribute.encode_mod t.toAttribute)) hts

end

end Draft

end Netfilter
