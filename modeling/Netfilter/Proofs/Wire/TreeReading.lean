import Netfilter.Proofs.Wire.Tree

/-!
# Trees read back

`Tree.readAll?` takes attributes off a byte string and does so again inside the
value of every attribute that has the bit of nested attributes. It undoes
`Tree.encodeAll`, and so a finished draft holds exactly the trees that were put
into it.
-/

namespace Netfilter

namespace Tree

def withoutNestedBit (rawType : UInt16) : UInt16 :=
  UInt16.ofNat (rawType.toNat % Attribute.nestedBit)

theorem toNat_or_nestedBit {t : UInt16} (h : Attribute.nestedOf t = false) :
    (t ||| UInt16.ofNat Attribute.nestedBit).toNat = 2 ^ 15 + t.toNat := by
  have hlt : t.toNat < 2 ^ 15 := Nat.lt_of_not_le (of_decide_eq_false h)
  rw [UInt16.toNat_or, Nat.or_comm]
  exact (Nat.two_pow_add_eq_or_of_lt hlt 1).symm

theorem nestedOf_or_nestedBit {t : UInt16} (h : Attribute.nestedOf t = false) :
    Attribute.nestedOf (t ||| UInt16.ofNat Attribute.nestedBit) = true := by
  unfold Attribute.nestedOf Attribute.nestedBit
  rw [decide_eq_true_iff]
  have := toNat_or_nestedBit h
  unfold Attribute.nestedBit at this
  omega

theorem withoutNestedBit_or_nestedBit {t : UInt16} (h : Attribute.nestedOf t = false) :
    withoutNestedBit (t ||| UInt16.ofNat Attribute.nestedBit) = t := by
  have hlt : t.toNat < Attribute.nestedBit := Nat.lt_of_not_le (of_decide_eq_false h)
  unfold withoutNestedBit
  rw [toNat_or_nestedBit h]
  change UInt16.ofNat ((Attribute.nestedBit + t.toNat) % Attribute.nestedBit) = t
  rw [Nat.add_mod_left, Nat.mod_eq_of_lt hlt, UInt16.ofNat_toNat]

/-- The trees that `data` is the written form of; `none` if there is a defect at any depth. -/
def readAll? (data : Bytes) : Option (List Tree) :=
  match _ : Attribute.next data with
  | none => some []
  | some (.error _, _) => none
  | some (.ok a, rest) =>
      match readAll? rest with
      | none => none
      | some later =>
          if a.isNested then
            match readAll? a.value with
            | none => none
            | some children => some (node (withoutNestedBit a.rawType) children :: later)
          else some (leaf a.rawType a.value :: later)
termination_by data.length
decreasing_by
  · exact Attribute.next_shortens ‹_›
  · exact Attribute.value_shortens ‹_›

theorem readAll?_nil : readAll? [] = some [] := by
  rw [readAll?]
  rfl

theorem readAll?_encode_append {a : Attribute} (hf : a.Fits) (rest : Bytes) {later : List Tree}
    (hl : readAll? rest = some later) :
    readAll? (a.encode ++ rest) =
      if a.isNested then
        (readAll? a.value).map fun children => node (withoutNestedBit a.rawType) children :: later
      else some (leaf a.rawType a.value :: later) := by
  rw [readAll?]
  have hnext := Attribute.next_encode_append a hf rest
  split
  · simp_all
  · simp_all
  · rename_i a' rest' hnext'
    obtain ⟨rfl, rfl⟩ : a = a' ∧ rest = rest' := by simpa [hnext] using hnext'
    simp only [hl]
    split_ifs
    · cases readAll? a.value <;> rfl
    · rfl

/-- What was written is read back, if no type that was given has the bit of nested attributes. -/
theorem readAll?_encodeAll : ∀ ts : List Tree, allFit ts = true →
    (∀ t, Within t ts → Attribute.nestedOf t.givenType = false) →
    readAll? (encodeAll ts) = some ts
  | [], _, _ => readAll?_nil
  | leaf rawType value :: ts, hf, hplain => by
      have hts := readAll?_encodeAll ts (by simp_all [allFit])
        fun t ht => hplain t (within_cons_iff.2 (.inr ht))
      have hfit : Attribute.Fits ⟨rawType, value⟩ :=
        attribute_fits (fits_of_mem hf List.mem_cons_self)
      have hflat : Attribute.isNested ⟨rawType, value⟩ = false :=
        hplain (leaf rawType value) (.top List.mem_cons_self)
      rw [encodeAll]
      change readAll? (Attribute.encode ⟨rawType, value⟩ ++ encodeAll ts) = _
      rw [readAll?_encode_append hfit _ hts, hflat]
      rfl
  | node rawType children :: ts, hf, hplain => by
      obtain ⟨⟨hall, -⟩, hallTs⟩ : (allFit children = true ∧
          (encodeAll children).length ≤ Attribute.maxValue) ∧ allFit ts = true := by
        simpa [allFit, fits] using hf
      have hts := readAll?_encodeAll ts hallTs
        fun t ht => hplain t (within_cons_iff.2 (.inr ht))
      have hchildren := readAll?_encodeAll children hall
        fun t ht => hplain t (.inside List.mem_cons_self ht)
      have hgiven : Attribute.nestedOf rawType = false :=
        hplain (node rawType children) (.top List.mem_cons_self)
      -- the bit of nested attributes, which was not given, tells the node from a leaf
      let a : Attribute := (node rawType children).toAttribute
      have hfit : a.Fits := attribute_fits (fits_of_mem hf List.mem_cons_self)
      have hnested : a.isNested = true := nestedOf_or_nestedBit hgiven
      have htype : withoutNestedBit a.rawType = rawType := withoutNestedBit_or_nestedBit hgiven
      have hvalue : readAll? a.value = some children := hchildren
      rw [encodeAll]
      change readAll? (a.encode ++ encodeAll ts) = _
      rw [readAll?_encode_append hfit _ hts, hnested, hvalue, htype]
      rfl

end Tree

namespace Draft

/-- Building trees into a netfilter message fails exactly if some tree in them is too long; else
the finished message is one message with the given header fields, which holds the given family
header and, once the attributes are read at every depth, exactly the given trees. -/
theorem trees_round_trip (subsystem operation family : UInt8) (flags resource : UInt16)
    (seq port : UInt32) (ts : List Tree)
    (hplain : ∀ t, Tree.Within t ts → Attribute.nestedOf t.givenType = false) :
    ((∃ defect, (netfilter subsystem operation flags family resource).trees ts =
        .error (.invalidAttribute defect)) ↔ ∃ t, Tree.Within t ts ∧ t.IsOversized) ∧
      ((¬ ∃ t, Tree.Within t ts ∧ t.IsOversized) →
        ∃ built, (netfilter subsystem operation flags family resource).trees ts = .ok built ∧
          let data := { built with seq, port }.finish
          (data.length < 2 ^ 32 →
            data.length = 16 + 4 + (ts.map fun t => Bytes.alignUp (4 + t.value.length)).sum ∧
            ∃ header payload attributes,
              Message.walk data = ⟨[⟨header, payload⟩], none⟩ ∧
              header.length.toNat = data.length ∧
              header.type = Message.typeOf subsystem operation ∧ header.flags = flags ∧
              header.seq = seq ∧ header.port = port ∧
              FamilyHeader.read payload = .ok (⟨family, 0, resource⟩, attributes) ∧
              Attribute.walk attributes = ⟨ts.map Tree.toAttribute, none⟩ ∧
              Tree.readAll? attributes = some ts)) := by
  let start : Draft := netfilter subsystem operation flags family resource
  have hstart : start.Aligned := aligned_netfilter ..
  constructor
  · rw [← Tree.allFit_eq_false_iff]
    constructor
    · rintro ⟨defect, he⟩
      by_contra hfit
      rw [trees_of_allFit ts hstart (Bool.not_eq_false _ ▸ hfit)] at he
      cases he
    · exact trees_of_not_allFit ts hstart
  · intro hno
    have hfit : Tree.allFit ts = true := by
      rw [← Bool.not_eq_false, Tree.allFit_eq_false_iff]
      exact hno
    refine ⟨_, trees_of_allFit ts hstart hfit, ?_⟩
    intro data hdata
    let built : Draft := { start.extend (Tree.encodeAll ts) with seq, port }
    have hbuilt : built.Aligned := hstart.extend (Tree.encodeAll_mod ts)
    have hlen : data.length = built.size := length_finish built
    have hsize : built.size = 16 + (4 + (Tree.encodeAll ts).length) := by
      change 16 + (FamilyHeader.encode { family, resource } ++ Tree.encodeAll ts).length = _
      rw [List.length_append]
      rfl
    have hhdr : built.header.length.toNat = data.length := by
      rw [hlen]
      change (UInt32.ofNat built.size).toNat = built.size
      rw [UInt32.toNat_ofNat', Nat.mod_eq_of_lt (hlen ▸ hdata)]
    refine ⟨?_, built.header, built.body, Tree.encodeAll ts, walk_finish hbuilt (hlen ▸ hdata),
      hhdr, rfl, rfl, rfl, rfl, ?_, Tree.walk_encodeAll hfit, Tree.readAll?_encodeAll ts hfit hplain⟩
    · rw [hlen, hsize, Tree.length_encodeAll, Nat.add_assoc]
    · exact FamilyHeader.read_encode_append ⟨family, 0, resource⟩ (Tree.encodeAll ts)

def sampleTrees : List Tree :=
  [.node 1 [.leaf 2 [1, 2, 3], .node 3 [.leaf 4 []]], .leaf 0x4005 [9]]

theorem trees_round_trip_sampleTrees :
    (∀ t, Tree.Within t sampleTrees → Attribute.nestedOf t.givenType = false) ∧
      (¬ ∃ t, Tree.Within t sampleTrees ∧ t.IsOversized) ∧
      ∃ built, (netfilter 3 2 1 0 7).trees sampleTrees = .ok built ∧
        { built with seq := 9, port := 4242 }.finish.length = 48 ∧
        ∃ header payload attributes,
          Message.walk { built with seq := 9, port := 4242 }.finish =
            ⟨[⟨header, payload⟩], none⟩ ∧
          FamilyHeader.read payload = .ok (⟨0, 0, 7⟩, attributes) ∧
          Tree.readAll? attributes = some sampleTrees := by
  have hplain : ∀ t, Tree.Within t sampleTrees → Attribute.nestedOf t.givenType = false := by
    intro t ht
    rcases Tree.within_cons_iff.1 ht with ht | ht
    · rcases Tree.within_node_iff.1 ht with rfl | ht
      · rfl
      · rcases Tree.within_cons_iff.1 ht with ht | ht
        · rw [Tree.within_leaf_iff.1 ht]
          rfl
        · rcases Tree.within_node_iff.1 ht with rfl | ht
          · rfl
          · rw [Tree.within_leaf_iff.1 ht]
            rfl
    · rw [Tree.within_leaf_iff.1 ht]
      rfl
  have hfit : Tree.allFit sampleTrees = true := rfl
  have hno : ¬ ∃ t, Tree.Within t sampleTrees ∧ t.IsOversized := by
    rw [← Tree.allFit_eq_false_iff, hfit]
    simp
  obtain ⟨built, hb, h⟩ := (trees_round_trip 3 2 0 1 7 9 4242 sampleTrees hplain).2 hno
  have hbuilt : built = (netfilter 3 2 1 0 7).extend (Tree.encodeAll sampleTrees) :=
    Except.ok.inj (hb.symm.trans (trees_of_allFit sampleTrees (aligned_netfilter ..) hfit))
  have hlen : { built with seq := 9, port := 4242 }.finish.length = 48 := by
    rw [hbuilt]
    rfl
  obtain ⟨-, header, payload, attributes, hwalk, -, -, -, -, -, hfamily, -, hread⟩ :=
    h (by rw [hlen]; decide)
  exact ⟨hplain, hno, built, hb, hlen, header, payload, attributes, hwalk, hfamily, hread⟩

end Draft

end Netfilter
