import Netfilter.Wire.Draft

/-!
# Attribute trees

Attributes whose values are lists of attributes form trees. A tree can be put
into a draft, nest by nest, and its written form can be given directly.
-/

namespace Netfilter

inductive Tree
  | leaf (rawType : UInt16) (value : Bytes)
  | node (rawType : UInt16) (children : List Tree)
  deriving Repr

namespace Tree

def rawType : Tree → UInt16
  | leaf t _ => t
  | node t _ => t ||| UInt16.ofNat Attribute.nestedBit

mutual

def value : Tree → Bytes
  | leaf _ v => v
  | node _ children => encodeAll children

def encodeAll : List Tree → Bytes
  | [] => []
  | t :: ts => Attribute.encode ⟨t.rawType, value t⟩ ++ encodeAll ts

end

def encode (t : Tree) : Bytes := Attribute.encode ⟨t.rawType, t.value⟩

mutual

def fits : Tree → Bool
  | leaf _ v => v.length ≤ Attribute.maxValue
  | node _ children => allFit children && (encodeAll children).length ≤ Attribute.maxValue

def allFit : List Tree → Bool
  | [] => true
  | t :: ts => fits t && allFit ts

end

end Tree

namespace Draft

mutual

/-- Appends a tree: a leaf as an attribute, a node as a nest around its children. -/
def tree (d : Draft) : Tree → Except Error Draft
  | .leaf t v => d.add t v
  | .node t children =>
      let (opened, nest) := d.openNest t
      match trees opened children with
      | .error e => .error e
      | .ok filled => filled.closeNest nest

def trees (d : Draft) : List Tree → Except Error Draft
  | [] => .ok d
  | t :: ts =>
      match tree d t with
      | .error e => .error e
      | .ok d => trees d ts

end

end Draft

end Netfilter
