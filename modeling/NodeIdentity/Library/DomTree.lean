import Mathlib.Data.List.Basic
import Mathlib.Data.List.Perm.Basic

/-!
# Document trees

A document as a parser leaves it: siblings in a list, each with the list of its
children.  A program which visits the elements in document order, and hands
what it has found so far from one to the next, folds over `elements`.  Two
documents which differ only in the order of sibling elements have the same
elements, with the same leading text, in another order.
-/

namespace NodeIdentity.Library

/-- `text` stands for CDATA sections too, and `remark` for comments and
processing instructions.  Behind an entity reference there are the nodes of its
declaration. -/
inductive XmlNode where
  | element (name : String) (children : List XmlNode)
  | text (content : List UInt8)
  | remark (content : List UInt8)
  | reference (content : List UInt8) (children : List XmlNode)

namespace XmlNode

def isElement : XmlNode → Bool
  | element _ _ => true
  | _ => false

mutual

/-- What a node contributes to the content of an element around it. -/
def inner : XmlNode → List UInt8
  | element _ children => innerList children
  | text content => content
  | remark _ => []
  | reference content _ => content

def innerList : List XmlNode → List UInt8
  | [] => []
  | node :: rest => node.inner ++ innerList rest

end

/-- The content of a node: that of a remark is its text. -/
def content : XmlNode → List UInt8
  | remark content => content
  | node => node.inner

abbrev Element := String × List XmlNode

mutual

def elementsOf : XmlNode → List Element
  | element name children => (name, children) :: elements children
  | text _ => []
  | remark _ => []
  | reference _ children => elements children

def elements : List XmlNode → List Element
  | [] => []
  | node :: rest => elementsOf node ++ elements rest

end

theorem elements_append (first second : List XmlNode) :
    elements (first ++ second) = elements first ++ elements second := by
  induction first with
  | nil => rfl
  | cons node first ih =>
      rw [List.cons_append, elements, elements, ih, List.append_assoc]

theorem elements_cons (node : XmlNode) (rest : List XmlNode) :
    elements (node :: rest) = elementsOf node ++ elements rest := by
  rw [elements]

/-- Siblings in another order, anywhere in the document.  Elements change
places, and what is between them stays where it is. -/
inductive Reordered : List XmlNode → List XmlNode → Prop where
  | refl (nodes : List XmlNode) : Reordered nodes nodes
  | swap {first second : XmlNode} (before between after : List XmlNode) :
      first.isElement = true → second.isElement = true →
      Reordered (before ++ first :: (between ++ second :: after))
        (before ++ second :: (between ++ first :: after))
  | inside {children children' : List XmlNode} (name : String)
      (before after : List XmlNode) :
      Reordered children children' →
      Reordered (before ++ element name children :: after)
        (before ++ element name children' :: after)
  | behind {children children' : List XmlNode} (content : List UInt8)
      (before after : List XmlNode) :
      Reordered children children' →
      Reordered (before ++ reference content children :: after)
        (before ++ reference content children' :: after)
  | trans {first second third : List XmlNode} :
      Reordered first second → Reordered second third →
      Reordered first third

/-- The content of a first child which is no element. -/
def lead (children : List XmlNode) : Option (List UInt8) :=
  match children with
  | [] => none
  | node :: _ => if node.isElement then none else some node.content

def isSection (children : List XmlNode) : Bool := children.any isElement

/-- What is known of an element without the order of its children. -/
structure Label where
  name : String
  lead : Option (List UInt8)
  isSection : Bool
  deriving DecidableEq

def label (item : Element) : Label :=
  ⟨item.1, XmlNode.lead item.2, XmlNode.isSection item.2⟩

theorem Reordered.lead_eq {nodes nodes' : List XmlNode}
    (reordered : Reordered nodes nodes') : lead nodes = lead nodes' := by
  induction reordered with
  | refl => rfl
  | swap before between after first second =>
      cases before with
      | nil => simp [lead, first, second]
      | cons node before => rfl
  | inside name before after _ _ =>
      cases before with
      | nil => rfl
      | cons node before => rfl
  | behind content before after _ _ =>
      cases before with
      | nil => rfl
      | cons node before => rfl
  | trans _ _ first second => exact first.trans second

theorem Reordered.isSection_eq {nodes nodes' : List XmlNode}
    (reordered : Reordered nodes nodes') :
    isSection nodes = isSection nodes' := by
  induction reordered with
  | refl => rfl
  | swap before between after first second =>
      simp [isSection, first, second]
  | inside name before after _ _ => simp [isSection, isElement]
  | behind content before after _ _ => simp [isSection, isElement]
  | trans _ _ first second => exact first.trans second

theorem Reordered.perm {nodes nodes' : List XmlNode}
    (reordered : Reordered nodes nodes') :
    ((elements nodes).map label).Perm ((elements nodes').map label) := by
  induction reordered with
  | refl => exact List.Perm.refl _
  | @swap first second before between after _ _ =>
      simp only [elements_append, elements_cons, List.map_append]
      apply List.Perm.append_left
      apply List.perm_iff_count.mpr
      intro item
      simp only [List.count_append]
      omega
  | @inside children children' name before after order ih =>
      have same : label (name, children) = label (name, children') := by
        rw [label, label, order.lead_eq, order.isSection_eq]
      simp only [elements_append, elements_cons, elementsOf, List.map_append,
        List.map_cons, List.cons_append, same]
      exact ((ih.append_right _).cons _).append_left _
  | behind content before after _ ih =>
      simp only [elements_append, elements_cons, elementsOf, List.map_append]
      exact (ih.append_right _).append_left _
  | trans _ _ first second => exact first.trans second

end XmlNode

end NodeIdentity.Library
