/-
# `DdsRtps.Lib.Xml` — XML trees as ElementTree holds them

An element has a tag, a dict of attributes, the text before its first child,
the text after its own end (its tail), and its children in document order.
-/
import DdsRtps.Lib.PyDict

/-- `xml.etree.ElementTree.Element`. -/
inductive XmlElement where
  | mk (tag : String) (attrib : PyDict String String) (text tail : List Char)
      (children : List XmlElement)

namespace XmlElement

/-- `e.tag`. -/
def tag : XmlElement → String
  | mk tag _ _ _ _ => tag

/-- `e.attrib`. -/
def attrib : XmlElement → PyDict String String
  | mk _ attrib _ _ _ => attrib

/-- `e.tail`. -/
def tail : XmlElement → List Char
  | mk _ _ _ tail _ => tail

/-- `list(e)`. -/
def children : XmlElement → List XmlElement
  | mk _ _ _ _ children => children

/-- `e.get(key, "")`. -/
def get (e : XmlElement) (key : String) : String := (e.attrib.get? key).getD ""

/-- `e.find(tag)`. -/
def find (e : XmlElement) (tag : String) : Option XmlElement :=
  e.children.find? fun child => child.tag = tag

/-- `e.findall(tag)`. -/
def findall (e : XmlElement) (tag : String) : List XmlElement :=
  e.children.filter fun child => child.tag = tag

mutual

/-- The element and all below it, in document order. -/
def elements : XmlElement → List XmlElement
  | mk tag attrib text tail children => mk tag attrib text tail children :: elementsOf children

/-- All elements of a list of trees. -/
def elementsOf : List XmlElement → List XmlElement
  | [] => []
  | e :: es => e.elements ++ elementsOf es

end

/-- `e.findall(".//tag")`: the element itself is not among them. -/
def findallBelow (e : XmlElement) (tag : String) : List XmlElement :=
  (elementsOf e.children).filter fun e => e.tag = tag

mutual

/-- `"".join(e.itertext())`. -/
def itertext : XmlElement → List Char
  | mk _ _ text _ children => text ++ itertextOf children

/-- The texts of the children, each with its tail. -/
def itertextOf : List XmlElement → List Char
  | [] => []
  | e :: es => e.itertext ++ e.tail ++ itertextOf es

end

theorem elements_eq (e : XmlElement) : e.elements = e :: elementsOf e.children := by
  cases e
  rw [elements, children]

/-- Everywhere in a tree: at the root, or below it. -/
theorem filter_elements (e : XmlElement) (tag : String) :
    (e.elements.filter fun e => e.tag = tag) =
      (if e.tag = tag then [e] else []) ++ e.findallBelow tag := by
  rw [elements_eq, List.filter_cons, findallBelow]
  split
  · rename_i htag
    rw [if_pos (of_decide_eq_true htag), List.singleton_append]
  · rename_i htag
    rw [if_neg (by simpa using htag), List.nil_append]

mutual

/-- What is below an element of a tree is in the tree. -/
theorem elements_subset : ∀ (root e : XmlElement), e ∈ root.elements → e.elements ⊆ root.elements
  | mk tag attrib text tail children, e, h => by
      rw [elements] at h ⊢
      rcases List.mem_cons.mp h with rfl | h
      · rw [elements]
        exact List.Subset.refl _
      · exact List.Subset.trans (elementsOf_subset children e h) (List.subset_cons_self _ _)

theorem elementsOf_subset : ∀ (es : List XmlElement) (e : XmlElement), e ∈ elementsOf es →
    e.elements ⊆ elementsOf es
  | [], e, h => by
      rw [elementsOf] at h
      cases h
  | e' :: es, e, h => by
      rw [elementsOf] at h ⊢
      rcases List.mem_append.mp h with h | h
      · exact List.Subset.trans (elements_subset e' e h) (List.subset_append_left _ _)
      · exact List.Subset.trans (elementsOf_subset es e h) (List.subset_append_right _ _)

end

theorem subset_elementsOf {es : List XmlElement} {e : XmlElement} (h : e ∈ es) :
    e ∈ elementsOf es := by
  induction es with
  | nil => cases h
  | cons e' es ih =>
      rw [elementsOf, elements_eq]
      rcases List.mem_cons.mp h with rfl | h
      · exact List.mem_append_left _ List.mem_cons_self
      · exact List.mem_append_right _ (ih h)

/-- The children of an element that is found are in the tree. -/
theorem mem_elements_of_findall {root e child : XmlElement} {tag tag' : String}
    (he : e ∈ root.findallBelow tag) (hchild : child ∈ e.findall tag') :
    child ∈ root.elements := by
  have hmem : e ∈ elementsOf root.children := List.mem_of_mem_filter he
  have hbelow : child ∈ elementsOf e.children :=
    subset_elementsOf (List.mem_of_mem_filter hchild)
  have hdown : child ∈ e.elements := by
    rw [elements_eq]
    exact List.mem_cons_of_mem _ hbelow
  rw [elements_eq]
  exact List.mem_cons_of_mem _ (elementsOf_subset _ _ hmem hdown)

end XmlElement
