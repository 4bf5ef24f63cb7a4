import DbdkyGcc.Foundations.Guarded

/-!
# Configuration documents

A document as tinyxml presents it. `FirstChild` and `NextSibling` walk over children of
every kind, `ToElement` is null for all but elements, `Attribute` is null when the
attribute is absent and `GetText` is null unless the first child is text. The code builds
a `std::string` from each of these pointers; `attr` and `text` are those expressions, and
fail where the pointer is null.
-/

namespace DbdkyGcc.Device

open Foundations

inductive XmlNode
  | element (name : String) (attributes : List (String × String)) (children : List XmlNode)
  | text (value : String)
  | comment (value : String)
  /-- a declaration or a node tinyxml does not know -/
  | other (value : String)

/-- The top level nodes of a file. -/
abbrev XmlDocument : Type := List XmlNode

/-- What is wrong with a null pointer. -/
inductive NullAccess
  /-- a member function is called on a null element -/
  | element
  /-- a string is built from, or compared with, a null pointer -/
  | string
deriving DecidableEq

namespace XmlNode

/-- `Value()` -/
def value : XmlNode → String
  | element name _ _ => name
  | text v => v
  | comment v => v
  | other v => v

/-- `ToElement()` is not null. -/
def isElement : XmlNode → Bool
  | element _ _ _ => true
  | _ => false

def children : XmlNode → List XmlNode
  | element _ _ cs => cs
  | _ => []

/-- `Attribute(name)`, on an element. -/
def getAttribute (n : XmlNode) (name : String) : Option String :=
  match n with
  | element _ as _ => as.lookup name
  | _ => none

/-- `GetText()`, on an element. -/
def getText (n : XmlNode) : Option String :=
  match n.children with
  | text v :: _ => some v
  | _ => none

/-- A string read through `ToElement()`. -/
def read (n : XmlNode) (pointer : Option String) : Except NullAccess String :=
  if n.isElement then require .string pointer else .error .element

/-- `string(n->ToElement()->Attribute(name))` -/
def attr (n : XmlNode) (name : String) : Except NullAccess String := n.read (n.getAttribute name)

/-- `string(n->ToElement()->GetText())` -/
def getString (n : XmlNode) : Except NullAccess String := n.read n.getText

/-- The attribute, empty where it is absent. -/
def attrD (n : XmlNode) (name : String) : String := (n.getAttribute name).getD ""

/-- The text, empty where there is none. -/
def textD (n : XmlNode) : String := n.getText.getD ""

/-- An element that has all the given attributes. -/
def Has (n : XmlNode) (names : List String) : Prop :=
  n.isElement = true ∧ ∀ a ∈ names, (n.getAttribute a).isSome = true

/-- The first child with this value, of whatever kind, when it is an element, and the nodes
behind it. -/
def firstChild (nodes : List XmlNode) (name : String) : Option (XmlNode × List XmlNode) :=
  match nodes.dropWhile fun n => n.value ≠ name with
  | n :: rest => if n.isElement then some (n, rest) else none
  | [] => none

theorem read_guarded (n : XmlNode) (pointer : Option String) :
    Guarded (n.read pointer) (n.isElement = true ∧ pointer.isSome = true) (pointer.getD "") := by
  rw [read]
  split
  · next h => exact (Guarded.require _ pointer _).congr (and_iff_right h).symm
  · next h => exact ⟨fun hp => absurd hp.1 h, fun _ => ⟨_, rfl⟩⟩

theorem attr_guarded (n : XmlNode) (name : String) :
    Guarded (n.attr name) (n.isElement = true ∧ (n.getAttribute name).isSome = true)
      (n.attrD name) :=
  n.read_guarded _

theorem getString_guarded (n : XmlNode) :
    Guarded n.getString (n.isElement = true ∧ n.getText.isSome = true) n.textD :=
  n.read_guarded _

end XmlNode

end DbdkyGcc.Device
