import Mathlib.Data.List.Basic

/-!
# Elements of an XML document

What a program reads of a parsed document: tags, attributes, the text before the first child, and
the ways to look for elements below one.

* `Element` — an element with its children.
* `Element.iter`, `Element.find`, `Element.findall`, `Element.findDescendant` — `iter`, `find`,
  `findall`, and `find` with a path that begins `.//`.
-/

namespace Py

/-- An element: tag, attributes, text and children. -/
inductive Element
  | mk (tag : String) (attrib : List (String × String)) (text : Option String)
    (children : List Element)

namespace Element

def tag : Element → String
  | mk tag _ _ _ => tag

def attrib : Element → List (String × String)
  | mk _ attrib _ _ => attrib

def text : Element → Option String
  | mk _ _ text _ => text

def children : Element → List Element
  | mk _ _ _ children => children

/-- `element.attrib.get(name)`. -/
def get? (e : Element) (name : String) : Option String := e.attrib.lookup name

mutual

/-- The element and everything below it, in document order. -/
def all : Element → List Element
  | mk tag attrib text children => mk tag attrib text children :: allOf children

def allOf : List Element → List Element
  | [] => []
  | e :: es => all e ++ allOf es

end

/-- `element.iter(tag)`. -/
def iter (e : Element) (tag : String) : List Element := e.all.filter fun x => x.tag = tag

/-- `element.findall(tag)`. -/
def findall (e : Element) (tag : String) : List Element := e.children.filter fun x => x.tag = tag

/-- `element.find(tag)`. -/
def find (e : Element) (tag : String) : Option Element := e.children.find? fun x => x.tag = tag

/-- `element.find(".//" + tag)`. -/
def findDescendant (e : Element) (tag : String) : Option Element :=
  (allOf e.children).find? fun x => x.tag = tag

end Element

end Py
