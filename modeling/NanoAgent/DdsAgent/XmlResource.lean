import NanoAgent.Foundations.Program
import NanoAgent.Foundations.Substring

/-!
# Reading XML representations

The factory finds the elements of an XML representation, and their names, by searching
for tags in its text. The loops over the elements of a tag are `forEachElement`, and
`elements` is where their rounds start.

An `XmlDocument` is what such a text stands for: a list of tags, text and other markup,
with an end tag for every start tag. `starts` is where the elements of a tag start in
the text of a document.
-/

namespace NanoAgent

open Substring

namespace XmlResource

/-- `<` and a tag, as the searches for a start tag have it. -/
def openTag (tag : List Char) : List Char := '<' :: tag

/-- An end tag. -/
def closeTag (tag : List Char) : List Char := '<' :: '/' :: tag ++ ['>']

/-- The character that has to follow the tag of an element. -/
def endsTag : List Char → Bool
  | ' ' :: _ | '>' :: _ => true
  | _ => false

/-- `NDDSA_XmlResource_find_first_xml_element`: the start of an element and the end of its
end tag. -/
def findFirstXmlElement (xmlStr tag : List Char) : Option (List Char × List Char) :=
  match find (openTag tag) xmlStr with
  | none => none
  | some elStart =>
      if endsTag (elStart.drop (openTag tag).length) then
        match find (closeTag tag) elStart with
        | none => none
        | some elEnd => some (elStart, elEnd.drop (closeTag tag).length)
      else none

/-- `el_name_pfx`. -/
def namePfx : List Char := ['n', 'a', 'm', 'e', '=', '"']

/-- `NDDSA_XmlResource_parse_xml_element_name`: the name of an element and the start of its
content. The first argument says which strings can be allocated, by their length. -/
def parseXmlElementName (allocates : ℕ → Bool) (elXml tag : List Char) :
    Option (List Char × List Char) :=
  match find (openTag tag) elXml with
  | none => none
  | some elTag =>
      match find namePfx (elTag.drop (openTag tag).length) with
      | none => none
      | some elPfx =>
          match find ['"'] (elPfx.drop namePfx.length) with
          | none => none
          | some elEnd =>
              let elLen := (elPfx.drop namePfx.length).length - elEnd.length
              if allocates elLen then
                match find ['>'] (elPfx.drop namePfx.length) with
                | none => none
                | some content => some ((elPfx.drop namePfx.length).take elLen, content.drop 1)
              else none

variable {σ : Type}

/-- The loop over the elements of a tag. It ends when no element is found, or at one that
does not start before `limit`. A round starts behind the last element, so the length
of the text bounds the rounds. -/
def elementLoop (tag limit : List Char) (body : List Char → Prog σ PUnit) :
    ℕ → List Char → Prog σ PUnit
  | 0, _ => pure ⟨⟩
  | n + 1, head =>
      match findFirstXmlElement head tag with
      | none => pure ⟨⟩
      | some (elStart, elEnd) =>
          if elStart.length ≤ limit.length then pure ⟨⟩
          else do
            body elStart
            elementLoop tag limit body n elEnd

/-- The loop, with enough rounds. -/
def forEachElement (tag limit head : List Char) (body : List Char → Prog σ PUnit) :
    Prog σ PUnit :=
  elementLoop tag limit body (head.length + 1) head

/-- Where the rounds of the loop start. -/
def elements (tag limit : List Char) : ℕ → List Char → List (List Char)
  | 0, _ => []
  | n + 1, head =>
      match findFirstXmlElement head tag with
      | none => []
      | some (elStart, elEnd) =>
          if elStart.length ≤ limit.length then []
          else elStart :: elements tag limit n elEnd

/-- The loop runs through the elements. -/
theorem elementLoop_eq (tag limit : List Char) (body : List Char → Prog σ PUnit) (n : ℕ)
    (head : List Char) :
    elementLoop tag limit body n head = Prog.forEach (elements tag limit n head) body := by
  induction n generalizing head with
  | zero => rfl
  | succ n ih =>
      unfold elementLoop elements
      cases findFirstXmlElement head tag with
      | none => rfl
      | some found =>
          by_cases hlimit : found.1.length ≤ limit.length
          · simp only [if_pos hlimit, Prog.forEach]
          · simp only [if_neg hlimit, Prog.forEach, ih]

end XmlResource

/-- An attribute, with the blanks around its parts. -/
structure XmlAttribute where
  space : List Char
  name : List Char
  equals : List Char
  quote : Char
  value : List Char
  deriving DecidableEq, Repr

/-- The kinds of markup that are not tags. -/
inductive XmlSection
  | comment | cdata | instruction | declaration
  deriving DecidableEq, Repr

/-- The parts of the text of an XML document. -/
inductive XmlToken
  | text (s : List Char)
  | startTag (name : List Char) (attributes : List XmlAttribute) (space : List Char)
      (empty : Bool)
  | endTag (name space : List Char)
  | markup (kind : XmlSection) (s : List Char)
  deriving DecidableEq, Repr

namespace XmlSection

def opening : XmlSection → List Char
  | comment => ['<', '!', '-', '-']
  | cdata => ['<', '!', '[', 'C', 'D', 'A', 'T', 'A', '[']
  | instruction => ['<', '?']
  | declaration => ['<', '!']

def closing : XmlSection → List Char
  | comment => ['-', '-', '>']
  | cdata => [']', ']', '>']
  | instruction => ['?', '>']
  | declaration => ['>']

end XmlSection

def isBlank (c : Char) : Bool := c = ' ' || c = '\t' || c = '\n' || c = '\r'

/-- The characters a name cannot have. -/
def isDelimiter (c : Char) : Bool :=
  isBlank c || c = '<' || c = '>' || c = '/' || c = '=' || c = '"' || c = '\'' || c = '&'

/-- A name of an element or an attribute. -/
def IsXmlName (s : List Char) : Prop := s ≠ [] ∧ s.all (fun c => !isDelimiter c) = true

instance (s : List Char) : Decidable (IsXmlName s) := inferInstanceAs (Decidable (_ ∧ _))

namespace XmlAttribute

def render (a : XmlAttribute) : List Char :=
  a.space ++ a.name ++ a.equals ++ [a.quote] ++ a.value ++ [a.quote]

def WellFormed (a : XmlAttribute) : Prop :=
  (a.space ≠ [] ∧ a.space.all isBlank = true) ∧ IsXmlName a.name ∧
    a.equals.filter (fun c => !isBlank c) = ['='] ∧ (a.quote = '"' ∨ a.quote = '\'') ∧
    a.quote ∉ a.value ∧ '<' ∉ a.value

instance (a : XmlAttribute) : Decidable a.WellFormed := inferInstanceAs (Decidable (_ ∧ _))

end XmlAttribute

namespace XmlToken

def render : XmlToken → List Char
  | text s => s
  | startTag name attributes space empty =>
      '<' :: name ++ attributes.flatMap XmlAttribute.render ++ space ++
        (if empty then ['/', '>'] else ['>'])
  | endTag name space => '<' :: '/' :: name ++ space ++ ['>']
  | markup kind s => kind.opening ++ s ++ kind.closing

def WellFormed : XmlToken → Prop
  | text s => '<' ∉ s
  | startTag name attributes space _ =>
      IsXmlName name ∧ (∀ a ∈ attributes, a.WellFormed) ∧
        (attributes.map XmlAttribute.name).Nodup ∧ space.all isBlank = true
  | endTag name space => IsXmlName name ∧ space.all isBlank = true
  | markup kind s => find kind.closing s = none

instance (t : XmlToken) : Decidable t.WellFormed :=
  match t with
  | text _ => inferInstanceAs (Decidable (¬ _))
  | startTag _ _ _ _ => inferInstanceAs (Decidable (_ ∧ _))
  | endTag _ _ => inferInstanceAs (Decidable (_ ∧ _))
  | markup _ _ => inferInstanceAs (Decidable (_ = _))

/-- The token is a start tag of the given element. -/
def opens (tag : List Char) : XmlToken → Bool
  | startTag name _ _ _ => name = tag
  | _ => false

end XmlToken

/-- Every start tag has its end tag; the first argument are the tags that are open. -/
def xmlBalanced : List (List Char) → List XmlToken → Bool
  | stack, [] => stack.isEmpty
  | stack, .startTag _ _ _ true :: l => xmlBalanced stack l
  | stack, .startTag name _ _ false :: l => xmlBalanced (name :: stack) l
  | [], .endTag _ _ :: _ => false
  | top :: stack, .endTag name _ :: l => decide (top = name) && xmlBalanced stack l
  | stack, _ :: l => xmlBalanced stack l

/-- A well-formed XML document, as a list of tokens. -/
structure XmlDocument where
  tokens : List XmlToken
  wellFormed : ∀ t ∈ tokens, t.WellFormed
  balanced : xmlBalanced [] tokens = true

namespace XmlDocument

/-- The text of a list of tokens. -/
def textOf (l : List XmlToken) : List Char := l.flatMap XmlToken.render

/-- The text of a document. -/
def text (d : XmlDocument) : List Char := textOf d.tokens

/-- Where the elements of a tag start, in document order. -/
def startsOf (tag : List Char) : List XmlToken → List (List Char)
  | [] => []
  | t :: l => if t.opens tag then textOf (t :: l) :: startsOf tag l else startsOf tag l

/-- The elements of a tag that start between two places of the document. -/
def startsIn (d : XmlDocument) (tag head limit : List Char) : List (List Char) :=
  (startsOf tag d.tokens).filter fun p => p.length ≤ head.length && limit.length < p.length

end XmlDocument

end NanoAgent
