import Folio.Markup.Printer

/-!
# Qualified names

A tag or the name of an attribute can be qualified: the address of a name space
stands in braces in front of a local name.  A qualified name is printed as a
prefix that stands for the address, a colon and the local name.  Well-known
name spaces have prefixes of their own, and any other gets one with a number
when it appears first.  The outermost start tag declares the prefixes that are
used below it, in their order as texts; only `xml` needs no declaration.

A tree without qualified names is printed as it always is.
-/

namespace Folio.Markup

/-- A tag or the name of an attribute, taken apart. -/
inductive Name where
  | plain (text : String)
  | qualified (space localName : String)
  deriving DecidableEq, Repr

inductive NameFault where
  /-- A brace is opened in front and never closed. -/
  | unclosed (text : String)
  deriving DecidableEq, Repr

def NameFault.message : NameFault → String
  | unclosed _ => "not enough values to unpack (expected 2, got 1)"

/-- Take a name apart.  The last closing brace ends the address. -/
def Name.ofText (text : String) : Except NameFault Name :=
  match text.toList with
  | '\x7b' :: characters =>
      match characters.reverse.dropWhile (· != '\x7d') with
      | [] => .error (.unclosed text)
      | _ :: space =>
          .ok (.qualified (String.ofList space.reverse)
            (String.ofList (characters.reverse.takeWhile (· != '\x7d')).reverse))
  | _ => .ok (.plain text)

/-- Name spaces with the prefixes that stand for them. -/
abbrev Prefixes := List (String × String)

def undeclaredPrefix : String := "xml"

/-- The scheme of the addresses of well-known name spaces. -/
def wellKnownScheme : String := "http:"

/-- The well-known name spaces, without the scheme of their addresses. -/
def wellKnownSpaces : Prefixes :=
  [("//www.w3.org/XML/1998/namespace", undeclaredPrefix), ("//www.w3.org/1999/xhtml", "html"),
    ("//www.w3.org/1999/02/22-rdf-syntax-ns#", "rdf"), ("//schemas.xmlsoap.org/wsdl/", "wsdl"),
    ("//www.w3.org/2001/XMLSchema", "xs"), ("//www.w3.org/2001/XMLSchema-instance", "xsi"),
    ("//purl.org/dc/elements/1.1/", "dc")]

def wellKnownPrefix? (space : String) : Option String :=
  (wellKnownSpaces.find? fun known => wellKnownScheme ++ known.1 = space).map Prod.snd

namespace Prefixes

/-- The prefix that stands for a name space, given those declared so far. -/
def prefixFor (declared : Prefixes) (space : String) : String :=
  match declared.lookup space with
  | some standing => standing
  | none => (wellKnownPrefix? space).getD ("ns" ++ toString declared.length)

def note (declared : Prefixes) : Name → Prefixes
  | .plain _ => declared
  | .qualified space _ =>
      let standing := declared.prefixFor space
      if (declared.lookup space).isSome || standing = undeclaredPrefix then declared
      else declared ++ [(space, standing)]

def printName (declared : Prefixes) (text : String) : String :=
  match Name.ofText text with
  | .ok (.qualified space localName) => declared.prefixFor space ++ ":" ++ localName
  | .ok (.plain _) | .error _ => text

end Prefixes

def escapeAddressChar : Char → List Char
  | '<' => "&lt;".toList
  | '\r' => "&#13;".toList
  | '\n' => "&#10;".toList
  | '\t' => "&#09;".toList
  | c => escapeValueChar c

/-- The declaration of a prefix with the space in front of it.  Declarations
stand before the attributes. -/
def printDeclaration : String × String → String
  | (space, standing) =>
      " xmlns:" ++ standing ++ "=\"" ++
        String.ofList (space.toList.flatMap escapeAddressChar) ++ "\""

/-- Names that are all plain are taken apart into themselves. -/
theorem mapM_ofText_of_plain (names : List String)
    (plain : ∀ name ∈ names, Name.ofText name = .ok (.plain name)) :
    names.mapM Name.ofText = .ok (names.map .plain) := by
  induction names with
  | nil => rfl
  | cons name rest inductionHypothesis =>
      have following := inductionHypothesis fun other member => plain other (by simp [member])
      simp only [List.mapM_cons, plain name (by simp), following]
      rfl

theorem Prefixes.foldl_note_plain (texts : List String) (declared : Prefixes) :
    (texts.map Name.plain).foldl Prefixes.note declared = declared := by
  induction texts generalizing declared with
  | nil => rfl
  | cons text rest inductionHypothesis => exact inductionHypothesis declared

namespace Element

variable {Mark : Type}

mutual
/-- The tag of an element and the names of its attributes, and then those below
it, in document order. -/
def names : Element Mark → List String
  | ⟨_, tag, attributes, _, _, children⟩ => tag :: attributes.map Prod.fst ++ namesAll children

def namesAll : List (Element Mark) → List String
  | [] => []
  | child :: rest => child.names ++ namesAll rest
end

mutual
def rename (change : String → String) : Element Mark → Element Mark
  | ⟨mark, tag, attributes, text, tail, children⟩ =>
      ⟨mark, change tag, attributes.map fun (name, value) => (change name, value), text, tail,
        renameAll change children⟩

/-- Consecutive elements with all their names changed. -/
def renameAll (change : String → String) : List (Element Mark) → List (Element Mark)
  | [] => []
  | child :: rest => child.rename change :: renameAll change rest
end

/-- The printed form of an element whose start tag declares prefixes. -/
def printDeclaring (declared : Prefixes) : Element Mark → String
  | ⟨_, tag, attributes, text, tail, children⟩ =>
      "<" ++ tag ++ String.join (declared.map printDeclaration) ++
        String.join (attributes.map printAttribute) ++ ">" ++ printText tag text ++
        printAll children ++ printEndTag tag ++ printTail tail

/-- The printed form of an element that may have qualified names. -/
def printQualified (element : Element Mark) : Except NameFault String := do
  let names ← element.names.mapM Name.ofText
  let declared := names.foldl Prefixes.note []
  return (element.rename declared.printName).printDeclaring
    (declared.mergeSort fun first second => first.2 ≤ second.2)

mutual
theorem rename_eq_self {change : String → String} :
    (element : Element Mark) → (∀ name ∈ element.names, change name = name) →
      element.rename change = element
  | ⟨mark, tag, attributes, text, tail, children⟩, stays => by
      have tagStays : change tag = tag := stays tag (by simp [names])
      have attributesStay :
          attributes.map (fun (name, value) => (change name, value)) = attributes := by
        refine (List.map_congr_left fun pair member => ?_).trans (List.map_id attributes)
        have nameStays : change pair.1 = pair.1 :=
          stays pair.1 (List.mem_cons_of_mem tag
            (List.mem_append_left _ (List.mem_map_of_mem member)))
        simp [nameStays]
      have childrenStay := renameAll_eq_self children fun name member =>
        stays name (by simp [names, member])
      simp [rename, tagStays, attributesStay, childrenStay]

/-- Names that stay as they are change nothing in consecutive elements. -/
theorem renameAll_eq_self {change : String → String} :
    (elements : List (Element Mark)) → (∀ name ∈ namesAll elements, change name = name) →
      renameAll change elements = elements
  | [], _ => rfl
  | child :: rest, stays => by
      have childStays := rename_eq_self child fun name member =>
        stays name (by simp [namesAll, member])
      have restStays := renameAll_eq_self rest fun name member =>
        stays name (by simp [namesAll, member])
      simp [renameAll, childStays, restStays]
end

/-- An element without qualified names is printed as it always is. -/
theorem printQualified_of_plain (element : Element Mark)
    (plain : ∀ name ∈ element.names, Name.ofText name = .ok (.plain name)) :
    element.printQualified = .ok element.print := by
  have taken : element.names.mapM Name.ofText = .ok (element.names.map .plain) :=
    mapM_ofText_of_plain element.names plain
  have unchanged : element.rename (Prefixes.printName []) = element :=
    rename_eq_self element fun name member => by simp [Prefixes.printName, plain name member]
  have declaresNothing : element.printDeclaring [] = element.print := by
    cases element
    simp [printDeclaring, print, printStartTag, String.join]
  simp only [printQualified, taken]
  simp only [bind, Except.bind, pure, Except.pure, Prefixes.foldl_note_plain]
  rw [unchanged, List.mergeSort_nil, declaresNothing]

end Element

end Folio.Markup
