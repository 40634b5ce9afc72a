import Folio.Markup.Element
import Folio.Text.Caseless

/-!
# Printing markup

An element is printed as a start tag, its text, its children and an end tag,
and its tail follows.  Void elements get no end tag, and the text of scripts
and style sheets is printed as it is.  Everywhere else the characters that
could start markup are replaced by entities; which ones these are differs
between text and attribute values.
-/

namespace Folio.Markup

def voidTags : List String :=
  ["area", "base", "basefont", "br", "col", "embed", "frame", "hr", "img", "input",
    "isindex", "link", "meta", "param", "source", "track", "wbr"]

/-- Tags, in lower case, whose text is printed as it is. -/
def rawTextTags : List String := ["script", "style"]

def escapeTextChar : Char → List Char
  | '&' => "&amp;".toList
  | '<' => "&lt;".toList
  | '>' => "&gt;".toList
  | c => [c]

def escapeValueChar : Char → List Char
  | '&' => "&amp;".toList
  | '>' => "&gt;".toList
  | '"' => "&quot;".toList
  | c => [c]

def escapeText (s : String) : String :=
  String.ofList (s.toList.flatMap escapeTextChar)

/-- An attribute value as printed between its quotes. -/
def escapeValue (s : String) : String :=
  String.ofList (s.toList.flatMap escapeValueChar)

def printAttribute : String × String → String
  | (name, value) => " " ++ name ++ "=\"" ++ escapeValue value ++ "\""

def printStartTag (tag : String) (attributes : List (String × String)) : String :=
  "<" ++ tag ++ String.join (attributes.map printAttribute) ++ ">"

def printEndTag (tag : String) : String :=
  if voidTags.contains (Text.lower tag) then "" else "</" ++ tag ++ ">"

def printText (tag : String) (text : Option String) : String :=
  let content := text.getD ""
  if rawTextTags.contains (Text.lower tag) then content else escapeText content

def printTail (tail : Option String) : String :=
  escapeText (tail.getD "")

namespace Element

variable {Mark : Type}

mutual
/-- The printed form of an element, its tail included. -/
def print : Element Mark → String
  | ⟨_, tag, attributes, text, tail, children⟩ =>
      printStartTag tag attributes ++ printText tag text ++ printAll children ++
        printEndTag tag ++ printTail tail

/-- Consecutive elements, printed one after the other. -/
def printAll : List (Element Mark) → String
  | [] => ""
  | child :: rest => child.print ++ printAll rest
end

end Element

end Folio.Markup
