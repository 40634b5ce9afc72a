import Folio.Text.Quoted
import Folio.Text.Whole

/-!
# Lines of a document

A document is a sequence of lines.  A directive steers the rendering: it opens
a section, a paragraph or a table, sends what follows to another destination,
or places a link, an anchor or an image.  A text run is text with one set of
styles.  Directives of every kind have the same fields; those a kind does not
use keep the values they were given.

A number in a directive has no more digits than can be written out.  With more it
could not be shown in a page or in a message, and no text is read as such a number.
-/

namespace Folio

inductive DirectiveKind where
  | newSection
  | newParagraph
  | hint
  | link
  | anchor
  | blob
  | image
  | table
  | destination
  deriving DecidableEq, Repr

inductive Destination where
  /-- The running text of the current section. -/
  | body
  | note
  | cell
  | head
  deriving DecidableEq, Repr

inductive Alignment where
  | unset
  | left
  | center
  | right
  | justify
  deriving DecidableEq, Repr

namespace DirectiveKind

def names : List (String × DirectiveKind) :=
  [("section", newSection), ("paragraph", newParagraph), ("hint", hint), ("link", link),
    ("anchor", anchor), ("blob", blob), ("image", image), ("table", table),
    ("destination", destination)]

def ofName? (name : String) : Option DirectiveKind := names.lookup name

def name : DirectiveKind → String
  | newSection => "section"
  | newParagraph => "paragraph"
  | hint => "hint"
  | link => "link"
  | anchor => "anchor"
  | blob => "blob"
  | image => "image"
  | table => "table"
  | destination => "destination"

theorem ofName?_name (kind : DirectiveKind) : ofName? kind.name = some kind := by
  cases kind <;> decide

end DirectiveKind

namespace Destination

/-- Every destination with the name it is written with. -/
def names : List (String × Destination) :=
  [("body", body), ("note", note), ("cell", cell), ("head", head)]

def ofName? (name : String) : Option Destination := names.lookup name

def name : Destination → String
  | body => "body"
  | note => "note"
  | cell => "cell"
  | head => "head"

theorem ofName?_name (destination : Destination) :
    ofName? destination.name = some destination := by
  cases destination <;> decide

end Destination

namespace Alignment

/-- Every alignment with the name it is written with. -/
def names : List (String × Alignment) :=
  [("none", unset), ("left", left), ("center", center), ("right", right),
    ("justify", justify)]

def ofName? (name : String) : Option Alignment := names.lookup name

def name : Alignment → String
  | unset => "none"
  | left => "left"
  | center => "center"
  | right => "right"
  | justify => "justify"

theorem ofName?_name (alignment : Alignment) : ofName? alignment.name = some alignment := by
  cases alignment <;> decide

end Alignment

/-- What a directive carries: an address, a tooltip, a column count. -/
inductive Content where
  | absent
  | text (value : String)
  | number (value : Whole)
  | flag (value : Bool)
  deriving DecidableEq, Repr

namespace Content

def flagText (value : Bool) : String := if value then "True" else "False"

/-- Whether there is nothing to show: no content, an empty text, zero or a flag
that is off. -/
def isVoid : Content → Bool
  | absent => true
  | text value => value.isEmpty
  | number value => value.value == 0
  | flag value => !value

/-- The content as text; absent content is the empty text. -/
def asText : Content → String
  | absent => ""
  | text value => value
  | number value => toString value
  | flag value => flagText value

def shown : Content → String
  | absent => "None"
  | text value => Text.quoted value
  | number value => toString value
  | flag value => flagText value

end Content

inductive Target where
  | missing
  | unknown (name : String)
  | known (destination : Destination)
  deriving DecidableEq, Repr

def Target.ofName (name : String) : Target :=
  match Destination.ofName? name with
  | some destination => known destination
  | none => unknown name

structure Directive where
  kind : DirectiveKind
  content : Content
  alignment : Alignment
  /-- Whether a rule separates the new section from the ones before it. -/
  breakBefore : Bool
  target : Target
  header : Bool
  mediaType : String
  data : String
  /-- Whether the open link and the tooltip are dropped first. -/
  reset : Bool
  deriving DecidableEq, Repr

/-- A directive of a kind with every other field at rest. -/
def Directive.plain (kind : DirectiveKind) : Directive :=
  ⟨kind, .absent, .unset, false, .missing, false, "", "", false⟩

structure RunStyle where
  italic : Bool
  bold : Bool
  underline : Bool
  strikeout : Bool
  mono : Bool
  supertext : Bool
  subtext : Bool
  deriving DecidableEq, Repr

def RunStyle.plain : RunStyle := ⟨false, false, false, false, false, false, false⟩

structure TextRun where
  text : String
  style : RunStyle
  /-- Whether the open link and the tooltip are dropped first. -/
  reset : Bool
  deriving DecidableEq, Repr

inductive Line where
  | directive (line : Directive)
  | run (line : TextRun)
  /-- Something that is no line but has the flag of lines, which is off.  Only the way a
  message shows it is known. -/
  | foreign (shown : String)
  deriving DecidableEq, Repr

/-- Whether a line drops the open link and the tooltip before it takes
effect. -/
def Line.resets : Line → Bool
  | directive line => line.reset
  | run line => line.reset
  | foreign _ => false

end Folio
