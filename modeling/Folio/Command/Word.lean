import Folio.Command.Choice
import Folio.Text.Digit

/-!
# Words of the command line

Each word is seen as an operand or as an option before any of them takes
effect.  Text can be attached to a spelling: behind an equals sign, and behind
a short spelling also directly.  What is attached to a setting is its value.
What is attached to a flag of one letter must go on with the letter of another
choice, and whatever follows that letter is attached to it in turn, equals
signs included.  A long spelling may be shortened as long as one choice is
left.

Behind a word of two dashes everything is an operand.  So are negative numbers
and words with blanks, unless they spell a choice.  Just two dashes are no value
either: a setting that they are attached to is left without one.

Words are read as `argparse` reads them before 3.11.9 and 3.12.3.  Later versions differ
in what may be attached to a flag, behind an equals sign or with a letter that is no
choice, and keep two dashes that are attached to a setting as its value.
-/

namespace Folio.Command

inductive Length where
  | short
  | long
  deriving DecidableEq, Repr

structure Spelled where
  length : Length
  choice : Choice
  attached : Option (List Char)
  deriving DecidableEq, Repr

inductive Word where
  | operand (text : String)
  /-- The first word of exactly two dashes. -/
  | separator
  | option (spelled : Spelled)
  | unknown (text : String)
  deriving DecidableEq, Repr

/-- Whether characters are digits, with digits after a point or without.  A
line feed at the end does not count. -/
def isUnsigned (text : List Char) : Bool :=
  let digits := if text.getLast? = some '\n' then text.dropLast else text
  match digits.dropWhile Text.isDecimal with
  | [] => !digits.isEmpty
  | '.' :: fraction => !fraction.isEmpty && fraction.all Text.isDecimal
  | _ => false

/-- A word with a dash in front that spells no choice. -/
def unspelled (word : String) (behindDash : List Char) : Word :=
  if isUnsigned behindDash || behindDash.contains ' ' then .operand word else .unknown word

def candidates (shortened : String) : List (String × Choice) :=
  spellings.filter fun spelling => shortened.toList.isPrefixOf spelling.1.toList

/-- A long spelling in front of an equals sign, and the text behind it. -/
def splitLong (word : List Char) : String × Option (List Char) :=
  (String.ofList (word.takeWhile (· != '=')),
    match word.dropWhile (· != '=') with
    | [] => none
    | _ :: attached => some attached)

def seeLong (word : String) : Except Misuse Word :=
  let (spelling, attached) := splitLong word.toList
  match spellings.lookup spelling with
  | some choice => .ok (.option ⟨.long, choice, attached⟩)
  | none =>
      match candidates spelling with
      | [] => .ok (unspelled word (word.toList.drop 1))
      | [(_, choice)] => .ok (.option ⟨.long, choice, attached⟩)
      | several => .error (.ambiguous word (several.map Prod.fst))

/-- The text attached to a short spelling, given what follows its letter. -/
def attachedTo : List Char → Option (List Char)
  | [] => none
  | '=' :: attached => some attached
  | attached => some attached

def see (word : String) : Except Misuse Word :=
  match word.toList with
  | '-' :: '-' :: _ => seeLong word
  | '-' :: letter :: joined =>
      match Choice.ofLetter? letter with
      | some choice => .ok (.option ⟨.short, choice, attachedTo joined⟩)
      | none => .ok (unspelled word (letter :: joined))
  | _ => .ok (.operand word)

def seeAll : List String → Except Misuse (List Word)
  | [] => .ok []
  | word :: rest =>
      if word = "--" then .ok (.separator :: rest.map .operand)
      else do
        let seen ← see word
        let following ← seeAll rest
        return seen :: following

/-- The value in an attached text: none in a text of two dashes. -/
def valueIn (attached : List Char) : Option String :=
  if attached = ['-', '-'] then none else some (String.ofList attached)

inductive Remainder where
  | nothing
  /-- A setting is given what was found in the text attached to it. -/
  | given (setting : Setting) (value : Option String)
  | wanted (setting : Setting)
  deriving DecidableEq, Repr

/-- What a word of options asks for: some flags, and at most one setting. -/
structure Cluster where
  flags : List Flag
  remainder : Remainder
  deriving DecidableEq, Repr

/-- A choice with nothing attached to its spelling. -/
def Choice.alone : Choice → Cluster
  | .flag raised => ⟨[raised], .nothing⟩
  | .setting named => ⟨[], .wanted named⟩

/-- Read a choice whose spelling is short, with the text attached to it. -/
def Choice.readAttached : Choice → List Char → Except Misuse Cluster
  | .setting named, attached => .ok ⟨[], .given named (valueIn attached)⟩
  | .flag raised, [] => .error (.valueRefused raised "")
  | .flag raised, letter :: rest =>
      match Choice.ofLetter? letter with
      | none => .error (.valueRefused raised (String.ofList (letter :: rest)))
      | some choice => do
          let cluster ← if rest.isEmpty then .ok choice.alone else choice.readAttached rest
          return { cluster with flags := raised :: cluster.flags }

def Spelled.read : Spelled → Except Misuse Cluster
  | ⟨_, choice, none⟩ => .ok choice.alone
  | ⟨.short, choice, some attached⟩ => choice.readAttached attached
  | ⟨.long, .setting setting, some attached⟩ => .ok ⟨[], .given setting (valueIn attached)⟩
  | ⟨.long, .flag flag, some attached⟩ => .error (.valueRefused flag (String.ofList attached))

end Folio.Command
