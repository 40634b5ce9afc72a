import Folio.Text.Quoted

/-!
# Choices on the command line

A choice is made with a word that begins with a dash.  A flag stands alone,
and a setting has a value.  Some choices have a short spelling of one dash and
a letter besides the long one.
-/

namespace Folio.Command

inductive Flag where
  | help
  | bodyOnly
  | titleHeading
  | plain
  | verbose
  | version
  deriving DecidableEq, Repr

inductive Setting where
  | output
  | bodyClass
  | stylesheet
  | encoding
  deriving DecidableEq, Repr

inductive Choice where
  | flag (flag : Flag)
  | setting (setting : Setting)
  deriving DecidableEq, Repr

/-- All spellings, in the order in which they are listed to the user. -/
def spellings : List (String × Choice) :=
  [("-h", .flag .help), ("--help", .flag .help),
    ("-o", .setting .output), ("--output", .setting .output),
    ("--body-only", .flag .bodyOnly),
    ("--title-heading", .flag .titleHeading),
    ("--body-class", .setting .bodyClass),
    ("--stylesheet", .setting .stylesheet),
    ("--no-pretty", .flag .plain),
    ("-e", .setting .encoding), ("--encoding", .setting .encoding),
    ("-v", .flag .verbose), ("--verbose", .flag .verbose),
    ("--version", .flag .version)]

def Choice.ofLetter? (letter : Char) : Option Choice :=
  spellings.lookup (String.ofList ['-', letter])

def Choice.label (choice : Choice) : String :=
  "/".intercalate ((spellings.filter (·.2 = choice)).map Prod.fst)

inductive Misuse where
  /-- A shortened spelling may stand for several. -/
  | ambiguous (word : String) (candidates : List String)
  | valueMissing (setting : Setting)
  | valueRefused (flag : Flag) (value : String)
  | unrecognized (words : List String)
  | inputMissing
  deriving DecidableEq, Repr

def Misuse.message : Misuse → String
  | ambiguous word candidates =>
      "ambiguous option: " ++ word ++ " could match " ++ ", ".intercalate candidates
  | valueMissing setting =>
      "argument " ++ (Choice.setting setting).label ++ ": expected one argument"
  | valueRefused flag value =>
      "argument " ++ (Choice.flag flag).label ++ ": ignored explicit argument " ++
        Text.quoted value
  | unrecognized words => "unrecognized arguments: " ++ " ".intercalate words
  | inputMissing => "the following argument is required: input"

end Folio.Command
