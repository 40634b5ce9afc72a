import Folio.Text.Caseless
import Folio.Text.Quoted

/-!
# The log

Records have a level, and a log that is set up writes those at or above its
threshold, each behind the name of its level.  A log that was never set up
writes warnings and whatever is more severe, without the level.

A threshold is given by a number or by a name in any case.  Names are known for
levels, but also for the layouts that records can have, and a layout is no
threshold.
-/

namespace Folio.Log

inductive Threshold where
  | number (level : Int)
  | name (text : String)
  deriving DecidableEq, Repr

/-- A layout of records: the sign that its fields begin with, the kind of
pattern, and the pattern. -/
structure Layout where
  sign : String
  kind : String
  pattern : String
  deriving DecidableEq, Repr

def Layout.basic : Layout := ⟨"%", "PercentStyle", "%(levelname)s:%(name)s:%(message)s"⟩

def layouts : List Layout :=
  [.basic,
    ⟨"\x7b", "StrFormatStyle", "\x7blevelname\x7d:\x7bname\x7d:\x7bmessage\x7d"⟩,
    ⟨"$", "StringTemplateStyle", "$\x7blevelname\x7d:$\x7bname\x7d:$\x7bmessage\x7d"⟩]

def Layout.shown (layout : Layout) : String :=
  Text.quoted layout.sign ++ ": (<class 'logging." ++ layout.kind ++ "'>, " ++
    Text.quoted layout.pattern ++ ")"

inductive Meaning where
  | level (level : Int)
  | pattern (text : String)
  | layoutTable
  deriving DecidableEq, Repr

/-- What the known names stand for; a level may have several. -/
def meanings : List (String × Meaning) :=
  [("CRITICAL", .level 50), ("FATAL", .level 50), ("ERROR", .level 40), ("WARNING", .level 30),
    ("WARN", .level 30), ("INFO", .level 20), ("DEBUG", .level 10), ("NOTSET", .level 0),
    ("BASIC_FORMAT", .pattern Layout.basic.pattern), ("_STYLES", .layoutTable)]

inductive Refusal where
  | text (text : String)
  | layoutTable
  deriving DecidableEq, Repr

def Refusal.message : Refusal → String
  | text refused => "Unknown level: " ++ Text.quoted refused
  | layoutTable =>
      "Level not an integer or a valid string: \x7b" ++
        ", ".intercalate (layouts.map Layout.shown) ++ "\x7d"

def debug : Int := 10

def info : Int := 20

def warning : Int := 30

def Meaning.toLevel : Meaning → Except Refusal Int
  | level meant => .ok meant
  | pattern text => .error (.text text)
  | layoutTable => .error .layoutTable

/-- The level a threshold stands for; a name that is unknown stands for
information. -/
def Threshold.level : Threshold → Except Refusal Int
  | number level => .ok level
  | name text => ((meanings.lookup (Text.upper text)).getD (.level info)).toLevel

def levelText (level : Int) : String :=
  if level = 50 then "CRITICAL"
  else if level = 40 then "ERROR"
  else if level = 30 then "WARNING"
  else if level = 20 then "INFO"
  else if level = 10 then "DEBUG"
  else if level = 0 then "NOTSET"
  else "Level " ++ toString level

structure Record where
  level : Int
  text : String
  deriving DecidableEq, Repr

/-- The state of the log: its threshold, and the thresholds of what it writes
to. -/
structure Settings where
  level : Int
  handlers : List Int
  deriving DecidableEq, Repr

def Settings.initial : Settings := ⟨warning, []⟩

def Settings.ofLevel (level : Int) : Settings := ⟨level, [level]⟩

/-- Set the log up; whatever it wrote to before is forgotten. -/
def Settings.configure (_ : Settings) (threshold : Threshold) : Except Refusal Settings :=
  threshold.level.map .ofLevel

/-- What the log writes for a record.  A record whose level is not positive is
never written. -/
def Settings.write (settings : Settings) (record : Record) : String :=
  if record.level ≤ 0 ∨ record.level < settings.level then ""
  else
    match settings.handlers with
    | [] => if warning ≤ record.level then record.text ++ "\n" else ""
    | handlers =>
        String.join ((handlers.filter (· ≤ record.level)).map fun _ =>
          levelText record.level ++ ": " ++ record.text ++ "\n")

/-- What the log writes for records one after the other. -/
def Settings.writeAll (settings : Settings) (records : List Record) : String :=
  String.join (records.map settings.write)

end Folio.Log
