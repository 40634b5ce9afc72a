import Folio.Command.Word
import Folio.Files.Path
import Folio.Render.Page

/-!
# Arguments

The words of a command line are taken one after the other.  The first operand
is the input; words that nothing can be made of are collected and reported
together at the end, whereas a flag that asks for information takes effect at
once.  This is the reading of `argparse` before 3.11.9 and 3.12.3, for one word as
for all of them.
-/

namespace Folio.Command

/-- What the words chose so far.  A setting that was left without a value has
none here, which for the output is the same as if it was never named. -/
structure Arguments where
  input : Option String
  output : Option String
  bodyOnly : Bool
  titleHeading : Bool
  bodyClasses : List (Option String)
  stylesheets : List (Option String)
  plain : Bool
  encoding : Option String
  verbose : Bool
  deriving DecidableEq, Repr

def Arguments.initial : Arguments :=
  ⟨none, none, false, false, [], [], false, some "utf-8", false⟩

inductive Stop where
  | help
  | version
  | misuse (cause : Misuse)
  deriving DecidableEq, Repr

namespace Arguments

def raise (arguments : Arguments) : Flag → Except Stop Arguments
  | .help => .error .help
  | .version => .error .version
  | .bodyOnly => .ok { arguments with bodyOnly := true }
  | .titleHeading => .ok { arguments with titleHeading := true }
  | .plain => .ok { arguments with plain := true }
  | .verbose => .ok { arguments with verbose := true }

/-- Give a setting a value or leave it without one.  Classes and style sheets
are collected; of the other settings the last value counts. -/
def assign (arguments : Arguments) (value : Option String) : Setting → Arguments
  | .output => { arguments with output := value }
  | .bodyClass => { arguments with bodyClasses := arguments.bodyClasses ++ [value] }
  | .stylesheet => { arguments with stylesheets := arguments.stylesheets ++ [value] }
  | .encoding => { arguments with encoding := value }

end Arguments

structure Reading where
  arguments : Arguments
  /-- The words that nothing could be made of. -/
  strays : List String
  deriving DecidableEq, Repr

namespace Reading

def initial : Reading := ⟨.initial, []⟩

def stray (reading : Reading) (word : String) : Reading :=
  { reading with strays := reading.strays ++ [word] }

def operand (reading : Reading) (text : String) : Reading :=
  match reading.arguments.input with
  | none => { reading with arguments := { reading.arguments with input := some text } }
  | some _ => reading.stray text

/-- Take a separator that does not follow the input directly.  It is one word
too many if there is an input already. -/
def separator (reading : Reading) : Reading :=
  if reading.arguments.input.isNone then reading else reading.stray "--"

def raiseAll (reading : Reading) (flags : List Flag) : Except Stop Reading := do
  return { reading with arguments := ← flags.foldlM Arguments.raise reading.arguments }

/-- Give a setting a value or leave it without one. -/
def assign (reading : Reading) (value : Option String) (setting : Setting) : Reading :=
  { reading with arguments := reading.arguments.assign value setting }

/-- Let a word of options take effect, given the text of the next word if that is an
operand.  Its flags are raised after the value that it wants is found.  The second
component tells whether the next word was that value. -/
def takeOption (reading : Reading) (spelled : Spelled) (following : Option String) :
    Except Stop (Reading × Bool) := do
  let cluster ← spelled.read.mapError .misuse
  match cluster.remainder, following with
  | .nothing, _ => return (← reading.raiseAll cluster.flags, false)
  | .given setting value, _ =>
      return ((← reading.raiseAll cluster.flags).assign value setting, false)
  | .wanted setting, some text =>
      return ((← reading.raiseAll cluster.flags).assign (some text) setting, true)
  | .wanted setting, none => throw (.misuse (.valueMissing setting))

/-- Take words.  A separator directly behind the input belongs to it. -/
def take (reading : Reading) : List Word → Except Stop Reading
  | [] => .ok reading
  | .operand text :: .separator :: rest =>
      if reading.arguments.input.isNone then (reading.operand text).take rest
      else (reading.operand text).separator.take rest
  | .operand text :: rest => (reading.operand text).take rest
  | .separator :: rest => reading.separator.take rest
  | .unknown text :: rest => (reading.stray text).take rest
  | .option spelled :: .operand text :: rest => do
      match ← reading.takeOption spelled (some text) with
      | (next, true) => next.take rest
      | (next, false) => next.take (.operand text :: rest)
  | .option spelled :: rest => do
      let (next, _) ← reading.takeOption spelled none
      next.take rest

end Reading

def Arguments.ofWords (words : List String) : Except Stop Arguments := do
  let seen ← (seeAll words).mapError .misuse
  let reading ← Reading.initial.take seen
  if reading.strays.isEmpty then return reading.arguments
  else throw (.misuse (.unrecognized reading.strays))

structure Request where
  input : Files.Path
  output : Files.Path
  options : Options
  /-- Where in the class list of the body a class without a name would stand, if
  one is asked for. -/
  namelessClass : Option Nat
  /-- The encoding of the input, unless it is left without a name. -/
  encoding : Option String
  verbose : Bool
  deriving DecidableEq, Repr

/-- The suffix of the files that pages are written to. -/
def pageSuffix : String := ".html"

/-- What stands for the address of a style sheet that is left without one. -/
def noAddress : String := "[]"

namespace Arguments

/-- The options of a page.  Classes without a name are not among them. -/
def options (arguments : Arguments) : Options :=
  ⟨arguments.bodyOnly, arguments.titleHeading, arguments.bodyClasses.filterMap id,
    arguments.stylesheets.map (·.getD noAddress), !arguments.plain⟩

/-- Where in the class list of the body the first class without a name would
stand: behind the words of those that were added before it. -/
def namelessClass? (arguments : Arguments) : Option Nat :=
  if arguments.bodyClasses.all Option.isSome then none
  else
    let before := (arguments.bodyClasses.takeWhile Option.isSome).filterMap id
    some (Render.bodyWith before).classes.length

/-- Where a page is written to, given where its document is read from. -/
def outputFor (arguments : Arguments) (input : Files.Path) : Files.Path :=
  match arguments.output with
  | none | some "" => input.withSuffix pageSuffix
  | some text => .ofText text

end Arguments

def Request.ofWords (words : List String) : Except Stop Request := do
  let arguments ← Arguments.ofWords words
  match arguments.input with
  | none | some "" => throw (.misuse .inputMissing)
  | some text =>
      let input := Files.Path.ofText text
      return ⟨input, arguments.outputFor input, arguments.options, arguments.namelessClass?,
        arguments.encoding, arguments.verbose⟩

end Folio.Command
