import Folio.Command.Arguments

/-!
# Usage

What the command tells about itself, and how it answers a command line that
leads to no conversion.
-/

namespace Folio.Command

def commandName : String := "flt2html"

def usageText : String :=
  "usage: flt2html [-h] [-o OUTPUT] [--body-only] [--title-heading]\n" ++
  "                [--body-class CLASS] [--stylesheet URL] [--no-pretty]\n" ++
  "                [-e ENCODING] [-v] [--version]\n" ++
  "                [input]\n"

/-- How the command is called, and what each word means. -/
def helpText : String :=
  usageText ++
  "\n" ++
  "Render FLT line streams (JSON) as HTML.\n" ++
  "\n" ++
  "positional arguments:\n" ++
  "  input                 Path to the line-stream JSON file to convert.\n" ++
  "\n" ++
  "options:\n" ++
  "  -h, --help            show this help message and exit\n" ++
  "  -o OUTPUT, --output OUTPUT\n" ++
  "                        Output HTML file path. Defaults to <input>.html.\n" ++
  "  --body-only           Write only the contents of <body>.\n" ++
  "  --title-heading       Insert the document title as a top-level heading.\n" ++
  "  --body-class CLASS    Class to add to <body> (repeatable).\n" ++
  "  --stylesheet URL      External stylesheet to link (repeatable).\n" ++
  "  --no-pretty           Do not indent the output.\n" ++
  "  -e ENCODING, --encoding ENCODING\n" ++
  "                        Input file encoding (default: utf-8).\n" ++
  "  -v, --verbose         Print progress information.\n" ++
  "  --version             show program's version number and exit\n"

def versionText : String := commandName ++ " 1.0.0\n"

/-- What is printed when a command line is refused. -/
def Misuse.report (misuse : Misuse) : String :=
  usageText ++ commandName ++ ": error: " ++ misuse.message ++ "\n"

end Folio.Command
