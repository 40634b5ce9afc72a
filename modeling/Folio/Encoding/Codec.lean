import Folio.Encoding.SingleByte
import Folio.Encoding.Utf16
import Folio.Encoding.Utf8

/-!
# Encodings by name

An encoding is chosen by a name.  Letter case does not matter, and runs of
anything but ASCII letters, digits and points separate the parts of a name.

Bytes that are at hand as a whole and bytes that are read from a file are
decoded alike, with two exceptions.  A file in UTF-16 must begin with a mark of
its byte order, and a file that ends inside the mark of UTF-8 is empty.

Seven encodings are described here.  A machine may know others, and what it makes of bytes
in them is told by its codecs.  To one that knows no others every other name is unknown.
-/

namespace Folio.Encoding

inductive Codec where
  | utf8
  /-- UTF-8 whose mark, if there is one, is no part of the text. -/
  | utf8Marked
  | ascii
  | latin1
  | windows1252
  | utf16
  | utf16Ordered (order : Utf16.ByteOrder)
  deriving DecidableEq, Repr

/-- The parts of a name in lower case; a part is a run of ASCII letters, digits
and points. -/
def nameParts (name : String) : List String :=
  let (part, following) := name.toList.foldr extend ([], [])
  (keep part following).map String.ofList
where
  /-- A finished part in front of those that follow it. -/
  keep (part : List Char) (following : List (List Char)) : List (List Char) :=
    if part.isEmpty then following else part :: following
  /-- One character in front of a name whose parts are known. -/
  extend (c : Char) : List Char × List (List Char) → List Char × List (List Char)
    | (part, following) =>
        if c.isAlphanum || c = '.' then (c.toLower :: part, following)
        else ([], keep part following)

def codecNames : List (String × Codec) :=
  [("utf_8", .utf8), ("utf8", .utf8), ("utf", .utf8), ("u8", .utf8), ("utf8_ucs2", .utf8),
    ("utf8_ucs4", .utf8), ("cp65001", .utf8),
    ("utf_8_sig", .utf8Marked),
    ("ascii", .ascii), ("646", .ascii), ("ansi_x3.4_1968", .ascii), ("ansi_x3_4_1968", .ascii),
    ("ansi_x3.4_1986", .ascii), ("cp367", .ascii), ("csascii", .ascii), ("ibm367", .ascii),
    ("iso646_us", .ascii), ("iso_646.irv_1991", .ascii), ("iso_ir_6", .ascii), ("us", .ascii),
    ("us_ascii", .ascii),
    ("latin_1", .latin1), ("8859", .latin1), ("cp819", .latin1), ("csisolatin1", .latin1),
    ("ibm819", .latin1), ("iso8859", .latin1), ("iso8859_1", .latin1), ("iso_8859_1", .latin1),
    ("iso_8859_1_1987", .latin1), ("iso_ir_100", .latin1), ("l1", .latin1), ("latin", .latin1),
    ("latin1", .latin1),
    ("cp1252", .windows1252), ("1252", .windows1252), ("windows_1252", .windows1252),
    ("utf_16", .utf16), ("utf16", .utf16), ("u16", .utf16),
    ("utf_16_le", .utf16Ordered .little), ("utf_16le", .utf16Ordered .little),
    ("unicodelittleunmarked", .utf16Ordered .little),
    ("utf_16_be", .utf16Ordered .big), ("utf_16be", .utf16Ordered .big),
    ("unicodebigunmarked", .utf16Ordered .big)]

/-- Other names, in which a point may also stand for a separator. -/
def pointedNames : List String :=
  ["iso_8859_1", "iso_8859_1_1987", "iso8859_1", "utf8_ucs2", "utf8_ucs4", "iso646_us",
    "iso_ir_6", "us_ascii", "iso_ir_100", "windows_1252", "utf_16le", "utf_16be",
    "ansi_x3_4_1968"]

def Codec.ofName? (name : String) : Option Codec :=
  let joined := "_".intercalate (nameParts name)
  match codecNames.lookup joined with
  | some codec => some codec
  | none =>
      let separated := String.ofList (joined.toList.map fun c => if c = '.' then '_' else c)
      if pointedNames.contains separated then codecNames.lookup separated else none

/-- What a codec of the machine complains of. -/
inductive Complaint where
  /-- There is no such codec, or it is not meant for text. -/
  | lookup
  | decoding
  | other
  deriving DecidableEq, Repr

inductive TextFault where
  | unknownEncoding (name : String)
  /-- A name cannot hold the null character. -/
  | nullInName
  /-- The encoding does not allow the bytes. -/
  | undecodable (fault : DecodeFault)
  /-- A file in UTF-16 does not begin with a mark of its byte order. -/
  | missingMark
  | foreign (complaint : Complaint) (message : String)
  deriving DecidableEq, Repr

def TextFault.message : TextFault → String
  | unknownEncoding name => "unknown encoding: " ++ name
  | nullInName => "embedded null character"
  | undecodable fault => fault.message
  | missingMark => "UTF-16 stream does not start with BOM"
  | foreign _ message => message

/-- The text that decoded characters are, or where the bad bytes lie. -/
def settle (encoding : String) (source : List UInt8) (decoded : Except BadBytes (List Char)) :
    Except TextFault String :=
  match decoded with
  | .ok characters => .ok (String.ofList characters)
  | .error bad => .error (.undecodable (bad.locate encoding source))

/-- Decode UTF-16 in a known order; `source` holds the mark as well. -/
def decodeUtf16 (source : List UInt8) (order : Utf16.ByteOrder) (bytes : List UInt8) :
    Except TextFault String :=
  let encoding :=
    match order with
    | .little => "utf-16-le"
    | .big => "utf-16-be"
  settle encoding source (Utf16.decode order bytes)

def dropMark (bytes : List UInt8) : List UInt8 :=
  if Utf8.mark.isPrefixOf bytes then bytes.drop Utf8.mark.length else bytes

def Codec.decode (codec : Codec) (bytes : List UInt8) : Except TextFault String :=
  match codec with
  | utf8 => settle "utf-8" bytes (Utf8.decode bytes)
  | utf8Marked => settle "utf-8" (dropMark bytes) (Utf8.decode (dropMark bytes))
  | ascii => settle "ascii" bytes (SingleByte.decode SingleByte.ascii? .notAscii bytes)
  | latin1 => settle "latin-1" bytes (SingleByte.decode SingleByte.latin1? .unmapped bytes)
  | windows1252 =>
      settle "charmap" bytes (SingleByte.decode SingleByte.windows1252? .unmapped bytes)
  | utf16 =>
      match Utf16.marked? bytes with
      | some (order, unmarked) => decodeUtf16 bytes order unmarked
      | none => decodeUtf16 bytes .little bytes
  | utf16Ordered order => decodeUtf16 bytes order bytes

def Codec.decodeFile (codec : Codec) (bytes : List UInt8) : Except TextFault String :=
  match codec with
  | utf8Marked =>
      if bytes.length < Utf8.mark.length && bytes.isPrefixOf Utf8.mark then .ok ""
      else codec.decode bytes
  | utf16 => do
      let text ← codec.decode bytes
      if (Utf16.marked? bytes).isNone && !bytes.isEmpty then throw .missingMark
      return text
  | _ => codec.decode bytes

/-- What a machine makes of bytes in encodings that are not described here, given their
names: of bytes that are at hand, and of those of a file. -/
structure Codecs where
  decode : String → List UInt8 → Except TextFault (List Text.Symbol)
  decodeFile : String → List UInt8 → Except TextFault (List Text.Symbol)

namespace Codecs

/-- A machine that knows no other encodings. -/
def bare : Codecs :=
  ⟨fun name _ => .error (.unknownEncoding name), fun name _ => .error (.unknownEncoding name)⟩

end Codecs

/-- Whether a name holds the null character, which no name of an encoding can. -/
def holdsNull (name : String) : Bool := name.toList.contains '\x00'

/-- Decode bytes in the encoding with a name.  No bytes are the empty text
whatever the encoding. -/
def decode (codecs : Codecs) (name : String) (bytes : List UInt8) :
    Except TextFault (List Text.Symbol) :=
  if holdsNull name then .error .nullInName
  else if bytes.isEmpty then .ok []
  else
    match Codec.ofName? name with
    | some codec => (codec.decode bytes).map Text.Symbol.ofText
    | none => codecs.decode name bytes

/-- Decode the bytes of a file in the encoding with a name. -/
def decodeFile (codecs : Codecs) (name : String) (bytes : List UInt8) :
    Except TextFault (List Text.Symbol) :=
  if holdsNull name then .error .nullInName
  else
    match Codec.ofName? name with
    | some codec => (codec.decodeFile bytes).map Text.Symbol.ofText
    | none => codecs.decodeFile name bytes

end Folio.Encoding
