import Folio.Json.Reader

/-!
# The second picture of JSON text

In JSON an escape with four digits may stand for half of a surrogate pair.  The reader
gives such a half the character that stands for it in the first picture of a text.  For
the second picture the escape is replaced by that of the other character.  Two escapes
that make a pair stay as they are.
-/

namespace Folio.Json

/-- The code point whose hexadecimal digits a text begins with. -/
def leadingCode? : List Char → Option Nat
  | a :: b :: c :: d :: _ => hexQuad? a b c d
  | _ => none

/-- Whether a text begins with an escape for the second half of a surrogate pair. -/
def beginsWithLow : List Char → Bool
  | '\\' :: 'u' :: rest => (leadingCode? rest).any isLowSurrogate
  | _ => false

/-- Replace the escapes for halves in a text whose first escape may be the second half of
a pair.  Behind an escape without digits nothing is read, so it does not matter what
becomes of the rest. -/
def depictEscapes (isPaired : Bool) : List Char → List Char
  | '\\' :: 'u' :: a :: b :: c :: d :: rest =>
      match hexQuad? a b c d with
      | none => '\\' :: 'u' :: depictEscapes false (a :: b :: c :: d :: rest)
      | some code =>
          let pairs := !isPaired && isHighSurrogate code && beginsWithLow rest
          if isPaired || pairs || !isSurrogate code then
            '\\' :: 'u' :: a :: b :: c :: d :: depictEscapes pairs rest
          else
            '\\' :: 'u' :: 'e' :: Nat.digitChar ((code - 0xD800) / 0x100) :: c :: d ::
              depictEscapes pairs rest
  | '\\' :: letter :: rest => '\\' :: letter :: depictEscapes false rest
  | c :: rest => c :: depictEscapes false rest
  | [] => []

/-- The second picture of a text. -/
def secondPicture (source : List Text.Symbol) : String :=
  String.ofList (depictEscapes false (source.map (·.depict .second)))

/-- The first picture of a text; the reader does to it what is left to do. -/
def firstPicture (source : List Text.Symbol) : String :=
  String.ofList (source.map (·.depict .first))

example :
    depictEscapes false "\\ud83d\\ude00 \\udBff\\\\udabc".toList =
      "\\ud83d\\ude00 \\ue3ff\\\\udabc".toList := by
  decide +kernel

end Folio.Json
