import Folio.Decimal.Notation
import Folio.Text.Quoted
import Folio.Text.Whole

/-!
# JSON values

A JSON value keeps whole numbers and floating-point numbers apart, and the
members of an object in the order in which their names first appeared.
Messages show values in a notation of their own, in which a text is quoted.
-/

namespace Folio.Json

open Decimal

inductive Value where
  | null
  | flag (value : Bool)
  | integer (value : Whole)
  | float (value : Binary64)
  | text (value : String)
  | array (items : List Value)
  | object (members : List (String × Value))

/-- Give a member of an object a value: a present one keeps its position, a new
one goes to the end. -/
def setMember (name : String) (value : Value) : List (String × Value) → List (String × Value)
  | [] => [(name, value)]
  | (other, current) :: rest =>
      if other = name then (name, value) :: rest
      else (other, current) :: setMember name value rest

/-- The members of an object as they are given one after the other. -/
def membersOf (given : List (String × Value)) : List (String × Value) :=
  given.foldl (fun members (name, value) => setMember name value members) []

namespace Value

/-- Whether a value counts as true: anything but null, false, zero and what is
empty. -/
def isTrue : Value → Bool
  | null => false
  | flag value => value
  | integer number => number.value != 0
  | float value => !value.isZero
  | text value => !value.isEmpty
  | array items => !items.isEmpty
  | object members => !members.isEmpty

mutual
def shown : Value → String
  | null => "None"
  | flag value => if value then "True" else "False"
  | integer value => toString value
  | float value => value.text
  | text value => Text.quoted value
  | array items => "[" ++ ", ".intercalate (shownItems items) ++ "]"
  | object members => "\x7b" ++ ", ".intercalate (shownMembers members) ++ "\x7d"

def shownItems : List Value → List String
  | [] => []
  | item :: rest => item.shown :: shownItems rest

def shownMembers : List (String × Value) → List String
  | [] => []
  | (name, value) :: rest =>
      (Text.quoted name ++ ": " ++ value.shown) :: shownMembers rest
end

/-- A value as text: a text stands for itself, anything else is shown. -/
def asText : Value → String
  | text value => value
  | other => other.shown

end Value

end Folio.Json
