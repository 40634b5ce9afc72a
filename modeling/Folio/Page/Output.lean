import Folio.Markup.Layout
import Folio.Markup.Qualified
import Folio.Page.Options

/-!
# Output of a page

A finished tree is prepared for printing and then printed.  Preparing drops the
tails of the elements that are printed on their own and, on request, lays out
their block structure; it is the only step that changes the tree.  Either the
whole tree is printed after a document type line, or each child of the body on
its own.
-/

namespace Folio.Page

open Markup

variable {Mark : Type}

def indentStep : String := "  "

/-- An element made ready to be printed on its own. -/
def prepareNode (options : Options) (element : Element Mark) : Element Mark :=
  if options.pretty then element.detached.layOut indentStep 0 else element.detached

/-- Make every child of the first body among consecutive elements ready to be
printed. -/
def prepareBody (options : Options) : List (Element Mark) → List (Element Mark)
  | [] => []
  | child :: rest =>
      if child.tag = "body" then
        { child with children := child.children.map (prepareNode options) } :: rest
      else child :: prepareBody options rest

def prepare (options : Options) (root : Element Mark) : Element Mark :=
  if options.bodyOnly then { root with children := prepareBody options root.children }
  else prepareNode options root

/-- The elements of a tree that are printed, each on its own. -/
def printedElements (options : Options) (root : Element Mark) : List (Element Mark) :=
  if options.bodyOnly then
    match root.children.find? fun child => child.tag == "body" with
    | none => []
    | some body => body.children
  else [root]

/-- The texts of the printed elements put together. -/
def joinPrinted (options : Options) (texts : List String) : String :=
  if options.bodyOnly then "\n".intercalate texts else "<!DOCTYPE html>\n" ++ String.join texts

/-- The text of a tree that is ready to be printed. -/
def printPrepared (options : Options) (root : Element Mark) : String :=
  joinPrinted options ((printedElements options root).map Element.print)

/-- The text of a tree that is ready to be printed and may have qualified
names. -/
def printPreparedQualified (options : Options) (root : Element Mark) :
    Except NameFault String := do
  return joinPrinted options (← (printedElements options root).mapM Element.printQualified)

def serialize (options : Options) (root : Element Mark) : String :=
  printPrepared options (prepare options root)

end Folio.Page
