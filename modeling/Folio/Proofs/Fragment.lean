import Folio.Proofs.Slots

/-!
# The body on its own

The body can be printed without the page around it: its children are printed one by one,
each without its tail, and neither the text of the body nor what stands behind a child is
looked at.  In a rendered page there is no text in these places, whatever lines it was
rendered from and whatever was pruned, so nothing is lost.
-/

namespace Folio

open Render Markup

namespace Markup.Element

theorem printAll_eq_join (children : List Node) :
    printAll children = String.join (children.map print) := by
  induction children with
  | nil => rfl
  | cons child rest inductionHypothesis =>
      rw [printAll, inductionHypothesis, List.map_cons, String.join_cons]

/-- An element that holds no text of its own is printed as its tags around its
children. -/
theorem print_of_textless {element : Node} (textless : element.text = none)
    (tailless : element.tail = none) :
    element.print =
      printStartTag element.tag element.attributes ++
        String.join (element.children.map print) ++ printEndTag element.tag := by
  obtain ⟨mark, tag, attributes, text, tail, children⟩ := element
  obtain rfl : text = none := textless
  obtain rfl : tail = none := tailless
  have untold : printTail none = "" := rfl
  rw [print, printAll_eq_join, printText_none, untold, String.append_empty, String.append_empty]

end Markup.Element

namespace Page

theorem prepareNode_of_plain {options : Options} (plain : options.pretty = false)
    {element : Node} (tailless : element.tail = none) :
    prepareNode options element = element := by
  rw [prepareNode, plain, detached_of_tailless tailless]
  rfl

/-- What is printed plain is printed as it is. -/
theorem serialize_of_plain {options : Options} (plain : options.pretty = false) {root : Node}
    (tight : Element.Tight root) (tailless : root.tail = none) :
    serialize options root = printPrepared options root := by
  have untailed : ∀ element ∈ printedElements options root, element.tail = none :=
    fun element member => (tight_printedElements options tight tailless element member).2
  rw [serialize_eq, stretches_prepare_of_plain plain tight tailless, printPrepared_eq untailed]

end Page

theorem render_eq_map (options : Options) (document : Document) :
    render options document = (renderTree options document).map (Page.serialize options) := by
  rw [render]
  cases renderTree options document <;> rfl

namespace Draft

/-- Behind its head a page has one body. -/
theorem printedElements_page {options : Options} (bodyOnly : options.bodyOnly = true)
    (document : Document) (draft : Draft) :
    Page.printedElements options (page options document draft) =
      (body options document draft).children := by
  have found : ((page options document draft).children.find? fun child => child.tag == "body") =
      some (body options document draft) := by
    simp [page, assemble, Page.head, Element.new]
  rw [Page.printedElements, if_pos bodyOnly, found]

/-- A page is printed as its head and its body, and the body as its children, between
their tags. -/
theorem print_page (options : Options) (document : Document) (draft : Draft) :
    (page options document draft).print =
      "<html>" ++ (Page.head options.stylesheets document).print ++
        printStartTag "body" (body options document draft).attributes ++
        String.join ((body options document draft).children.map Element.print) ++
        "</body></html>" := by
  have start : printStartTag "html" [] = "<html>" := by decide
  have ending : printEndTag "html" = "</html>" := by decide
  have bodyEnding : printEndTag "body" = "</body>" := by decide
  have endings : "</body>" ++ "</html>" = "</body></html>" := by decide
  have printedBody := Element.print_of_textless (text_body options document draft)
    (tail_body options document draft)
  rw [tag_body, bodyEnding] at printedBody
  have printedPage : (page options document draft).print =
      printStartTag "html" [] ++
        String.join ([Page.head options.stylesheets document,
          body options document draft].map Element.print) ++ printEndTag "html" :=
    Element.print_of_textless rfl rfl
  rw [printedPage, start, ending, List.map_cons, List.map_singleton, String.join_cons,
    String.join_cons, String.join_nil, String.append_empty, printedBody, ← endings]
  simp only [String.append_assoc]

/-- A document that is rendered was drafted first. -/
theorem render_ok {options : Options} {document : Document} {output : String}
    (rendered : render options document = .ok output) :
    ∃ draft, start.run document.lines = .ok draft ∧
      Page.serialize options (page options document draft) = output := by
  rw [render_eq_map, renderTree_eq_page] at rendered
  cases ran : start.run document.lines with
  | error failure =>
      rw [ran] at rendered
      cases rendered
  | ok draft =>
      rw [ran] at rendered
      exact ⟨draft, rfl, Except.ok.inj rendered⟩

theorem render_of_run (options : Options) {document : Document} {draft : Draft}
    (ran : start.run document.lines = .ok draft) :
    render options document = .ok (Page.serialize options (page options document draft)) := by
  rw [render_eq_map, renderTree_eq_page, ran]
  rfl

/-- The whole page is printed behind the document type line. -/
theorem serialize_page {options : Options} (whole : options.bodyOnly = false)
    (document : Document) (draft : Draft) :
    Page.serialize options (page options document draft) =
      "<!DOCTYPE html>\n" ++
        (Page.prepareNode options (page options document draft)).print := by
  have printed : Page.printedElements options (page options document draft) =
      [page options document draft] := by
    rw [Page.printedElements, whole]
    rfl
  rw [Page.serialize, Page.printPrepared, Page.printedElements_prepare, printed,
    Page.joinPrinted, whole, List.map_singleton, List.map_singleton, String.join_cons,
    String.join_nil, String.append_empty]
  rfl

theorem render_inside {options : Options} (plain : options.pretty = false)
    (bodyOnly : options.bodyOnly = true) {document : Document} {draft : Draft}
    (ran : start.run document.lines = .ok draft) :
    render options document =
      .ok ("\n".intercalate ((body options document draft).children.map Element.print)) := by
  have tight : Element.Tight (page options document draft) :=
    (isPage_page options document (laid_of_run ran)).tight
  rw [render_of_run options ran, Page.serialize_of_plain plain tight rfl, Page.printPrepared,
    printedElements_page bodyOnly, Page.joinPrinted, if_pos bodyOnly]

theorem render_around {options : Options} (plain : options.pretty = false)
    (whole : options.bodyOnly = false) {document : Document} {draft : Draft}
    (ran : start.run document.lines = .ok draft) :
    render options document =
      .ok ("<!DOCTYPE html>\n" ++ (page options document draft).print) := by
  rw [render_of_run options ran, serialize_page whole,
    Page.prepareNode_of_plain plain rfl]

end Draft

/-- The body printed on its own is, child by child, what stands between its start tag and
its end tag in the printed page.  No text is left out: the body has none of its own, and
none stands behind a child. -/
theorem render_bodyOnly {options : Options} (plain : options.pretty = false)
    {document : Document} {output : String} (rendered : render options document = .ok output) :
    ∃ tree body, renderTree options document = .ok tree ∧
      tree.children = [Page.head options.stylesheets document, body] ∧
      body.tag = "body" ∧ body.attributes = (bodyWith options.bodyClasses).attributes ∧
      body.text = none ∧ (∀ child ∈ body.children, child.tail = none) ∧
      render { options with bodyOnly := true } document =
        .ok ("\n".intercalate (body.children.map Element.print)) ∧
      render { options with bodyOnly := false } document =
        .ok ("<!DOCTYPE html>\n" ++ ("<html>" ++
          (Page.head options.stylesheets document).print ++
          printStartTag "body" body.attributes ++
          String.join (body.children.map Element.print) ++ "</body></html>")) := by
  obtain ⟨draft, ran, -⟩ := Draft.render_ok rendered
  have built : renderTree options document = .ok (Draft.page options document draft) := by
    rw [Draft.renderTree_eq_page, ran]
    rfl
  have bare := (Draft.isBody_body options document (Draft.laid_of_run ran)).bare
  -- The tree is the same, whatever of it is printed.
  have plainAlso (bodyOnly : Bool) :
      ({ options with bodyOnly := bodyOnly } : Options).pretty = false := plain
  have inside : render { options with bodyOnly := true } document =
      .ok ("\n".intercalate ((Draft.body options document draft).children.map Element.print)) :=
    Draft.render_inside (plainAlso true) rfl ran
  have around : render { options with bodyOnly := false } document =
      .ok ("<!DOCTYPE html>\n" ++ (Draft.page options document draft).print) :=
    Draft.render_around (plainAlso false) rfl ran
  rw [Draft.print_page] at around
  exact ⟨Draft.page options document draft, Draft.body options document draft, built, rfl,
    bare.tagged, rfl, bare.textless, bare.tailless, inside, around⟩

/-- A page whose body holds a heading, two sections and the rule between them. -/
def parted : Document where
  lines :=
    [.run ⟨"a", { RunStyle.plain with italic := true }, false⟩,
      .run ⟨"\n\nb", .plain, false⟩,
      .directive { Directive.plain .newSection with breakBefore := true },
      .run ⟨"c", .plain, false⟩]
  metadata := [("title", ["t"])]
  showsMetadata := true

def titledPlain : Options :=
  { Options.standard with titleHeading := true, bodyClasses := ["x"], pretty := false }

theorem render_bodyOnly_parted :
    titledPlain.pretty = false ∧ ∃ output, render titledPlain parted = .ok output ∧
      ∃ tree body, renderTree titledPlain parted = .ok tree ∧
        tree.children = [Page.head titledPlain.stylesheets parted, body] ∧
        body.tag = "body" ∧ body.attributes = (bodyWith titledPlain.bodyClasses).attributes ∧
        body.text = none ∧ (∀ child ∈ body.children, child.tail = none) ∧
        render { titledPlain with bodyOnly := true } parted =
          .ok ("\n".intercalate (body.children.map Element.print)) ∧
        render { titledPlain with bodyOnly := false } parted =
          .ok ("<!DOCTYPE html>\n" ++ ("<html>" ++
            (Page.head titledPlain.stylesheets parted).print ++
            printStartTag "body" body.attributes ++
            String.join (body.children.map Element.print) ++ "</body></html>")) := by
  obtain ⟨output, rendered⟩ : ∃ output, render titledPlain parted = .ok output := by
    rw [render_eq_map, Draft.renderTree_eq_page]
    exact ⟨_, rfl⟩
  exact ⟨rfl, output, rendered, render_bodyOnly rfl rendered⟩

end Folio
