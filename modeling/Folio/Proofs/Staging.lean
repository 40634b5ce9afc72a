import Folio.Proofs.Linking
import Folio.Proofs.Pointers
import Mathlib.Data.List.Forall2

/-!
# Tooltips and blobs are used once

A tooltip waits for the next link or image and is dropped by a line that resets; a blob
waits for the next image without content, and nothing else drops it but another blob.
What waits in front of a line is therefore what the latest of certain lines left, and
each link and image of a page is known from its line and the lines before it.
-/

namespace Folio

open Markup Render

/-! ### What waits in front of a line -/

/-- A line leaves this tooltip for later ones. -/
def Line.hints (text : String) : Line → Prop
  | .directive line => line.kind = .hint ∧ line.content.asText = text
  | _ => False

/-- A line leaves this blob for later ones. -/
def Line.stores (blob : Blob) : Line → Prop
  | .directive line => line.kind = .blob ∧ ⟨line.mediaType, line.data⟩ = blob
  | _ => False

/-- A line uses the waiting blob up. -/
def Line.takesBlob : Line → Bool
  | .directive line => line.kind == .image && line.content.isVoid
  | _ => false

/-- The tooltip that waits in front of a line is that of the latest hint, unless a link
or an image comes in between, or a line resets. -/
def Awaits (before : List Line) (text : String) : Prop :=
  ∃ front hint between, before = front ++ hint :: between ∧ hint.hints text ∧
    ∀ line ∈ between, line.isKind [.hint] = false ∧ line.isKind [.link, .image] = false ∧
      line.resets = false

/-- The blob that waits in front of a line is the latest one, unless an image has used it
up. -/
def Keeps (before : List Line) (blob : Blob) : Prop :=
  ∃ front store between, before = front ++ store :: between ∧ store.stores blob ∧
    ∀ line ∈ between, line.isKind [.blob] = false ∧ line.takesBlob = false

/-- What an element has to be that stands for a link or an image, given the lines before
that.  An image has content of its own unless that is absent, empty, zero or off. -/
structure Made (before : List Line) (line : Directive) (element : Node) : Prop where
  link : line.kind = .link →
    element.tag = "a" ∧ element.get? "href" = some line.content.asText
  image : line.kind = .image → element.tag = "img"
  source : line.kind = .image → line.content.isVoid = false →
    element.get? "src" = some line.content.asText
  blob : line.kind = .image → line.content.isVoid = true →
    ∃ blob, Keeps before blob ∧ element.get? "src" = some blob.address
  tooltip (text : String) : element.get? "title" = some text ↔
    Awaits before text ∧ text ≠ "" ∧ line.reset = false

/-- The links and images among some lines whose content goes inside tables, or outside,
each with the lines before and after it. -/
def pointerLines (inTable : Bool) (lines : List Line) : List (List Line × Line × List Line) :=
  (splits lines).filter fun (before, line, _) =>
    line.isKind [.link, .image] && (destinationAfter before == .cell) == inTable

/-- An element stands for a link or an image chosen among some lines. -/
def Stands (choice : List Line × Line × List Line) (element : Node) : Prop :=
  match choice with
  | (before, .directive line, _) => Made before line element
  | _ => False

/-- The links and images of a page are those of the lines, in their order, and only they
have tooltips.  No two images share a blob: behind the first of them the second finds
another one. -/
structure Staged (lines : List Line) (page : Node) : Prop where
  made (inTable : Bool) :
    List.Forall₂ Stands (pointerLines inTable lines) (page.pointersOn inTable)
  unshared {front between after : List Line} {first second : Line}
    (split : lines = front ++ first :: (between ++ second :: after))
    (takesFirst : first.takesBlob = true) (takesSecond : second.takesBlob = true) :
    ∃ store ∈ between, store.isKind [.blob] = true
  others : ∀ element ∈ page.elements, (element.get? "title").isSome = true →
    element.isPointer = true

/-! ### Registers -/

/-- What waits behind lines was left by one of them and kept since, or waited in front of
them and was kept by all. -/
theorem register_foldl {Held : Type} (register : Situation → Option Held) {held : Held}
    {sets keeps : Line → Prop}
    (law : ∀ situation line, register (situation.after line) = some held ↔
      sets line ∨ register situation = some held ∧ keeps line)
    (situation : Situation) (lines : List Line) :
    register (lines.foldl Situation.after situation) = some held ↔
      (register situation = some held ∧ ∀ line ∈ lines, keeps line) ∨
        ∃ front setter between, lines = front ++ setter :: between ∧ sets setter ∧
          ∀ line ∈ between, keeps line := by
  induction lines generalizing situation with
  | nil => simp
  | cons line rest inductionHypothesis =>
      rw [List.foldl_cons, inductionHypothesis, law, List.forall_mem_cons]
      constructor
      · rintro (⟨set | ⟨waited, kept⟩, all⟩ | ⟨front, setter, between, rfl, set, kept⟩)
        · exact .inr ⟨[], line, rest, rfl, set, all⟩
        · exact .inl ⟨waited, kept, all⟩
        · exact .inr ⟨line :: front, setter, between, rfl, set, kept⟩
      · rintro (⟨waited, kept, all⟩ | ⟨front, setter, between, split, set, kept⟩)
        · exact .inl ⟨.inr ⟨waited, kept⟩, all⟩
        · cases front with
          | nil =>
              obtain ⟨rfl, rfl⟩ := List.cons.inj split
              exact .inl ⟨.inl set, kept⟩
          | cons first front =>
              obtain ⟨rfl, rfl⟩ := List.cons.inj split
              exact .inr ⟨front, setter, between, rfl, set, kept⟩

section

variable (situation : Situation) (line : Line)

theorem hint_ready :
    (situation.ready line).hint = if line.resets then none else situation.hint := by
  unfold Situation.ready
  split <;> rfl

theorem blob_ready : (situation.ready line).blob = situation.blob := by
  unfold Situation.ready
  split <;> rfl

theorem hint_after (text : String) :
    (situation.after line).hint = some text ↔
      line.hints text ∨ situation.hint = some text ∧
        line.isKind [.hint] = false ∧ line.isKind [.link, .image] = false ∧
          line.resets = false := by
  have kept : (situation.ready line).hint = some text ↔
      situation.hint = some text ∧ line.resets = false := by
    rw [hint_ready]
    cases line.resets <;> simp
  cases line with
  | run run => simpa [Situation.after, Line.hints, Line.isKind] using kept
  | foreign shown => simpa [Situation.after, Line.hints, Line.isKind] using kept
  | directive line =>
      cases kind : line.kind <;>
        simp [Situation.after, Situation.obey, Line.hints, Line.isKind, kind, kept]

theorem blob_after (blob : Blob) :
    (situation.after line).blob = some blob ↔
      line.stores blob ∨ situation.blob = some blob ∧
        line.isKind [.blob] = false ∧ line.takesBlob = false := by
  have kept := blob_ready situation line
  cases line with
  | run run => simp [Situation.after, Line.stores, Line.isKind, Line.takesBlob, kept]
  | foreign shown => simp [Situation.after, Line.stores, Line.isKind, Line.takesBlob, kept]
  | directive line =>
      cases kind : line.kind <;>
        simp [Situation.after, Situation.obey, Line.stores, Line.isKind, Line.takesBlob, kind, kept,
          and_comm (a := line.content.isVoid = false)]

end

theorem hint_reached {lines : List Line} {text : String} :
    (Situation.reached lines).hint = some text ↔ Awaits lines text := by
  rw [Situation.reached, register_foldl Situation.hint (hint_after · · text)]
  simp [Situation.start, Awaits]

theorem blob_reached {lines : List Line} {blob : Blob} :
    (Situation.reached lines).blob = some blob ↔ Keeps lines blob := by
  rw [Situation.reached, register_foldl Situation.blob (blob_after · · blob)]
  simp [Situation.start, Keeps]

theorem Line.stores.isKind {line : Line} {blob : Blob} (stores : line.stores blob) :
    line.isKind [.blob] = true := by
  cases line with
  | directive line => simp [Line.isKind, stores.1]
  | _ => exact stores.elim

/-- Behind an image that has used the blob up none waits until there is another. -/
theorem exists_stores {situation : Situation} {first : Line} {between : List Line} {blob : Blob}
    (takes : first.takesBlob = true)
    (waiting : ((first :: between).foldl Situation.after situation).blob = some blob) :
    ∃ store ∈ between, store.stores blob := by
  have unset : ¬(situation.after first).blob = some blob := by
    rw [blob_after, takes]
    rintro (stores | ⟨-, -, keeps⟩)
    · cases first with
      | directive line =>
          have image : line.kind = .image := by
            simpa using (Bool.and_eq_true_iff.mp takes).1
          exact absurd (image.symm.trans stores.1) (by decide)
      | _ => exact stores
    · cases keeps
  rw [List.foldl_cons, register_foldl Situation.blob (blob_after · · blob)] at waiting
  rcases waiting with ⟨held, -⟩ | ⟨front, store, rest, rfl, stores, -⟩
  · exact absurd held unset
  · exact ⟨store, by simp, stores⟩

/-! ### The lines of a page -/

/-- Whether an element is what a line stands for is a matter of its tag and attributes. -/
theorem Stands.of_detached {choice : List Line × Line × List Line} {element : Node}
    (stands : Stands choice element.detached) : Stands choice element := by
  obtain ⟨before, line, after⟩ := choice
  cases line with
  | directive line =>
      obtain ⟨link, image, source, blob, tooltip⟩ := stands
      exact ⟨link, image, source, blob, tooltip⟩
  | _ => exact stands.elim

theorem mem_splits {Item : Type} {items : List Item} {choice : List Item × Item × List Item}
    (member : choice ∈ splits items) : items = choice.1 ++ choice.2.1 :: choice.2.2 := by
  induction items generalizing choice with
  | nil => cases member
  | cons item rest inductionHypothesis =>
      rcases List.mem_cons.mp member with rfl | later
      · rfl
      · obtain ⟨inRest, memberOfRest, rfl⟩ := List.mem_map.mp later
        rw [inductionHypothesis memberOfRest]
        rfl

namespace Draft

/-- A line of a whole run takes effect in the situation that the lines before it lead
to. -/
theorem Sound.exists_step {draft last : Draft} (sound : draft.Sound) {before after : List Line}
    {line : Line} (ran : draft.run (before ++ line :: after) = .ok last) :
    ∃ middle next : Draft, middle.situation = before.foldl Situation.after draft.situation ∧
      middle.step line = .ok next := by
  induction before generalizing draft with
  | nil =>
      obtain ⟨next, stepped, -⟩ := run_cons_ok ran
      exact ⟨draft, next, rfl, stepped⟩
  | cons first rest inductionHypothesis =>
      obtain ⟨second, stepped, following⟩ := run_cons_ok ran
      have found := inductionHypothesis (sound.step stepped) following
      rwa [sound.situation_step stepped] at found

/-- An image without content finds a blob. -/
theorem waiting_of_step {draft next : Draft} {line : Line} (takes : line.takesBlob = true)
    (stepped : draft.step line = .ok next) : ∃ blob, draft.blob = some blob := by
  cases line with
  | directive line =>
      obtain ⟨kind, isVoid⟩ : line.kind = .image ∧ line.content.isVoid = true := by
        simpa [Line.takesBlob] using takes
      simp only [step, obey, kind] at stepped
      have shown := ok_of_mapError stepped
      obtain ⟨source, fromBlob, -⟩ := newImage_ok shown
      obtain ⟨blob, waiting, -⟩ := fromBlob isVoid
      have same : (if line.reset then draft.reset else draft).blob = draft.blob := by
        split <;> rfl
      exact ⟨blob, same.symm.trans waiting⟩
  | _ => cases takes

theorem waiting_of_run {draft : Draft} {before after : List Line} {line : Line}
    (takes : line.takesBlob = true) (ran : start.run (before ++ line :: after) = .ok draft) :
    ∃ blob, (Situation.reached before).blob = some blob := by
  obtain ⟨middle, next, reached, stepped⟩ := sound_start.exists_step ran
  have same : middle.blob = (Situation.reached before).blob := congrArg Situation.blob reached
  rw [← same]
  exact waiting_of_step takes stepped

/-! ### The attributes of links and images -/

/-- An element has a tooltip when one that is not empty waits. -/
theorem get?_title_hinted (hint : Option String) {element : Node}
    (untitled : element.get? "title" = none) (text : String) :
    (hinted hint element).get? "title" = some text ↔ hint = some text ∧ text ≠ "" := by
  unfold hinted
  split
  · simp [untitled]
  · simp [untitled, eq_comm]
  · rename_i shown filled
    have titled : (element.set "title" shown).get? "title" = some shown :=
      lookup_setAttribute "title" shown element.attributes
    rw [titled, Option.some.injEq]
    have nonempty : shown ≠ "" := fun empty => filled empty
    exact ⟨fun same => ⟨same, same ▸ nonempty⟩, And.left⟩

theorem hint_ready_reached {before : List Line} {line : Line} {text : String} :
    ((Situation.reached before).ready line).hint = some text ↔
      Awaits before text ∧ line.resets = false := by
  rw [hint_ready, ← hint_reached]
  cases line.resets <;> simp

section

variable {before : List Line} {line : Directive}

theorem made_linkNode (kind : line.kind = .link) (inside : List TextRun) :
    Made before line (linkNode line.content.asText
      ((Situation.reached before).ready (.directive line)).hint inside) := by
  have same (name : String) (hint : Option String) :
      (linkNode line.content.asText hint inside).get? name =
        (hinted hint (.new () "a" [("href", line.content.asText)])).get? name := by
    rw [linkNode_eq_flow, get?_eq_of_shell (shell_flow _ _)]
  have other (impossible : line.kind = .image) : False := by
    rw [kind] at impossible
    cases impossible
  constructor
  case link =>
    refine fun _ => ⟨(isAnchor_linkNode _ _ _).1, ?_⟩
    rw [same, get?_hinted (by decide)]
    rfl
  case image => exact fun image => (other image).elim
  case source => exact fun image => (other image).elim
  case blob => exact fun image => (other image).elim
  case tooltip =>
    intro text
    rw [same, get?_title_hinted _ rfl, hint_ready_reached, and_assoc,
      and_comm (a := _ = false)]
    rfl

theorem made_imageNode (kind : line.kind = .image)
    (waiting : line.content.isVoid = true → ∃ blob, (Situation.reached before).blob = some blob) :
    Made before line (imageNode
      (((Situation.reached before).ready (.directive line)).source line)
      ((Situation.reached before).ready (.directive line)).hint) := by
  have source (address : String) (hint : Option String) :
      (imageNode address hint).get? "src" = some address := by
    rw [imageNode, get?_hinted (by decide)]
    rfl
  constructor
  case link =>
    intro link
    rw [kind] at link
    cases link
  case image => exact fun _ => (isImage_imageNode _ _).1
  case source =>
    intro _ filled
    rw [source, Situation.source, filled]
    rfl
  case blob =>
    intro _ isVoid
    obtain ⟨blob, waits⟩ := waiting isVoid
    refine ⟨blob, blob_reached.mp waits, ?_⟩
    rw [source, Situation.source, isVoid, blob_ready, waits]
    rfl
  case tooltip =>
    intro text
    rw [imageNode, get?_title_hinted _ rfl, hint_ready_reached, and_assoc,
      and_comm (a := _ = false)]
    rfl

end

/-- The links and images that a line puts on one side of the page. -/
theorem pointers_entriesOn (situation : Situation) (inTable absorbed : Bool)
    (inside : List TextRun) (line : Line) :
    (situation.entriesOn inTable absorbed inside line).flatMap Entry.pointers =
      if situation.inTable = inTable then
        (situation.items absorbed inside line).flatMap fun item => (Entry.item item).pointers
      else [] := by
  have backs : (situation.backs line).flatMap Entry.pointers = [] := by
    cases line with
    | directive line =>
        simp only [Situation.backs]
        split <;> rfl
    | _ => rfl
  have none : (if inTable then [] else situation.backs line).flatMap Entry.pointers = [] := by
    cases inTable
    · exact backs
    · rfl
  rw [Situation.entriesOn, List.flatMap_append, none, List.append_nil]
  split
  · rw [List.flatMap_map]
  · rfl

theorem flatMap_pointers_items {line : Line} (other : line.isKind [.link, .image] = false)
    (situation : Situation) (absorbed : Bool) (inside : List TextRun) :
    ((situation.items absorbed inside line).flatMap fun item => (Entry.item item).pointers) =
      [] := by
  cases line with
  | run run => cases absorbed <;> rfl
  | foreign shown => rfl
  | directive line =>
      cases kind : line.kind with
      | link => simp [Line.isKind, kind] at other
      | image => simp [Line.isKind, kind] at other
      | destination =>
          simp only [Situation.items, kind]
          split <;> rfl
      | _ => simp [Situation.items, kind, Entry.pointers]

/-- A line that makes a link or an image makes just that, and no other line makes any. -/
theorem stands_items {before after : List Line} {line : Line}
    (waiting : line.takesBlob = true → ∃ blob, (Situation.reached before).blob = some blob)
    (pointer : line.isKind [.link, .image] = true) (absorbed : Bool) (inside : List TextRun) :
    ∃ element, Stands (before, line, after) element ∧
      (((Situation.reached before).ready line).items absorbed inside line).flatMap
        (fun item => (Entry.item item).pointers) = [element] := by
  cases line with
  | run run => cases pointer
  | foreign shown => cases pointer
  | directive line =>
      cases kind : line.kind with
      | link =>
          refine ⟨_, made_linkNode kind inside, ?_⟩
          simp [Situation.items, kind, Entry.pointers]
      | image =>
          refine ⟨_, made_imageNode kind fun isVoid => waiting ?_, ?_⟩
          · simp [Line.takesBlob, kind, isVoid]
          · simp [Situation.items, kind, Entry.pointers]
      | _ => simp [Line.isKind, kind] at pointer

theorem forall₂_filter_flatMap {Item Told : Type} {stands : Item → Told → Prop}
    {chosen : Item → Bool} {tell : Item → List Told} {items : List Item}
    (one : ∀ item ∈ items, chosen item = true →
      ∃ told, stands item told ∧ tell item = [told])
    (none : ∀ item ∈ items, chosen item = false → tell item = []) :
    List.Forall₂ stands (items.filter chosen) (items.flatMap tell) := by
  induction items with
  | nil => exact .nil
  | cons item rest inductionHypothesis =>
      have later := inductionHypothesis
        (fun other member => one other (List.mem_cons_of_mem _ member))
        (fun other member => none other (List.mem_cons_of_mem _ member))
      rw [List.flatMap_cons]
      cases first : chosen item with
      | true =>
          obtain ⟨told, holds, tells⟩ := one item List.mem_cons_self first
          rw [List.filter_cons_of_pos first, tells]
          exact .cons holds later
      | false =>
          have unchosen : ¬chosen item = true := by simp [first]
          rwa [List.filter_cons_of_neg unchosen, none item List.mem_cons_self first]

theorem inTable_ready (before : List Line) (line : Line) :
    ((Situation.reached before).ready line).inTable = (destinationAfter before == .cell) := by
  unfold Situation.ready
  split <;> rfl

theorem forall₂_pointerLines {draft : Draft} {lines : List Line}
    (ran : start.run lines = .ok draft) (inTable : Bool) :
    List.Forall₂ Stands (pointerLines inTable lines)
      ((draft.entriesOn inTable).flatMap Entry.pointers) := by
  rw [entriesOn_lines ran, List.flatMap_assoc]
  refine forall₂_filter_flatMap ?_ ?_
  · rintro ⟨before, line, after⟩ member chosen
    obtain ⟨pointer, side⟩ := Bool.and_eq_true_iff.mp chosen
    have split : lines = before ++ line :: after := mem_splits member
    rw [split] at ran
    obtain ⟨element, stands, items⟩ :=
      stands_items (fun takes => waiting_of_run takes ran) pointer
        (isEnclosed before line) (enclosedBy before line after)
    refine ⟨element, stands, ?_⟩
    change (entriesOfLine inTable before line after).flatMap Entry.pointers = [element]
    rw [entriesOfLine, pointers_entriesOn, inTable_ready, if_pos (beq_iff_eq.mp side), items]
  · rintro ⟨before, line, after⟩ - unchosen
    change (entriesOfLine inTable before line after).flatMap Entry.pointers = []
    rw [entriesOfLine, pointers_entriesOn, inTable_ready]
    rcases Bool.and_eq_false_iff.mp unchosen with other | elsewhere
    · rw [flatMap_pointers_items other, ite_self]
    · rw [if_neg (beq_eq_false_iff_ne.mp elsewhere)]

end Draft

/-- The links and images of a rendered page are those of the lines, and only they have
tooltips. -/
theorem renderTree_staged {options : Options} {document : Document} {page : Node}
    (rendered : renderTree options document = .ok page) : Staged document.lines page := by
  obtain ⟨draft, ran, rfl⟩ := Draft.renderTree_ok rendered
  constructor
  case made =>
    intro inTable
    have stands := Draft.forall₂_pointerLines ran inTable
    rw [← Draft.pointersOn_page options document, List.forall₂_map_right_iff] at stands
    exact stands.imp fun _ _ => Stands.of_detached
  case unshared =>
    intro front between after first second split takesFirst takesSecond
    have again : document.lines = (front ++ first :: between) ++ second :: after := by
      rw [split, List.append_assoc, List.cons_append]
    rw [again] at ran
    obtain ⟨blob, waiting⟩ := Draft.waiting_of_run takesSecond ran
    rw [Situation.reached, List.foldl_append] at waiting
    obtain ⟨store, member, stores⟩ := exists_stores takesFirst waiting
    exact ⟨store, member, stores.isKind⟩
  case others => exact Draft.discreet_page options document draft

/-- A tooltip and a blob, a link that takes the one and an image that takes the other. -/
def hintAndBlob : Document where
  lines :=
    [.directive { Directive.plain .hint with content := .text "t" },
      .directive { Directive.plain .blob with mediaType := "image/png", data := "AA==" },
      .directive { Directive.plain .link with content := .text "x" },
      .run ⟨"a", .plain, false⟩,
      .directive (Directive.plain .image)]
  metadata := []
  showsMetadata := false

theorem renderTree_staged_hintAndBlob :
    ∃ page, renderTree .standard hintAndBlob = .ok page ∧ Staged hintAndBlob.lines page ∧
      (page.pointersOn false).length = 2 := by
  obtain ⟨page, rendered⟩ : ∃ page, renderTree .standard hintAndBlob = .ok page := by
    rw [Draft.renderTree_eq_page]
    exact ⟨_, rfl⟩
  have staged := renderTree_staged rendered
  have lengths : (pointerLines false hintAndBlob.lines).length = 2 := by decide
  exact ⟨page, rendered, staged, (staged.made false).length_eq.symm.trans lengths⟩

end Folio
