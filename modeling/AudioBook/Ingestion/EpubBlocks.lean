import AudioBook.Ingestion.LineBreaks
import AudioBook.Ingestion.Pipeline
import AudioBook.Texts.Markup

/-!
# Blocks of an EPUB

`extractBlocksFromXhtml` of `parsers/epub-parser.ts` listens to the events of an XHTML parser and keeps
one block open at a time: an element of `BLOCK_TAGS` starts a block, also inside another one, and what
the outer element says itself is lost then.

Main results:

- `texts_extractBlocksFromXhtml`: the blocks are the leaves.
- `narrationKept_iff`: nothing is lost if and only if no element is mixed.
-/

namespace AudioBook.EpubBlocks

open Markup NormalForm Structure

/-! ## The Extractor -/

def BLOCK_TAGS : List String :=
  ["p", "h1", "h2", "h3", "h4", "h5", "h6", "blockquote", "li", "dt", "dd"]

def isBlock (name : String) : Bool := decide (name ∈ BLOCK_TAGS)

/-- `name === 'script' || name === 'style'`. -/
def isSkipped (name : String) : Bool := decide (name = "script") || decide (name = "style")

/-- `/^h[1-6]$/.test(name) ? Number(name[1]) : undefined`. -/
def headingLevelOf (name : String) : Option ℕ :=
  match name.toList with
  | ['h', digit] => if '1' ≤ digit ∧ digit ≤ '6' then some (digit.toNat - '0'.toNat) else none
  | _ => none

/-- The `type` of a block. -/
def blockTypeOf (name : String) : BlockType :=
  if (headingLevelOf name).isSome then .heading
  else if name = "blockquote" then .blockquote
  else if name = "li" then .listItem
  else .paragraph

/-- `replace(/\s+/g, ' ').trim()`. -/
def tidyText (text : Text) : Text := trim (collapseRuns isWhitespace ' ' false text)

/-- The variables of `extractBlocksFromXhtml`. -/
structure Extractor where
  blocks : List ExtractedBlock := []
  tagCounts : String → ℕ := fun _ => 0
  charOffset : ℕ := 0
  currentTag : Option String := none
  currentText : Text := []
  skipDepth : ℕ := 0

namespace Extractor

def onopentag (s : Extractor) (name : String) : Extractor :=
  if isSkipped name then { s with skipDepth := s.skipDepth + 1 }
  else if 0 < s.skipDepth then s
  else if isBlock name then { s with currentTag := some name, currentText := [] }
  else s

def ontext (s : Extractor) (text : Text) : Extractor :=
  if 0 < s.skipDepth then s
  else if s.currentTag.isSome then { s with currentText := s.currentText ++ text }
  else s

def pushBlock (s : Extractor) (spineIndex : ℕ) (name : String) (text : Text) : Extractor :=
  let count := s.tagCounts name + 1
  { s with
    tagCounts := Function.update s.tagCounts name count
    blocks := s.blocks ++
      [{ type := blockTypeOf name
         text := text
         headingLevel := headingLevelOf name
         locator := .epub spineIndex s!"/{name}[{count}]".toList s.charOffset
         extractionMethod := .epubSpine }]
    charOffset := s.charOffset + utf16Length text + 1 }

def onclosetag (spineIndex : ℕ) (s : Extractor) (name : String) : Extractor :=
  if isSkipped name then { s with skipDepth := max 0 (s.skipDepth - 1) }
  else if 0 < s.skipDepth then s
  else if s.currentTag = some name then
    let text := tidyText s.currentText
    let s := if 0 < text.length then s.pushBlock spineIndex name text else s
    { s with currentTag := none, currentText := [] }
  else s

def step (spineIndex : ℕ) (s : Extractor) : Event String Text → Extractor
  | .opentag name => s.onopentag name
  | .text text => s.ontext text
  | .closetag name => s.onclosetag spineIndex name

def run (spineIndex : ℕ) (s : Extractor) (events : List (Event String Text)) : Extractor :=
  events.foldl (step spineIndex) s

end Extractor

/-- `extractBlocksFromXhtml`, after the parser. -/
def extractBlocksFromXhtml (events : List (Event String Text)) (spineIndex : ℕ) :
    List ExtractedBlock :=
  (Extractor.run spineIndex {} events).blocks

/-! ## Narration -/

def visible (text : Text) : Text := text.filter fun c => !isWhitespace c

/-- What the stream says inside a block element and outside scripts and styles, when the elements of
`open_` are open. -/
def narration : List String → List (Event String Text) → Text
  | _, [] => []
  | open_, .opentag name :: events => narration (name :: open_) events
  | open_, .text text :: events =>
      (if open_.any isBlock && !open_.any isSkipped then text else []) ++ narration open_ events
  | open_, .closetag _ :: events => narration open_.tail events

/-- No narration is lost, and none is said twice. -/
def NarrationKept (events : List (Event String Text)) (spineIndex : ℕ) : Prop :=
  (extractBlocksFromXhtml events spineIndex).flatMap (fun block => visible block.text) =
    visible (narration [] events)

instance (events : List (Event String Text)) (spineIndex : ℕ) :
    Decidable (NarrationKept events spineIndex) :=
  inferInstanceAs (Decidable (_ = _))

/-! ## Documents -/

/-- The text of a document, scripts and styles left out. -/
def plain : Forest String Text → Text
  | .nil => []
  | .text text rest => text ++ plain rest
  | .element name children rest =>
      (if isSkipped name then [] else plain children) ++ plain rest

/-- The text that stands in no block element of the document. -/
def own : Forest String Text → Text
  | .nil => []
  | .text text rest => text ++ own rest
  | .element name children rest =>
      (if isSkipped name || isBlock name then [] else own children) ++ own rest

/-- The text that stands in a block element of the document. -/
def narrated : Forest String Text → Text
  | .nil => []
  | .text _ rest => narrated rest
  | .element name children rest =>
      (if isSkipped name then [] else if isBlock name then plain children else narrated children) ++
        narrated rest

/-- The document contains a block element. -/
def hasBlock : Forest String Text → Bool
  | .nil => false
  | .text _ rest => hasBlock rest
  | .element name children rest =>
      (!isSkipped name && (isBlock name || hasBlock children)) || hasBlock rest

/-- The texts of the block elements that contain no other block element. -/
def leaves : Forest String Text → List Text
  | .nil => []
  | .text _ rest => leaves rest
  | .element name children rest =>
      (if isSkipped name then []
        else if isBlock name && !hasBlock children then [plain children]
        else leaves children) ++ leaves rest

/-- The visible characters that the block elements which contain others have of their own. -/
def lost : Forest String Text → Text
  | .nil => []
  | .text _ rest => lost rest
  | .element name children rest =>
      (if isSkipped name then []
        else (if isBlock name && hasBlock children then visible (own children) else []) ++
          lost children) ++ lost rest

/-- Some block element contains a block element and has text of its own that is not blank. -/
def Mixed : Forest String Text → Bool
  | .nil => false
  | .text _ rest => Mixed rest
  | .element name children rest =>
      (!isSkipped name &&
        ((isBlock name && hasBlock children && !(visible (own children)).isEmpty) ||
          Mixed children)) || Mixed rest

theorem leaves_eq_nil {document : Forest String Text} (h : hasBlock document = false) :
    leaves document = [] := by
  induction document with
  | nil => rfl
  | text text rest ih => exact ih h
  | element name children rest ihchildren ihrest =>
    rw [hasBlock, Bool.or_eq_false_iff] at h
    rw [leaves, ihrest h.2]
    cases hname : isSkipped name
    case true => simp
    case false =>
      obtain ⟨hstarts, hinner⟩ : isBlock name = false ∧ hasBlock children = false := by
        simpa [hname] using h.1
      simp [hstarts, ihchildren hinner]

/-! ## A Run over a Document -/

/-- What the extractor does while it reads something whose leaves are `leaves`, in which a block
element starts if `started`, and whose text is `plain`. -/
structure After (leaves : List Text) (started : Bool) (plain : Text) (s s' : Extractor) : Prop where
  texts : s'.blocks.map ExtractedBlock.text = s.blocks.map ExtractedBlock.text ++
    (leaves.map tidyText).filter fun text => decide (0 < text.length)
  skipDepth : s'.skipDepth = 0
  currentTag : s'.currentTag = if started then none else s.currentTag
  currentText : s'.currentText = if started then []
    else if s.currentTag.isSome then s.currentText ++ plain else s.currentText

namespace After

variable {s s' s'' : Extractor} {leaves leaves' : List Text} {started started' : Bool}
  {plain plain' : Text}

theorem refl (h : s.skipDepth = 0) : After [] false [] s s where
  texts := by simp
  skipDepth := h
  currentTag := rfl
  currentText := by simp

theorem trans (h : After leaves started plain s s') (h' : After leaves' started' plain' s' s'') :
    After (leaves ++ leaves') (started || started') (plain ++ plain') s s'' where
  texts := by rw [h'.texts, h.texts]; simp
  skipDepth := h'.skipDepth
  currentTag := by
    rw [h'.currentTag, h.currentTag]
    cases started <;> cases started' <;> rfl
  currentText := by
    rw [h'.currentText, h.currentTag, h.currentText]
    cases started <;> cases started' <;> cases s.currentTag <;> simp

theorem isBlock (h : After leaves started plain s s')
    (hblock : ∀ name ∈ s.currentTag, EpubBlocks.isBlock name = true) :
    ∀ name ∈ s'.currentTag, EpubBlocks.isBlock name = true := by
  rw [h.currentTag]
  cases started
  case false => exact hblock
  case true => simp

theorem text (h : s.skipDepth = 0) (text : Text) : After [] false text s (s.ontext text) := by
  rw [Extractor.ontext, if_neg (by omega)]
  cases htag : s.currentTag <;> exact ⟨by simp, h, by simp [htag], by simp [htag]⟩

end After

namespace Extractor

variable {s : Extractor} {spineIndex : ℕ} {name : String}

theorem run_of_skipDepth_pos (document : Forest String Text) (h : 0 < s.skipDepth) :
    run spineIndex s document.events = s := by
  induction document generalizing s with
  | nil => rfl
  | text text rest ih =>
    have hstep : s.ontext text = s := if_pos h
    rw [Forest.events, run, List.foldl_cons, step, hstep]
    exact ih h
  | element name children rest ihchildren ihrest =>
    have hclose : (run spineIndex (s.onopentag name) children.events).onclosetag spineIndex name =
        s := by
      by_cases hname : isSkipped name = true
      · rw [onopentag, if_pos hname, ihchildren (Nat.succ_pos _), onclosetag, if_pos hname]
        simp
      · rw [onopentag, if_neg hname, if_pos h, ihchildren h, onclosetag, if_neg hname, if_pos h]
    rw [Forest.events, run, List.foldl_cons, List.foldl_append, List.foldl_cons]
    change run spineIndex ((run spineIndex (s.onopentag name) children.events).onclosetag spineIndex
      name) rest.events = s
    rw [hclose]
    exact ihrest h

theorem after_skipped (children : Forest String Text) (hs : s.skipDepth = 0)
    (hname : isSkipped name = true) :
    After [] false [] s
      ((run spineIndex (s.onopentag name) children.events).onclosetag spineIndex name) := by
  rw [onopentag, if_pos hname, run_of_skipDepth_pos children (Nat.succ_pos _), onclosetag,
    if_pos hname]
  simpa using After.refl hs

theorem after_inline {leaves : List Text} {started : Bool} {plain : Text} {s' : Extractor}
    (hblock : ∀ name ∈ s'.currentTag, isBlock name = true) (hname : isSkipped name = false)
    (hinline : isBlock name = false) (h : After leaves started plain s s') :
    After leaves started plain s (s'.onclosetag spineIndex name) := by
  have htag : s'.currentTag ≠ some name := fun htag => by simp [hblock name htag] at hinline
  rw [onclosetag, if_neg (by simp [hname]), if_neg (by simp [h.skipDepth]), if_neg htag]
  exact h

theorem after_container {leaves : List Text} {plain : Text} {s' : Extractor}
    (hname : isSkipped name = false)
    (h : After leaves true plain { s with currentTag := some name, currentText := [] } s') :
    After leaves true plain s (s'.onclosetag spineIndex name) := by
  have htag : s'.currentTag = none := h.currentTag
  rw [onclosetag, if_neg (by simp [hname]), if_neg (by simp [h.skipDepth]),
    if_neg (by simp [htag])]
  exact { h with currentTag := htag, currentText := h.currentText }

theorem after_leaf {plain : Text} {s' : Extractor} (hname : isSkipped name = false)
    (h : After [] false plain { s with currentTag := some name, currentText := [] } s') :
    After [plain] true plain s (s'.onclosetag spineIndex name) := by
  have htag : s'.currentTag = some name := h.currentTag
  have htext : s'.currentText = plain := by simpa using h.currentText
  have htexts : s'.blocks.map ExtractedBlock.text = s.blocks.map ExtractedBlock.text := by
    simpa using h.texts
  rw [onclosetag, if_neg (by simp [hname]), if_neg (by simp [h.skipDepth]), if_pos htag, htext]
  refine ⟨?_, ?_, rfl, rfl⟩
  · by_cases hpos : 0 < (tidyText plain).length
    · simp [hpos, pushBlock, htexts]
    · simp [hpos, htexts]
  · simp only
    split
    · exact h.skipDepth
    · exact h.skipDepth

theorem after_element (name : String) {children : Forest String Text}
    (hchildren : ∀ {s : Extractor}, s.skipDepth = 0 →
      (∀ name ∈ s.currentTag, isBlock name = true) →
      After (leaves children) (hasBlock children) (plain children) s
        (run spineIndex s children.events))
    (hs : s.skipDepth = 0) (hblock : ∀ name ∈ s.currentTag, isBlock name = true) :
    After (leaves (.element name children .nil)) (hasBlock (.element name children .nil))
      (plain (.element name children .nil)) s
      ((run spineIndex (s.onopentag name) children.events).onclosetag spineIndex name) := by
  cases hname : isSkipped name
  case true => simpa [leaves, hasBlock, plain, hname] using after_skipped children hs hname
  case false =>
    rw [onopentag, if_neg (by simp [hname]), if_neg (by simp [hs])]
    cases hstarts : isBlock name
    case false =>
      have h := hchildren hs hblock
      simpa [leaves, hasBlock, plain, hname, hstarts] using
        after_inline (h.isBlock hblock) hname hstarts h
    case true =>
      rw [if_pos rfl]
      have h := hchildren (s := { s with currentTag := some name, currentText := [] }) hs
        (by simpa using hstarts)
      cases hinner : hasBlock children
      case true =>
        rw [hinner] at h
        simpa [leaves, hasBlock, plain, hname, hstarts, hinner] using after_container hname h
      case false =>
        rw [hinner, leaves_eq_nil hinner] at h
        simpa [leaves, hasBlock, plain, hname, hstarts, hinner] using after_leaf hname h

theorem after_run (document : Forest String Text) (hs : s.skipDepth = 0)
    (hblock : ∀ name ∈ s.currentTag, isBlock name = true) :
    After (leaves document) (hasBlock document) (plain document) s
      (run spineIndex s document.events) := by
  induction document generalizing s with
  | nil => exact .refl hs
  | text text rest ih =>
    have htext := After.text hs text
    exact htext.trans (ih htext.skipDepth (htext.isBlock hblock))
  | element name children rest ihchildren ihrest =>
    have helement := after_element name ihchildren hs hblock
    have h := helement.trans (ihrest helement.skipDepth (helement.isBlock hblock))
    rw [Forest.events, run, List.foldl_cons, List.foldl_append, List.foldl_cons]
    simpa [leaves, hasBlock, plain, run, step] using h

end Extractor

variable (document : Forest String Text)

theorem texts_extractBlocksFromXhtml (spineIndex : ℕ) :
    (extractBlocksFromXhtml document.events spineIndex).map ExtractedBlock.text =
      ((leaves document).map tidyText).filter fun text => decide (0 < text.length) :=
  (Extractor.after_run document (s := {}) rfl (by simp)).texts

/-! ## Visible Characters -/

@[simp] theorem visible_nil : visible [] = [] := rfl

theorem visible_append (s t : Text) : visible (s ++ t) = visible s ++ visible t :=
  List.filter_append ..

theorem visible_collapseRuns (inRun : Bool) (text : Text) :
    visible (collapseRuns isWhitespace ' ' inRun text) = visible text := by
  induction text generalizing inRun with
  | nil => rfl
  | cons c text ih =>
    have hblank : isWhitespace ' ' = true := by decide
    rw [collapseRuns]
    cases hc : isWhitespace c
    · simpa [visible, hc] using ih false
    · cases inRun <;> simpa [visible, hc, hblank] using ih true

theorem visible_dropWhile (text : Text) : visible (text.dropWhile isWhitespace) = visible text := by
  induction text with
  | nil => rfl
  | cons c text ih =>
    cases hc : isWhitespace c
    · rw [List.dropWhile_cons_of_neg (by simp [hc])]
    · rw [List.dropWhile_cons_of_pos hc, ih]
      simp [visible, hc]

theorem visible_reverse (text : Text) : visible text.reverse = (visible text).reverse :=
  List.filter_reverse ..

theorem visible_tidyText (text : Text) : visible (tidyText text) = visible text := by
  rw [tidyText, trim, visible_reverse, visible_dropWhile, visible_reverse, visible_dropWhile,
    visible_collapseRuns, List.reverse_reverse]

theorem visible_extractBlocksFromXhtml (spineIndex : ℕ) :
    (extractBlocksFromXhtml document.events spineIndex).flatMap (fun block => visible block.text) =
      (leaves document).flatMap visible := by
  have htexts := texts_extractBlocksFromXhtml document spineIndex
  have hfilter : ∀ texts : List Text,
      ((texts.map tidyText).filter fun text => decide (0 < text.length)).flatMap visible =
        texts.flatMap visible := by
    intro texts
    induction texts with
    | nil => rfl
    | cons text texts ih =>
      rw [List.map_cons, List.filter_cons, List.flatMap_cons, ← ih]
      split
      case isTrue => rw [List.flatMap_cons, visible_tidyText]
      case isFalse h =>
        have hnil : tidyText text = [] := by simpa using h
        rw [← visible_tidyText text, hnil]
        rfl
  rw [← hfilter, ← htexts, List.flatMap_map]

/-! ## What Is Lost -/

theorem narration_events (open_ : List String) (document : Forest String Text)
    (events : List (Event String Text)) :
    narration open_ (document.events ++ events) =
      (if open_.any isSkipped then [] else if open_.any isBlock then plain document
        else narrated document) ++ narration open_ events := by
  induction document generalizing open_ events with
  | nil => simp [Forest.events, plain, narrated]
  | text text rest ih =>
    rw [Forest.events, List.cons_append, narration, ih, plain, narrated]
    cases open_.any isSkipped <;> cases open_.any isBlock <;> simp
  | element name children rest ihchildren ihrest =>
    rw [Forest.events, List.cons_append, List.append_assoc, List.cons_append, narration,
      ihchildren, narration, List.tail_cons, ihrest, plain, narrated, List.any_cons, List.any_cons]
    cases isSkipped name <;> cases isBlock name <;> cases open_.any isSkipped <;>
      cases open_.any isBlock <;> simp

theorem narration_document : narration [] document.events = narrated document := by
  simpa [narration] using narration_events [] document []

theorem lost_eq_nil {document : Forest String Text} (h : hasBlock document = false) :
    lost document = [] := by
  induction document with
  | nil => rfl
  | text text rest ih => exact ih h
  | element name children rest ihchildren ihrest =>
    rw [hasBlock, Bool.or_eq_false_iff] at h
    rw [lost, ihrest h.2]
    cases hname : isSkipped name
    case true => simp
    case false =>
      obtain ⟨hstarts, hinner⟩ : isBlock name = false ∧ hasBlock children = false := by
        simpa [hname] using h.1
      simp [hstarts, ihchildren hinner]

theorem lost_eq_nil_iff : lost document = [] ↔ Mixed document = false := by
  induction document with
  | nil => simp [lost, Mixed]
  | text text rest ih => exact ih
  | element name children rest ihchildren ihrest =>
    rw [lost, Mixed, List.append_eq_nil_iff, ihrest, Bool.or_eq_false_iff]
    refine and_congr_left fun _ => ?_
    cases isSkipped name
    case true => simp
    case false =>
      cases isBlock name && hasBlock children <;> simp [ihchildren]

theorem length_visible_plain :
    (visible (plain document)).length = ((leaves document).flatMap visible).length +
      (visible (own document)).length + (lost document).length := by
  induction document with
  | nil => rfl
  | text text rest ih =>
    rw [plain, visible_append, List.length_append, ih, leaves, own, visible_append,
      List.length_append, lost]
    omega
  | element name children rest ihchildren ihrest =>
    rw [plain, leaves, own, lost, visible_append, visible_append, List.flatMap_append]
    simp only [List.length_append, ihrest]
    cases hname : isSkipped name
    case true => simp
    case false =>
      cases hstarts : isBlock name
      case false => simp [ihchildren, -List.length_flatMap]; omega
      case true =>
        cases hinner : hasBlock children
        case true => simp [ihchildren, -List.length_flatMap]; omega
        case false => simp [lost_eq_nil hinner]; omega

theorem length_visible_narrated :
    (visible (narrated document)).length =
      ((leaves document).flatMap visible).length + (lost document).length := by
  induction document with
  | nil => rfl
  | text text rest ih => exact ih
  | element name children rest ihchildren ihrest =>
    rw [narrated, leaves, lost, visible_append, List.flatMap_append]
    simp only [List.length_append, ihrest]
    cases hname : isSkipped name
    case true => simp
    case false =>
      cases hstarts : isBlock name
      case false => simp [ihchildren, -List.length_flatMap]; omega
      case true =>
        cases hinner : hasBlock children
        case true => simp [length_visible_plain, -List.length_flatMap]; omega
        case false => simp [lost_eq_nil hinner]; omega

theorem sublist_visible_plain :
    ((leaves document).flatMap visible).Sublist (visible (plain document)) := by
  induction document with
  | nil => exact .refl _
  | text text rest ih =>
    rw [leaves, plain, visible_append]
    exact ih.trans (List.sublist_append_right ..)
  | element name children rest ihchildren ihrest =>
    rw [leaves, plain, visible_append, List.flatMap_append]
    refine List.Sublist.append ?_ ihrest
    cases isSkipped name
    case true => simp
    case false =>
      cases isBlock name && !hasBlock children
      case true => simp
      case false => simpa using ihchildren

theorem sublist_visible_narrated :
    ((leaves document).flatMap visible).Sublist (visible (narrated document)) := by
  induction document with
  | nil => exact .refl _
  | text text rest ih => exact ih
  | element name children rest ihchildren ihrest =>
    rw [leaves, narrated, visible_append, List.flatMap_append]
    refine List.Sublist.append ?_ ihrest
    cases isSkipped name
    case true => simp
    case false =>
      cases isBlock name
      case false => simpa using ihchildren
      case true => cases hasBlock children <;> simp [sublist_visible_plain]

/-- The blocks of a stream that is nested well say all that it narrates if and only if it reports a
document without mixed elements. -/
theorem narrationKept_iff (spineIndex : ℕ) (events : List (Event String Text))
    (h : WellNested [] events = true) :
    NarrationKept events spineIndex ↔
      ∃ document : Forest String Text, document.events = events ∧ Mixed document = false := by
  have hkept : ∀ document : Forest String Text,
      NarrationKept document.events spineIndex ↔ Mixed document = false := by
    intro document
    rw [NarrationKept, visible_extractBlocksFromXhtml, narration_document, ← lost_eq_nil_iff,
      ← (sublist_visible_narrated document).length_eq, length_visible_narrated,
      ← List.length_eq_zero_iff]
    omega
  obtain ⟨document, rfl⟩ := exists_forest h
  constructor
  · intro hall
    exact ⟨document, rfl, (hkept document).mp hall⟩
  · rintro ⟨other, hevents, hmixed⟩
    rw [← hevents]
    exact (hkept other).mpr hmixed

def quotation : Forest String Text :=
  .element "blockquote"
    (.text "a".toList (.element "p" (.text "b".toList .nil) (.text "c".toList .nil))) .nil

theorem narrationKept_iff_quotation :
    WellNested [] quotation.events = true ∧
      (NarrationKept quotation.events 0 ↔
        ∃ document : Forest String Text,
          document.events = quotation.events ∧ Mixed document = false) :=
  ⟨by decide, narrationKept_iff 0 quotation.events (by decide)⟩

/-- The text around a paragraph in a quotation is lost. -/
theorem not_forall_narrationKept :
    ¬ ∀ (spineIndex : ℕ) (events : List (Event String Text)), WellNested [] events = true →
      NarrationKept events spineIndex := by
  intro h
  exact absurd (h 0 quotation.events (by decide)) (by decide +kernel)

end AudioBook.EpubBlocks
