import Highlighter.Proofs.Code
import Highlighter.Proofs.Markup.Nesting
import Highlighter.Proofs.Render.Options
import Highlighter.Render.Html

/-! Highlighted code as HTML shows the lines of the code that are not hidden, each with
its number before it, and nothing that comes from outside, neither the code nor facts
about it, is taken for markup. -/

namespace Highlighter

open Text

/-- The elements of highlighted code: a block, its code, and parts of it. -/
def elementNames : List String := ["pre", "code", "span"]

def MarkupToken.element? : MarkupToken → Option String
  | opening name _ => some name
  | closing name => some name
  | text _ => none

/-- A token of highlighted code: plain text, or a tag of one of its elements in which nothing
can be taken for markup. -/
structure MarkupToken.Own (t : MarkupToken) : Prop where
  proper : t.Proper
  element : ∀ name ∈ t.element?, name ∈ elementNames

theorem MarkupToken.Own.text (s : String) : (MarkupToken.text s).Own := ⟨trivial, nofun⟩

theorem MarkupToken.Own.closing {name : String} (h : name ∈ elementNames) :
    (MarkupToken.closing name).Own := by
  refine ⟨?_, fun other hOther => Option.mem_some.1 hOther ▸ h⟩
  simp only [elementNames, List.mem_cons, List.not_mem_nil, or_false] at h
  rcases h with rfl | rfl | rfl <;> simp [MarkupToken.Proper, isElementName]

theorem MarkupToken.Own.opening {name : String} {attributes : List Attribute}
    (h : name ∈ elementNames) (hAttributes : ∀ a ∈ attributes, a.Proper) :
    (MarkupToken.opening name attributes).Own :=
  ⟨⟨(Own.closing h).proper, hAttributes⟩, fun _ hOther => Option.mem_some.1 hOther ▸ h⟩

namespace Markup

variable {styleClass : String} {children : List Markup}

theorem own_element {name : String} {attributes : List Attribute} (h : name ∈ elementNames)
    (hAttributes : ∀ a ∈ attributes, a.Proper)
    (hChildren : ∀ m ∈ children, ∀ t ∈ m.tokens, t.Own) :
    ∀ t ∈ (element name attributes children).tokens, t.Own :=
  forall_mem_tokens_element.2 ⟨.opening h hAttributes, .closing h, hChildren⟩

theorem own_span (h : (unescape? styleClass.toList).isSome)
    (hChildren : ∀ m ∈ children, ∀ t ∈ m.tokens, t.Own) :
    ∀ t ∈ (span styleClass children).tokens, t.Own := by
  refine own_element (by decide) (fun a ha => ?_) hChildren
  obtain rfl := List.mem_singleton.1 ha
  exact ⟨(by decide +kernel : isAttributeName "class".toList), h⟩

theorem chars_span : (span styleClass children).chars = children.flatMap (·.chars) :=
  chars_element ..

end Markup

namespace Piece

variable {classPrefix : String}

theorem isSome_unescape?_cssClass (h : (unescape? classPrefix.toList).isSome) (c : Category) :
    (unescape? (c.cssClass classPrefix).toList).isSome := by
  obtain ⟨cs, hPrefix⟩ := Option.isSome_iff_exists.1 h
  have hName : (unescape? c.name.toList).isSome := by cases c <;> decide +kernel
  rw [Category.cssClass, String.toList_append, unescape?_append hPrefix, Option.isSome_map]
  exact hName

theorem own_toMarkup (h : (unescape? classPrefix.toList).isSome) (p : Piece) :
    ∀ t ∈ (p.toMarkup classPrefix).tokens, t.Own := by
  obtain ⟨text, categories⟩ := p
  induction categories with
  | nil =>
    intro t ht
    obtain rfl := List.mem_singleton.1 ht
    exact .text text
  | cons c categories ih =>
    refine Markup.own_span (isSome_unescape?_cssClass h c) fun m hm => ?_
    obtain rfl := List.mem_singleton.1 hm
    exact ih

theorem chars_toMarkup (p : Piece) : (p.toMarkup classPrefix).chars = p.text.toList := by
  obtain ⟨text, categories⟩ := p
  induction categories with
  | nil => exact Markup.chars_text text
  | cons c categories ih =>
    rw [toMarkup, List.foldr_cons, Markup.chars_span, List.flatMap_singleton]
    exact ih

end Piece

namespace HtmlRenderer

variable {h : HtmlRenderer} {o : RenderOptions}

theorem isAttributeName_attributeName (key : String) :
    isAttributeName (attributeName key).toList := by
  have hStart : "data-".toList.all fun c => isAlphanumeric c || c == '-' := by decide +kernel
  rw [attributeName, String.toList_append, isAttributeName, List.all_append, hStart]
  simp only [String.toList_ofList, List.all_map, Bool.true_and, Bool.and_eq_true, List.all_eq_true]
  refine ⟨by simp, fun c _ => ?_⟩
  -- What is neither a letter nor a digit has become a hyphen.
  dsimp only [Function.comp_apply]
  split
  · assumption
  · decide

theorem proper_attributes (language : String) : ∀ a ∈ h.attributes language, a.Proper := by
  have hEscape : ∀ s : String, (unescape? (escapeText s).toList).isSome := fun s => by
    rw [escapeText, String.toList_ofList, unescape?_escape]
    rfl
  have hLanguage : unescape? "language-".toList = some "language-".toList := by decide +kernel
  intro a ha
  rw [attributes, List.mem_append, List.mem_cons, List.mem_singleton, List.mem_map] at ha
  rcases ha with (rfl | rfl) | ⟨entry, -, rfl⟩
  · refine ⟨(by decide +kernel : isAttributeName "class".toList), ?_⟩
    rw [String.toList_append, unescape?_append hLanguage, Option.isSome_map]
    exact hEscape language
  · exact ⟨(by decide +kernel : isAttributeName "data-lang".toList), hEscape language⟩
  · exact ⟨isAttributeName_attributeName entry.1, hEscape entry.2⟩

theorem own_line (hPrefix : (unescape? h.classPrefix.toList).isSome) (index : Nat) (pieces : Line) :
    ∀ t ∈ (h.line o index pieces).tokens, t.Own := by
  -- The class is one of two, and within the line are its number, if there are
  -- numbers, and its pieces.
  refine Markup.own_span ?_ fun m hm => ?_
  · split <;> decide +kernel
  · rcases List.mem_append.1 hm with hm | hm
    · split at hm
      · obtain rfl := List.mem_singleton.1 hm
        refine Markup.own_span (by decide +kernel) fun m hm t ht => ?_
        obtain rfl := List.mem_singleton.1 hm
        obtain rfl := List.mem_singleton.1 ht
        exact .text _
      · cases hm
    · obtain ⟨p, -, rfl⟩ := List.mem_map.1 hm
      exact p.own_toMarkup hPrefix

theorem chars_pieces (pieces : Line) :
    (pieces.map (·.toMarkup h.classPrefix)).flatMap (·.chars) = Line.chars pieces := by
  simp only [List.flatMap_map, Piece.chars_toMarkup]
  rfl

theorem chars_line (index : Nat) (pieces : Line) :
    (h.line o index pieces).chars = o.numberChars index ++ Line.chars pieces := by
  rw [line, Markup.chars_span, List.flatMap_append, chars_pieces, RenderOptions.numberChars]
  split
  · rw [List.flatMap_singleton, Markup.chars_span, List.flatMap_singleton, Markup.chars_text]
  · rfl

theorem lines_eq (lines : List Line) :
    h.lines o lines = (o.shown lines).map fun l => h.line o l.2 l.1 :=
  RenderOptions.filterMap_zipIdx (h.line o) lines

/-- All tags are those of the block, if the start of style classes has nothing in it that
could be taken for markup. -/
theorem own_toMarkup (hPrefix : (unescape? h.classPrefix.toList).isSome) (code : Code) :
    ∀ t ∈ (h.toMarkup code o).tokens, t.Own := by
  refine Markup.own_element (by decide) (fun a ha => ?_) fun m hm => ?_
  · obtain rfl := List.mem_singleton.1 ha
    exact ⟨by decide +kernel, by decide +kernel⟩
  · obtain rfl := List.mem_singleton.1 hm
    refine Markup.own_element (by decide) (proper_attributes code.language) fun m hm => ?_
    rw [lines_eq] at hm
    obtain ⟨l, -, rfl⟩ := List.mem_map.1 hm
    exact own_line hPrefix l.2 l.1

theorem chars_toMarkup (code : Code) :
    (h.toMarkup code o).chars =
      (o.shownLines (code.lines.map Line.chars)).flatMap fun l => l.number ++ l.text := by
  rw [toMarkup, Markup.chars_element, List.flatMap_singleton, Markup.chars_element, lines_eq,
    RenderOptions.shownLines_map, List.flatMap_map, List.flatMap_map]
  simp only [chars_line]

end HtmlRenderer

end Highlighter
