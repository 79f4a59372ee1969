import Highlighter.Proofs.Markup.Page

/-! Tags of marked-up text nest: whatever the elements, each closing tag belongs to the
innermost element that is open. -/

namespace Highlighter

/-- The tags among some tokens nest within the elements `opened`, the innermost first, and close
them. -/
def balanced : List MarkupToken → (opened : List String) → Bool
  | [], opened => opened.isEmpty
  | .opening name _ :: ts, opened => balanced ts (name :: opened)
  | .closing name :: ts, other :: opened => name == other && balanced ts opened
  | .closing _ :: _, [] => false
  | .text _ :: ts, opened => balanced ts opened

theorem balanced_filter_isTag (ts : List MarkupToken) (opened : List String) :
    balanced (ts.filter (·.isTag)) opened = balanced ts opened := by
  induction ts generalizing opened with
  | nil => rfl
  | cons t ts ih =>
    cases t with
    | opening name attributes => exact ih (name :: opened)
    | text s => exact ih opened
    | closing name =>
      cases opened with
      | nil => rfl
      | cons other opened => exact congrArg (name == other && ·) (ih opened)

namespace Markup

mutual

theorem balanced_tokens (m : Markup) (ts : List MarkupToken) (opened : List String) :
    balanced (m.tokens ++ ts) opened = balanced ts opened := by
  cases m with
  | text s => rfl
  | element name attributes children =>
    rw [tokens, List.append_assoc, List.cons_append, balanced, balanced_tokensOfAll children]
    simp [balanced]

theorem balanced_tokensOfAll (ms : List Markup) (ts : List MarkupToken) (opened : List String) :
    balanced (tokensOfAll ms ++ ts) opened = balanced ts opened := by
  cases ms with
  | nil => rfl
  | cons m ms =>
    rw [tokensOfAll, List.append_assoc, balanced_tokens m, balanced_tokensOfAll ms]

end

theorem tokensOfAll_eq_flatMap (ms : List Markup) : tokensOfAll ms = ms.flatMap (·.tokens) := by
  induction ms with
  | nil => rfl
  | cons m ms ih => rw [tokensOfAll, ih, List.flatMap_cons]

theorem forall_mem_tokens_element {P : MarkupToken → Prop} {name : String}
    {attributes : List Attribute} {children : List Markup} :
    (∀ t ∈ (element name attributes children).tokens, P t) ↔
      P (.opening name attributes) ∧ P (.closing name) ∧
        ∀ m ∈ children, ∀ t ∈ m.tokens, P t := by
  simp only [tokens, tokensOfAll_eq_flatMap, List.mem_append, List.mem_cons, List.mem_flatMap,
    List.not_mem_nil, or_false]
  constructor
  · intro h
    exact ⟨h _ (.inl (.inl rfl)), h _ (.inr rfl),
      fun m hm t ht => h t (.inl (.inr ⟨m, hm, ht⟩))⟩
  · rintro ⟨hOpening, hClosing, hChildren⟩ t ((rfl | ⟨m, hm, ht⟩) | rfl)
    · exact hOpening
    · exact hChildren m hm t ht
    · exact hClosing

/-- The text that marked-up text shows. -/
def chars (m : Markup) : List Char := m.tokens.flatMap (·.chars)

theorem chars_text (s : String) : (text s).chars = s.toList := by
  simp [chars, tokens, MarkupToken.chars]

theorem chars_element (name : String) (attributes : List Attribute) (children : List Markup) :
    (element name attributes children).chars = children.flatMap (·.chars) := by
  simp [chars, tokens, tokensOfAll_eq_flatMap, MarkupToken.chars, List.flatMap_assoc]

theorem toList_render (m : Markup) : m.render.toList = m.tokens.flatMap (·.write.toList) := by
  rw [render, String.toList_join, List.flatMap_map]

/-- Written markup is read as a page on which its tags nest. -/
theorem read?_render {m : Markup} (h : ∀ t ∈ m.tokens, t.Proper) :
    ∃ p : Page, Page.read? m.render.toList = some p ∧ p.write = m.render.toList ∧
      balanced p.tags [] ∧ p.text = m.chars ∧ p.tags = m.tokens.filter (·.isTag) := by
  refine ⟨.ofTokens m.tokens, ?_, ?_, ?_, Page.text_ofTokens _, Page.tags_ofTokens _⟩
  · rw [toList_render, Page.read?_flatMap_write h]
  · rw [toList_render, Page.write_ofTokens]
  · have hNests := m.balanced_tokens [] []
    rw [List.append_nil] at hNests
    rw [Page.tags_ofTokens, balanced_filter_isTag, hNests]
    rfl

end Markup

end Highlighter
