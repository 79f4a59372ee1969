import Highlighter.Fence
import Highlighter.Proofs.Registry.Lines
import Highlighter.Proofs.Render.Html

/-! A fenced block comes out as marked-up text that is read back as it has been written,
whatever its code and its info string: the lines of the code that are not hidden, each with its
number if there are numbers. -/

namespace Highlighter

open Text

/-- The start of style classes that is used for fenced blocks has nothing in it that
could be taken for markup. -/
theorem isSome_unescape?_defaultClassPrefix : (unescape? defaultClassPrefix.toList).isSome := by
  decide +kernel

namespace Registry

variable {r : Registry} {info content html : String}

/-- A fenced block is code that has been highlighted, with what its info string says. -/
theorem exists_highlight_of_renderFence_eq_ok (h : r.renderFence info content = .ok html) :
    ∃ request code, r.highlight content request = .ok code ∧
      html = HtmlRenderer.render { metadata := (Fence.ofInfo info).rest } code
        (Fence.ofInfo info).options := by
  unfold renderFence at h
  dsimp only [bind, Except.bind] at h
  split at h
  · cases h
  · next code hCode =>
    cases h
    exact ⟨_, code, hCode, rfl⟩

/-- A fenced block comes out as tags and escaped text. All the tags are of the elements of a
block, and nest; their attributes have values without quotes and brackets, in which each ampersand
starts an entity. The text is that of the lines of the code that are not hidden, each after its
number if there are numbers. -/
theorem read?_renderFence (h : r.renderFence info content = .ok html) :
    ∃ p : Page, Page.read? html.toList = some p ∧ p.write = html.toList ∧
      (∀ t ∈ p.tags, t.Own) ∧
      (∀ name attributes, .opening name attributes ∈ p.tags → ∀ a ∈ attributes,
        (unescape? a.value.toList).isSome ∧
        ∀ c ∈ ['<', '>', '\'', '"'], c ∉ a.value.toList) ∧
      balanced p.tags [] ∧
      p.text = ((Fence.ofInfo info).options.shownLines (linesOf content.toList)).flatMap fun l =>
        l.number ++ l.text := by
  obtain ⟨request, code, hCode, rfl⟩ := exists_highlight_of_renderFence_eq_ok h
  generalize (Fence.ofInfo info).options = o
  have hOwn :
      ∀ t ∈ (HtmlRenderer.toMarkup { metadata := (Fence.ofInfo info).rest } code o).tokens,
        t.Own :=
    HtmlRenderer.own_toMarkup isSome_unescape?_defaultClassPrefix code
  obtain ⟨p, hRead, hWrite, hNest, hText, hTags⟩ :=
    Markup.read?_render fun t ht => (hOwn t ht).proper
  have hOwnTags : ∀ t ∈ p.tags, t.Own :=
    fun t ht => hOwn t (List.mem_of_mem_filter (hTags ▸ ht))
  refine ⟨p, hRead, hWrite, hOwnTags, fun name attributes hOpening a ha => ?_, hNest, ?_⟩
  · have hProper : a.Proper := (hOwnTags _ hOpening).proper.2 a ha
    exact ⟨hProper.value, hProper.not_mem_value⟩
  · rw [hText, HtmlRenderer.chars_toMarkup, lines_of_highlight_eq_ok hCode]

/-- Neither the name of a setting nor its value gets out of its attribute, and the
second line is left out. -/
theorem read?_renderFence_known :
    ∃ html, known.renderFence "Assignments, linenos, linenostart=-1, hide_lines=2, a\">=<'&"
        "<a\n=b;\n\n>&c" = .ok html ∧ ∃ p : Page, Page.read? html.toList = some p ∧
      p.write = html.toList ∧ balanced p.tags [] ∧ p.text = "-1<a12>&c".toList := by
  have hOk : (known.renderFence "Assignments, linenos, linenostart=-1, hide_lines=2, a\">=<'&"
      "<a\n=b;\n\n>&c").toOption.isSome := by decide +kernel
  obtain ⟨p, hRead, hWrite, -, -, hNest, hText⟩ := read?_renderFence (Grammar.eq_ok_get hOk)
  refine ⟨_, Grammar.eq_ok_get hOk, p, hRead, hWrite, hNest, ?_⟩
  rw [hText]
  decide +kernel

end Registry

end Highlighter
