import Highlighter.Proofs.Render.Html
import Highlighter.Proofs.Render.Terminal

/-! The lines of a page, and that a terminal shows the same ones. `Page.lines` reads lines by the
style classes of tags: a line begins at a tag of the class of lines, its number follows one of the
class of numbers, and the rest up to the next line is its text. -/

namespace Highlighter

open Text

/-! ### Lines of a page -/

namespace MarkupToken

/-- The style class of the element that a tag opens. -/
def styleClass? : MarkupToken → Option String
  | opening _ attributes => (attributes.find? (·.name == "class")).map (·.value)
  | _ => none

def opensLine (t : MarkupToken) : Bool :=
  t.styleClass? == some lineClass || t.styleClass? == some (lineClass ++ " " ++ highlightClass)

def opensNumber (t : MarkupToken) : Bool := t.styleClass? == some numberClass

/-- A token that neither a line nor its number starts with. -/
def Plain (t : MarkupToken) : Prop := t.opensLine = false ∧ t.opensNumber = false

theorem plain_of_styleClass? {t : MarkupToken} {styleClass : String}
    (h : t.styleClass? = some styleClass)
    (hNe : styleClass ∉ [lineClass, lineClass ++ " " ++ highlightClass, numberClass]) :
    t.Plain := by
  simp only [List.mem_cons, List.not_mem_nil, or_false, not_or] at hNe
  simp [Plain, opensLine, opensNumber, h, hNe]

end MarkupToken

/-- Lines that are read from the last one on: what has been read of the line at hand, and the lines
after it. -/
structure LineReader where
  line : ShownLine
  rest : List ShownLine

namespace LineReader

def empty : LineReader := ⟨⟨[], []⟩, []⟩

def addText (text : List Char) (r : LineReader) : LineReader :=
  ⟨⟨r.line.number, text ++ r.line.text⟩, r.rest⟩

/-- Reads a tag and the text after it. -/
def addPart (part : MarkupToken × List Char) (r : LineReader) : LineReader :=
  if part.1.opensLine then ⟨⟨[], []⟩, (r.addText part.2).line :: r.rest⟩
  else if part.1.opensNumber then ⟨⟨part.2, r.line.text⟩, r.rest⟩
  else r.addText part.2

end LineReader

namespace Page

/-- What is read of a page from its end on. -/
def reader (p : Page) : LineReader := (p.parts.foldr LineReader.addPart .empty).addText p.lead

def lines (p : Page) : List ShownLine := p.reader.rest

theorem reader_text (s : String) (ts : List MarkupToken) :
    (ofTokens (.text s :: ts)).reader = (ofTokens ts).reader.addText s.toList := by
  simp [ofTokens, reader, LineReader.addText]

theorem reader_plain {t : MarkupToken} (hTag : t.isTag) (h : t.Plain) (ts : List MarkupToken) :
    (ofTokens (t :: ts)).reader = (ofTokens ts).reader := by
  rw [ofTokens_cons hTag]
  simp [reader, LineReader.addPart, LineReader.addText, h.1, h.2]

theorem reader_line {t : MarkupToken} (hTag : t.isTag) (h : t.opensLine) (ts : List MarkupToken) :
    (ofTokens (t :: ts)).reader =
      ⟨⟨[], []⟩, (ofTokens ts).reader.line :: (ofTokens ts).reader.rest⟩ := by
  rw [ofTokens_cons hTag]
  simp [reader, LineReader.addPart, LineReader.addText, h]

/-- A number takes nothing from the line at hand but the text after it. -/
theorem reader_number (s : String) (ts : List MarkupToken) :
    (ofTokens ((Markup.span numberClass [.text s]).tokens ++ ts)).reader =
      ⟨⟨s.toList, (ofTokens ts).reader.line.text⟩, (ofTokens ts).reader.rest⟩ := by
  have hLine : (MarkupToken.opening "span" [⟨"class", numberClass⟩]).opensLine = false := by
    decide +kernel
  have hNumber : (MarkupToken.opening "span" [⟨"class", numberClass⟩]).opensNumber := by
    decide +kernel
  have hClosing := reader_plain (t := .closing "span") rfl ⟨rfl, rfl⟩ ts
  have hTokens : (Markup.span numberClass [.text s]).tokens ++ ts =
      .opening "span" [⟨"class", numberClass⟩] :: .text s :: .closing "span" :: ts := rfl
  rw [hTokens, ofTokens_cons rfl, ← hClosing]
  simp [reader, ofTokens, LineReader.addPart, LineReader.addText, hLine, hNumber]

/-- What lies between lines and numbers is text of the line at hand. -/
theorem reader_append {ts : List MarkupToken} (h : ∀ t ∈ ts, t.Plain)
    (rest : List MarkupToken) :
    (ofTokens (ts ++ rest)).reader = (ofTokens rest).reader.addText (ts.flatMap (·.chars)) := by
  induction ts with
  | nil => rfl
  | cons t ts ih =>
    obtain ⟨hHead, hTail⟩ := List.forall_mem_cons.1 h
    cases t with
    | text s =>
      rw [List.cons_append, reader_text, ih hTail]
      simp [LineReader.addText, MarkupToken.chars]
    | opening name attributes => rw [List.cons_append, reader_plain rfl hHead, ih hTail]; rfl
    | closing name => rw [List.cons_append, reader_plain rfl hHead, ih hTail]; rfl

end Page

namespace HtmlRenderer

variable {h : HtmlRenderer} {o : RenderOptions}

/-- The style class of a category is never that of a line or of a number, whatever it starts
with. -/
theorem cssClass_ne (classPrefix : String) (c : Category) :
    c.cssClass classPrefix ∉ [lineClass, lineClass ++ " " ++ highlightClass, numberClass] := by
  -- Such a class ends with the name of the category, and none of the three does.
  have hSuffix : ∀ s ∈ [lineClass, lineClass ++ " " ++ highlightClass, numberClass],
      ¬ c.name.toList <:+ s.toList := by cases c <;> decide +kernel
  intro hMem
  refine hSuffix _ hMem ⟨classPrefix.toList, ?_⟩
  rw [Category.cssClass, String.toList_append]

theorem plain_toMarkup (p : Piece) : ∀ t ∈ (p.toMarkup h.classPrefix).tokens, t.Plain := by
  obtain ⟨text, categories⟩ := p
  induction categories with
  | nil =>
    intro t ht
    obtain rfl := List.mem_singleton.1 ht
    exact ⟨rfl, rfl⟩
  | cons c categories ih =>
    refine Markup.forall_mem_tokens_element.2 ⟨?_, ⟨rfl, rfl⟩, fun m hm => ?_⟩
    · exact MarkupToken.plain_of_styleClass? rfl (cssClass_ne h.classPrefix c)
    · obtain rfl := List.mem_singleton.1 hm
      exact ih

theorem reader_pieces (pieces : Line) {ts : List MarkupToken} {rest : List ShownLine}
    (hRest : (Page.ofTokens ts).reader = ⟨⟨[], []⟩, rest⟩) :
    (Page.ofTokens ((pieces.map (·.toMarkup h.classPrefix)).flatMap (·.tokens) ++ ts)).reader =
      ⟨⟨[], Line.chars pieces⟩, rest⟩ := by
  have hPlain : ∀ t ∈ (pieces.map (·.toMarkup h.classPrefix)).flatMap (·.tokens),
      t.Plain := by
    intro t ht
    obtain ⟨m, hm, ht⟩ := List.mem_flatMap.1 ht
    obtain ⟨p, -, rfl⟩ := List.mem_map.1 hm
    exact plain_toMarkup p t ht
  have hChars : ((pieces.map (·.toMarkup h.classPrefix)).flatMap (·.tokens)).flatMap (·.chars) =
      Line.chars pieces := by
    rw [List.flatMap_assoc]
    exact chars_pieces pieces
  rw [Page.reader_append hPlain, hRest, hChars, LineReader.addText, List.append_nil]

theorem reader_line (index : Nat) (pieces : Line) {ts : List MarkupToken} {rest : List ShownLine}
    (hRest : (Page.ofTokens ts).reader = ⟨⟨[], []⟩, rest⟩) :
    (Page.ofTokens ((h.line o index pieces).tokens ++ ts)).reader =
      ⟨⟨[], []⟩, ⟨o.numberChars index, Line.chars pieces⟩ :: rest⟩ := by
  have hClosing : (Page.ofTokens (.closing "span" :: ts)).reader = ⟨⟨[], []⟩, rest⟩ := by
    rw [Page.reader_plain rfl ⟨rfl, rfl⟩, hRest]
  have hPieces := reader_pieces (h := h) pieces hClosing
  have hOpens : ∀ styleClass ∈ [lineClass, lineClass ++ " " ++ highlightClass],
      (MarkupToken.opening "span" [⟨"class", styleClass⟩]).opensLine := by decide +kernel
  unfold line RenderOptions.numberChars
  dsimp only
  rw [Markup.span, Markup.tokens, Markup.tokensOfAll_eq_flatMap, List.flatMap_append]
  simp only [List.cons_append, List.append_assoc, List.nil_append]
  rw [Page.reader_line rfl (hOpens _ (by split <;> simp))]
  split
  · rw [List.flatMap_singleton, Page.reader_number, hPieces]
  · rw [List.flatMap_nil, List.nil_append, hPieces]

theorem reader_flatMap_line (lines : List (Line × Nat)) {ts : List MarkupToken}
    {rest : List ShownLine} (hRest : (Page.ofTokens ts).reader = ⟨⟨[], []⟩, rest⟩) :
    (Page.ofTokens ((lines.map fun l => h.line o l.2 l.1).flatMap (·.tokens) ++ ts)).reader =
      ⟨⟨[], []⟩, lines.map (fun l => ⟨o.numberChars l.2, Line.chars l.1⟩) ++ rest⟩ := by
  -- A page is read from its end on: between two lines the reader holds no text.
  induction lines with
  | nil => exact hRest
  | cons l lines ih =>
    rw [List.map_cons, List.flatMap_cons, List.append_assoc, reader_line l.2 l.1 ih]
    rfl

theorem lines_ofTokens_toMarkup (code : Code) :
    (Page.ofTokens (h.toMarkup code o).tokens).lines =
      o.shownLines (code.lines.map Line.chars) := by
  have hBlock : (MarkupToken.opening "pre" [⟨"class", blockClass⟩]).Plain := by
    constructor <;> decide +kernel
  have hCode : (MarkupToken.opening "code" (h.attributes code.language)).Plain := by
    refine MarkupToken.plain_of_styleClass? rfl ?_
    have hPrefix : ∀ s ∈ [lineClass, lineClass ++ " " ++ highlightClass, numberClass],
        ¬ "language-".toList <+: s.toList := by decide +kernel
    intro hMem
    refine hPrefix _ hMem ⟨(escapeText code.language).toList, ?_⟩
    rw [String.toList_append]
  have hClosing :
      (Page.ofTokens [.closing "code", .closing "pre"]).reader = ⟨⟨[], []⟩, []⟩ := by
    rw [Page.reader_plain rfl ⟨rfl, rfl⟩, Page.reader_plain rfl ⟨rfl, rfl⟩]
    rfl
  have hTokens : (h.toMarkup code o).tokens = .opening "pre" [⟨"class", blockClass⟩] ::
      .opening "code" (h.attributes code.language) ::
        (((o.shown code.lines).map fun l => h.line o l.2 l.1).flatMap (·.tokens) ++
          [.closing "code", .closing "pre"]) := by
    simp [toMarkup, Markup.tokens, Markup.tokensOfAll_eq_flatMap, lines_eq]
  rw [hTokens, Page.lines, Page.reader_plain rfl hBlock, Page.reader_plain rfl hCode,
    reader_flatMap_line _ hClosing, RenderOptions.shownLines_map, List.append_nil]

end HtmlRenderer

/-- A terminal shows the lines that a page shows, with the same numbers and texts, but for the one
after the last newline if there is nothing in it. There each line has its number, if there are
numbers, in a column that is wide enough for all of them. -/
theorem lines_render_renderTerminal (t : Theme) (h : HtmlRenderer) (code : Code) (o : RenderOptions)
    (hEscape : ∀ line ∈ code.lines, ∀ p ∈ line, escapeCharacter ∉ p.text.toList) :
    ∃ p : Page, p.write = (h.render code o).toList ∧
      ((unescape? h.classPrefix.toList).isSome → Page.read? (h.render code o).toList = some p) ∧
      p.lines = o.shownLines (code.lines.map Line.chars) ∧
      (∀ l ∈ p.lines, l.number.length ≤ o.lineNumberWidth code.lines.length) ∧
      withoutLooks? .text (t.renderTerminal code o).toList =
        some (['\n'].intercalate ((o.shownLines ((withoutFinalLine code.lines).map Line.chars)).map
          (·.row o.lineNumbers (o.lineNumberWidth code.lines.length)))) := by
  have hLines : (Page.ofTokens (h.toMarkup code o).tokens).lines =
      o.shownLines (code.lines.map Line.chars) :=
    HtmlRenderer.lines_ofTokens_toMarkup code
  refine ⟨.ofTokens (h.toMarkup code o).tokens, ?_, fun hPrefix => ?_, hLines,
    fun l hl => ?_, ?_⟩
  · rw [Page.write_ofTokens, HtmlRenderer.render, Markup.toList_render]
  · rw [HtmlRenderer.render, Markup.toList_render]
    exact Page.read?_flatMap_write fun token hToken =>
      (HtmlRenderer.own_toMarkup hPrefix code token hToken).proper
  · rw [hLines] at hl
    simpa using RenderOptions.length_number_le hl
  · exact Theme.withoutLooks?_renderTerminal hEscape

/-- A text of three lines and a newline at the end, with an empty line. -/
def threeLines : Code where
  language := "co"
  relevance := 0
  illegal := false
  regions := []
  lines := [[⟨"let", [.keyword]⟩, ⟨" a<b", []⟩], [], [⟨"// c", [.comment]⟩], []]

/-- Numbers get one more digit, the empty line is left out, and the one after it stands out. -/
def fromNine : RenderOptions where
  lineNumbers := true
  firstNumber := 9
  highlighted := [⟨3, 3⟩]
  hidden := [⟨2, 2⟩]

theorem lines_render_renderTerminal_threeLines :
    (∀ line ∈ threeLines.lines, ∀ p ∈ line, escapeCharacter ∉ p.text.toList) ∧
    ∃ p : Page, Page.read? (({} : HtmlRenderer).render threeLines fromNine).toList = some p ∧
      p.lines = [⟨"9".toList, "let a<b".toList⟩, ⟨"11".toList, "// c".toList⟩,
        ⟨"12".toList, []⟩] ∧
      withoutLooks? .text (Theme.light.renderTerminal threeLines fromNine).toList =
        some "   9 let a<b\n  11 // c".toList := by
  have hEscape :
      ∀ line ∈ threeLines.lines, ∀ p ∈ line, escapeCharacter ∉ p.text.toList := by
    decide +kernel
  obtain ⟨p, -, hRead, hLines, -, hTerminal⟩ :=
    lines_render_renderTerminal .light {} threeLines fromNine hEscape
  refine ⟨hEscape, p, hRead (by decide +kernel), ?_, ?_⟩
  · rw [hLines]
    decide +kernel
  · rw [hTerminal]
    decide +kernel

end Highlighter
