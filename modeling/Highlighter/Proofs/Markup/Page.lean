import Highlighter.Markup
import Highlighter.Proofs.Text.Lines

/-! Written markup as it is read back. `Page.read?` knows nothing of how markup is written: it cuts
a text at its angle brackets into tags and the text around them, takes the tags apart, and decodes
the entities. Tokens whose names and values hold nothing that could be taken for markup are read
back as they have been written, with the text between two tags in one piece. -/

namespace Highlighter

open Text

/-! ### Entities -/

def markupChars : List Char := ['&', '<', '>', '\'', '"']

/-- What a written text or value stands for, if nothing in it can be taken for markup: an ampersand
has to start one of the five entities, and there are neither angle brackets nor quotes. -/
def unescape? : List Char → Option (List Char)
  | [] => some []
  | '&' :: 'g' :: 't' :: ';' :: cs => (unescape? cs).map ('>' :: ·)
  | '&' :: 'l' :: 't' :: ';' :: cs => (unescape? cs).map ('<' :: ·)
  | '&' :: 'a' :: 'm' :: 'p' :: ';' :: cs => (unescape? cs).map ('&' :: ·)
  | '&' :: '#' :: '3' :: '9' :: ';' :: cs => (unescape? cs).map ('\'' :: ·)
  | '&' :: 'q' :: 'u' :: 'o' :: 't' :: ';' :: cs => (unescape? cs).map ('"' :: ·)
  | c :: cs => if c ∈ markupChars then none else (unescape? cs).map (c :: ·)

theorem unescape?_cons {c : Char} (h : c ∉ markupChars) (cs : List Char) :
    unescape? (c :: cs) = (unescape? cs).map (c :: ·) := by
  rw [unescape?, if_neg h]
  all_goals
    rintro _ rfl
    simp [markupChars] at h

theorem escapeChar_of_not_mem {c : Char} (h : c ∉ markupChars) : escapeChar c = [c] := by
  unfold escapeChar
  split <;> simp_all [markupChars]

theorem unescape?_escapeChar_append (c : Char) (cs : List Char) :
    unescape? (escapeChar c ++ cs) = (unescape? cs).map (c :: ·) := by
  -- Each character of markup becomes an entity of its own, the others stay as they are.
  by_cases hMarkup : c ∈ markupChars
  · simp only [markupChars, List.mem_cons, List.not_mem_nil, or_false] at hMarkup
    rcases hMarkup with rfl | rfl | rfl | rfl | rfl <;> rfl
  · rw [escapeChar_of_not_mem hMarkup, List.singleton_append, unescape?_cons hMarkup]

/-- Escaping changes how a text is written and not what it stands for. -/
theorem unescape?_escape_append (cs rest : List Char) :
    unescape? (cs.flatMap escapeChar ++ rest) = (unescape? rest).map (cs ++ ·) := by
  induction cs with
  | nil => simp
  | cons c cs ih =>
    rw [List.flatMap_cons, List.append_assoc, unescape?_escapeChar_append, ih, Option.map_map]
    rfl

theorem unescape?_escape (cs : List Char) : unescape? (cs.flatMap escapeChar) = some cs := by
  simpa [unescape?] using unescape?_escape_append cs []

theorem unescape?_append {cs ds : List Char} (h : unescape? cs = some ds) (rest : List Char) :
    unescape? (cs ++ rest) = (unescape? rest).map (ds ++ ·) := by
  fun_induction unescape? cs generalizing ds with
  | case1 =>
    cases h
    simp
  | case2 cs ih | case3 cs ih | case4 cs ih | case5 cs ih | case6 cs ih =>
    obtain ⟨es, hRest, rfl⟩ := Option.map_eq_some_iff.1 h
    simp [unescape?, ih hRest, Function.comp_def]
  | case7 => cases h
  | case8 c cs _ _ _ _ _ hNot ih =>
    obtain ⟨es, hRest, rfl⟩ := Option.map_eq_some_iff.1 h
    rw [List.cons_append, unescape?_cons hNot, ih hRest]
    simp [Function.comp_def]

theorem not_mem_of_unescape? {cs ds : List Char} (h : unescape? cs = some ds) :
    ∀ c ∈ cs, c ∉ ['<', '>', '\'', '"'] := by
  fun_induction unescape? cs generalizing ds with
  | case1 => simp
  | case2 cs ih | case3 cs ih | case4 cs ih | case5 cs ih | case6 cs ih =>
    obtain ⟨ds, hRest, -⟩ := Option.map_eq_some_iff.1 h
    simpa using ih hRest
  | case7 => simp at h
  | case8 c cs _ _ _ _ _ hNot ih =>
    obtain ⟨ds, hRest, -⟩ := Option.map_eq_some_iff.1 h
    refine List.forall_mem_cons.2 ⟨fun hMem => hNot ?_, ih hRest⟩
    exact List.mem_cons_of_mem '&' hMem

theorem not_mem_escape (cs : List Char) :
    ∀ c ∈ cs.flatMap escapeChar, c ∉ ['<', '>', '\'', '"'] :=
  not_mem_of_unescape? (unescape?_escape cs)

/-! ### Tags -/

/-- The characters that tags are cut at. -/
def delimiters : List Char := [' ', '/', '=', '"', '<', '>']

/-- The name of an element: small letters. -/
def isElementName (cs : List Char) : Bool := !cs.isEmpty && cs.all Char.isLower

/-- The name of an attribute: letters, digits and hyphens. -/
def isAttributeName (cs : List Char) : Bool :=
  !cs.isEmpty && cs.all fun c => isAlphanumeric c || c == '-'

/-- Reads attributes that have been cut at their quotes. In turn come a name, with a blank before it
and an equals sign after it, and a value. -/
def readAttributes? : List (List Char) → Option (List Attribute)
  | [[]] => some []
  | (' ' :: cs) :: value :: rest =>
    match cs.splitOn '=' with
    | [name, []] =>
      if isAttributeName name && (unescape? value).isSome then
        (readAttributes? rest).map (⟨.ofList name, .ofList value⟩ :: ·)
      else none
    | _ => none
  | _ => none

/-- Reads a tag without its brackets. -/
def readTag? : List Char → Option MarkupToken
  | '/' :: name => if isElementName name then some (.closing (.ofList name)) else none
  | cs =>
    let name := cs.takeWhile (· != ' ')
    if isElementName name then
      (readAttributes? ((cs.dropWhile (· != ' ')).splitOn '"')).map (.opening (.ofList name) ·)
    else none

theorem not_mem_of_all {cs : List Char} {isNamePart : Char → Bool} (h : cs.all isNamePart)
    (hDelimiters : delimiters.all fun c => !isNamePart c) : ∀ c ∈ delimiters, c ∉ cs := by
  intro c hc hMem
  have hPart := List.all_eq_true.1 h c hMem
  have hNot := List.all_eq_true.1 hDelimiters c hc
  rw [hPart] at hNot
  cases hNot

theorem not_mem_of_isAttributeName {cs : List Char} (h : isAttributeName cs) :
    ∀ c ∈ delimiters, c ∉ cs :=
  not_mem_of_all (Bool.and_eq_true_iff.1 h).2 (by decide)

theorem not_mem_of_isElementName {cs : List Char} (h : isElementName cs) :
    ∀ c ∈ delimiters, c ∉ cs :=
  not_mem_of_all (Bool.and_eq_true_iff.1 h).2 (by decide)

/-- An attribute with nothing in it that could be taken for markup. -/
structure Attribute.Proper (a : Attribute) : Prop where
  name : isAttributeName a.name.toList
  value : (unescape? a.value.toList).isSome

theorem Attribute.toList_write (a : Attribute) :
    a.write.toList = (' ' :: (a.name.toList ++ ['='])) ++ '"' :: (a.value.toList ++ ['"']) := by
  simp [Attribute.write]

theorem Attribute.Proper.not_mem_value {a : Attribute} (h : a.Proper) :
    ∀ c ∈ ['<', '>', '\'', '"'], c ∉ a.value.toList := by
  obtain ⟨value, hValue⟩ := Option.isSome_iff_exists.1 h.value
  exact fun c hc hMem => not_mem_of_unescape? hValue c hMem hc

theorem readAttributes?_write {attributes : List Attribute} (h : ∀ a ∈ attributes, a.Proper) :
    readAttributes? ((attributes.flatMap (·.write.toList)).splitOn '"') = some attributes := by
  induction attributes with
  | nil => simp [readAttributes?]
  | cons a attributes ih =>
    obtain ⟨hProper, hRest⟩ := List.forall_mem_cons.1 h
    -- Quotes stand around the value only, so that the first two pieces are the name and the value.
    have hName := not_mem_of_isAttributeName hProper.name
    have hHead : '"' ∉ ' ' :: (a.name.toList ++ ['=']) := by
      have hQuote : '"' ∉ a.name.toList := hName '"' (by decide)
      simp [hQuote]
    have hValue : '"' ∉ a.value.toList := hProper.not_mem_value '"' (by decide)
    have hEquals : (a.name.toList ++ ['=']).splitOn '=' = [a.name.toList, []] := by
      rw [List.splitOn_append_cons_self_of_not_mem (hName '=' (by decide)), List.splitOn_nil]
    have hWrite : (a :: attributes).flatMap (·.write.toList) =
        (' ' :: (a.name.toList ++ ['='])) ++
          '"' :: (a.value.toList ++ '"' :: attributes.flatMap (·.write.toList)) := by
      simp [Attribute.write]
    rw [hWrite, List.splitOn_append_cons_self_of_not_mem hHead,
      List.splitOn_append_cons_self_of_not_mem hValue, readAttributes?, hEquals]
    simp [hProper.name, hProper.value, ih hRest]

namespace MarkupToken

def isTag : MarkupToken → Bool
  | text _ => false
  | _ => true

/-- A token with nothing in it that could be taken for markup, its own brackets and quotes apart. -/
def Proper : MarkupToken → Prop
  | opening name attributes => isElementName name.toList ∧ ∀ a ∈ attributes, a.Proper
  | closing name => isElementName name.toList
  | text _ => True

def chars : MarkupToken → List Char
  | text s => s.toList
  | _ => []

def inner : MarkupToken → List Char
  | opening name attributes => name.toList ++ attributes.flatMap (·.write.toList)
  | closing name => '/' :: name.toList
  | text _ => []

theorem toList_write_of_isTag {t : MarkupToken} (h : t.isTag) :
    t.write.toList = '<' :: (t.inner ++ ['>']) := by
  cases t with
  | opening name attributes => simp [write, inner, String.toList_join, List.flatMap_map]
  | closing name => simp [write, inner]
  | text s => cases h

theorem not_mem_inner {t : MarkupToken} (h : t.Proper) : ∀ c ∈ ['<', '>'], c ∉ t.inner := by
  intro c hc
  have hDelimiter :
      c ∈ delimiters ∧ c ∈ ['<', '>', '\'', '"'] ∧ c ∉ [' ', '=', '"', '/'] := by
    simp only [List.mem_cons, List.not_mem_nil, or_false] at hc
    rcases hc with rfl | rfl <;> decide
  obtain ⟨hName, hValue, hOther⟩ := hDelimiter
  cases t with
  | opening name attributes =>
    rw [inner, List.mem_append, not_or]
    refine ⟨not_mem_of_isElementName h.1 c hName, fun hMem => ?_⟩
    obtain ⟨a, ha, hMem⟩ := List.mem_flatMap.1 hMem
    have hNotName := not_mem_of_isAttributeName (h.2 a ha).name c hName
    have hNotValue := (h.2 a ha).not_mem_value c hValue
    rw [a.toList_write] at hMem
    simp_all
  | closing name =>
    rw [inner, List.mem_cons, not_or]
    exact ⟨fun hEq => by simp_all, not_mem_of_isElementName h c hName⟩
  | text s => exact List.not_mem_nil

theorem readTag?_inner {t : MarkupToken} (hTag : t.isTag) (h : t.Proper) :
    readTag? t.inner = some t := by
  cases t with
  | opening name attributes =>
    obtain ⟨hName, hAttributes⟩ := h
    have hNot := not_mem_of_isElementName hName
    have hBlank : ∀ c ∈ name.toList, (c != ' ') = true := by
      intro c hc
      exact bne_iff_ne.2 fun hEq => hNot ' ' (by decide) (hEq ▸ hc)
    have hStart : (attributes.flatMap (·.write.toList)).takeWhile (· != ' ') = [] := by
      cases attributes <;> simp [Attribute.toList_write]
    have hTake : (inner (opening name attributes)).takeWhile (· != ' ') = name.toList := by
      rw [inner, List.takeWhile_append_of_pos hBlank, hStart, List.append_nil]
    have hDrop : (inner (opening name attributes)).dropWhile (· != ' ') =
        attributes.flatMap (·.write.toList) := by
      rw [inner, List.dropWhile_append_of_pos hBlank]
      cases attributes <;> simp [Attribute.toList_write]
    -- A name starts with a letter: what opens an element is not taken for what closes one.
    have hSlash : ∀ cs, inner (opening name attributes) ≠ '/' :: cs := by
      intro cs hEq
      cases hCs : name.toList with
      | nil => simp [isElementName, hCs] at hName
      | cons c rest =>
        rw [inner, hCs, List.cons_append] at hEq
        exact hNot '/' (by decide) (by simp [hCs, (List.cons.inj hEq).1])
    rw [readTag?.eq_2 _ hSlash]
    simp [hTake, hDrop, hName, readAttributes?_write hAttributes]
  | closing name => simp [readTag?, inner, show isElementName name.toList from h]
  | text s => cases hTag

end MarkupToken

/-! ### Pages -/

/-- Marked-up text as it is read: the text before the first tag, and each tag with the text after
it. -/
structure Page where
  lead : List Char
  parts : List (MarkupToken × List Char)
  deriving DecidableEq

namespace Page

/-- Reads a tag and the text after it, without the bracket before the tag. -/
def readPart? (cs : List Char) : Option (MarkupToken × List Char) :=
  match cs.splitOn '>' with
  | [inner, text] => do return (← readTag? inner, ← unescape? text)
  | _ => none

def read? (cs : List Char) : Option Page :=
  match cs.splitOn '<' with
  | lead :: parts => do return ⟨← unescape? lead, ← parts.mapM readPart?⟩
  | [] => none

def tags (p : Page) : List MarkupToken := p.parts.map (·.1)

def text (p : Page) : List Char := p.lead ++ p.parts.flatMap (·.2)

/-- A page as it is written: its tags, and its text in which the characters of markup are
escaped. -/
def write (p : Page) : List Char :=
  p.lead.flatMap escapeChar ++ p.parts.flatMap fun part =>
    part.1.write.toList ++ part.2.flatMap escapeChar

def ofTokens : List MarkupToken → Page
  | [] => ⟨[], []⟩
  | .text s :: ts => ⟨s.toList ++ (ofTokens ts).lead, (ofTokens ts).parts⟩
  | t :: ts => ⟨[], (t, (ofTokens ts).lead) :: (ofTokens ts).parts⟩

theorem splitOn_append {separator : Char} {left : List Char} (h : separator ∉ left)
    {right first : List Char} {rest : List (List Char)}
    (hRight : right.splitOn separator = first :: rest) :
    (left ++ right).splitOn separator = (left ++ first) :: rest := by
  induction left with
  | nil => exact hRight
  | cons c left ih =>
    rw [List.mem_cons, not_or] at h
    rw [List.cons_append, List.splitOn_cons_eq_if_modifyHead,
      if_neg (by simpa using Ne.symm h.1), ih h.2]
    rfl

theorem ofTokens_cons {t : MarkupToken} (h : t.isTag) (ts : List MarkupToken) :
    ofTokens (t :: ts) = ⟨[], (t, (ofTokens ts).lead) :: (ofTokens ts).parts⟩ := by
  cases t with
  | text s => cases h
  | _ => rfl

theorem readPart?_append {t : MarkupToken} (hTag : t.isTag) (h : t.Proper) {cs text : List Char}
    (hText : unescape? cs = some text) : readPart? (t.inner ++ '>' :: cs) = some (t, text) := by
  have hBracket := MarkupToken.not_mem_inner h '>' (by decide)
  have hRest : cs.splitOn '>' = [cs] := by
    refine List.splitOn_eq_singleton fun hMem => ?_
    exact not_mem_of_unescape? hText '>' hMem (by decide)
  rw [readPart?, List.splitOn_append_cons_self_of_not_mem hBracket, hRest]
  simp [MarkupToken.readTag?_inner hTag h, hText]

/-- Tokens are read as they have been written. -/
theorem read?_flatMap_write {ts : List MarkupToken} (h : ∀ t ∈ ts, t.Proper) :
    read? (ts.flatMap (·.write.toList)) = some (ofTokens ts) := by
  -- What has been split at the brackets, before it is read: in this form a token can be put in
  -- front.
  suffices ∃ lead parts, (ts.flatMap (·.write.toList)).splitOn '<' = lead :: parts ∧
      unescape? lead = some (ofTokens ts).lead ∧
        parts.mapM readPart? = some (ofTokens ts).parts by
    obtain ⟨lead, parts, hSplit, hLead, hParts⟩ := this
    simp [read?, hSplit, hLead, hParts]
  induction ts with
  | nil => exact ⟨[], [], by simp [unescape?, ofTokens]⟩
  | cons t ts ih =>
    obtain ⟨hProper, hRest⟩ := List.forall_mem_cons.1 h
    obtain ⟨lead, parts, hSplit, hLead, hParts⟩ := ih hRest
    rw [List.flatMap_cons]
    cases hTag : t.isTag with
    | false =>
      cases t with
      | text s =>
        have hBracket : '<' ∉ s.toList.flatMap escapeChar := fun hMem =>
          not_mem_escape s.toList '<' hMem (by decide)
        refine ⟨s.toList.flatMap escapeChar ++ lead, parts, ?_, ?_, hParts⟩
        · simpa [MarkupToken.write, escapeText] using splitOn_append hBracket hSplit
        · rw [unescape?_escape_append, hLead]
          rfl
      | _ => cases hTag
    | true =>
      have hBracket := MarkupToken.not_mem_inner hProper '<' (by decide)
      have hInner : '<' ∉ t.inner ++ ['>'] := by simp [hBracket]
      refine ⟨[], (t.inner ++ '>' :: lead) :: parts, ?_, ?_, ?_⟩
      · rw [MarkupToken.toList_write_of_isTag hTag, List.cons_append,
          List.splitOn_cons_eq_if_modifyHead,
          if_pos (by simp), splitOn_append hInner hSplit, List.append_assoc]
        rfl
      · rw [ofTokens_cons hTag]
        rfl
      · rw [ofTokens_cons hTag, List.mapM_cons, readPart?_append hTag hProper hLead, hParts]
        rfl

theorem write_ofTokens (ts : List MarkupToken) :
    (ofTokens ts).write = ts.flatMap (·.write.toList) := by
  induction ts with
  | nil => rfl
  | cons t ts ih =>
    rw [List.flatMap_cons, ← ih]
    cases t with
    | text s => simp [ofTokens, write, MarkupToken.write, escapeText]
    | opening name attributes => simp [ofTokens, write]
    | closing name => simp [ofTokens, write]

theorem tags_ofTokens (ts : List MarkupToken) : (ofTokens ts).tags = ts.filter (·.isTag) := by
  induction ts with
  | nil => rfl
  | cons t ts ih => cases t <;> simp_all [ofTokens, tags, MarkupToken.isTag]

theorem text_ofTokens (ts : List MarkupToken) : (ofTokens ts).text = ts.flatMap (·.chars) := by
  induction ts with
  | nil => rfl
  | cons t ts ih => cases t <;> simp_all [ofTokens, text, MarkupToken.chars]

end Page

end Highlighter
