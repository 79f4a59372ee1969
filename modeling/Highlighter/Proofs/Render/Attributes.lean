import Highlighter.Fence
import Highlighter.Proofs.Render.Html

/-! The attributes of highlighted code. Each fact about the code becomes an attribute, whose name is
made of the key; since the letters of a key are lower-cased and all punctuation becomes hyphens,
several keys may come to one name, and so may a key and the language of the code. A reader takes the
first of the attributes of one name. -/

namespace Highlighter

open Text

def codeAttributes? (cs : List Char) : Option (List Attribute) :=
  match (cs.splitOn '<')[2]?.bind fun part => readTag? (part.takeWhile (· != '>')) with
  | some (.opening "code" attributes) => some attributes
  | _ => none

/-- Two characters are the same in the name of an attribute. -/
def SpelledAlike (c d : Char) : Prop :=
  c = d ∨ isAlphanumeric c = false ∧ isAlphanumeric d = false

instance : DecidableRel SpelledAlike := fun c d =>
  inferInstanceAs (Decidable (c = d ∨ isAlphanumeric c = false ∧ isAlphanumeric d = false))

/-- Two keys differ in case and punctuation at most. -/
def KeysAlike (key other : String) : Prop :=
  List.Forall₂ SpelledAlike (lowercase key).toList (lowercase other).toList

instance : DecidableRel KeysAlike := fun key other =>
  inferInstanceAs
    (Decidable (List.Forall₂ SpelledAlike (lowercase key).toList (lowercase other).toList))

theorem codeAttributes?_write {first : MarkupToken} (hTag : first.isTag) (hFirst : first.Proper)
    {attributes : List Attribute} (hAttributes : ∀ a ∈ attributes, a.Proper)
    (rest : List Char) :
    codeAttributes?
        (first.write.toList ++ ((MarkupToken.opening "code" attributes).write.toList ++ rest)) =
      some attributes := by
  have hCode : (MarkupToken.opening "code" attributes).Proper := ⟨by decide, hAttributes⟩
  have hBetween : '<' ∉ first.inner ++ ['>'] := by
    simp [MarkupToken.not_mem_inner hFirst '<' (by decide)]
  have hWithin : '<' ∉ (MarkupToken.opening "code" attributes).inner ++ ['>'] := by
    simp [MarkupToken.not_mem_inner hCode '<' (by decide)]
  obtain ⟨head, tail, hRest⟩ := List.exists_cons_of_ne_nil (List.splitOn_ne_nil '<' rest)
  have hSplit : (first.write.toList ++
      ((MarkupToken.opening "code" attributes).write.toList ++ rest)).splitOn '<' =
      [] :: (first.inner ++ ['>']) ::
        ((MarkupToken.opening "code" attributes).inner ++ ['>'] ++ head) :: tail := by
    rw [MarkupToken.toList_write_of_isTag hTag, MarkupToken.toList_write_of_isTag rfl,
      List.cons_append, List.cons_append, ← List.nil_append ('<' :: (first.inner ++ ['>'] ++ _)),
      List.splitOn_append_cons_self_of_not_mem List.not_mem_nil,
      List.splitOn_append_cons_self_of_not_mem hBetween, Page.splitOn_append hWithin hRest]
  have hBracket :
      ∀ c ∈ (MarkupToken.opening "code" attributes).inner, (c != '>') = true := fun c hc =>
    bne_iff_ne.2 fun hEq => MarkupToken.not_mem_inner hCode '>' (by decide) (hEq ▸ hc)
  have hTake : ((MarkupToken.opening "code" attributes).inner ++ ['>'] ++ head).takeWhile
      (· != '>') = (MarkupToken.opening "code" attributes).inner := by
    rw [List.append_assoc, List.takeWhile_append_of_pos hBracket]
    simp
  unfold codeAttributes?
  rw [hSplit]
  simp only [List.getElem?_cons_succ, List.getElem?_cons_zero, Option.bind_some, hTake,
    MarkupToken.readTag?_inner rfl hCode]

theorem eq_of_forall₂_spelledAlike {cs ds : List Char}
    (hLetters : ∀ d ∈ ds, isAlphanumeric d = true) (h : List.Forall₂ SpelledAlike cs ds) :
    cs = ds := by
  induction h with
  | nil => rfl
  | @cons c d cs ds hAlike _ ih =>
    obtain ⟨hFirst, hRest⟩ := List.forall_mem_cons.1 hLetters
    rcases hAlike with rfl | ⟨-, hOther⟩
    · rw [ih hRest]
    · rw [hFirst] at hOther
      cases hOther

namespace HtmlRenderer

variable {key other : String}

/-- A character of a key in the name of its attribute. -/
def spell (c : Char) : Char := if isAlphanumeric c || c == '-' then c else '-'

/-- What is not alphanumeric is written as a hyphen, also the hyphen itself. -/
theorem spell_eq (c : Char) : spell c = if isAlphanumeric c then c else '-' := by
  unfold spell
  by_cases hEq : c = '-' <;> simp [hEq]

theorem spell_eq_iff (c d : Char) : spell c = spell d ↔ SpelledAlike c d := by
  have hHyphen : isAlphanumeric '-' = false := by decide +kernel
  rw [spell_eq, spell_eq, SpelledAlike]
  cases hc : isAlphanumeric c with
  | true =>
    cases hd : isAlphanumeric d with
    | true => simp
    | false =>
      have hNotSame : c ≠ d := fun h => by simp [h, hd] at hc
      have hNotHyphen : c ≠ '-' := fun h => by simp [h, hHyphen] at hc
      simp [hNotHyphen, hNotSame]
  | false =>
    cases hd : isAlphanumeric d with
    | true =>
      have hNotSame : c ≠ d := fun h => by simp [h, hd] at hc
      have hNotHyphen : d ≠ '-' := fun h => by simp [h, hHyphen] at hd
      simp [hNotHyphen.symm, hNotSame]
    | false => simp

theorem toList_attributeName (key : String) :
    (attributeName key).toList = "data-".toList ++ (lowercase key).toList.map spell := by
  have hSpell : spell = fun c => if isAlphanumeric c || c == '-' then c else '-' := rfl
  rw [attributeName, String.toList_append, hSpell]
  exact congrArg ("data-".toList ++ ·) String.toList_ofList

theorem attributeName_eq_iff : attributeName key = attributeName other ↔ KeysAlike key other := by
  rw [← String.toList_inj, toList_attributeName, toList_attributeName, List.append_right_inj,
    ← List.forall₂_eq_eq_eq, List.forall₂_map_left_iff, List.forall₂_map_right_iff]
  simp only [spell_eq_iff, KeysAlike]

theorem attributeName_eq_lang_iff : attributeName key = "data-lang" ↔ lowercase key = "lang" := by
  have hLang : attributeName "lang" = "data-lang" ∧ lowercase "lang" = "lang" := by decide +kernel
  have hLetters : ∀ d ∈ "lang".toList, isAlphanumeric d = true :=
    List.all_eq_true.1 (by decide +kernel)
  rw [← hLang.1, attributeName_eq_iff, KeysAlike, hLang.2, ← String.toList_inj]
  refine ⟨eq_of_forall₂_spelledAlike hLetters, fun h => ?_⟩
  rw [h]
  exact List.forall₂_same.2 fun _ _ => .inl rfl

theorem attributeName_ne_class (key : String) : attributeName key ≠ "class" := by
  intro h
  have hToList := congrArg String.toList h
  rw [attributeName, String.toList_append] at hToList
  exact absurd (List.cons.inj hToList).1 (by decide)

variable (h : HtmlRenderer) (language : String)

/-- The names of the attributes are those of the class and of the language, and one for each key. -/
theorem map_name_attributes : (h.attributes language).map (·.name) =
    "class" :: "data-lang" :: h.metadata.keys.map attributeName := by
  simp only [attributes, Dict.keys, List.map_append, List.map_map]
  rfl

/-- The names are distinct if no key is spelled like that of the language, and no two keys are
alike. -/
theorem nodup_names_iff : ((h.attributes language).map (·.name)).Nodup ↔
    (∀ key ∈ h.metadata.keys, lowercase key ≠ "lang") ∧
      h.metadata.keys.Pairwise fun key other => ¬ KeysAlike key other := by
  have hClass : "class" ∉ "data-lang" :: h.metadata.keys.map attributeName := by
    simp only [List.mem_cons, List.mem_map, not_or, not_exists, not_and]
    exact ⟨by decide, fun key _ => attributeName_ne_class key⟩
  have hLang : "data-lang" ∉ h.metadata.keys.map attributeName ↔
      ∀ key ∈ h.metadata.keys, lowercase key ≠ "lang" := by
    simp only [List.mem_map, not_exists, not_and, ne_eq, ← attributeName_eq_lang_iff]
  have hKeys : (h.metadata.keys.map attributeName).Nodup ↔
      h.metadata.keys.Pairwise fun key other => ¬ KeysAlike key other := by
    simp only [List.Nodup, List.pairwise_map, ne_eq, attributeName_eq_iff]
  rw [map_name_attributes, List.nodup_cons, List.nodup_cons, hLang, hKeys]
  exact and_iff_right hClass

variable {i : Nat} {value : String}

theorem getElem?_attributes (hEntry : h.metadata.entries[i]? = some (key, value)) :
    (h.attributes language)[i + 2]? = some ⟨attributeName key, escapeText value⟩ := by
  have hTwo : (h.attributes language)[i + 2]? = (h.metadata.entries.map fun entry =>
      (⟨attributeName entry.1, escapeText entry.2⟩ : Attribute))[i]? := rfl
  rw [hTwo, List.getElem?_map, hEntry]
  rfl

/-- The attribute of an entry is the first one of its name unless the key is spelled like that of
the language or is like an earlier one. -/
theorem forall_name_ne_iff :
    (∀ a ∈ (h.attributes language).take (i + 2), a.name ≠ attributeName key) ↔
      lowercase key ≠ "lang" ∧ ∀ other ∈ h.metadata.keys.take i,
        ¬ KeysAlike other key := by
  have hNames : (∀ a ∈ (h.attributes language).take (i + 2), a.name ≠ attributeName key) ↔
      ∀ name ∈ ((h.attributes language).map (·.name)).take (i + 2),
        name ≠ attributeName key := by
    rw [← List.map_take, List.forall_mem_map]
  rw [hNames, map_name_attributes, List.take_succ_cons, List.take_succ_cons, List.forall_mem_cons,
    List.forall_mem_cons, ← List.map_take, List.forall_mem_map]
  simp only [ne_eq, attributeName_eq_iff, eq_comm (a := "data-lang"), attributeName_eq_lang_iff]
  exact and_iff_right fun hEq => attributeName_ne_class key hEq.symm

theorem codeAttributes?_render (code : Code) (o : RenderOptions) :
    codeAttributes? (h.render code o).toList = some (h.attributes code.language) := by
  let block : MarkupToken := .opening "pre" [⟨"class", blockClass⟩]
  have hBlock : block.Proper := by
    refine ⟨by decide, fun a ha => ?_⟩
    obtain rfl := List.mem_singleton.1 ha
    exact ⟨by decide +kernel, by decide +kernel⟩
  have hRender : ∃ rest, (h.render code o).toList = block.write.toList ++
      ((MarkupToken.opening "code" (h.attributes code.language)).write.toList ++ rest) := by
    simp only [render, Markup.render, toMarkup, Markup.tokens, Markup.tokensOfAll, List.cons_append,
      List.map_cons, String.toList_join, List.flatMap_cons]
    exact ⟨_, rfl⟩
  obtain ⟨rest, hRest⟩ := hRender
  rw [hRest]
  exact codeAttributes?_write rfl hBlock (proper_attributes code.language) rest

/-- The attributes of highlighted code as they are read have distinct names if and only if no key is
spelled like that of the language and no two keys are alike. Each entry has its own attribute with
its value, and it is lost to an earlier one of the same name only if its key is spelled like that of
the language or is like an earlier key. -/
theorem distinct_codeAttributes_iff (h : HtmlRenderer) (code : Code) (o : RenderOptions) :
    ∃ attributes, codeAttributes? (h.render code o).toList = some attributes ∧
      ((attributes.map (·.name)).Nodup ↔
        (∀ key ∈ h.metadata.keys, lowercase key ≠ "lang") ∧
          h.metadata.keys.Pairwise fun key other => ¬ KeysAlike key other) ∧
      ∀ i key value, h.metadata.entries[i]? = some (key, value) →
        ∃ a, attributes[i + 2]? = some a ∧
        a.name = attributeName key ∧ unescape? a.value.toList = some value.toList ∧
        ((∀ b ∈ attributes.take (i + 2), b.name ≠ a.name) ↔
          lowercase key ≠ "lang" ∧ ∀ other ∈ h.metadata.keys.take i,
            ¬ KeysAlike other key) := by
  refine ⟨h.attributes code.language, h.codeAttributes?_render code o,
    h.nodup_names_iff code.language, fun i key value hEntry =>
      ⟨_, h.getElem?_attributes code.language hEntry, rfl, ?_, h.forall_name_ne_iff _⟩⟩
  rw [escapeText, String.toList_ofList, unescape?_escape]

/-- Keys that differ in case and punctuation, and one that is spelled like that of the language. -/
def alikeKeys : Dict String := .ofList [("A b", "1"), ("a-b", "2"), ("lang", "x")]

/-- Of two keys that are alike, the first one keeps its attribute and the second one does not. -/
theorem distinct_codeAttributes_alikeKeys : alikeKeys.entries[0]? = some ("A b", "1") ∧
    alikeKeys.entries[1]? = some ("a-b", "2") ∧ ∃ attributes,
      codeAttributes? (render { metadata := alikeKeys } ⟨"co", 0, false, [], []⟩ {}).toList =
      some attributes ∧ ¬ (attributes.map (·.name)).Nodup ∧
    (∃ a, attributes[2]? = some a ∧ a.name = "data-a-b" ∧
      unescape? a.value.toList = some ['1'] ∧ ∀ b ∈ attributes.take 2, b.name ≠ a.name) ∧
    ∃ a, attributes[3]? = some a ∧ a.name = "data-a-b" ∧ unescape? a.value.toList =
      some ['2'] ∧ ¬ ∀ b ∈ attributes.take 3, b.name ≠ a.name := by
  have hEntries : alikeKeys.entries[0]? = some ("A b", "1") ∧
      alikeKeys.entries[1]? = some ("a-b", "2") := by
    decide +kernel
  have hNames : attributeName "A b" = "data-a-b" ∧ attributeName "a-b" = "data-a-b" := by
    decide +kernel
  have hFirst : lowercase "A b" ≠ "lang" ∧ ∀ other ∈ alikeKeys.keys.take 0,
      ¬ KeysAlike other "A b" := by
    decide +kernel
  have hSecond : ¬ ∀ other ∈ alikeKeys.keys.take 1, ¬ KeysAlike other "a-b" := by
    decide +kernel
  have hLang : ¬ ∀ key ∈ alikeKeys.keys, lowercase key ≠ "lang" := by decide +kernel
  obtain ⟨attributes, hRead, hDistinct, hEach⟩ :=
    distinct_codeAttributes_iff { metadata := alikeKeys } ⟨"co", 0, false, [], []⟩ {}
  obtain ⟨a, ha, hName, hValue, hKept⟩ := hEach 0 _ _ hEntries.1
  obtain ⟨b, hb, hName', hValue', hKept'⟩ := hEach 1 _ _ hEntries.2
  exact ⟨hEntries.1, hEntries.2, attributes, hRead, fun hNodup => hLang (hDistinct.1 hNodup).1,
    ⟨a, ha, hName.trans hNames.1, hValue, hKept.2 hFirst⟩,
    ⟨b, hb, hName'.trans hNames.2, hValue', fun hAll => hSecond (hKept'.1 hAll).2⟩⟩

/-- Not all attributes have distinct names: what a fence says of its code may be
called like the language. -/
theorem not_forall_distinct_codeAttributes :
    ¬ ∀ (h : HtmlRenderer) (code : Code) (o : RenderOptions) attributes,
      codeAttributes? (h.render code o).toList = some attributes →
        (attributes.map (·.name)).Nodup := by
  intro hAll
  let h : HtmlRenderer := { metadata := (Fence.ofInfo "co,lang=x").rest }
  have hLang : ¬ ∀ key ∈ (Fence.ofInfo "co,lang=x").rest.keys, lowercase key ≠ "lang" := by
    decide +kernel
  have hNodup := hAll h ⟨"co", 0, false, [], []⟩ {} _ (h.codeAttributes?_render _ {})
  exact hLang ((h.nodup_names_iff "co").1 hNodup).1

end HtmlRenderer

end Highlighter
