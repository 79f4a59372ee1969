import Highlighter.Proofs.Grammar.Following
import Highlighter.Proofs.Language.Co.Totality

/-! The machines of Co follow the moves of their grammars. -/

namespace Highlighter.Co

open Pattern Text

theorem exists_follows (v : Version) :
    ∃ m, (grammar v).compile = .ok m ∧ m.Follows (grammar v) := by
  obtain ⟨m, hCompile, hSustained⟩ := exists_sustained v
  obtain ⟨place, hImage⟩ := Grammar.exists_isImage hCompile
  have hUnnamed : ∀ r ∈ m.regexes,
      namesGroups m.caseInsensitive (asciiClasses r.pattern).toList = false := by
    intro r hr
    rw [hSustained.sound.caseInsensitive]
    exact (exists_program (hSustained.sound.regexes r hr)).1
  have hRealizes : m.Realizes (grammar v) place :=
    ⟨hImage, hSustained.endsAlone, Grammar.checked_of_compile_eq_ok hCompile, hUnnamed⟩
  exact ⟨m, hCompile, hRealizes.follows hSustained.tariff⟩

theorem consumes_cues_root (v : Version) :
    (((grammar v).cues .root).all fun entry => consumes false entry.2) = true := by
  have hCues : ∀ entry ∈ (grammar v).cues .root,
      0 < width entry.2 ∧ entry.2 ∈ (grammar v).patterns := by
    cases v <;> decide +kernel
  refine List.all_eq_true.2 fun entry hEntry => ?_
  obtain ⟨hWidth, hPattern⟩ := hCues entry hEntry
  obtain ⟨-, program, hCompile, hBreadth, -⟩ :=
    exists_program (sound_of_mem (.inr (.inr ⟨v, hPattern⟩)))
  rw [toList_asciiClasses] at hCompile
  rw [consumes, hCompile]
  exact Program.consumes_of_breadth_pos (Nat.lt_of_lt_of_le hWidth hBreadth)

theorem cueAt?_root_atEnd (v : Version) {c : Cursor} (hEnd : c.atEnd = true) :
    (grammar v).cueAt? .root c = none :=
  Grammar.cueAt?_atEnd hEnd (consumes_cues_root v)

theorem exists_tokens_of_closed {v : Version} {m : Machine} (hFollows : m.Follows (grammar v))
    (t : Tokenizer m) {text : List Char} {regions : List Region} {lastOpening : Option Nat}
    (hCourse : (grammar v).Course (.start text) ⟨[], regions, .between text [],
      .between text [], lastOpening⟩) (hFilled : ∀ r ∈ regions, r.start < r.stop) :
    ∃ tokens, (t.tokenize (.ofList text)).1 = .ok tokens ∧ tokens.regions = regions := by
  let d : Standing := ⟨[], regions, .between text [], .between text [], lastOpening⟩
  have hStart : (grammar v).Course (.start (String.ofList text).toList) d := by
    rw [String.toList_ofList]
    exact hCourse
  obtain ⟨tokens, hTokens, hRegions⟩ := hFollows.ends t _ d hStart (cueAt?_root_atEnd v rfl) rfl
  have hAll : (regions.filter fun r => r.start < r.stop) = regions :=
    List.filter_eq_self.2 fun r hr => decide_eq_true (hFilled r hr)
  exact ⟨tokens, hTokens, hRegions.trans ((Standing.found_of_closed _ _ _ _ _).trans hAll)⟩

end Highlighter.Co
