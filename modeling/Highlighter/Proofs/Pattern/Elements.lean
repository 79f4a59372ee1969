import Highlighter.Proofs.Pattern.ClassItems

/-! What each element of a pattern does to a reader. It is an action that depends on what has been
read, but neither on the groups around the pattern nor on a parenthesis that closes one of them
behind it, unless the end of the pattern cuts the element short. -/

namespace Highlighter.Pattern

open Highlighter.Text

variable {s : List Char}

/-! ### Counts and names -/

/-- Only a parenthesis may come to stand where a part is at its end. -/
theorem Follows.append_ne_cons (h : Follows s) {d : Char} (hd : d ≠ ')') {cs : List Char}
    (hHead : ∀ tail, cs = d :: tail → False) (tail : List Char) :
    cs ++ s = d :: tail → False := by
  intro hEq
  have hNone : cs.head? ≠ some d := by
    intro hSome
    obtain ⟨tail, rfl⟩ := List.head?_eq_some_iff.1 hSome
    exact hHead tail rfl
  exact h.head?_append_ne hd (fun _ => hNone) trivial (by rw [hEq]; rfl)

theorem Follows.readInterval_append (h : Follows s) {cs : List Char}
    {found : Option (Interval × List Char)} (hFound : readInterval cs = .ok found) :
    readInterval (cs ++ s) = .ok (found.map fun x => (x.1, x.2 ++ s)) := by
  unfold readInterval at hFound ⊢
  rw [h.takeDigits_length_append (by decide)]
  generalize takeDigits isAsciiDigit cs.length cs = digits at hFound
  obtain ⟨low, rest⟩ := digits
  dsimp only at hFound ⊢
  split at hFound
  · cases hFound
  · next hLow =>
    rw [if_neg hLow]
    split at hFound
    · next rest =>
      simp only [List.cons_append]
      rw [h.takeDigits_length_append (by decide)]
      generalize takeDigits isAsciiDigit rest.length rest = digits at hFound
      obtain ⟨high, rest⟩ := digits
      dsimp only at hFound ⊢
      split at hFound
      · cases hFound
      · next hHigh =>
        rw [if_neg hHigh]
        split at hFound
        · next hNone =>
          rw [if_pos hNone]
          cases hFound
          rfl
        · next hSome =>
          rw [if_neg hSome]
          split at hFound
          · cases hFound
            rfl
          · next hBrace =>
            cases hFound
            split
            · next hEq => exact absurd hEq (h.append_ne_cons (by decide) hBrace _)
            · rfl
    · next rest =>
      cases hFound
      by_cases hEmpty : low = []
      · simp [hEmpty]
      · simp [hEmpty]
    · next hComma hBrace =>
      cases hFound
      split
      · next hEq => exact absurd hEq (h.append_ne_cons (by decide) hComma _)
      · next hEq => exact absurd hEq (h.append_ne_cons (by decide) hBrace _)
      · rfl

theorem Follows.scanName_append (h : Follows s) (closing : Char) (name cs : List Char) :
    scanName closing name (cs ++ s) =
      ((scanName closing name cs).1, (scanName closing name cs).2 ++ s) := by
  induction cs generalizing name with
  | nil =>
    cases s with
    | nil => rfl
    | cons c s =>
      obtain rfl := h c rfl
      simp [scanName]
  | cons c cs ih =>
    rw [List.cons_append, scanName, scanName]
    split
    · rfl
    · exact ih (c :: name)

theorem Follows.readGroupName_append (h : Follows s) {closing : Char} {cs name rest : List Char}
    (hName : readGroupName closing cs = .ok (name, rest)) :
    readGroupName closing (cs ++ s) = .ok (name, rest ++ s) := by
  cases cs with
  | nil => cases hName
  | cons c cs =>
    rw [List.cons_append]
    unfold readGroupName at hName ⊢
    dsimp only at hName ⊢
    split at hName
    · cases hName
    · next hc =>
      rw [if_neg hc, h.scanName_append]
      generalize scanName closing [c] cs = scanned at hName
      obtain ⟨reversed, after⟩ := scanned
      dsimp only at hName ⊢
      split at hName
      · cases hName
      · cases hName
      · next hFault =>
        split at hName
        · next hx =>
          cases hName
          rw [List.cons_append, hFault]
          dsimp only
          rw [if_pos hx]
        · cases hName
      · cases hName

theorem Follows.scanReference_append (h : Follows s) (closing : Char) (cs : List Char) :
    scanReference closing (cs ++ s) =
      ((scanReference closing cs).1, (scanReference closing cs).2 ++ s) := by
  induction cs with
  | nil =>
    cases s with
    | nil => rfl
    | cons c s =>
      obtain rfl := h c rfl
      simp [scanReference]
  | cons c cs ih =>
    rw [List.cons_append, scanReference, scanReference]
    split
    · rfl
    · rw [ih]

theorem Follows.readReference_append (h : Follows s) {closing : Char} {cs rest : List Char}
    {reference : Reference} (hReference : readReference closing cs = .ok (reference, rest)) :
    readReference closing (cs ++ s) = .ok (reference, rest ++ s) := by
  cases cs with
  | nil => cases hReference
  | cons c cs =>
    rw [List.cons_append]
    unfold readReference at hReference ⊢
    dsimp only at hReference ⊢
    rw [h.scanReference_append]
    generalize scanReference closing cs = scanned at hReference
    obtain ⟨tail, after⟩ := scanned
    cases after with
    | nil =>
      dsimp only at hReference
      repeat' split at hReference
      all_goals cases hReference
    | cons x after =>
      dsimp only [List.cons_append] at hReference ⊢
      repeat' split at hReference
      all_goals cases hReference
      · next hEmpty hNumeric hSign hDigits hClosing hBig hZero =>
        rw [if_neg hEmpty, if_pos hNumeric]
        simp only [if_pos hSign]
        rw [if_neg hDigits, if_pos hClosing, if_neg hBig, if_neg hZero]
      · next hEmpty hNumeric hSign hDigits hClosing hBig hZero =>
        rw [if_neg hEmpty, if_pos hNumeric]
        simp only [if_neg hSign]
        rw [if_neg hDigits, if_pos hClosing, if_neg hBig, if_neg hZero]
      · next hEmpty hNumeric hName hClosing =>
        rw [if_neg hEmpty, if_neg hNumeric, if_neg hName, if_pos hClosing]

theorem skipComment_append {cs rest : List Char} (h : skipComment cs = some rest) (s : List Char) :
    skipComment (cs ++ s) = some (rest ++ s) := by
  fun_induction skipComment cs with
  | case1 => cases h
  | case2 => 
    cases h
    rfl
  | case3 => cases h
  | case4 d cs ih => exact ih h
  | case5 c cs hClose hEnd hEscape ih =>
    have hBackslash : c ≠ '\\' := by
      rintro rfl
      cases cs with
      | nil => exact hEnd rfl rfl
      | cons d cs => exact hEscape d cs rfl rfl
    rw [List.cons_append, skipComment]
    · exact ih h
    · exact hClose
    · exact fun hEq => absurd hEq hBackslash
    · exact fun _ _ hEq => absurd hEq hBackslash

theorem readOptions_append {options : Options} {off : Bool} {cs rest : List Char}
    {found : OptionsEnd} (h : readOptions options off cs = .ok (found, rest)) (s : List Char) :
    readOptions options off (cs ++ s) = .ok (found, rest ++ s) := by
  fun_induction readOptions options off cs with
  | case1 => cases h
  | case2 => 
    cases h
    rfl
  | case3 => 
    cases h
    rfl
  | case4 _ _ _ ih => exact ih h
  | case5 _ _ _ ih => exact ih h
  | case6 _ _ _ ih => exact ih h
  | case7 _ _ _ ih => exact ih h
  | case8 => cases h


theorem drop_dropWhile_append {c : Char} {cs : List Char} (h : c ∈ cs) (s : List Char) :
    ((cs ++ s).dropWhile (· != c)).drop 1 = (cs.dropWhile (· != c)).drop 1 ++ s := by
  induction cs with
  | nil => cases h
  | cons d cs ih =>
    by_cases hd : d = c
    · simp [hd]
    · have hMem : c ∈ cs := (List.mem_cons.1 h).resolve_left fun hEq => hd hEq.symm
      simpa [List.dropWhile_cons, hd] using ih hMem

/-! ### Elements -/

/-- What an element of a pattern does to a reader. -/
inductive Action
  | skip
  | push (t : Tree)
  | bar
  | enter (opener : Opener) (options : Options)
  /-- Opens a group that captures, by a name if there is one. -/
  | capture (name : Option (List Char))
  | close
  | quantify (q : Quantifier) (possessive : Bool)

namespace Action

def apply (a : Action) (r : Reader) : Except PatternError Reader :=
  match a with
  | .skip => .ok r
  | .push t => .ok (r.push t)
  | .bar => .ok r.bar
  | .enter opener options => r.enter opener options
  | .capture none =>
    ({ r with captures := r.captures + 1 }).enter (.capture (r.captures + 1) false) r.options
  | .capture (some name) =>
    ({ r with captures := r.captures + 1, names := (name, r.captures + 1) :: r.names }).enter
      (.capture (r.captures + 1) true) r.options
  | .close => r.close
  | .quantify q possessive => r.quantify q possessive

/-- Every group that captures is one that the reader counts. -/
def Counted : Action → Prop
  | .push t => t.groups = []
  | .enter opener _ => ∀ index named, opener ≠ .capture index named
  | _ => True

end Action

/-- What options do to a reader. -/
def OptionsEnd.action : OptionsEnd → Action
  | .alone options => .enter .remainder options
  | .group options => .enter .scope options

def Interval.swapped (i : Interval) : Bool :=
  match i.upper with
  | some upper => decide (upper < i.lower)
  | none => false

namespace Reader

/-- The same reader within more groups. -/
def within (r : Reader) (around : List Level) : Reader := { r with below := r.below ++ around }

/-- `f` takes in the head of `cs` by an action, and within more groups as well, if
the element there is whole. -/
structure Takes (f : Reader → List Char → Reading Reader) (whole : Prop) (r : Reader)
    (cs rest : List Char) (a : Action) : Prop where
  counted : a.Counted
  here : f r cs = (a.apply r).map (·, rest)
  inside : whole → ∀ around s, Follows s →
    f (r.within around) (cs ++ s) = .error .depthLimit ∨
    f (r.within around) (cs ++ s) = (a.apply (r.within around)).map (·, rest ++ s)

variable {r : Reader} {cs : List Char} {x : Reader × List Char}

theorem Takes.anyhow {f : Reader → List Char → Reading Reader} {rest : List Char} {a : Action}
    (h : Takes f True r cs rest a) {whole : Prop} : Takes f whole r cs rest a :=
  ⟨h.counted, h.here, fun _ => h.inside trivial⟩

theorem sign_of_head {lower : Nat} {upper : Option Nat} (hLazy : cs.head? ≠ some '?')
    (hPossessive : cs.head? ≠ some '+') :
    r.sign lower upper cs = (r.quantify ⟨lower, upper, true⟩ false).map (·, cs) := by
  unfold sign
  split
  · exact absurd rfl hLazy
  · exact absurd rfl hPossessive
  · rfl

theorem exists_takes_sign (r : Reader) (lower : Nat) (upper : Option Nat) (cs : List Char) :
    ∃ rest a, Takes (fun r cs => r.sign lower upper cs) True r cs rest a := by
  by_cases hLazy : cs.head? = some '?'
  · obtain ⟨cs, rfl⟩ := List.head?_eq_some_iff.1 hLazy
    exact ⟨cs, .quantify _ _, trivial, rfl, fun _ _ _ _ => .inr rfl⟩
  by_cases hPossessive : cs.head? = some '+'
  · obtain ⟨cs, rfl⟩ := List.head?_eq_some_iff.1 hPossessive
    exact ⟨cs, .quantify _ _, trivial, rfl, fun _ _ _ _ => .inr rfl⟩
  refine ⟨cs, .quantify _ _, trivial, sign_of_head hLazy hPossessive,
    fun _ around s hs => .inr ?_⟩
  exact sign_of_head (hs.head?_append_ne (by decide) (fun _ => hLazy) trivial)
    (hs.head?_append_ne (by decide) (fun _ => hPossessive) trivial)

theorem interval_of_swapped {i : Interval} (h : i.swapped = true) : r.interval i cs =
    (r.quantify ⟨i.upper.getD 0, some i.lower, true⟩ true).map (·, cs) := by
  unfold interval
  exact if_pos h

theorem interval_lazy {i : Interval} (h : i.swapped = false) (hExact : i.exact = false) :
    r.interval i ('?' :: cs) = (r.quantify ⟨i.lower, i.upper, false⟩ false).map (·, cs) := by
  unfold interval
  refine (if_neg (ne_true_of_eq_false h)).trans ?_
  rw [hExact]
  rfl

theorem interval_of_head {i : Interval} (h : i.swapped = false)
    (hLazy : i.exact = false → cs.head? ≠ some '?') :
    r.interval i cs = (r.quantify ⟨i.lower, i.upper, true⟩ false).map (·, cs) := by
  unfold interval
  refine (if_neg (ne_true_of_eq_false h)).trans ?_
  split
  · next hExact => exact absurd rfl (hLazy hExact)
  · rfl

theorem exists_takes_interval (r : Reader) (i : Interval) (cs : List Char) :
    ∃ rest a, Takes (fun r cs => r.interval i cs) True r cs rest a := by
  cases hSwapped : i.swapped with
  | true =>
    exact ⟨cs, .quantify _ _, trivial, interval_of_swapped hSwapped,
      fun _ _ _ _ => .inr (interval_of_swapped hSwapped)⟩
  | false =>
    by_cases hLazy : i.exact = false ∧ cs.head? = some '?'
    · obtain ⟨hExact, hHead⟩ := hLazy
      obtain ⟨cs, rfl⟩ := List.head?_eq_some_iff.1 hHead
      exact ⟨cs, .quantify _ _, trivial, interval_lazy hSwapped hExact,
        fun _ _ _ _ => .inr (interval_lazy hSwapped hExact)⟩
    · rw [not_and] at hLazy
      exact ⟨cs, .quantify _ _, trivial, interval_of_head hSwapped hLazy, fun _ around s hs =>
        .inr (interval_of_head hSwapped (hs.head?_append_ne (by decide) hLazy))⟩

/-- The part that a reference becomes. -/
def refer (r : Reader) : Reference → Except PatternError Tree
  | .absolute n => .ok (.backreference [n] false r.options.fold)
  | .relative false n => .ok (.backreference [r.captures + n] false r.options.fold)
  | .relative true n =>
    if n ≤ r.captures then .ok (.backreference [r.captures + 1 - n] false r.options.fold)
    else .error .unknownBackreference
  | .named name =>
    match (r.names.filter (·.1 == name)).map (·.2) with
    | [] => .error (.unknownName (String.ofList name))
    | groups => .ok (.backreference groups true r.options.fold)

theorem groups_of_refer {reference : Reference} {t : Tree} (h : r.refer reference = .ok t) :
    t.groups = [] := by
  unfold refer at h
  repeat' split at h
  all_goals cases h <;> rfl

theorem reference_of_readReference {closing : Char} {rest : List Char} {reference : Reference}
    (h : readReference closing cs = .ok (reference, rest)) :
    r.reference closing cs = (r.refer reference).map fun t => (r.push t, rest) := by
  unfold Reader.reference refer
  rw [h]
  cases reference with
  | absolute n => rfl
  | relative back n =>
    cases back with
    | false => rfl
    | true =>
      dsimp only
      split <;> rfl
  | named name =>
    dsimp only
    cases (r.names.filter (·.1 == name)).map (·.2) <;> rfl

theorem exists_takes_reference {closing : Char} (h : r.reference closing cs = .ok x) :
    ∃ rest a, Takes (fun r cs => r.reference closing cs) True r cs rest a := by
  cases hReference : readReference closing cs with
  | error e =>
    unfold reference at h
    rw [hReference] at h
    cases h
  | ok y =>
    obtain ⟨reference, rest⟩ := y
    rw [reference_of_readReference hReference] at h
    obtain ⟨t, ht, -⟩ := exists_of_map_eq_ok h
    refine ⟨rest, .push t, groups_of_refer ht, ?_, fun _ around s hs => .inr ?_⟩
    · rw [reference_of_readReference hReference, ht]
      rfl
    · have hInside : (r.within around).refer reference = .ok t := ht
      rw [reference_of_readReference (hs.readReference_append hReference), hInside]
      rfl

theorem takes_pushChar {f : Reader → List Char → Reading Reader} {g : List Char → Reading Nat}
    {whole : Prop} {code : Nat} {rest : List Char} (hCode : g cs = .ok (code, rest))
    (hMore : whole → ∀ s, Follows s → g (cs ++ s) = .ok (code, rest ++ s))
    (hHere : f r cs = (g cs).map fun x => (r.pushChar x.1, x.2))
    (hInside : ∀ around s, Follows s → f (r.within around) (cs ++ s) =
      (g (cs ++ s)).map fun x => ((r.within around).pushChar x.1, x.2)) :
    Takes f whole r cs rest (.push (.literal [Char.ofNat code] r.options.fold)) := by
  refine ⟨rfl, ?_, fun hWhole around s hs => .inr ?_⟩
  · rw [hHere, hCode]
    rfl
  · rw [hInside around s hs, hMore hWhole s hs]
    rfl

theorem digitEscape_of_digits {c : Char} {digits after : List Char}
    (h : takeDigits isAsciiDigit (c :: cs).length (c :: cs) = (digits, after)) :
    r.digitEscape c cs =
      if baseValue 10 digits ≤ 1000 ∧ (baseValue 10 digits ≤ r.captures ∨
        baseValue 10 digits ≤ 9) then
        .ok (r.backreference (baseValue 10 digits), after)
      else if isOctalDigit c then (octalCharacter 3 (c :: cs)).map fun x => (r.pushChar x.1, x.2)
      else .ok (r.pushChar c.toNat, cs) := by
  unfold digitEscape
  rw [h]

theorem exists_takes_digitEscape {c : Char} (h : r.digitEscape c cs = .ok x) :
    ∃ rest a, Takes (fun r cs => r.digitEscape c cs) True r cs rest a := by
  cases hDigits : takeDigits isAsciiDigit (c :: cs).length (c :: cs) with
  | mk digits after =>
  have hInside : ∀ s, Follows s →
      takeDigits isAsciiDigit (c :: (cs ++ s)).length (c :: (cs ++ s)) = (digits, after ++ s) := by
    intro s hs
    rw [← List.cons_append, hs.takeDigits_length_append (by decide), hDigits]
  have hHere := digitEscape_of_digits (r := r) hDigits
  have hThere := fun around s hs => digitEscape_of_digits (r := r.within around) (hInside s hs)
  rw [hHere] at h
  split at h
  · next hBack =>
    exact ⟨after, .push (.backreference [baseValue 10 digits] false r.options.fold), rfl,
      hHere.trans (if_pos hBack),
      fun _ around s hs => .inr ((hThere around s hs).trans (if_pos hBack))⟩
  · next hChar =>
    split at h
    · next hOctal =>
      obtain ⟨⟨code, rest⟩, hCode, -⟩ := exists_of_map_eq_ok h
      exact ⟨rest, _, takes_pushChar (g := fun cs => octalCharacter 3 (c :: cs)) hCode
        (fun _ _ hs => hs.octalCharacter_append hCode)
        (hHere.trans ((if_neg hChar).trans (if_pos hOctal)))
        fun around s hs => (hThere around s hs).trans ((if_neg hChar).trans (if_pos hOctal))⟩
    · next hOctal =>
      exact ⟨cs, .push (.literal [Char.ofNat c.toNat] r.options.fold), rfl,
        hHere.trans ((if_neg hChar).trans (if_neg hOctal)), fun _ around s hs =>
          .inr ((hThere around s hs).trans ((if_neg hChar).trans (if_neg hOctal)))⟩

theorem escape_default {c : Char} (hc : c ∉ ['s', 'S', 'h', 'H', 'A', 'z', 'Z', 'b', 'B', '0'])
    (hp : c = 'p' ∨ c = 'P' → cs.head? ≠ some '\x7b') (hk : c = 'k' → cs.head? ≠ some '<')
    (hq : c = 'k' → cs.head? ≠ some '\'') : r.escape c cs =
      if isAsciiDigit c then r.digitEscape c cs
      else (escapedCharacter c cs).map fun x => (r.pushChar x.1, x.2) := by
  unfold escape
  split <;> first | rfl | exact absurd (by decide) hc | grind

theorem escape_property (r : Reader) {c : Char} (hc : c = 'p' ∨ c = 'P') (cs : List Char) :
    r.escape c ('\x7b' :: cs) = (readProperty (c = 'P') cs).map fun x => (r.pushSet x.1, x.2) := by
  rcases hc with rfl | rfl <;> rfl

theorem exists_takes_property {c : Char} (hc : c = 'p' ∨ c = 'P')
    (h : r.escape c ('\x7b' :: cs) = .ok x) {whole : Prop} :
    ∃ rest a, Takes (fun r cs => r.escape c cs) whole r ('\x7b' :: cs) rest a := by
  rw [escape_property r hc] at h
  obtain ⟨⟨set, rest⟩, hSet, -⟩ := exists_of_map_eq_ok h
  refine ⟨rest, .push (.test (.ofClass ⟨set, false⟩)), rfl, ?_, fun _ around s _ => .inr ?_⟩
  · rw [escape_property r hc, hSet]
    rfl
  · dsimp only [List.cons_append]
    rw [escape_property _ hc, readProperty_append hSet]
    rfl

theorem exists_takes_escape {c : Char} (h : r.escape c cs = .ok x) :
    ∃ rest a, Takes (fun r cs => r.escape c cs) (¬ LacksDigits c cs) r cs rest a := by
  have hAll := h
  unfold escape at h
  split at h
  -- Letters that name a class or an anchor are read on their own.
  iterate 4 exact ⟨_, .push (.test (.ofClass ⟨_, false⟩)), rfl, rfl,
    fun _ _ _ _ => .inr rfl⟩
  iterate 5 exact ⟨_, .push (.anchor _), rfl, rfl, fun _ _ _ _ => .inr rfl⟩
  · exact exists_takes_property (.inl rfl) hAll
  · exact exists_takes_property (.inr rfl) hAll
  · obtain ⟨rest, a, hTakes⟩ := exists_takes_reference h
    exact ⟨rest, a, hTakes.counted, hTakes.here, fun _ => hTakes.inside trivial⟩
  · obtain ⟨rest, a, hTakes⟩ := exists_takes_reference h
    exact ⟨rest, a, hTakes.counted, hTakes.here, fun _ => hTakes.inside trivial⟩
  · obtain ⟨⟨code, rest⟩, hCode, -⟩ := exists_of_map_eq_ok h
    exact ⟨rest, _, takes_pushChar hCode (fun _ _ hs => hs.octalCharacter_append hCode) rfl
      fun _ _ _ => rfl⟩
  · next hs hS hh hH hA hz hZ hb hB h0 hp hP hk hq =>
    have hLetter : c ∉ ['s', 'S', 'h', 'H', 'A', 'z', 'Z', 'b', 'B', '0'] := by
      simp only [List.mem_cons, List.not_mem_nil, or_false, not_or]
      exact ⟨hs, hS, hh, hH, hA, hz, hZ, hb, hB, h0⟩
    -- What follows the letter does not make it a property or a reference, and a
    -- parenthesis does not either.
    have hBrace : c = 'p' ∨ c = 'P' → cs.head? ≠ some '\x7b' := by
      intro hc hHead
      obtain ⟨tail, rfl⟩ := List.head?_eq_some_iff.1 hHead
      exact hc.elim (fun hc => hp tail hc rfl) (fun hc => hP tail hc rfl)
    have hAngle : c = 'k' → cs.head? ≠ some '<' := by
      intro hc hHead
      obtain ⟨tail, rfl⟩ := List.head?_eq_some_iff.1 hHead
      exact hk tail hc rfl
    have hQuote : c = 'k' → cs.head? ≠ some '\'' := by
      intro hc hHead
      obtain ⟨tail, rfl⟩ := List.head?_eq_some_iff.1 hHead
      exact hq tail hc rfl
    have hInside := fun (r : Reader) s (hs : Follows s) => r.escape_default hLetter
      (hs.head?_append_ne (by decide) hBrace) (hs.head?_append_ne (by decide) hAngle)
      (hs.head?_append_ne (by decide) hQuote)
    have hHere := escape_default (r := r) hLetter hBrace hAngle hQuote
    split at h
    · next hDigit =>
      obtain ⟨rest, a, hTakes⟩ := exists_takes_digitEscape h
      refine ⟨rest, a, hTakes.counted, ?_, fun _ around s hs => ?_⟩
      · exact hHere.trans ((if_pos hDigit).trans hTakes.here)
      · rw [hInside _ s hs, if_pos hDigit]
        exact hTakes.inside trivial around s hs
    · next hDigit =>
      obtain ⟨⟨code, rest⟩, hCode, -⟩ := exists_of_map_eq_ok h
      exact ⟨rest, _, takes_pushChar hCode
        (fun hWhole _ hs => hs.escapedCharacter_append hWhole hCode) (hHere.trans (if_neg hDigit))
        fun around s hs => (hInside (r.within around) s hs).trans (if_neg hDigit)⟩

theorem openNamed_of_readGroupName {closing : Char} {name rest : List Char}
    (h : readGroupName closing cs = .ok (name, rest)) :
    r.openNamed closing cs = ((Action.capture (some name)).apply r).map (·, rest) := by
  unfold openNamed
  rw [h]
  rfl

theorem exists_takes_openNamed {closing : Char} (h : r.openNamed closing cs = .ok x) :
    ∃ rest a, Takes (fun r cs => r.openNamed closing cs) True r cs rest a := by
  cases hName : readGroupName closing cs with
  | error e =>
    unfold openNamed at h
    rw [hName] at h
    cases h
  | ok y =>
    obtain ⟨name, rest⟩ := y
    exact ⟨rest, .capture (some name), trivial, openNamed_of_readGroupName hName, fun _ _ _ hs =>
      .inr (openNamed_of_readGroupName (hs.readGroupName_append hName))⟩

theorem group_named (r : Reader) (cs : List Char) {c : Char} (hBehind : c ≠ '=')
    (hNot : c ≠ '!') : r.group ('?' :: '<' :: c :: cs) = r.openNamed '>' (c :: cs) := by
  unfold group
  split <;> grind

theorem group_options {c : Char} (hc : ['-', 'i', 'm', 'x'].contains c = true) :
    r.group ('?' :: c :: cs) = match readOptions r.options false (c :: cs) with
      | .error e => .error e
      | .ok (.alone options, rest) => (r.enter .remainder options).map (·, rest)
      | .ok (.group options, rest) => (r.enter .scope options).map (·, rest) := by
  simp only [List.contains_cons, List.contains_nil, Bool.or_false, Bool.or_eq_true,
    beq_iff_eq] at hc
  rcases hc with rfl | rfl | rfl | rfl <;> rfl

theorem group_of_readOptions {c : Char} (hc : ['-', 'i', 'm', 'x'].contains c = true)
    {found : OptionsEnd} {rest : List Char}
    (h : readOptions r.options false (c :: cs) = .ok (found, rest)) :
    r.group ('?' :: c :: cs) = (found.action.apply r).map (·, rest) := by
  rw [group_options hc, h]
  cases found <;> rfl

theorem exists_takes_options {c : Char} (hc : ['-', 'i', 'm', 'x'].contains c = true)
    (h : r.group ('?' :: c :: cs) = .ok x) :
    ∃ rest a, Takes group True r ('?' :: c :: cs) rest a := by
  rw [group_options hc] at h
  cases hOptions : readOptions r.options false (c :: cs) with
  | error e =>
    rw [hOptions] at h
    cases h
  | ok y =>
    obtain ⟨found, rest⟩ := y
    refine ⟨rest, found.action, ?_, group_of_readOptions hc hOptions, fun _ around s _ =>
      .inr (group_of_readOptions (r := r.within around) hc (readOptions_append hOptions s))⟩
    cases found <;> exact fun _ _ => nofun

theorem group_comment : r.group ('?' :: '#' :: cs) =
    match skipComment cs with
    | some rest => .ok (r, rest)
    | none => .error .endInGroup := rfl

theorem group_of_skipComment {rest : List Char} (h : skipComment cs = some rest) :
    r.group ('?' :: '#' :: cs) = .ok (r, rest) := by
  rw [group_comment, h]

theorem group_of_head (h : cs.head? ≠ some '?') :
    r.group cs = ((Action.capture none).apply r).map (·, cs) := by
  unfold group
  split <;> first | rfl | exact absurd rfl h

theorem exists_takes_group (h : r.group cs = .ok x) :
    ∃ rest a, Takes group True r cs rest a := by
  have hAll := h
  unfold group at h
  split at h
  · next cs =>
    cases hComment : skipComment cs with
    | none =>
      rw [hComment] at h
      cases h
    | some rest =>
      exact ⟨rest, .skip, trivial, group_of_skipComment hComment, fun _ _ s _ =>
        .inr (group_of_skipComment (skipComment_append hComment s))⟩
  · cases h
  · exact ⟨_, .enter .plain r.options, nofun, rfl, fun _ _ _ _ => .inr rfl⟩
  · exact ⟨_, .enter (.look false false) r.options, nofun, rfl, fun _ _ _ _ => .inr rfl⟩
  · exact ⟨_, .enter (.look false true) r.options, nofun, rfl, fun _ _ _ _ => .inr rfl⟩
  · exact ⟨_, .enter .atomic r.options, nofun, rfl, fun _ _ _ _ => .inr rfl⟩
  · obtain ⟨rest, a, hTakes⟩ := exists_takes_openNamed h
    exact ⟨rest, a, hTakes.counted, hTakes.here, hTakes.inside⟩
  · cases h
  · exact ⟨_, .enter (.look true false) r.options, nofun, rfl, fun _ _ _ _ => .inr rfl⟩
  · exact ⟨_, .enter (.look true true) r.options, nofun, rfl, fun _ _ _ _ => .inr rfl⟩
  · next cs hEnd hBehind hNot =>
    obtain ⟨c, cs, rfl⟩ := List.exists_cons_of_ne_nil hEnd
    have hEqual : c ≠ '=' := fun hEq => hBehind cs (by rw [hEq])
    have hMark : c ≠ '!' := fun hEq => hNot cs (by rw [hEq])
    have hNamed := fun r cs => group_named r cs hEqual hMark
    obtain ⟨rest, a, hTakes⟩ := exists_takes_openNamed h
    refine ⟨rest, a, hTakes.counted, (hNamed r cs).trans hTakes.here, fun _ around s hs => ?_⟩
    rw [List.cons_append, List.cons_append, List.cons_append, hNamed]
    exact hTakes.inside trivial around s hs
  · next c cs _ _ _ _ _ _ _ =>
    split at h
    · next hc => exact exists_takes_options hc hAll
    · cases h
  · have hHead : cs.head? ≠ some '?' := by
      intro hHead
      obtain ⟨tail, rfl⟩ := List.head?_eq_some_iff.1 hHead
      cases tail <;> grind
    exact ⟨cs, .capture none, trivial, group_of_head hHead, fun _ _ _ hs =>
      .inr (group_of_head (hs.head?_append_ne (by decide) (fun _ => hHead) trivial))⟩

/-- The end of the pattern cuts the element that starts with `c` short: an escape of its digits, or
a comment of the end of its line. -/
def cutShort (r : Reader) (c : Char) (cs : List Char) : Bool :=
  (c == '\\' && (cs == ['x'] || cs == ['u'])) ||
    (r.options.extended && c == '#' && !cs.contains '\n')

theorem not_lacksDigits_of_cutShort {c : Char} (h : r.cutShort '\\' (c :: cs) = false) :
    ¬ LacksDigits c cs := by
  rintro ⟨rfl, rfl | rfl⟩ <;> simp [cutShort] at h

theorem step_brace : r.step '\x7b' cs =
    match readInterval cs with
    | .error e => .error e
    | .ok (some (i, rest)) => r.interval i rest
    | .ok none => .ok (r.pushChar '\x7b'.toNat, cs) := rfl

theorem exists_takes_brace (h : r.step '\x7b' cs = .ok x) {whole : Prop} :
    ∃ rest a, Takes (fun r cs => r.step '\x7b' cs) whole r cs rest a := by
  rw [step_brace] at h
  cases hInterval : readInterval cs with
  | error e =>
    rw [hInterval] at h
    cases h
  | ok found =>
    have hInside := fun s (hs : Follows s) => hs.readInterval_append hInterval
    cases found with
    | none =>
      refine ⟨cs, .push (.literal ['\x7b'] r.options.fold), rfl, ?_,
        fun _ around s hs => .inr ?_⟩
      · rw [step_brace, hInterval]
        rfl
      · rw [step_brace, hInside s hs]
        rfl
    | some y =>
      obtain ⟨i, after⟩ := y
      obtain ⟨rest, a, hTakes⟩ := exists_takes_interval r i after
      refine ⟨rest, a, hTakes.counted, ?_, fun _ around s hs => ?_⟩
      · rw [step_brace, hInterval]
        exact hTakes.here
      · rw [step_brace, hInside s hs]
        exact hTakes.inside trivial around s hs

theorem step_bracket : r.step '[' cs =
    match readClass r.depth (cs.length + 2) cs with
    | .error e => .error e
    | .ok (k, rest) => .ok (r.pushClass k, rest) := rfl

theorem exists_takes_bracket (h : r.step '[' cs = .ok x) {whole : Prop} :
    ∃ rest a, Takes (fun r cs => r.step '[' cs) whole r cs rest a := by
  rw [step_bracket] at h
  cases hClass : readClass r.depth (cs.length + 2) cs with
  | error e =>
    rw [hClass] at h
    cases h
  | ok y =>
    obtain ⟨k, rest⟩ := y
    refine ⟨rest, .push (.test (if r.options.fold then .folded k else .ofClass k)), rfl, ?_,
      fun _ around s hs => ?_⟩
    · rw [step_bracket, hClass]
      rfl
    · have hFuel : cs.length + 2 ≤ (cs ++ s).length + 2 := by simp
      rw [step_bracket]
      rcases hs.readClass_append (r.within around).depth hFuel hClass with hDeep | hInside
      · exact .inl (by rw [hDeep])
      · rw [hInside]
        exact .inr rfl

theorem step_literal (r : Reader) (cs : List Char) {c : Char}
    (hc : c ∉ ['\\', '.', '^', '$', '|', '(', ')', '*', '+', '?', '\x7b', '[']) : r.step c cs =
      if r.options.extended ∧ isLayout c then .ok (r, cs)
      else if r.options.extended ∧ c = '#' then .ok (r, (cs.dropWhile (· != '\n')).drop 1)
      else .ok (r.pushChar c.toNat, cs) := by
  unfold step
  split <;> first | rfl | exact absurd (by decide) hc

theorem exists_takes_literal {c : Char}
    (hc : c ∉ ['\\', '.', '^', '$', '|', '(', ')', '*', '+', '?', '\x7b', '[']) :
    ∃ rest a, Takes (fun r cs => r.step c cs) (r.cutShort c cs = false) r cs rest a := by
  have hHere := step_literal r cs hc
  have hInside := fun around s => step_literal (r.within around) (cs ++ s) hc
  by_cases hLayout : r.options.extended = true ∧ isLayout c = true
  · exact ⟨cs, .skip, trivial, hHere.trans (if_pos hLayout), fun _ around s _ =>
      .inr ((hInside around s).trans (if_pos hLayout))⟩
  by_cases hComment : r.options.extended = true ∧ c = '#'
  · refine ⟨_, .skip, trivial, hHere.trans ((if_neg hLayout).trans (if_pos hComment)),
      fun hWhole around s _ => .inr ?_⟩
    have hLine : '\n' ∈ cs := by simpa [cutShort, hComment.1, hComment.2] using hWhole
    rw [← drop_dropWhile_append hLine]
    exact (hInside around s).trans ((if_neg hLayout).trans (if_pos hComment))
  · exact ⟨cs, .push (.literal [Char.ofNat c.toNat] r.options.fold), rfl,
      hHere.trans ((if_neg hLayout).trans (if_neg hComment)), fun _ around s _ =>
        .inr ((hInside around s).trans ((if_neg hLayout).trans (if_neg hComment)))⟩

/-- Each step of reading is an action, which what stands around and behind does not change. -/
theorem exists_takes_step {c : Char} (h : r.step c cs = .ok x) :
    ∃ rest a, Takes (fun r cs => r.step c cs) (r.cutShort c cs = false) r cs rest a := by
  have hAll := h
  unfold step at h
  split at h
  · cases cs with
    | nil => cases h
    | cons d cs =>
      obtain ⟨rest, a, hTakes⟩ := exists_takes_escape h
      exact ⟨rest, a, hTakes.counted, hTakes.here, fun hWhole =>
        hTakes.inside (not_lacksDigits_of_cutShort hWhole)⟩
  · exact ⟨cs, .push (.test (.any r.options.dotAll)), rfl, rfl, fun _ _ _ _ => .inr rfl⟩
  · exact ⟨cs, .push (.anchor .lineStart), rfl, rfl, fun _ _ _ _ => .inr rfl⟩
  · exact ⟨cs, .push (.anchor .lineEnd), rfl, rfl, fun _ _ _ _ => .inr rfl⟩
  · exact ⟨cs, .bar, trivial, rfl, fun _ _ _ _ => .inr rfl⟩
  · obtain ⟨rest, a, hTakes⟩ := exists_takes_group h
    exact ⟨rest, a, hTakes.anyhow⟩
  · exact ⟨cs, .close, trivial, rfl, fun _ _ _ _ => .inr rfl⟩
  · obtain ⟨rest, a, hTakes⟩ := exists_takes_sign r 0 none cs
    exact ⟨rest, a, hTakes.anyhow⟩
  · obtain ⟨rest, a, hTakes⟩ := exists_takes_sign r 1 none cs
    exact ⟨rest, a, hTakes.anyhow⟩
  · obtain ⟨rest, a, hTakes⟩ := exists_takes_sign r 0 (some 1) cs
    exact ⟨rest, a, hTakes.anyhow⟩
  · exact exists_takes_brace hAll
  · exact exists_takes_bracket hAll
  · next hEscape hAny hStart hEnd hBar hOpen hClose hStar hPlus hMark hBrace hClass =>
    refine exists_takes_literal ?_
    simp only [List.mem_cons, List.not_mem_nil, or_false, not_or]
    exact ⟨hEscape, hAny, hStart, hEnd, hBar, hOpen, hClose, hStar, hPlus, hMark,
      hBrace, hClass⟩

end Reader

end Highlighter.Pattern
