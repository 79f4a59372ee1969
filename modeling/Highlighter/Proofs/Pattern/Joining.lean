import Highlighter.Proofs.Pattern.Capturing
import Highlighter.Proofs.Pattern.Spelling

/-! Patterns as alternatives. A pattern without capturing groups whose end cuts nothing
short is read the same wherever it fills a group, so that the alternatives of two such
patterns match where one of them does. Their escapes are spelled out as in each alone if the
first one leaves no class open. -/

namespace Highlighter.Pattern

open Highlighter.Text

namespace Reader

/-! ### Patterns within groups -/

theorem settle_append (l : Level) (b around : List Level) : settle l (b ++ around) =
    match settle l b with
    | (top, []) => settle top around
    | (top, next :: below) => (top, next :: below ++ around) := by
  induction b generalizing l with
  | nil => rfl
  | cons m b ih =>
    rw [List.cons_append, settle.eq_def, settle.eq_def l (m :: b)]
    dsimp only
    split
    · exact ih _
    · rfl

theorem settle_of_ne {top : Level} (hTop : top.opener ≠ .remainder) (below : List Level) :
    settle top below = (top, below) := by
  cases below with
  | nil => rfl
  | cons m below =>
    unfold settle
    split
    · contradiction
    · rfl

variable {r r' : Reader}

theorem enter_within {opener : Opener} {options : Options} (h : r.enter opener options = .ok r')
    (around : List Level) : Yields ((r.within around).enter opener options) (r'.within around) := by
  unfold enter at h ⊢
  split at h
  · cases h
  · cases h
    split
    · exact .inl rfl
    · exact .inr rfl

theorem close_within (h : r.close = .ok r') (around : List Level) :
    (r.within around).close = .ok (r'.within around) := by
  unfold close at h ⊢
  split at h
  · cases h
  · next top next below hSettle =>
    cases h
    have hMore : settle (r.within around).level (r.within around).below =
        (top, next :: below ++ around) := by
      rw [within, settle_append, hSettle]
    rw [hMore]
    rfl

theorem quantify_within {q : Quantifier} {possessive : Bool} (h : r.quantify q possessive = .ok r')
    (around : List Level) :
    Yields ((r.within around).quantify q possessive) (r'.within around) := by
  unfold quantify at h ⊢
  split at h
  · cases h
  · next t rest hParts =>
    split at h
    · cases h
    · cases h
      rw [show (r.within around).level.parts = t :: rest from hParts]
      dsimp only
      split
      · exact .inl rfl
      · exact .inr rfl

theorem apply_within {a : Action} (h : a.apply r = .ok r') (around : List Level) :
    Yields (a.apply (r.within around)) (r'.within around) := by
  cases a with
  | skip =>
    cases h
    exact .inr rfl
  | push t =>
    cases h
    exact .inr rfl
  | bar =>
    cases h
    exact .inr rfl
  | enter opener options => exact enter_within h around
  | capture name =>
    cases name with
    | none => exact enter_within h around
    | some name => exact enter_within h around
  | close => exact .inr (close_within h around)
  | quantify q possessive => exact quantify_within h around

/-- No element that is read is cut short by the end of the pattern. -/
def whole : Nat → Reader → List Char → Bool
  | _, _, [] => true
  | 0, _, _ :: _ => true
  | fuel + 1, r, c :: cs =>
    !r.cutShort c cs && match r.step c cs with
      | .error _ => true
      | .ok (r, cs) => whole fuel r cs

theorem step_within {c : Char} {cs rest s : List Char} (h : r.step c cs = .ok (r', rest))
    (hWhole : r.cutShort c cs = false) (hs : Follows s) (around : List Level) :
    Yields ((r.within around).step c (cs ++ s)) (r'.within around, rest ++ s) := by
  obtain ⟨rest', a, hTakes⟩ := exists_takes_step h
  obtain ⟨r'', hApply, hEq⟩ := exists_of_map_eq_ok (hTakes.here.symm.trans h)
  cases hEq
  rcases hTakes.inside hWhole around s hs with hDeep | hInside
  · exact .inl hDeep
  · rcases apply_within hApply around with hDeep | hSame
    · exact .inl (hInside.trans (by rw [hDeep]; rfl))
    · exact .inr (hInside.trans (by rw [hSame]; rfl))

theorem exists_of_whole {n : Nat} {c : Char} {cs : List Char} (h : whole (n + 1) r (c :: cs) = true)
    (hRun : run (n + 1) r (c :: cs) = .ok r') : ∃ r'' rest, r.step c cs = .ok (r'', rest) ∧
      r.cutShort c cs = false ∧ whole n r'' rest = true ∧ run n r'' rest = .ok r' := by
  unfold whole at h
  unfold run at hRun
  split at hRun
  · cases hRun
  · next r'' rest hStep =>
    rw [hStep, Bool.and_eq_true, Bool.not_eq_true'] at h
    exact ⟨r'', rest, hStep, h.1, h.2, hRun⟩

/-- What is left to do once the pattern has been read is what comes behind it. -/
theorem run_within {n : Nat} {cs s : List Char} (hRun : run n r cs = .ok r')
    (hWhole : whole n r cs = true) (hs : Follows s) (around : List Level) (k : Nat) :
    run (n + k) (r.within around) (cs ++ s) = .error .depthLimit ∨
      ∃ k' ≥ k, run (n + k) (r.within around) (cs ++ s) = run k' (r'.within around) s := by
  induction n generalizing r cs with
  | zero =>
    cases cs with
    | nil =>
      cases hRun
      exact .inr ⟨0 + k, Nat.le_add_left _ _, rfl⟩
    | cons c cs => cases hRun
  | succ n ih =>
    cases cs with
    | nil =>
      cases hRun
      exact .inr ⟨n + 1 + k, Nat.le_add_left _ _, rfl⟩
    | cons c cs =>
      obtain ⟨r'', rest, hStep, hCut, hRest, hMore⟩ := exists_of_whole hWhole hRun
      rw [Nat.add_right_comm, List.cons_append, run]
      rcases step_within hStep hCut hs around with hDeep | hSame
      · exact .inl (by rw [hDeep])
      · rw [hSame]
        exact ih hMore hRest

end Reader

/-- Two patterns as alternatives, each in a group of its own. -/
def joined (own other : List Char) : List Char :=
  '(' :: '?' :: ':' :: (own ++ ')' :: '|' :: '(' :: '?' :: ':' :: (other ++ [')']))

namespace Reader

/-- A pattern has been read within its group, and comes to `t`. -/
structure Complete (options : Options) (t : Tree) (r : Reader) : Prop where
  closed : ∃ top, settle r.level r.below = (top, []) ∧ top.opener = .plain ∧
    top.outer = options ∧ top.body = t
  captures : r.captures = 0
  names : r.names = []

/-- The pattern comes to `t` wherever it fills a group, unless it is nested too deep there. -/
def ReadsAs (options : Options) (cs : List Char) (t : Tree) : Prop :=
  ∃ r, Complete options t r ∧ ∀ s, Follows s → ∀ around k,
    run (cs.length + k) ((start options).within around) (cs ++ s) = .error .depthLimit ∨
      ∃ k' ≥ k, run (cs.length + k) ((start options).within around) (cs ++ s) =
        run k' (r.within around) s

theorem run_open (options : Options) (level : Level) (around : List Level) (k : Nat)
    (cs : List Char) :
    run (k + 1) ⟨level, around, options, 0, [], 0⟩ ('(' :: '?' :: ':' :: cs) =
        .error .depthLimit ∨
      run (k + 1) ⟨level, around, options, 0, [], 0⟩ ('(' :: '?' :: ':' :: cs) =
        run k ((start options).within (level :: around)) cs := by
  have hStep : step ⟨level, around, options, 0, [], 0⟩ '(' ('?' :: ':' :: cs) =
      (enter ⟨level, around, options, 0, [], 0⟩ .plain options).map (·, cs) := rfl
  rw [run, hStep, enter]
  by_cases hDepth : depth ⟨level, around, options, 0, [], 0⟩ ≥ depthLimit
  · rw [if_pos hDepth]
    exact .inl rfl
  · rw [if_neg hDepth]
    exact .inr rfl

theorem Complete.run_close {options : Options} {t : Tree} {r : Reader} (h : Complete options t r)
    (next : Level) (around : List Level) (k : Nat) (cs : List Char) :
    run (k + 1) (r.within (next :: around)) (')' :: cs) =
      run k ⟨next.push t, around, options, 0, [], 0⟩ cs := by
  obtain ⟨top, hSettle, hOpener, hOuter, rfl⟩ := h.closed
  have hTop : top.opener ≠ .remainder := by
    rw [hOpener]
    exact nofun
  have hMore : settle (r.within (next :: around)).level (r.within (next :: around)).below =
      (top, next :: around) := by
    rw [within, settle_append, hSettle]
    exact settle_of_ne hTop _
  have hStep : (r.within (next :: around)).step ')' cs =
      (r.within (next :: around)).close.map (·, cs) := rfl
  have hTree : top.tree = top.body := by
    unfold Level.tree
    rw [hOpener]
  rw [run, hStep, close, hMore]
  dsimp only [Except.map, within]
  rw [hTree, hOuter, h.captures, h.names]

/-- Each of two alternatives is read as it is read alone. -/
theorem ReadsAs.join {options : Options} {own other : List Char} {t u : Tree}
    (hOwn : ReadsAs options own t) (hOther : ReadsAs options other u) :
    ReadsAs options (joined own other) (.alternatives [t, u]) := by
  obtain ⟨r, hr, hOwn⟩ := hOwn
  obtain ⟨r', hr', hOther⟩ := hOther
  refine ⟨⟨⟨.plain, options, [t], [u]⟩, [], options, 0, [], 0⟩,
    ⟨⟨_, rfl, rfl, rfl, rfl⟩, rfl, rfl⟩, fun s hs around k => ?_⟩
  have hLength : (joined own other).length + k = own.length + (other.length + k + 8) + 1 := by
    simp [joined]
    omega
  have hText : joined own other ++ s = '(' :: '?' :: ':' ::
      (own ++ ')' :: '|' :: '(' :: '?' :: ':' :: (other ++ ')' :: s)) := by
    simp [joined]
  rw [hLength, hText]
  -- The two groups are read one after the other; each may be the one that is nested too deep.
  rcases run_open options (.opened .plain options) around (own.length + (other.length + k + 8))
    (own ++ ')' :: '|' :: '(' :: '?' :: ':' :: (other ++ ')' :: s)) with hDeep | hOpen
  · exact .inl hDeep
  rw [show (start options).within around =
    ⟨.opened .plain options, around, options, 0, [], 0⟩ from rfl, hOpen]
  rcases hOwn _ (follows_cons _) (.opened .plain options :: around) (other.length + k + 8) with
    hDeep | ⟨n, hn, hRead⟩
  · exact .inl hDeep
  obtain ⟨m, rfl⟩ := Nat.exists_eq_add_of_le' hn
  rw [hRead, show m + (other.length + k + 8) = other.length + (m + k + 5) + 1 + 1 + 1 by omega,
    hr.run_close]
  rw [show run (other.length + (m + k + 5) + 1 + 1)
    ⟨(Level.opened .plain options).push t, around, options, 0, [], 0⟩
      ('|' :: '(' :: '?' :: ':' :: (other ++ ')' :: s)) = run (other.length + (m + k + 5) + 1)
        ⟨⟨.plain, options, [t], []⟩, around, options, 0, [], 0⟩
        ('(' :: '?' :: ':' :: (other ++ ')' :: s)) from rfl]
  rcases run_open options ⟨.plain, options, [t], []⟩ around (other.length + (m + k + 5))
    (other ++ ')' :: s) with hDeep | hOpen
  · exact .inl hDeep
  rw [hOpen]
  rcases hOther _ (follows_cons s) (⟨.plain, options, [t], []⟩ :: around) (m + k + 5) with
    hDeep | ⟨n', hn', hRead'⟩
  · exact .inl hDeep
  obtain ⟨m', rfl⟩ := Nat.exists_eq_add_of_le' hn'
  rw [hRead', show m' + (m + k + 5) = m' + m + k + 4 + 1 by omega, hr'.run_close]
  exact .inr ⟨m' + m + k + 4, by omega, rfl⟩

/-- A pattern without capturing groups whose end cuts nothing short comes to the same tree
anywhere. -/
theorem readsAs_of_run {options : Options} {cs : List Char} {r : Reader}
    (hRun : run cs.length (start options) cs = .ok r)
    (hWhole : whole cs.length (start options) cs = true) (hCaptures : r.captures = 0) {t : Tree}
    (hFinish : r.finish = .ok t) : ReadsAs options cs t ∧ t.groups = [] ∧ r.names = [] := by
  obtain ⟨hBase, -, hBare⟩ := bare_of_run hRun hCaptures
  have hPlain : ∀ index named, Opener.plain ≠ .capture index named := nofun
  have hStart : (start options).Bare :=
    ⟨fun l hl => List.mem_singleton.1 hl ▸ .opened hPlain options, rfl⟩
  unfold finish at hFinish
  split at hFinish
  · next top hSettle =>
    cases hFinish
    have hRoot := (base_settle hSettle).trans hBase
    have hTop := bare_settle hSettle (hBare hStart).levels
    refine ⟨⟨r, ⟨⟨top, hSettle, congrArg Prod.fst hRoot, congrArg Prod.snd hRoot, rfl⟩,
        hCaptures, (hBare hStart).names⟩, fun s hs around k =>
      run_within hRun hWhole hs around k⟩, ?_⟩
    exact ⟨(hTop top List.mem_cons_self).body, (hBare hStart).names⟩
  · cases hFinish

end Reader

/-- The pattern is read and comes to `program` wherever it fills a group. -/
structure Stands (ignoreCase : Bool) (cs : List Char) (program : Program) : Prop where
  exists_tree : ∃ t u, Reader.ReadsAs ⟨ignoreCase, false, false⟩ cs t ∧ t.groups = [] ∧
    (∀ entry ∈ t.references, entry.1 = 0) ∧
    (t.unfold false).arrange (fun _ => .unknown) [] = .ok u ∧
      program = .ofTree (fun _ => .unknown) u

/-- Alternatives match where one of them matches. -/
theorem Stands.join {ignoreCase : Bool} {own other : List Char} {program program' : Program}
    (h : Stands ignoreCase own program) (h' : Stands ignoreCase other program') :
    Stands ignoreCase (joined own other) (.choice program program') := by
  obtain ⟨t, u, hReads, hGroups, hReferences, hArrange, rfl⟩ := h.exists_tree
  obtain ⟨t', u', hReads', hGroups', hReferences', hArrange', rfl⟩ := h'.exists_tree
  refine ⟨.alternatives [t, t'], .alternatives [u, u'], hReads.join hReads', ?_, ?_, ?_, rfl⟩
  · simp [Tree.groups, Tree.groupsOfAll, hGroups, hGroups']
  · intro entry hEntry
    simp only [Tree.references, Tree.referencesOfAll, List.append_nil, List.mem_append] at hEntry
    exact hEntry.elim (hReferences entry) (hReferences' entry)
  · simp only [Tree.unfold, Tree.unfoldAll, Tree.arrange, Tree.arrangeAll, hArrange, hArrange']
    rfl

/-- What is known of the widths of the groups in a pattern. -/
def Tree.groupWidth (t : Tree) (index : Nat) : Width :=
  match t.groups.lookup index with
  | some body => body.width fun _ => .unknown
  | none => .unknown

theorem Tree.groupWidth_of_groups {t : Tree} (h : t.groups = []) :
    t.groupWidth = fun _ => .unknown := by
  funext index
  rw [groupWidth, h]
  rfl

theorem compile_of_groups {mode : Mode} {cs : List Char} {t : Tree}
    (hTree : readTree mode cs = .ok t) (hGroups : t.groups = []) : compile mode cs =
      ((t.unfold false).arrange (fun _ => .unknown) []).map (.ofTree fun _ => .unknown) := by
  have hNone := Tree.groups_unfold hGroups false
  unfold compile
  rw [hTree]
  show ((t.unfold false).arrange (t.unfold false).groupWidth _ >>= fun u =>
    (.ok (Program.ofTree (t.unfold false).groupWidth u) : Except PatternError Program)) = _
  rw [Tree.groupWidth_of_groups hNone, Tree.arrange_congr _ _ [] hNone]
  cases (t.unfold false).arrange (fun _ => .unknown) [] <;> rfl

/-- A pattern without names comes to the tree that has been read, unless it refers to
a group it does not have. -/
theorem readTree_of_run (mode : Mode) {cs : List Char} {r : Reader} {t : Tree}
    (hRun : Reader.run cs.length (.start ⟨mode.ignoreCase, false, false⟩) cs = .ok r)
    (hFinish : r.finish = .ok t) (hNames : r.names = []) :
    readTree mode cs = if t.references.any (fun entry => decide (entry.1 > r.captures)) then
      .error .unknownBackreference else .ok t := by
  unfold readTree
  rw [hRun]
  show (r.finish >>= _) = _
  rw [hFinish]
  show (if ((!r.names.isEmpty && !mode.captureAll) && _) = true then _ else _) = _
  rw [hNames]
  split
  · next hSome => cases hSome
  · split <;> rfl

theorem readTree_of_references (mode : Mode) {cs : List Char} {r : Reader} {t : Tree}
    (hRun : Reader.run cs.length (.start ⟨mode.ignoreCase, false, false⟩) cs = .ok r)
    (hFinish : r.finish = .ok t) (hNames : r.names = []) (hReferences : t.references = []) :
    readTree mode cs = .ok t := by
  rw [readTree_of_run mode hRun hFinish hNames, hReferences]
  rfl

theorem Reader.run_nil (n : Nat) (r : Reader) : r.run n [] = .ok r := by
  cases n <;> rfl

theorem Reader.Complete.finish_within {options : Options} {t : Tree} {r : Reader}
    (h : Complete options t r) : (r.within []).finish = .ok t := by
  obtain ⟨top, hSettle, -, -, rfl⟩ := h.closed
  unfold finish
  rw [show settle (r.within []).level (r.within []).below = (top, []) by
    rw [← hSettle]
    exact congrArg (settle r.level) (List.append_nil r.below)]

theorem Stands.yields {ignoreCase : Bool} {cs : List Char} {program : Program}
    (h : Stands ignoreCase cs program) (captureAll : Bool) :
    Yields (compile ⟨ignoreCase, captureAll⟩ cs) program := by
  obtain ⟨t, u, ⟨r, hr, hReads⟩, hGroups, hReferences, hArrange, rfl⟩ := h.exists_tree
  have hAlone := hReads [] follows_nil [] 0
  rw [List.append_nil] at hAlone
  rcases hAlone with hDeep | ⟨k, -, hRun⟩
  · refine .inl ?_
    unfold compile readTree
    rw [show Reader.run cs.length (.start ⟨ignoreCase, false, false⟩) cs = _ from hDeep]
    rfl
  · rw [Reader.run_nil] at hRun
    have hTree := readTree_of_run ⟨ignoreCase, captureAll⟩ hRun hr.finish_within hr.names
    have hKnown :
        t.references.any (fun entry => decide (entry.1 > (r.within []).captures)) = false :=
      List.any_eq_false.2 fun entry hEntry => by simp [hReferences entry hEntry]
    rw [hKnown] at hTree
    refine .inr ?_
    rw [compile_of_groups hTree hGroups, hArrange]
    rfl

/-- No group of the pattern captures, and its end cuts nothing short. -/
structure Reader.Plain (options : Options) (cs : List Char) : Prop where
  whole : whole cs.length (start options) cs = true
  captures : ∀ r ∈ (run cs.length (start options) cs).toOption, r.captures = 0

instance (options : Options) (cs : List Char) : Decidable (Reader.Plain options cs) :=
  decidable_of_iff (Reader.whole cs.length (.start options) cs = true ∧
    ∀ r ∈ (Reader.run cs.length (.start options) cs).toOption, r.captures = 0)
    ⟨fun h => ⟨h.1, h.2⟩, fun h => ⟨h.whole, h.captures⟩⟩

theorem Reader.Plain.stands {ignoreCase captureAll : Bool} {cs : List Char}
    (h : Reader.Plain ⟨ignoreCase, false, false⟩ cs) {program : Program}
    (hCompile : compile ⟨ignoreCase, captureAll⟩ cs = .ok program) :
    Stands ignoreCase cs program := by
  cases hRun : Reader.run cs.length (.start ⟨ignoreCase, false, false⟩) cs with
  | error e =>
    unfold compile readTree at hCompile
    rw [hRun] at hCompile
    cases hCompile
  | ok r =>
    have hCaptures := h.captures r (by rw [hRun]; rfl)
    cases hFinish : r.finish with
    | error e =>
      unfold compile readTree at hCompile
      rw [hRun] at hCompile
      replace hCompile : ((r.finish >>= _) >>= _) = Except.ok program := hCompile
      rw [hFinish] at hCompile
      cases hCompile
    | ok t =>
      obtain ⟨hReads, hGroups, hNames⟩ := Reader.readsAs_of_run hRun h.whole hCaptures hFinish
      have hTree := readTree_of_run ⟨ignoreCase, captureAll⟩ hRun hFinish hNames
      rw [hCaptures] at hTree
      split at hTree
      · unfold compile at hCompile
        rw [hTree] at hCompile
        cases hCompile
      · next hKnown =>
        rw [compile_of_groups hTree hGroups] at hCompile
        obtain ⟨u, hArrange, rfl⟩ := exists_of_map_eq_ok hCompile
        refine ⟨t, u, hReads, hGroups, fun entry hEntry => ?_, hArrange, rfl⟩
        by_contra hPositive
        exact hKnown
          (List.any_eq_true.2 ⟨entry, hEntry, by simpa [Nat.pos_iff_ne_zero] using hPositive⟩)

/-! ### Spelling out alternatives -/

/-- The number of open classes behind a text, as they are counted where escapes are spelled out. -/
def openClasses (depth : Nat) (atStart : Bool) : List Char → Nat
  | [] => depth
  | ['\\'] => depth
  | '\\' :: _ :: rest => openClasses depth false rest
  | '[' :: '^' :: rest => openClasses (depth + 1) true rest
  | '[' :: rest => openClasses (depth + 1) true rest
  | ']' :: rest =>
    if depth > 0 ∧ !atStart then openClasses (depth - 1) false rest
    else openClasses depth false rest
  | _ :: rest => openClasses depth false rest

theorem spellOut_append (depth : Nat) (atStart : Bool) (cs rest : List Char) :
    spellOut depth atStart (cs ++ ')' :: rest) =
      spellOut depth atStart cs ++ ')' :: spellOut (openClasses depth atStart cs) false rest := by
  fun_induction spellOut depth atStart cs with
  | case1 => rfl
  | case2 => rfl
  | case3 depth atStart c cs ih =>
    rw [List.cons_append, List.cons_append, spellOut, ih, openClasses, List.append_assoc]
  | case4 depth atStart cs ih =>
    rw [List.cons_append, List.cons_append, spellOut, ih, openClasses]
    rfl
  | case5 depth atStart cs hNot ih =>
    rw [List.cons_append, spellOut, ih, openClasses]
    · rfl
    · exact hNot
    · exact (follows_cons rest).append_ne_cons (by decide) hNot
  | case6 depth atStart cs hEnds ih =>
    rw [List.cons_append, spellOut, if_pos hEnds, ih, openClasses, if_pos hEnds]
    rfl
  | case7 depth atStart cs hStays ih =>
    rw [List.cons_append, spellOut, if_neg hStays, ih, openClasses, if_neg hStays]
    rfl
  | case8 depth atStart c cs hAlone hEscape hNegated hOpen hClose ih =>
    -- A lone backslash and an escape have cases of their own.
    have hBackslash : c ≠ '\\' := by
      rintro rfl
      cases cs with
      | nil => exact hAlone rfl rfl
      | cons d cs => exact hEscape d cs rfl rfl
    rw [List.cons_append, spellOut, ih, openClasses]
    · rfl
    all_goals first | assumption | exact fun hEq => absurd hEq hBackslash |
      exact fun _ _ hEq => absurd hEq hBackslash | exact fun _ hEq => absurd hEq hOpen

theorem spellOut_joined {own : List Char} (hOwn : openClasses 0 false own = 0) (other : List Char) :
    spellOut 0 false (joined own other) =
      joined (spellOut 0 false own) (spellOut 0 false other) := by
  have hOpen : ∀ cs, spellOut 0 false ('(' :: '?' :: ':' :: cs) =
      '(' :: '?' :: ':' :: spellOut 0 false cs := by
    intro cs
    rw [spellOut, spellOut, spellOut] <;> simp
  have hBar : ∀ cs, spellOut 0 false ('|' :: cs) = '|' :: spellOut 0 false cs := by
    intro cs
    rw [spellOut] <;> simp
  rw [joined, hOpen, spellOut_append, hOwn, hBar, hOpen, spellOut_append]
  rfl

/-- An end pattern that can be an alternative of another: none of its groups captures, its end cuts
nothing short, and no class is open behind it where its escapes are spelled out. -/
structure StandsAlone (ignoreCase : Bool) (pattern : String) : Prop where
  closed : openClasses 0 false pattern.toList = 0
  plain : Reader.Plain ⟨ignoreCase, false, false⟩ (asciiClasses pattern).toList

instance (ignoreCase : Bool) (pattern : String) : Decidable (StandsAlone ignoreCase pattern) :=
  decidable_of_iff (openClasses 0 false pattern.toList = 0 ∧
    Reader.Plain ⟨ignoreCase, false, false⟩ (asciiClasses pattern).toList)
    ⟨fun h => ⟨h.1, h.2⟩, fun h => ⟨h.closed, h.plain⟩⟩

end Highlighter.Pattern
