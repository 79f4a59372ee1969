import Highlighter.Proofs.Language.Co.Patterns

/-! What the modes of Co cost. A signature hands its opening lexeme back, and so do the name
of a function within it and a function type, so that up to four terminators are found at one
place. The word there pays for them: a name of one byte and its title cost eight units and pay
five, and what is missing is owed until another character has been passed, as there must be
one before the next name. -/

namespace Highlighter.Co

open Idiom Pattern Text

/-- What modes owe depends on what becomes of the lexemes that open them. -/
inductive Role
  /-- The lexeme is not scanned again. -/
  | plain
  /-- The lexeme is the whole word that the mode around it has opened on. -/
  | title
  /-- The lexeme is left to a title. -/
  | name
  /-- The lexeme is scanned again, for a name or past its first word. -/
  | signature
  /-- The lexeme is left to a plain mode. -/
  | functionType
  deriving DecidableEq

section

variable (m : Machine)

def role (id : Nat) : Role :=
  if (m.mode id).returnOpening then
    if m.ownStart id = some "fun" then .functionType
    else if m.ownStart id = some nameOpening then .name
    else .signature
  else if m.ownStart id = some underscoreIdentifier then .title
  else .plain

/-- The cost of a terminator that may be empty. -/
def gap (pattern : Option String) : Nat := if pattern.any (width · = 0) then 2 else 0

def debt (id : Nat) : Nat := gap (m.ownStart id)

/-- What is set aside for the end of a mode. -/
def reserve (id : Nat) : Nat := if role m id = .signature then 5 else gap (m.ownEnd id)

/-- The most that is owed in a mode once something else than its opening has been found. -/
def most (id : Nat) : Nat :=
  if role m id = .plain then debt m id else if role m id = .functionType then 0 else 3

end

/-- What a name of one byte leaves to be paid. It may be owed past a word, but not where one
starts. -/
def slack (c : Cursor) : Nat := if c.wordBytes = 0 then 3 else 0

/-- A scan may owe so much at a place in a mode. It is fresh if the mode has just opened. -/
inductive Owes (m : Machine) (id : Nat) :
    (fresh : Bool) → (place : Cursor) → (debt : Nat) → Prop
  | nothing {c : Cursor} : Owes m id false c 0
  | plain {fresh : Bool} {c : Cursor} {d : Nat} (hRole : role m id = .plain)
      (hDebt : d ≤ debt m id) :
    Owes m id fresh c d
  | title {fresh : Bool} {c : Cursor} {d : Nat} (hRole : role m id = .title)
      (hDebt : d ≤ slack c) :
    Owes m id fresh c d
  /-- Around a title, its debt may be left. -/
  | around {c : Cursor} {d : Nat} (hRole : role m id = .name ∨ role m id = .signature)
    (hDebt : d ≤ slack c) : Owes m id false c d
  /-- The word at the place pays for the name and for its title, which costs four, but for the
  usual. The debt is four, or seven more where a signature has opened on the same word. -/
  | name {c stop : Cursor} {d : Nat} (hRole : role m id = .name) (hDebt : d ≤ 11)
      (hPays : d + 4 ≤ 5 * c.wordBytes + 3) (hMatch : m.Matches nameOpening ⟨c, stop⟩) :
      Owes m id true c d
  /-- Opening the signature has cost two, and five are set aside for its end. The word at the place
  pays for that, and for what opens next. -/
  | signature {c : Cursor} {d : Nat} (hRole : role m id = .signature) (hDebt : d ≤ 7)
    (hPays : d + 5 ≤ 5 * c.wordBytes) : Owes m id true c d
  /-- The word at the place pays for the function type, as it is found again. -/
  | functionType {c stop : Cursor} {d : Nat} (hRole : role m id = .functionType) (hDebt : d ≤ 4)
    (hMatch : m.Matches "fun" ⟨c, stop⟩) : Owes m id true c d

/-- A machine whose patterns are sound and whose modes can pay for those within them. -/
structure Sustained (m : Machine) : Prop where
  sound : Sound m
  endsAlone : m.EndsAlone
  plain : ∀ {id}, role m id = .plain → debt m id = 0 ∨ gap (m.ownEnd id) = 0
  title : ∀ {id}, role m id = .title → (m.mode id).closesParent = false
  name : ∀ {id}, role m id = .name → (m.mode id).closesParent = false ∧
    ∃ child ∈ (m.mode id).contains.head?, role m child = .title
  signature : ∀ {id}, role m id = .signature →
    (∀ pattern ∈ m.ownEnd id, pattern ∈ wordless) ∧ ∀ child ∈ (m.mode id).contains,
      role m child = .name ∨ ∀ pattern ∈ m.ownStart child, pattern ∈ wordless
  functionType : ∀ {id}, role m id = .functionType → ∃ child ∈ (m.mode id).contains.head?,
    role m child = .plain ∧ m.ownStart child = some "fun"
  plainWithin : ∀ {id child}, child ∈ (m.mode id).contains → role m child = .plain →
    ∀ pattern ∈ m.ownStart child,
      most m id + 2 + reserve m child ≤ 5 * width pattern + debt m child
  titleWithin : ∀ {id child}, child ∈ (m.mode id).contains → role m child = .title →
    role m id = .name
  nameWithin : ∀ {id child}, child ∈ (m.mode id).contains → role m child = .name →
    role m id = .signature ∧ (m.mode child).excludeOpening = false
  signatureWithin : ∀ {id child}, child ∈ (m.mode id).contains → role m child = .signature →
    role m id = .plain ∧ debt m id = 0 ∧ (m.mode child).excludeOpening = false ∧
      m.ownStart child = some signatureOpening
  functionTypeWithin : ∀ {id child}, child ∈ (m.mode id).contains →
    role m child = .functionType →
    role m id = .plain ∧ debt m id = 0 ∧ (m.mode child).excludeOpening = false

section

variable {m : Machine}

theorem gap_le (pattern : Option String) : gap pattern ≤ 2 := by
  unfold gap
  split <;> omega

theorem slack_le (c : Cursor) : slack c ≤ 3 := by
  unfold slack
  split <;> omega

theorem slack_eq {c : Cursor} (h : c.wordBytes = 0) : slack c = 3 := if_pos h

/-- What a role tells of the lexeme that opens the mode. -/
theorem role_spec (m : Machine) (id : Nat) : match role m id with
    | .plain => (m.mode id).returnOpening = false
    | .title => (m.mode id).returnOpening = false ∧ m.ownStart id = some underscoreIdentifier
    | .name => (m.mode id).returnOpening = true ∧ m.ownStart id = some nameOpening
    | .signature => (m.mode id).returnOpening = true
    | .functionType => (m.mode id).returnOpening = true ∧ m.ownStart id = some "fun" := by
  unfold role
  cases hReturn : (m.mode id).returnOpening with
  | true =>
    by_cases hFun : m.ownStart id = some "fun"
    · simp [hFun]
    · by_cases hName : m.ownStart id = some nameOpening
      · have hNe : nameOpening ≠ "fun" := by decide
        simp [hName, hNe]
      · simp [hFun, hName]
  | false => by_cases hTitle : m.ownStart id = some underscoreIdentifier <;> simp [hTitle]

theorem reserve_le {id : Nat} (h : role m id ≠ .signature) : reserve m id ≤ 2 := by
  unfold reserve
  rw [if_neg h]
  exact gap_le _

theorem within_of_returnOpening {id : Nat} {lexeme : Span}
    (hReturn : (m.mode id).returnOpening = true) (hExclude : (m.mode id).excludeOpening = false) :
    m.within id lexeme = lexeme.start := by
  simp [Machine.within, hReturn, hExclude]

theorem within_of_not_returnOpening {id : Nat} {lexeme : Span}
    (hReturn : (m.mode id).returnOpening = false) : m.within id lexeme = lexeme.stop := by
  simp [Machine.within, hReturn]

theorem most_of_plain {id : Nat} (h : role m id = .plain) : most m id = debt m id := if_pos h

theorem most_of_word {id : Nat}
    (h : role m id = .title ∨ role m id = .name ∨ role m id = .signature) : most m id = 3 := by
  unfold most
  rcases h with h | h | h <;> simp [h]

theorem most_le (id : Nat) : most m id ≤ 3 := by
  have hGap := gap_le (m.ownStart id)
  unfold most debt
  split
  · omega
  · split <;> omega

namespace Owes

variable {id : Nat} {fresh : Bool} {c : Cursor} {d : Nat}

theorem le (h : Owes m id fresh c d) : d ≤ 11 := by
  have hGap := gap_le (m.ownStart id)
  have hSlack := slack_le c
  cases h with
  | nothing => omega
  | plain _ hDebt =>
    unfold debt at hDebt
    omega
  | title | around | name | signature | functionType => omega

/-- Only a mode that has just handed back the lexeme that opened it owes more than usual. -/
theorem le_most_or (h : Owes m id fresh c d) : d ≤ most m id ∨ fresh = true ∧
    (role m id = .name ∨ role m id = .signature ∨ role m id = .functionType) := by
  have hSlack := slack_le c
  cases h with
  | nothing => exact .inl (Nat.zero_le _)
  | plain hRole hDebt =>
    rw [most_of_plain hRole]
    exact .inl hDebt
  | title hRole hDebt =>
    rw [most_of_word (.inl hRole)]
    omega
  | around hRole hDebt =>
    rw [most_of_word (.inr hRole)]
    omega
  | name hRole => exact .inr ⟨rfl, .inl hRole⟩
  | signature hRole => exact .inr ⟨rfl, .inr (.inl hRole)⟩
  | functionType hRole => exact .inr ⟨rfl, .inr (.inr hRole)⟩

theorem le_most (h : Owes m id false c d) : d ≤ most m id := by
  rcases h.le_most_or with hDebt | ⟨hFresh, -⟩
  · exact hDebt
  · cases hFresh

theorem le_debt (h : Owes m id fresh c d) (hRole : role m id = .plain) : d ≤ debt m id := by
  cases h <;> simp_all

theorem le_slack (h : Owes m id false c d) (hRole : role m id = .name ∨ role m id = .signature) :
    d ≤ slack c := by
  cases h <;> simp_all

theorem le_slack_of_title (h : Owes m id fresh c d) (hRole : role m id = .title) :
    d ≤ slack c := by
  cases h <;> simp_all

theorem of_name (h : Owes m id true c d) (hRole : role m id = .name) :
    d + 4 ≤ 5 * c.wordBytes + 3 ∧ ∃ stop, m.Matches nameOpening ⟨c, stop⟩ := by
  cases h with
  | name _ _ hPays hMatch => exact ⟨hPays, _, hMatch⟩
  | _ => simp_all

theorem of_signature (h : Owes m id true c d) (hRole : role m id = .signature) :
    d ≤ 7 ∧ d + 5 ≤ 5 * c.wordBytes := by
  cases h <;> simp_all

theorem of_functionType (h : Owes m id true c d) (hRole : role m id = .functionType) :
    d ≤ 4 ∧ ∃ stop, m.Matches "fun" ⟨c, stop⟩ := by
  cases h with
  | functionType _ hDebt hMatch => exact ⟨hDebt, _, hMatch⟩
  | _ => simp_all

end Owes

namespace Sustained

variable {id child parent : Nat} {fresh : Bool} {c : Cursor} {d : Nat} {found : Match}
  (h : Sustained m)
include h

theorem width_le {regex : Option Nat} {pattern : String} {lexeme : Span}
    (hPattern : regex.map m.pattern = some pattern) (hMatch : m.Matches pattern lexeme) :
    lexeme.start.offset + width pattern ≤ lexeme.stop.offset := by
  obtain ⟨regex, -, rfl⟩ := Option.map_eq_some_iff.1 hPattern
  exact h.sound.width_le (h.sound.pattern regex) hMatch

/-- In a function type that has just opened, the word that has opened it is found. -/
theorem found_of_functionType (hRole : role m id = .functionType) (hOwes : Owes m id true c d)
    (hFinds : m.Finds id c found) : ∃ child stop, found = ⟨.opening child, ⟨c, stop⟩⟩ ∧
      d ≤ 4 ∧ c.offset + 2 ≤ stop.offset := by
  obtain ⟨hDebt, stop, hMatch⟩ := hOwes.of_functionType hRole
  obtain ⟨child, hFirst, hPlain, hStart⟩ := h.functionType hRole
  obtain ⟨others, hContains⟩ := List.head?_eq_some_iff.1 hFirst
  have hWidth : c.offset + width "fun" ≤ stop.offset := h.width_le hStart hMatch
  exact ⟨child, stop, hFinds.eq_of_first hContains hStart hMatch, hDebt, hWidth⟩

/-- In the mode of a name that has just opened, the whole word is found as its title. -/
theorem found_of_name (hRole : role m id = .name) (hOwes : Owes m id true c d)
    (hFinds : m.Finds id c found) : ∃ child stop, found = ⟨.opening child, ⟨c, stop⟩⟩ ∧
      role m child = .title ∧ d + 4 ≤ 5 * c.wordBytes + 3 := by
  obtain ⟨hPays, stop, hMatch⟩ := hOwes.of_name hRole
  obtain ⟨-, child, hFirst, hTitle⟩ := h.name hRole
  obtain ⟨others, hContains⟩ := List.head?_eq_some_iff.1 hFirst
  obtain ⟨x, hNext, hWord⟩ := h.sound.nameOpening hMatch
  obtain ⟨stop, hWhole⟩ := h.sound.exists_matches_identifier hNext hWord
  have hSpec := role_spec m child
  rw [hTitle] at hSpec
  exact ⟨child, stop, hFinds.eq_of_first hContains hSpec.2 hWhole, hTitle, hPays⟩

/-- In a signature, all but names is found past the first word, which pays for the signature. -/
theorem past_word {regex : Option Nat} {pattern : String} (hRole : role m id = .signature)
    (hOwes : Owes m id true c d) (hFinds : m.Finds id c found)
    (hPattern : regex.map m.pattern = some pattern) (hMatch : m.Matches pattern found.span)
    (hWordless : pattern ∈ wordless) : d + 4 + 5 * c.offset ≤ 5 * found.span.start.offset := by
  obtain ⟨regex, -, rfl⟩ := Option.map_eq_some_iff.1 hPattern
  obtain ⟨-, hPays⟩ := hOwes.of_signature hRole
  have hNone := h.sound.wordBytes_eq_zero (h.sound.pattern regex) hWordless hMatch
  have hCases := hFinds.reaches.1.wordBytes_cases
  omega

/-- What is owed when a mode ends has been paid, but for the usual. -/
theorem le_of_closing (hOwes : Owes m id fresh c d) (hFinds : m.Finds id c found)
    (hKind : found.terminator = .closing) :
    d ≤ most m id ∨ d + 4 + 5 * c.offset ≤ 5 * found.span.start.offset := by
  rcases hOwes.le_most_or with hDebt | ⟨rfl, hRole | hRole | hRole⟩
  · exact .inl hDebt
  · obtain ⟨child, stop, rfl, -⟩ := h.found_of_name hRole hOwes hFinds
    cases hKind
  · obtain ⟨pattern, hEnd, hMatch⟩ := hFinds.closing hKind
    have hWordless := (h.signature hRole).1 pattern hEnd
    exact .inr (h.past_word hRole hOwes hFinds hEnd hMatch hWordless)
  · obtain ⟨child, stop, rfl, -⟩ := h.found_of_functionType hRole hOwes hFinds
    cases hKind

/-- What is owed when a plain mode opens has been paid, or is by the lexeme, but for the usual. -/
theorem le_of_opening (hOwes : Owes m id fresh c d) (hFinds : m.Finds id c found)
    (hKind : found.terminator = .opening child) (hPlain : role m child = .plain) :
    d ≤ most m id ∨ d + 4 + 5 * c.offset ≤ 5 * found.span.stop.offset := by
  rcases hOwes.le_most_or with hDebt | ⟨rfl, hRole | hRole | hRole⟩
  · exact .inl hDebt
  · obtain ⟨child', stop, rfl, hTitle, -⟩ := h.found_of_name hRole hOwes hFinds
    cases hKind
    rw [hTitle] at hPlain
    cases hPlain
  · obtain ⟨hWithin, pattern, hStart, hMatch⟩ := hFinds.opening hKind
    rcases (h.signature hRole).2 child hWithin with hName | hWordless
    · rw [hPlain] at hName
      cases hName
    · have hPast := h.past_word hRole hOwes hFinds hStart hMatch (hWordless pattern hStart)
      have hStop := hFinds.reaches.2.offset_le
      omega
  · obtain ⟨child', stop, rfl, hDebt, hWidth⟩ := h.found_of_functionType hRole hOwes hFinds
    right
    show d + 4 + 5 * c.offset ≤ 5 * stop.offset
    omega

end Sustained

end

/-! ### What terminators do to the debt -/

/-- A terminator that opens a mode leaves no more to be paid than may be owed. -/
structure Opens (m : Machine) (child : Nat) (found : Match) (c : Cursor) (d : Nat) : Prop where
  owes : ∃ d', Owes m child true (m.within child found.span) d' ∧
    d + 2 + reserve m child + 5 * c.offset ≤ 5 * (m.within child found.span).offset + d'

namespace Sustained

variable {m : Machine} {id child parent : Nat} {fresh : Bool} {c : Cursor} {d : Nat} {found : Match}
  (h : Sustained m)
include h

section

variable (hOwes : Owes m id fresh c d) (hFinds : m.Finds id c found)
  (hKind : found.terminator = .opening child)
include hOwes hFinds hKind

theorem opens_plain (hRole : role m child = .plain) : Opens m child found c d := by
  obtain ⟨hWithin, pattern, hStart, hMatch⟩ := hFinds.opening hKind
  have hAffords := h.plainWithin hWithin hRole pattern hStart
  have hSpec := role_spec m child
  rw [hRole] at hSpec
  have hWidth := h.width_le hStart hMatch
  have hReserve : reserve m child ≤ 2 := reserve_le (by simp [hRole])
  have hStartLe := hFinds.reaches.1.offset_le
  have hStopLe := hFinds.reaches.2.offset_le
  constructor
  rw [within_of_not_returnOpening hSpec]
  refine ⟨debt m child, .plain hRole (Nat.le_refl _), ?_⟩
  rcases h.le_of_opening hOwes hFinds hKind hRole with hDebt | hDebt <;> omega

theorem opens_title (hRole : role m child = .title) : Opens m child found c d := by
  obtain ⟨hWithin, pattern, hStart, hMatch⟩ := hFinds.opening hKind
  have hName := h.titleWithin hWithin hRole
  have hSpec := role_spec m child
  rw [hRole] at hSpec
  obtain rfl : underscoreIdentifier = pattern := Option.some.inj (hSpec.2.symm.trans hStart)
  have hReserve : reserve m child ≤ 2 := reserve_le (by simp [hRole])
  obtain ⟨hWord, hPast⟩ := h.sound.identifier hMatch
  constructor
  rw [within_of_not_returnOpening hSpec.1]
  refine ⟨3, .title hRole (slack_eq hPast).ge, ?_⟩
  cases fresh with
  | true =>
    -- The word lies right at the place, and pays for the name as well.
    obtain ⟨child', stop, rfl, -, hPays⟩ := h.found_of_name hName hOwes hFinds
    dsimp only at hWord ⊢
    omega
  | false =>
    have hDebt := hOwes.le_most
    rw [most_of_word (.inr (.inl hName))] at hDebt
    have hWidth : _ + 1 ≤ _ := h.width_le hStart hMatch
    have hStartLe := hFinds.reaches.1.offset_le
    omega

theorem opens_name (hRole : role m child = .name) : Opens m child found c d := by
  obtain ⟨hWithin, pattern, hStart, hMatch⟩ := hFinds.opening hKind
  obtain ⟨hSignature, hExclude⟩ := h.nameWithin hWithin hRole
  have hSpec := role_spec m child
  rw [hRole] at hSpec
  obtain rfl : nameOpening = pattern := Option.some.inj (hSpec.2.symm.trans hStart)
  have hReserve : reserve m child ≤ 2 := reserve_le (by simp [hRole])
  obtain ⟨x, hNext, hWord⟩ := h.sound.nameOpening hMatch
  have hPos := Cursor.wordBytes_pos hNext (wordChar_of_wordStart hWord)
  have hReach := hFinds.reaches.1
  have hStartLe := hReach.offset_le
  constructor
  rw [within_of_returnOpening hSpec.1 hExclude]
  cases fresh with
  | true =>
    obtain ⟨hDebt, hPays⟩ := hOwes.of_signature hSignature
    have hCases := hReach.wordBytes_cases
    -- Within the first word of the signature, its debt goes over to the name.
    refine ⟨max 4 (d + 4 + 5 * c.offset - 5 * found.span.start.offset), ?_, by omega⟩
    exact .name hRole (by omega) (by omega) hMatch
  | false =>
    have hDebt := hOwes.le_slack (.inr hSignature)
    refine ⟨4, .name hRole (by omega) (by omega) hMatch, ?_⟩
    by_cases hMoved : c.offset < found.span.start.offset
    · have hSlack := slack_le c
      omega
    · have hHere := hReach.eq_of_offset_le (Nat.le_of_not_lt hMoved)
      have hSlack : slack c = 0 := if_neg (by rw [hHere]; omega)
      omega

theorem opens_signature (hRole : role m child = .signature) : Opens m child found c d := by
  obtain ⟨hWithin, pattern, hStart, hMatch⟩ := hFinds.opening hKind
  obtain ⟨hPlain, hNone, hExclude, hOwn⟩ := h.signatureWithin hWithin hRole
  have hSpec := role_spec m child
  rw [hRole] at hSpec
  obtain rfl : signatureOpening = pattern := Option.some.inj (hOwn.symm.trans hStart)
  have hWord := h.sound.signatureOpening hMatch
  have hReserve : reserve m child = 5 := if_pos hRole
  have hDebt := hOwes.le_debt hPlain
  have hStartLe := hFinds.reaches.1.offset_le
  constructor
  rw [within_of_returnOpening hSpec hExclude]
  exact ⟨7, .signature hRole (Nat.le_refl 7) (by omega), by omega⟩

theorem opens_functionType (hRole : role m child = .functionType) : Opens m child found c d := by
  obtain ⟨hWithin, pattern, hStart, hMatch⟩ := hFinds.opening hKind
  obtain ⟨hPlain, hNone, hExclude⟩ := h.functionTypeWithin hWithin hRole
  have hSpec := role_spec m child
  rw [hRole] at hSpec
  obtain rfl : "fun" = pattern := Option.some.inj (hSpec.2.symm.trans hStart)
  have hReserve : reserve m child ≤ 2 := reserve_le (by simp [hRole])
  have hDebt := hOwes.le_debt hPlain
  have hStartLe := hFinds.reaches.1.offset_le
  constructor
  rw [within_of_returnOpening hSpec.1 hExclude]
  exact ⟨4, .functionType hRole (Nat.le_refl 4) hMatch, by omega⟩

theorem opens : Opens m child found c d := by
  cases hRole : role m child with
  | plain => exact h.opens_plain hOwes hFinds hKind hRole
  | title => exact h.opens_title hOwes hFinds hKind hRole
  | name => exact h.opens_name hOwes hFinds hKind hRole
  | signature => exact h.opens_signature hOwes hFinds hKind hRole
  | functionType => exact h.opens_functionType hOwes hFinds hKind hRole

end

/-- An end that moves on, or what has been set aside for it, pays for itself. -/
theorem two_le_of_closing (hFinds : m.Finds id c found) (hKind : found.terminator = .closing) :
    found.span.start.offset + 1 ≤ found.span.stop.offset ∨ 2 ≤ reserve m id := by
  obtain ⟨pattern, hEnd, hMatch⟩ := hFinds.closing hKind
  have hWidth := h.width_le hEnd hMatch
  by_cases hEmpty : width pattern = 0
  · right
    unfold reserve
    split
    · omega
    · rw [hEnd, gap, Option.any_some, if_pos (decide_eq_true hEmpty)]
  · omega

/-- Apart from titles and names, an end leaves no debt. -/
theorem paid_of_closing (hOwes : Owes m id fresh c d) (hFinds : m.Finds id c found)
    (hKind : found.terminator = .closing) (hTitle : role m id ≠ .title)
    (hName : role m id ≠ .name) :
    d + 2 + 5 * c.offset ≤ reserve m id + 5 * found.span.stop.offset := by
  have hPays := h.two_le_of_closing hFinds hKind
  have hStartLe := hFinds.reaches.1.offset_le
  have hStopLe := hFinds.reaches.2.offset_le
  rcases h.le_of_closing hOwes hFinds hKind with hDebt | hDebt
  · cases hRole : role m id with
    | plain =>
      have hSolvent := h.plain hRole
      have hGap := gap_le (m.ownStart id)
      have hReserve : reserve m id = gap (m.ownEnd id) := if_neg (by simp [hRole])
      rw [most_of_plain hRole] at hDebt
      unfold debt at hDebt hSolvent
      omega
    | signature =>
      have hReserve : reserve m id = 5 := if_pos hRole
      rw [most_of_word (.inr (.inr hRole))] at hDebt
      omega
    | functionType =>
      have hMost : most m id = 0 := by simp [most, hRole]
      omega
    | title => exact absurd hRole hTitle
    | name => exact absurd hRole hName
  · omega

/-- An end of a title or a name that does not move on leaves the debt to the mode around
it, which may owe as much. -/
theorem closes (hOwes : Owes m id fresh c d) (hFinds : m.Finds id c found)
    (hKind : found.terminator = .closing) (hWithin : id ∈ (m.mode parent).contains) :
    ∃ d', Owes m parent false found.span.stop d' ∧
      d + 2 + 5 * c.offset ≤ reserve m id + 5 * found.span.stop.offset + d' := by
  by_cases hRole : role m id = .title ∨ role m id = .name
  · have hPays := h.two_le_of_closing hFinds hKind
    have hStartLe := hFinds.reaches.1.offset_le
    have hStopLe := hFinds.reaches.2.offset_le
    have hSlack := slack_le c
    have hDebt : d ≤ slack c ∧ (role m parent = .name ∨ role m parent = .signature) := by
      rcases hRole with hTitle | hName
      · exact ⟨hOwes.le_slack_of_title hTitle, .inl (h.titleWithin hWithin hTitle)⟩
      · refine ⟨?_, .inr (h.nameWithin hWithin hName).1⟩
        cases fresh with
        | true =>
          obtain ⟨child, stop, rfl, -⟩ := h.found_of_name hName hOwes hFinds
          cases hKind
        | false => exact hOwes.le_slack (.inl hName)
    by_cases hMoved : c.offset < found.span.stop.offset
    · refine ⟨0, .nothing, ?_⟩
      omega
    · have hReach := hFinds.reaches.1.trans hFinds.reaches.2
      have hHere := hReach.eq_of_offset_le (Nat.le_of_not_lt hMoved)
      -- The end stays where the word starts, so that the word can still pay in the mode around it.
      refine ⟨d, .around hDebt.2 (hHere ▸ hDebt.1), ?_⟩
      omega
  · have hPaid := h.paid_of_closing hOwes hFinds hKind (fun hTitle => hRole (.inl hTitle))
      (fun hName => hRole (.inr hName))
    refine ⟨0, .nothing, ?_⟩
    omega

theorem closesParent (hOwes : Owes m id fresh c d) (hFinds : m.Finds id c found)
    (hKind : found.terminator = .closing) (hCloses : (m.mode id).closesParent = true) :
    d + 2 + 5 * c.offset ≤ reserve m id + 5 * found.span.stop.offset := by
  apply h.paid_of_closing hOwes hFinds hKind
  · intro hRole
    rw [h.title hRole] at hCloses
    cases hCloses
  · intro hRole
    rw [(h.name hRole).1] at hCloses
    cases hCloses

theorem passes (hOwes : Owes m id fresh c d) (hFinds : m.Finds id c found)
    (hKind : found.terminator = .closing) (place : Cursor)
    (hLt : found.span.start.offset < place.offset) : d + 2 + 5 * c.offset ≤ 5 * place.offset := by
  have hStartLe := hFinds.reaches.1.offset_le
  have hMost := most_le (m := m) id
  rcases h.le_of_closing hOwes hFinds hKind with hDebt | hDebt <;> omega

/-- What the modes of Co cost. -/
def tariff : Tariff m where
  reserve := reserve m
  Owes := Owes m
  endsAlone := h.endsAlone
  limited hOwes := Nat.le_trans hOwes.le (by decide)
  settled _ _ := .nothing
  opens hOwes hFinds hKind := (h.opens hOwes hFinds hKind).owes
  closes := h.closes
  closesParent := h.closesParent
  passes := h.passes

end Sustained

end Highlighter.Co
