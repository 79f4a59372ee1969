import Highlighter.Proofs.Language.Co.Courses

/-! Parameters of functions, and the types of functions among them. The mode of parameters opens
that of function types within it, and that one opens the mode of parameters again; each parenthesis
that closes parameters closes what they are the parameters of with them, and no more. `Level` keeps
what is around open parameters, so that this can be said once for all levels. -/

namespace Highlighter.Co

open Idiom Pattern Text

/-- Where parameters stand. -/
def parametersAddress : Address := .named parametersName 0

/-- Where the types of functions stand among parameters. -/
def functionTypeAddress : Address := .named functionTypeName 0

/-- Where the words that such types begin with stand in them. -/
def typeAddress : Address := .inner functionTypeAddress 0 0

theorem settingsAt_parameters : (grammar .current).settingsAt parametersAddress =
    { category := some .params, opening := some "\\(", closing := some "\\)",
      closesParent := some true, keywords := some Version.current.keywords,
      relevance := some 0 } := by
  rfl

theorem settingsAt_functionType : (grammar .current).settingsAt functionTypeAddress =
    { category := some .funtype, opening := some "fun", returnOpening := some true } := by
  rfl

theorem settingsAt_type : (grammar .current).settingsAt typeAddress =
    { category := some .type, opening := some "fun" } := by
  rfl

theorem compile_fun :
    compile ⟨false, true⟩ (spellOut 0 false "fun".toList) = .ok (.text ['f', 'u', 'n']) := by
  rfl

theorem compile_parenthesis :
    compile ⟨false, true⟩ (spellOut 0 false "\\(".toList) = .ok (.test (.char '(')) := by
  rfl

theorem compile_closingParenthesis :
    compile ⟨false, true⟩ (spellOut 0 false "\\)".toList) = .ok (.test (.char ')')) := by
  rfl

/-! ### Within parameters -/

/-- Parameters that are open, the mode that they are the parameters of, and what is around them. -/
structure Level where
  /-- The mode that the parameters belong to: a signature or the type of a function. -/
  owner : Address
  outside : List (Address × Option Nat)
  before : List Region
  ownerRegion : Region
  middle : List Region
  region : Region
  /-- It does not take the mode around it with it when it ends. -/
  stays : ((grammar .current).settingsAt owner).closesParent.getD false = false

namespace Level

def depth (l : Level) : Nat := (l.outside.filterMap (·.2)).length + 2

def modes (l : Level) : List (Address × Option Nat) :=
  (parametersAddress, some (l.before ++ l.ownerRegion :: l.middle).length) ::
    (l.owner, some l.before.length) :: l.outside

def within (l : Level) (found : List Region) (pending place : Cursor)
    (lastOpening : Option Nat) : Standing :=
  ⟨l.modes, l.before ++ l.ownerRegion :: (l.middle ++ l.region :: found), pending, place,
    lastOpening⟩

/-- Behind the parameters, which end at a place, as does what they belong to. -/
def behind (l : Level) (found : List Region) (place : Cursor) : Standing :=
  ⟨l.outside, l.before ++ { l.ownerRegion with stop := place.offset } ::
    (l.middle ++ { l.region with stop := place.offset } :: found), place, place, none⟩

/-- Within the type of a function that starts within the parameters, before its own parameters. -/
def inType (l : Level) (found types : List Region) (start : Nat) (pending place : Cursor)
    (lastOpening : Option Nat) : Standing :=
  ⟨(functionTypeAddress,
      some (l.before ++ l.ownerRegion :: (l.middle ++ l.region :: found)).length) :: l.modes,
    (l.before ++ l.ownerRegion :: (l.middle ++ l.region :: found)) ++
      ⟨.funtype, start, start, l.depth⟩ :: types, pending, place, lastOpening⟩

/-- The type of a function that starts within the parameters, and its own parameters. -/
def inner (l : Level) (found : List Region) (start : Nat) : Level where
  owner := functionTypeAddress
  outside := l.modes
  before := l.before ++ l.ownerRegion :: (l.middle ++ l.region :: found)
  ownerRegion := ⟨.funtype, start, start, l.depth⟩
  middle := [⟨.type, start, start + 3, l.depth + 1⟩]
  region := ⟨.params, start + 3, start + 3, l.depth + 1⟩
  stays := by
    rw [settingsAt_functionType]
    rfl

variable (l : Level) (found : List Region)

theorem depth_within (pending place : Cursor) (lastOpening : Option Nat) :
    (l.within found pending place lastOpening).depth = l.depth := by
  simp [within, modes, depth, Standing.depth]

theorem depth_inner (start : Nat) : (l.inner found start).depth = l.depth + 2 := by
  simp [inner, modes, depth]

theorem depth_inType (types : List Region) (start : Nat) (pending place : Cursor)
    (lastOpening : Option Nat) :
    (l.inType found types start pending place lastOpening).depth = l.depth + 1 := by
  simp [inType, modes, depth, Standing.depth]

theorem append_inType (types more : List Region) (start : Nat) (pending place : Cursor)
    (lastOpening : Option Nat) :
    (l.inType found types start pending place lastOpening).regions ++ more =
      (l.inType found (types ++ more) start pending place lastOpening).regions := by
  simp [inType]

theorem append_within (pending place : Cursor) (lastOpening : Option Nat) (more : List Region) :
    (l.within found pending place lastOpening).regions ++ more =
      (l.within (found ++ more) pending place lastOpening).regions := by
  simp [within]

/-- At the end, the regions of the parameters and of what they belong to are stopped. -/
theorem stop_within (pending place stop : Cursor) (lastOpening : Option Nat) :
    (l.modes.take 2).foldl (stopRegion stop.offset)
        (l.within found pending place lastOpening).regions =
      (l.behind found stop).regions := by
  have hWithin : (l.within found pending place lastOpening).regions =
      (l.before ++ l.ownerRegion :: l.middle) ++ l.region :: found := by
    simp [within]
  show stopRegion stop.offset (stopRegion stop.offset _ (parametersAddress, some _))
    (l.owner, some _) = _
  rw [hWithin, Standing.stopRegion_append, List.append_assoc, List.cons_append,
    Standing.stopRegion_append]
  rfl

/-- Behind the type of a function, the parameters go on. -/
theorem behind_inner (start : Nat) (found' : List Region) (place : Cursor) :
    (l.inner found start).behind found' place =
      l.within
        (found ++ ⟨.funtype, start, place.offset, l.depth⟩ ::
          ⟨.type, start, start + 3, l.depth + 1⟩ ::
          ⟨.params, start + 3, place.offset, l.depth + 1⟩ :: found')
        place place none := by
  simp [behind, within, inner]

end Level

/-! ### What comes within parameters -/

/-- No pattern that is searched for in the mode begins with the character. -/
def passes (a : Address) (x : Char) : Bool :=
  ((grammar .current).cues a).all fun entry => !begins false entry.2 x

theorem passes_parameters :
    ∀ x ∈ ['c', 'b', ' ', 'i', 'n', 't'], passes parametersAddress x = true :=
  List.all_eq_true.1 (by rfl)

theorem cueAt?_parameters_fun (left right : List Char) :
    (grammar .current).cueAt? parametersAddress (.between left (['f', 'u', 'n'] ++ right)) =
      some (.opens functionTypeAddress, .between (left ++ ['f', 'u', 'n']) right) :=
  Grammar.cueAt?_first (by rfl) (stop?_text compile_fun left right)

theorem cueAt?_parameters_closing (left right : List Char) :
    (grammar .current).cueAt? parametersAddress (.between left (')' :: right)) =
      some (.closes, .between (left ++ [')']) right) := by
  have hCue : ((grammar .current).cues parametersAddress)[4]? = some (.closes, "\\)") := by rfl
  have hBefore : ((((grammar .current).cues parametersAddress).take 4).all fun entry =>
      !begins false entry.2 ')') = true := by rfl
  exact Grammar.cueAt?_eq_some hCue (Grammar.stop?_eq_none_of_all rfl hBefore)
    (stop?_char compile_closingParenthesis left right)

theorem cueAt?_functionType_fun (left right : List Char) :
    (grammar .current).cueAt? functionTypeAddress (.between left (['f', 'u', 'n'] ++ right)) =
      some (.opens typeAddress, .between (left ++ ['f', 'u', 'n']) right) :=
  Grammar.cueAt?_first (by rfl) (stop?_text compile_fun left right)

theorem cueAt?_functionType_parenthesis (left right : List Char) :
    (grammar .current).cueAt? functionTypeAddress (.between left ('(' :: right)) =
      some (.opens parametersAddress, .between (left ++ ['(']) right) := by
  have hCue : ((grammar .current).cues functionTypeAddress)[1]? =
      some (.opens parametersAddress, "\\(") := by
    rfl
  have hBefore : ((((grammar .current).cues functionTypeAddress).take 1).all fun entry =>
      !begins false entry.2 '(') = true := by rfl
  exact Grammar.cueAt?_eq_some hCue (Grammar.stop?_eq_none_of_all rfl hBefore)
    (stop?_char compile_parenthesis left right)

theorem cueAt?_type (c : Cursor) : (grammar .current).cueAt? typeAddress c = some (.closes, c) :=
  Grammar.cueAt?_first (by rfl) (stop?_immediateEnd false c)

/-! ### From one level to the next -/

section

variable (l : Level) (found : List Region) (left right : List Char) (lastOpening : Option Nat)

theorem course_level_pass {passed : List Char}
    (hPassed : ∀ x ∈ passed, x ∈ ['c', 'b', ' ', 'i', 'n', 't']) (pending : Cursor) :
    (grammar .current).Course
      (l.within found pending (.between left (passed ++ right)) lastOpening)
      (l.within found pending (.between (left ++ passed) right) lastOpening) :=
  Grammar.course_pass (l.within found pending (.between left (passed ++ right)) lastOpening) rfl
    fun x hx => passes_parameters x (hPassed x hx)

theorem course_closingParenthesis {text : List Char} {words : List Hit}
    (hWords : (grammar .current).wordsAt parametersAddress (text ++ [')']) = words) :
    (grammar .current).Course
      (l.within found (.between left (text ++ ')' :: right))
        (.between (left ++ text) (')' :: right)) lastOpening)
      (l.behind (found ++ words.map (·.regionIn (byteLength left) l.depth))
        (.between (left ++ (text ++ [')'])) right)) := by
  let stop := Cursor.between (left ++ (text ++ [')'])) right
  let d := l.within found (.between left (text ++ ')' :: right))
    (.between (left ++ text) (')' :: right)) lastOpening
  have hCloses : (grammar .current).cueAt? d.top d.place = some (.closes, stop) := by
    rw [show stop =
      .between (left ++ text ++ [')']) right from congrArg (Cursor.between · right) (by simp)]
    exact cueAt?_parameters_closing (left ++ text) right
  have hMoved : d.place.offset < stop.offset := by
    have hPos : 0 < byteLength [')'] := by decide
    simp only [d, Level.within, stop, Cursor.offset_between, byteLength_append]
    omega
  have hCount : (grammar .current).closingCount d.modes = 2 := by
    refine Grammar.closingCount_of_closes ?_ l.stays l.outside
    rw [settingsAt_parameters]
    rfl
  have hPending : d.pending = .between left (text ++ [')'] ++ right) := by
    rw [List.append_assoc]
    rfl
  have hLeave : d.leave (grammar .current) stop =
      l.behind (found ++ words.map (·.regionIn (byteLength left) l.depth)) stop := by
    rw [Standing.leave_eq d stop settingsAt_parameters hCount
      (Standing.flush_between d hPending hWords), l.depth_within]
    have hStop := l.stop_within (found ++ words.map (·.regionIn (byteLength left) l.depth))
      d.pending d.place stop lastOpening
    rw [← l.append_within] at hStop
    exact congrArg (Standing.mk l.outside · stop stop none) hStop
  exact Grammar.course_closes hCloses (.inr hMoved) hLeave

/-- The type of a function is opened by its first word, which is read again within it. -/
theorem course_functionType {text : List Char}
    (hWords : (grammar .current).wordsAt parametersAddress text = []) : (grammar .current).Course
      (l.within found (.between left (text ++ (['f', 'u', 'n'] ++ right)))
        (.between (left ++ text) (['f', 'u', 'n'] ++ right)) lastOpening)
      (l.inType found [] (byteLength (left ++ text))
        (.between (left ++ text) (['f', 'u', 'n'] ++ right))
        (.between (left ++ text) (['f', 'u', 'n'] ++ right))
          (some (byteLength (left ++ text)))) := by
  let d := l.within found (.between left (text ++ (['f', 'u', 'n'] ++ right)))
    (.between (left ++ text) (['f', 'u', 'n'] ++ right)) lastOpening
  let stop := Cursor.between (left ++ text ++ ['f', 'u', 'n']) right
  have hOpens : (grammar .current).cueAt? d.top d.place = some (.opens functionTypeAddress, stop) :=
    cueAt?_parameters_fun (left ++ text) right
  have hEnter : d.enter (grammar .current) functionTypeAddress stop = l.inType found []
      (byteLength (left ++ text)) d.place d.place (some (byteLength (left ++ text))) := by
    rw [Standing.enter_eq d stop settingsAt_functionType (Standing.flush_between d rfl hWords),
      l.depth_within, List.map_nil, List.append_nil]
    rfl
  exact Grammar.course_opens hOpens hEnter

theorem course_type : (grammar .current).Course
    (l.inType found [] (byteLength left) (.between left (['f', 'u', 'n'] ++ right))
      (.between left (['f', 'u', 'n'] ++ right)) lastOpening)
    (l.inType found [⟨.type, byteLength left, byteLength left + 3, l.depth + 1⟩]
      (byteLength left) (.between (left ++ ['f', 'u', 'n']) right)
      (.between (left ++ ['f', 'u', 'n']) right) none) := by
  let start := Cursor.between left (['f', 'u', 'n'] ++ right)
  let stop := Cursor.between (left ++ ['f', 'u', 'n']) right
  let d := l.inType found [] (byteLength left) start start lastOpening
  let d' : Standing := ⟨(typeAddress, some d.regions.length) :: d.modes,
    d.regions ++ [⟨.type, byteLength left, byteLength left, l.depth + 1⟩], start, stop,
    some (byteLength left)⟩
  have hOffset : stop.offset = byteLength left + 3 := by
    simp only [stop, Cursor.offset_between, byteLength_append]
    rfl
  have hOpens : (grammar .current).cueAt? d.top d.place = some (.opens typeAddress, stop) :=
    cueAt?_functionType_fun left right
  have hEnter : d.enter (grammar .current) typeAddress stop = d' := by
    rw [Standing.enter_eq d stop settingsAt_type (Standing.flush_pending _ d), l.depth_inType]
    rfl
  have hCloses : (grammar .current).cueAt? d'.top d'.place = some (.closes, stop) :=
    cueAt?_type stop
  have hMoved : d'.lastOpening ≠ some d'.place.offset := by
    show some (byteLength left) ≠ some stop.offset
    rw [hOffset]
    simp
  have hLeave : d'.leave (grammar .current) stop =
      l.inType found [⟨.type, byteLength left, byteLength left + 3, l.depth + 1⟩]
        (byteLength left) stop stop none := by
    rw [Standing.leave_alone d' stop rfl settingsAt_type rfl
      (Standing.flush_of_wordless d' settingsAt_type rfl stop)]
    show Standing.mk _
      (stopRegion stop.offset (d.regions ++ [_]) (typeAddress, some d.regions.length)) _ _ _ = _
    rw [Standing.stopRegion_append, hOffset]
    exact congrArg (Standing.mk d.modes · stop stop none)
      (l.append_inType found [] [_] _ start start lastOpening)
  exact (Grammar.course_opens hOpens hEnter).trans
    (Grammar.course_closes hCloses (.inl hMoved) hLeave)

theorem course_parameters (start : Nat) (hStart : byteLength left = start + 3) :
    (grammar .current).Course
      (l.inType found [⟨.type, start, start + 3, l.depth + 1⟩] start
        (.between left ('(' :: right)) (.between left ('(' :: right)) lastOpening)
      ((l.inner found start).within [] (.between left ('(' :: right))
        (.between (left ++ ['(']) right) (some (start + 3))) := by
  let d :=
    l.inType found [⟨.type, start, start + 3, l.depth + 1⟩] start (.between left ('(' :: right))
    (.between left ('(' :: right)) lastOpening
  have hOpens : (grammar .current).cueAt? d.top d.place =
      some (.opens parametersAddress, .between (left ++ ['(']) right) :=
    cueAt?_functionType_parenthesis left right
  refine Grammar.course_opens hOpens ?_
  rw [Standing.enter_eq d _ settingsAt_parameters (Standing.flush_pending _ d), l.depth_inType]
  simp [d, Level.inType, Level.within, Level.inner, Level.modes, hStart]

/-- From the first word of the type of a function, the way leads to its parameters. -/
theorem course_inner {text : List Char}
    (hWords : (grammar .current).wordsAt parametersAddress text = []) :
    (grammar .current).Course
      (l.within found (.between left (text ++ (['f', 'u', 'n'] ++ '(' :: right)))
        (.between (left ++ text) (['f', 'u', 'n'] ++ '(' :: right)) lastOpening)
      ((l.inner found (byteLength (left ++ text))).within []
        (.between (left ++ text ++ ['f', 'u', 'n']) ('(' :: right))
        (.between (left ++ text ++ ['f', 'u', 'n'] ++ ['(']) right)
          (some (byteLength (left ++ text) + 3))) := by
  have hOpened : byteLength (left ++ text ++ ['f', 'u', 'n']) = byteLength (left ++ text) + 3 :=
    byteLength_append _ _
  have hType := course_functionType l found left ('(' :: right) lastOpening hWords
  have hWord := course_type l found (left ++ text) ('(' :: right) (some (byteLength (left ++ text)))
  exact (hType.trans hWord).trans (course_parameters l found _ right none _ hOpened)

end

end Highlighter.Co
