import Highlighter.Proofs.Scan.Sound

/-! The open modes of a scan. They change at their top only: a step puts a mode there that the
innermost one contains, or takes some modes off, be it none. What outlasts both holds of the
open modes of each scan. -/

namespace Highlighter.Scan

open Text

variable {m : Machine} {text : List Char} {count : Nat} {s : Scan}

/-- What a step may make of the open modes. -/
inductive Restacks (m : Machine) (s : Scan) : List Frame → Prop
  | opens {id : Nat} {region : Option Nat} (hWithin : id ∈ (m.mode s.top.mode).contains)
    (hOpening : (m.mode id).opening.isSome) : Restacks m s (m.frameOn s.top id region :: s.frames)
  | closes {closed kept : List Frame} (hFrames : closed ++ kept = s.frames) : Restacks m s kept

theorem restacks_step (m : Machine) (count : Nat) (s : Scan) :
    (s.step m count).Leads fun s' => Restacks m s s'.frames := by
  have hSteps := steps_step m count s
  generalize s.step m count = o at hSteps ⊢
  have hStays : Restacks m s s.frames := .closes (List.nil_append _)
  cases hSteps with
  | broken _ | runaway _ _ _ _ => trivial
  | none _ _ => exact hStays
  | found hSet hFound _ hTakes =>
    cases hTakes with
    | opens hKind =>
      obtain ⟨hWithin, regex, hOpening, -⟩ := Machine.exists_of_find?_opening hSet hFound hKind
      simp only [Outcome.Leads, openMode, enter, frames_flush]
      exact .opens hWithin (Option.isSome_of_mem hOpening)
    | illegal _ => trivial
    | closes _ _ hParts => exact .closes (Machine.append_of_partAt? hParts)
    | passes _ _ | passesNext _ _ _ | passesEnd _ _ _ => exact hStays

/-- What holds where no mode is open, and is kept when modes open and close, holds of all open
modes. -/
theorem Reachable.frames_induct {p : List Frame → Prop} (hNone : p [])
    (hOpens : ∀ {frames : List Frame} {id : Nat} {region : Option Nat}, p frames →
      id ∈ (m.mode (frames.head?.getD .root).mode).contains → (m.mode id).opening.isSome →
      p (m.frameOn (frames.head?.getD .root) id region :: frames))
    (hCloses : ∀ {closed kept : List Frame}, p (closed ++ kept) → p kept)
    (h : Reachable m text count s) : p s.frames := by
  refine h.induct (p := fun s => p s.frames) hNone fun count s hFrames => ?_
  have hRestacks := restacks_step m count s
  generalize s.step m count = o at hRestacks ⊢
  have hKept : ∀ {frames}, Restacks m s frames → p frames := by
    rintro _ (⟨hWithin, hOpening⟩ | hAppend)
    · exact hOpens hFrames hWithin hOpening
    · exact hCloses (hAppend ▸ hFrames)
  cases o with
  | goesOn s' | ends s' => exact hKept hRestacks
  | fails e => trivial

/-- What holds of a mode that opens within the root, or within one that it holds of,
holds of each open mode. -/
theorem Reachable.forall_frames {p : Frame → Prop}
    (hOpens : ∀ {parent : Frame} {id : Nat} {region : Option Nat}, parent = .root ∨
      p parent → id ∈ (m.mode parent.mode).contains → (m.mode id).opening.isSome →
      p (m.frameOn parent id region)) (h : Reachable m text count s) :
    ∀ frame ∈ s.frames, p frame := by
  refine h.frames_induct (p := fun frames => ∀ frame ∈ frames, p frame) nofun
    (fun {frames id region} hAll => ?_) fun hAll frame hFrame =>
    hAll frame (List.mem_append_right _ hFrame)
  intro hWithin hOpening
  refine List.forall_mem_cons.2 ⟨hOpens ?_ hWithin hOpening, hAll⟩
  cases frames with
  | nil => exact .inl rfl
  | cons frame rest => exact .inr (hAll frame List.mem_cons_self)

end Highlighter.Scan
