/-! Functions whose values are kept once they have been found. -/

namespace Highlighter

/-- Some values of a function, each kept beside its argument. -/
structure Memo {κ α : Type} (f : κ → α) where
  entries : List (κ × α)
  sound : ∀ e ∈ entries, f e.1 = e.2

namespace Memo

variable {κ α : Type} {f : κ → α}

def empty : Memo f := ⟨[], fun _ h => nomatch h⟩

def add (memo : Memo f) (key : κ) (value : α) (h : f key = value) : Memo f :=
  ⟨(key, value) :: memo.entries, List.forall_mem_cons.2 ⟨h, memo.sound⟩⟩

/-- The value at a key, and the values that are kept from then on. One that had to be found is
kept if `keeps` says so. -/
def get [DecidableEq κ] (memo : Memo f) (keeps : α → Bool) (key : κ) : α × Memo f :=
  match memo.entries.find? (·.1 = key) with
  | some e => (e.2, memo)
  | none =>
    let value := f key
    (value, if keeps value then memo.add key value rfl else memo)

theorem get_fst [DecidableEq κ] (memo : Memo f) (keeps : α → Bool) (key : κ) :
    (memo.get keeps key).1 = f key := by
  unfold get
  split
  · next e h =>
    have hk : e.1 = key := by simpa using List.find?_some h
    exact hk ▸ (memo.sound e (List.mem_of_find?_eq_some h)).symm
  · rfl

end Memo

end Highlighter
