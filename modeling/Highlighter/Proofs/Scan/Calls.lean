import Highlighter.Proofs.Scan.Loops

/-! A tokenizer that scans several texts. Between two of them it keeps what it has compiled and
nothing else, also where a scan has failed in the middle of a text, so the answer for a text does
not depend on the texts before it. -/

namespace Highlighter.Tokenizer

variable {m : Machine}

/-- Scans go the same way, whatever the tokenizers keep: each step depends on the scan alone. -/
theorem run_fst_eq (fuel count : Nat) (s : Scan) (t t' : Tokenizer m) :
    (run fuel count s t).1 = (run fuel count s t').1 := by
  refine run_eq_of_related (R := Eq) (fun hEq => hEq ▸ rfl) (fun {st _} hEq => ?_) fuel rfl t t'
  subst hEq
  cases Scan.turn m st with
  | inl next => exact .inl rfl
  | inr answer => exact .inr rfl

theorem tokenize_fst (t : Tokenizer m) (text : String) : (t.tokenize text).1 = m.tokenize text :=
  run_fst_eq (stepLimit text.toList) 1 (.start text.toList) t (fresh m)

/-- What a tokenizer keeps cannot be seen. Whatever it has scanned before, it answers for
each of several texts, scanned one after the other, what a new tokenizer answers for that
text, be it tokens or an error. -/
theorem tokenizeAll_eq_map (t : Tokenizer m) (texts : List String) :
    t.tokenizeAll texts = texts.map m.tokenize := by
  induction texts generalizing t with
  | nil => rfl
  | cons text texts ih =>
    calc t.tokenizeAll (text :: texts)
      _ = (t.tokenize text).1 :: (t.tokenize text).2.tokenizeAll texts := rfl
      _ = m.tokenize text :: texts.map m.tokenize := by rw [t.tokenize_fst, ih]

end Highlighter.Tokenizer
