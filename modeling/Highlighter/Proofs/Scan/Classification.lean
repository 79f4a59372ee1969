import Highlighter.Grammar.Compile
import Highlighter.Proofs.Scan.Sound

/-! What a tokenizer says of a text. Its tokens cut the text into stretches, its regions are nested,
and both are the same classification of the bytes of the text. -/

namespace Highlighter

/-! A language of quotations, within which parentheses nest. -/

/-- Words, and quotations with parentheses within parentheses in them. -/
def quotations : Grammar where
  name := "quotations"
  keywords := some { keyword := ["let"] }
  contains := [.inline (.containing
    { category := some .string, opening := some "\"", closing := some "\"" }
    [.inline (.containing
      { category := some .params, opening := some "[(]", closing := some "[)]" } [.named "self"])])]

namespace quotations

def machine : Machine := quotations.compile.toOption.get (by decide +kernel)

/-- What is found in a text that ends within two parentheses. -/
def found : Tokens where
  regions :=
    [⟨.keyword, 0, 3, 0⟩, ⟨.string, 4, 12, 0⟩, ⟨.params, 7, 12, 1⟩,
      ⟨.params, 9, 12, 2⟩]
  tokens :=
    [⟨0, 3, [.keyword]⟩, ⟨3, 4, []⟩, ⟨4, 7, [.string]⟩, ⟨7, 9, [.string, .params]⟩,
      ⟨9, 12, [.string, .params, .params]⟩]
  relevance := 1

theorem tokenize_eq : ((Tokenizer.fresh machine).tokenize "let \"é(a(b\"").1 = .ok found := by
  decide +kernel

end quotations

namespace Tokenizer

variable {m : Machine} {t : Tokenizer m} {text : String} {found : Tokens}

/-- The tokens of a text partition it. -/
theorem partition_of_tokenize_eq_ok (h : (t.tokenize text).1 = .ok found) :
    Partition text found.tokens :=
  (describes_tokenize h).partition

theorem partition_quotations : Partition "let \"é(a(b\"" quotations.found.tokens :=
  partition_of_tokenize_eq_ok quotations.tokenize_eq

/-- Tokens and regions say the same of each byte of a text: the token around it carries the
categories of the regions around it, of which the outermost comes first and each lies within one
more than the one before. -/
theorem categories_of_tokenize_eq_ok (h : (t.tokenize text).1 = .ok found) {p : Nat}
    (hp : p < text.utf8ByteSize) :
    (∃ token ∈ found.tokens, token.covers p = true) ∧
      (∀ token ∈ found.tokens, token.covers p = true →
        token.categories = (found.regions.filter (·.covers p)).map (·.category)) ∧
      (found.regions.filter (·.covers p)).map (·.depth) =
        List.range (found.regions.filter (·.covers p)).length := by
  have hFound := describes_tokenize h
  refine ⟨hFound.covered p hp, fun token hToken hCovers => ?_, ?_⟩
  · exact hFound.agree token hToken p hCovers
  · exact hFound.forest.depths_covering p

theorem categories_quotations :
    (∃ token ∈ quotations.found.tokens, token.covers 9 = true) ∧
      (∀ token ∈ quotations.found.tokens, token.covers 9 = true →
        token.categories = [.string, .params, .params]) ∧
      (quotations.found.regions.filter (·.covers 9)).map (·.depth) = [0, 1, 2] :=
  categories_of_tokenize_eq_ok quotations.tokenize_eq (p := 9) (by decide)

/-- The regions of a text are a forest. -/
theorem forest_of_tokenize_eq_ok (h : (t.tokenize text).1 = .ok found) :
    Forest text found.regions :=
  (describes_tokenize h).forest

theorem forest_quotations : Forest "let \"é(a(b\"" quotations.found.regions :=
  forest_of_tokenize_eq_ok quotations.tokenize_eq

end Tokenizer

end Highlighter
