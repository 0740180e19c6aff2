import SearchGateway.Proofs.Filter.Printing

/-!
# Parsing and printing

Canonical filters are exactly what parsing returns: the text of a canonical filter is read as that
filter, and whatever is read is canonical. Both are facts about the grammar, on which
`parse_eq_ok_iff_derives` puts them.
-/

namespace SearchGateway.Filter

/-- Parsing undoes printing. -/
theorem parse_text {n : Filter} (h : Canonical n) : parse n.text = .ok n := by
  refine parse_eq_ok_iff_derives.2 ?_
  rw [text, String.toList_ofList]
  exact h.sentence_chars

/-- A filter with a kept double negation, nested groups and a text that holds quotes, a backslash
and the name of a connective. -/
def nestedSample : Filter :=
  .group .or
    [.group .and
      [.comparison ⟨⟨["by", "name"], false⟩, .equal, .string "\"b\" \\ AND", true⟩,
        .group .and [.comparison ⟨⟨["NOTE"], false⟩, .different, .null, true⟩] true] false,
      .comparison ⟨⟨["price"], false⟩, .range,
        .list [.float (.ofRank true 4609434218613702656), .int 20], false⟩] true

theorem canonical_nestedSample : Canonical nestedSample := by
  have hname : Canonical
      (.comparison ⟨⟨["by", "name"], false⟩, .equal, .string "\"b\" \\ AND", true⟩) :=
    .comparison ⟨by decide, by decide, by decide, rfl, by decide, rfl, .string _⟩
  have hnote : Canonical (.comparison ⟨⟨["NOTE"], false⟩, .different, .null, true⟩) :=
    .comparison ⟨by decide, by decide, by decide, rfl, by decide, rfl, .null⟩
  have hprice : Canonical (.comparison ⟨⟨["price"], false⟩, .range,
      .list [.float (.ofRank true 4609434218613702656), .int 20], false⟩) := by
    refine .comparison ⟨by decide, by decide, by decide, rfl, by decide, rfl, .list ?_⟩
    exact List.forall_mem_cons.2 ⟨.float (by decide), List.forall_mem_singleton.2 (.int _)⟩
  have hkept := Canonical.negate hnote
  have hboth := canonical_collapse (.inl rfl) (by simp)
    (List.forall_mem_cons.2 ⟨hname, List.forall_mem_singleton.2 hkept⟩)
  have hall := canonical_collapse (.inr rfl) (by simp)
    (List.forall_mem_cons.2 ⟨hboth, List.forall_mem_singleton.2 hprice⟩)
  exact hall.negate

def nestedText : String :=
  "NOT ((NOT by.name EQUAL \"\\\"b\\\" \\\\ AND\" AND NOT (NOT NOTE DIFFERENT null)) " ++
    "OR price RANGE [-1.5,20])"

theorem text_nestedSample : nestedSample.text = nestedText := by
  have hchars : nestedSample.chars = nestedText.toList := by decide +kernel
  rw [text, hchars, String.ofList_toList]

theorem parse_text_nestedSample :
    Canonical nestedSample ∧ parse nestedText = .ok nestedSample := by
  refine ⟨canonical_nestedSample, ?_⟩
  rw [← text_nestedSample]
  exact parse_text canonical_nestedSample

/-- Whatever is parsed is canonical. -/
theorem canonical_of_parse {input : String} {n : Filter} (h : parse input = .ok n) :
    Canonical n :=
  (parse_eq_ok_iff_derives.1 h).canonical

/-- A comparison without layout, negated twice by a sign. -/
theorem sentence_negatedTwice : Sentence "!!a=1".toList
    (.group .and [.comparison ⟨⟨["a"], false⟩, .equal, .int 1, true⟩] true) := by
  have hcomparison : Derives .factor "a=1".toList
      [.comparison ⟨⟨["a"], false⟩, .equal, .int 1, false⟩] [] :=
    derives_of_tokens "=1".toList ⟨['='], .equal⟩ "1".toList (by decide) (by decide +kernel)
      (by decide) (readsLiterals_of_scanWord rfl) rfl
  have hsign : ∀ s, scanConnective? .not ('!' :: s) = some s →
      ReadsOperator Connective.aliases ('!' :: s) .not s := by
    intro s hs
    have := scanConnective?_eq_some_iff.1 hs
    rwa [skipLayout_cons (by decide)] at this
  have hinner := Derives.not (.refl _) (hsign "a=1".toList (by decide)) hcomparison
  have houter := Derives.not (.refl _) (hsign "!a=1".toList (by decide)) hinner
  exact ⟨_, [], .term (.factor houter) (.one _), .one _, .refl _⟩

theorem canonical_of_parse_negatedTwice :
    parse "!!a=1" = .ok (.group .and [.comparison ⟨⟨["a"], false⟩, .equal, .int 1, true⟩] true) ∧
      Canonical (.group .and [.comparison ⟨⟨["a"], false⟩, .equal, .int 1, true⟩] true) := by
  have hparse := parse_eq_ok_iff_derives.2 sentence_negatedTwice
  exact ⟨hparse, canonical_of_parse hparse⟩

end SearchGateway.Filter
