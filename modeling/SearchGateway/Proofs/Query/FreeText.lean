import SearchGateway.Proofs.Filter.Printing
import SearchGateway.Proofs.Query.Compiled
import SearchGateway.Proofs.Query.Preservation

/-!
# A free text beside a filter

`Query.selects` is the rule of the backend with its default for alternatives: a boolean query that
gives no minimum asks for one of its alternatives if it has some and nothing that must hold.

The clause of a free text is put in front of the alternatives of the filter's query, and by that
rule it does one of three things (`selects_compile_text`): it widens a filter that is a disjunction,
it changes nothing beside a clause that must hold, and otherwise it narrows the filter. Which of
them is decided by the shape of the lowered filter: a disjunction has nothing but alternatives, any
other filter has none (`Shape`).
-/

namespace SearchGateway

open SearchGateway.Index (Metadata Registry)
open SearchGateway.Filter (Canonical Comparison Connective)

universe u

variable {σ : Type u}

namespace Query

/-- One of the alternatives has to hold: if the minimum says so, or, where there is no minimum, if
there are alternatives and nothing that must hold. -/
def asksAlternative (must should : List Query) (minimum : String) : Bool :=
  if minimum = "" then must.isEmpty && !should.isEmpty else minimum = "1"

mutual

def selects (w : Corpus σ) : Query → σ → Bool
  | leaf l, d => w.truth d l
  | bool must mustNot should minimum, d =>
    (eachSelects w must d).all id && !(eachSelects w mustNot d).any id &&
      (!asksAlternative must should minimum || (eachSelects w should d).any id)
  | nested path q, d => (w.objects d path).any fun o => selects w q o

def eachSelects (w : Corpus σ) : List Query → σ → List Bool
  | [], _ => []
  | q :: qs, d => selects w q d :: eachSelects w qs d

end

theorem selects_bool (w : Corpus σ) (must mustNot should : List Query) (minimum : String) (d : σ) :
    (bool must mustNot should minimum).selects w d =
      ((eachSelects w must d).all id && !(eachSelects w mustNot d).any id &&
        (!asksAlternative must should minimum || (eachSelects w should d).any id)) := by
  rw [selects]

end Query

namespace Filter

/-- Behind the groups of a single child that are skipped, the filter is a disjunction, and it is
not negated. -/
def isDisjunction (n : Filter) : Bool :=
  match n.core with
  | (group .or _ negated, flipped) => !(negated ^^ flipped)
  | _ => false

theorem isDisjunction_of_core {n : Filter} {op : Connective} (hop : op.IsJunction)
    {children : List Filter} {negated flipped : Bool}
    (h : n.core = (group op children negated, flipped)) :
    n.isDisjunction = (decide (op = .or) && !(negated ^^ flipped)) := by
  rw [isDisjunction, h]
  rcases hop with rfl | rfl <;> rfl

/-- The segments of a name are read apart, so none of them holds a dot. -/
theorem Comparison.Canonical.dotless {c : Comparison} (h : c.Canonical) : c.field.Dotless := by
  intro s hs hdot
  exact absurd (isNamePart_of_isName (h.isName s hs) '.' hdot) (by decide)

theorem Canonical.joined {n : Filter} (h : Canonical n) : Query.Lowering.Joined n := by
  induction h with
  | comparison hc => exact .comparison hc.dotless
  | group hq _ ih => exact .group hq.1 ih

end Filter

/-- The filter of the request is a disjunction. -/
def SearchRequest.filterIsDisjunction (r : SearchRequest) : Bool :=
  r.hasFilter &&
    match Filter.parse r.filter with
    | .ok n => n.isDisjunction
    | .error _ => false

namespace Query

/-- What a lowered filter has beside `must` and `mustNot`, and what it has instead of them. -/
inductive Shape (b : Body) : Bool → Prop where
  | disjunction : b.must = [] → b.mustNot = [] → b.minimum = "1" → Shape b true
  | other : b.should = [] → b.minimum = "" → Shape b false

theorem Shape.should_eq_nil {b : Body} (h : Shape b false) : b.should = [] := by
  cases h with
  | other hshould _ => exact hshould

namespace Lowering

theorem shape_body {op : Connective} (hop : op.IsJunction) (es : List Entry) :
    Shape (body op es) (op = .or) := by
  rcases hop with rfl | rfl
  · exact .other rfl rfl
  · exact .disjunction rfl rfl rfl

end Lowering

theorem shape_ofFilter {m : Metadata} {n : Filter} (hn : Lowering.Joined n) {b : Body}
    (h : ofFilter m n = .ok b) : Shape b n.isDisjunction := by
  rw [ofFilter] at h
  cases he : Lowering.entry m false n with
  | error f => rw [he] at h; cases h
  | ok e =>
    rw [he] at h
    cases Lowering.lowers_of_entry hn he with
    | clause hcore _ _ =>
      cases h
      rw [Filter.isDisjunction, hcore]
      exact .other rfl rfl
    | inside hcore _ _ =>
      cases h
      rw [Filter.isDisjunction, hcore]
      exact .other rfl rfl
    | @group op children negated flipped es hcore _ _ =>
      have hroot := hn.core
      rw [hcore] at hroot
      have hop : op.IsJunction := by
        cases hroot with
        | group hop _ => exact hop
      rw [Filter.isDisjunction_of_core hop hcore]
      rw [Bool.xor_false] at h
      cases hinverted : (negated ^^ flipped) with
      | false =>
        rw [hinverted] at h
        cases h
        rw [Bool.not_false, Bool.and_true]
        exact Lowering.shape_body hop es
      | true =>
        rw [hinverted] at h
        cases h
        rw [Bool.not_true, Bool.and_false]
        exact .other rfl rfl

/-- The query of the filter alone; without a filter it is empty. -/
theorem shape_filterBody {m : Metadata} {r : SearchRequest} {b : Body}
    (h : Compile.filterBody m r = .ok b) : Shape b r.filterIsDisjunction := by
  rw [SearchRequest.filterIsDisjunction]
  rcases Compile.filterBody_eq_ok_iff.1 h with ⟨hfilter, rfl⟩ | ⟨hfilter, n, hparse, hlower⟩
  · rw [hfilter]
    exact .other rfl rfl
  · have hn : Canonical n := (Filter.parse_eq_ok_iff_derives.1 hparse).canonical
    rw [hfilter, hparse]
    exact shape_ofFilter hn.joined hlower

/-! ## The clause of the text -/

section text

variable (w : Corpus σ) (d : σ) {b : Body} (clause : Query)

theorem selects_text_of_disjunction (h : Shape b true) :
    (Body.toQuery { b with should := clause :: b.should }).selects w d =
      (b.toQuery.selects w d || clause.selects w d) := by
  cases h with
  | disjunction hmust hnot hmin =>
    simp [Body.toQuery, selects_bool, eachSelects, asksAlternative, hmust, hnot, hmin,
      Bool.or_comm]

theorem selects_text_of_must (h : Shape b false) (hmust : b.must ≠ []) :
    (Body.toQuery { b with should := clause :: b.should }).selects w d = b.toQuery.selects w d := by
  cases h with
  | other hshould hmin =>
    simp [Body.toQuery, selects_bool, asksAlternative, hshould, hmin, hmust]

theorem selects_text_of_no_must (h : Shape b false) (hmust : b.must = []) :
    (Body.toQuery { b with should := clause :: b.should }).selects w d =
      (b.toQuery.selects w d && clause.selects w d) := by
  cases h with
  | other hshould hmin =>
    simp [Body.toQuery, selects_bool, eachSelects, asksAlternative, hshould, hmin, hmust]

end text

/-! ## Requests with and without the text -/

namespace Compile

theorem hasText_removed (r : SearchRequest) :
    ({ r with text := "" } : SearchRequest).hasText = false :=
  rfl

/-- Whatever is accepted as a minimum with a text is accepted without it. -/
theorem minimum_removed {m : Metadata} {r : SearchRequest} {minimum : String}
    (htext : r.hasText = true) (h : Compile.minimum m r = .ok minimum) :
    ∃ other, Compile.minimum m { r with text := "" } = .ok other := by
  unfold Compile.minimum at h ⊢
  rw [hasText_removed]
  by_cases hasked : Text.trim r.minimumShouldMatch = ""
  · exact ⟨"", by simp [hasked, pure, Except.pure]⟩
  · refine ⟨minimum, ?_⟩
    simpa [hasked, htext] using h

/-- A request that is compiled with a text is compiled without it, to the query of the filter. -/
theorem search_removed {m : Metadata} {r : SearchRequest} {q : Request} (htext : r.hasText = true)
    (h : search m r = .ok q) :
    ∃ minimum clause b f, Compile.minimum m r = .ok minimum ∧
      textClause m r minimum = .ok clause ∧ filterBody m r = .ok b ∧
      q.query = some { b with should := clause :: b.should } ∧
      search m { r with text := "" } = .ok f ∧ f.query = some b := by
  obtain ⟨size, hsize, minimum, hminimum, body, hbody, sort, hsort, aggregations, haggregations,
    source, hsource, rfl⟩ := search_eq_ok_iff.1 h
  obtain ⟨b, hfilter, clause, hclause, rfl⟩ := (query_eq_ok_iff htext).1 hbody
  obtain ⟨other, hother⟩ := minimum_removed htext hminimum
  have hquery : query m { r with text := "" } other = .ok b := by
    rw [query_of_no_text m other (hasText_removed r)]
    exact hfilter
  have hsearch := (search_eq_ok_iff (r := { r with text := "" })).2 ⟨size, hsize, other, hother,
    b, hquery, sort, hsort, aggregations, haggregations, source, hsource, rfl⟩
  exact ⟨minimum, clause, b, _, hminimum, hclause, hfilter, rfl, hsearch, rfl⟩

end Compile

/-- What the clause of a free text does to the query of the filter. -/
theorem selects_compile_text {registry : Registry} {r : SearchRequest} {q : Request}
    (htext : r.hasText = true) (h : compile registry r = .ok q) :
    ∃ m minimum clause f body b, registry.find r.index = .ok m ∧
      Compile.minimum m r = .ok minimum ∧ Compile.textClause m r minimum = .ok clause ∧
      compile registry { r with text := "" } = .ok f ∧ f.query = some body ∧ q.query = some b ∧
      ∀ (w : Corpus σ) (d : σ),
        (r.filterIsDisjunction = true → b.toQuery.selects w d =
          (body.toQuery.selects w d || clause.selects w d)) ∧
        (r.filterIsDisjunction = false → body.must ≠ [] →
          b.toQuery.selects w d = body.toQuery.selects w d) ∧
        (r.filterIsDisjunction = false → body.must = [] → body.should = [] ∧
          b.toQuery.selects w d = (body.toQuery.selects w d && clause.selects w d)) := by
  obtain ⟨m, hm, hsearch⟩ := compile_eq_ok_iff.1 h
  obtain ⟨minimum, clause, b, f, hminimum, hclause, hfilter, hq, hremoved, hf⟩ :=
    Compile.search_removed htext hsearch
  have hshape := shape_filterBody hfilter
  refine ⟨m, minimum, clause, f, b, _, hm, hminimum, hclause,
    compile_eq_ok_iff.2 ⟨m, hm, hremoved⟩, hf, hq, fun w d => ⟨?_, ?_, ?_⟩⟩
  · intro hdisjunction
    rw [hdisjunction] at hshape
    exact selects_text_of_disjunction w d clause hshape
  · intro hdisjunction hmust
    rw [hdisjunction] at hshape
    exact selects_text_of_must w d clause hshape hmust
  · intro hdisjunction hmust
    rw [hdisjunction] at hshape
    exact ⟨hshape.should_eq_nil, selects_text_of_no_must w d clause hshape hmust⟩

/-- A disjunction behind a double negation. -/
def disjunctionSample : Filter :=
  .group .and
    [.group .or
      [.comparison ⟨⟨["state"], false⟩, .equal, .string "new", false⟩,
        .comparison ⟨⟨["offer", "price"], false⟩, .less, .int 5, true⟩] true] true

def textSample : SearchRequest where
  index := "shop"
  filter := "NOT (NOT (state EQUAL \"new\" OR NOT offer.price LESS 5))"
  text := "lamp"

def sampleRegistry : Registry := ⟨[("shop", sampleIndex)]⟩

theorem parse_textSample : Filter.parse textSample.filter = .ok disjunctionSample := by
  have hstate : Canonical (.comparison ⟨⟨["state"], false⟩, .equal, .string "new", false⟩) :=
    .comparison ⟨by decide, by decide, by decide, rfl, by decide, rfl, .string _⟩
  have hprice : Canonical (.comparison ⟨⟨["offer", "price"], false⟩, .less, .int 5, false⟩) :=
    .comparison ⟨by decide, by decide, by decide, rfl, by decide, rfl, .int _⟩
  have hor := Filter.canonical_collapse (.inr rfl) (by simp)
    (List.forall_mem_cons.2 ⟨hstate, List.forall_mem_singleton.2 hprice.negate⟩)
  have hall : Canonical disjunctionSample := hor.negate.negate
  have hchars : textSample.filter.toList = disjunctionSample.chars := by decide +kernel
  refine Filter.parse_eq_ok_iff_derives.2 ?_
  rw [hchars]
  exact hall.sentence_chars

theorem exists_compile_textSample : ∃ q, compile sampleRegistry textSample = .ok q := by
  obtain ⟨b, hb⟩ : ∃ b, Compile.filterBody sampleIndex textSample = .ok b :=
    ⟨_, Compile.filterBody_eq_ok_iff.2 (.inr ⟨by decide, _, parse_textSample, rfl⟩)⟩
  obtain ⟨body, hquery⟩ : ∃ body, Compile.query sampleIndex textSample "75%" = .ok body :=
    ⟨_, (Compile.query_eq_ok_iff (by decide)).2 ⟨b, hb, _, rfl, rfl⟩⟩
  have hfacets : facets sampleIndex textSample.facetSize textSample.facets = .ok [] := by cbv
  have hsource : Compile.source sampleIndex textSample.includeFields textSample.excludeFields =
      .ok {} := by cbv
  exact ⟨_, compile_eq_ok_iff.2 ⟨sampleIndex, rfl, Compile.search_eq_ok_iff.2
    ⟨20, rfl, "75%", rfl, body, hquery, [], rfl, _, hfacets, _, hsource, rfl⟩⟩⟩

/-- The text widens the sample's filter. -/
theorem selects_compile_textSample :
    textSample.hasText = true ∧ ∃ q, compile sampleRegistry textSample = .ok q ∧
      ∃ clause f body b, Compile.textClause sampleIndex textSample "75%" = .ok clause ∧
        compile sampleRegistry { textSample with text := "" } = .ok f ∧ f.query = some body ∧
        q.query = some b ∧ ∀ (w : Corpus Nat) (d : Nat),
          b.toQuery.selects w d = (body.toQuery.selects w d || clause.selects w d) := by
  have htext : textSample.hasText = true := by decide
  have hdisjunction : textSample.filterIsDisjunction = true := by
    have hfilter : textSample.hasFilter = true := by decide
    rw [SearchRequest.filterIsDisjunction, hfilter, parse_textSample]
    rfl
  obtain ⟨q, hq⟩ := exists_compile_textSample
  obtain ⟨m, minimum, clause, f, body, b, hm, hminimum, hclause, hf, hbody, hb, hall⟩ :=
    selects_compile_text (σ := Nat) htext hq
  cases hm
  cases hminimum
  exact ⟨htext, q, hq, clause, f, body, b, hclause, hf, hbody, hb,
    fun w d => (hall w d).1 hdisjunction⟩

end Query

end SearchGateway
