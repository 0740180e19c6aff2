import SearchGateway.Query.Compile
import SearchGateway.Proofs.Outcome

/-!
# Compiled requests, part by part

A request is compiled exactly if each of its parts is, and the parts are what they are compiled to
on their own (`search_eq_ok_iff`, `query_eq_ok_iff`). Statements about compiled requests start from
these equivalences and do not open the compiler again.
-/

namespace SearchGateway

namespace Query

open SearchGateway.Index (Metadata Registry)

namespace Compile

theorem search_eq_ok_iff {m : Metadata} {r : SearchRequest} {q : Request} :
    search m r = .ok q ↔ ∃ size, pageSize m r = .ok size ∧
      ∃ minimum, Compile.minimum m r = .ok minimum ∧ ∃ body, query m r minimum = .ok body ∧
      ∃ sort, Compile.sort m r = .ok sort ∧
      ∃ aggregations, facets m r.facetSize r.facets = .ok aggregations ∧
      ∃ source, Compile.source m r.includeFields r.excludeFields = .ok source ∧
      { index := m.name, query := some body, start := r.start, size, sort, aggregations, source,
        queryTimeout := m.queryTimeout } = q := by
  simp only [search, bind_eq_ok_iff, mapError_eq_ok_iff, pure, Except.pure, Except.ok.injEq]

theorem filterBody_eq_ok_iff {m : Metadata} {r : SearchRequest} {b : Body} :
    filterBody m r = .ok b ↔ (r.hasFilter = false ∧ b = {}) ∨
      (r.hasFilter = true ∧ ∃ n, Filter.parse r.filter = .ok n ∧ ofFilter m n = .ok b) := by
  unfold filterBody
  cases r.hasFilter with
  | false => simp [eq_comm]
  | true => simp [bind_eq_ok_iff, mapError_eq_ok_iff]

/-- The query of a request with a free text: the clause of the text comes before the alternatives
of the filter. -/
theorem query_eq_ok_iff {m : Metadata} {r : SearchRequest} {minimum : String} {b : Body}
    (htext : r.hasText = true) : query m r minimum = .ok b ↔
      ∃ f, filterBody m r = .ok f ∧ ∃ clause, textClause m r minimum = .ok clause ∧
        { f with should := clause :: f.should } = b := by
  simp only [query, htext, ↓reduceIte, bind_eq_ok_iff, pure, Except.pure, Except.ok.injEq]

theorem query_of_no_text (m : Metadata) {r : SearchRequest} (minimum : String)
    (htext : r.hasText = false) : query m r minimum = filterBody m r := by
  unfold query
  rw [htext]
  cases filterBody m r <;> rfl

end Compile

theorem compile_eq_ok_iff {registry : Registry} {r : SearchRequest} {q : Request} :
    compile registry r = .ok q ↔
      ∃ m, registry.find r.index = .ok m ∧ Compile.search m r = .ok q := by
  simp only [compile, bind_eq_ok_iff, mapError_eq_ok_iff]

theorem compileLookup_eq_ok_iff {registry : Registry} {r : DocumentRequest} {out : Lookup} :
    compileLookup registry r = .ok out ↔
      ∃ m, registry.find r.index = .ok m ∧ Compile.document m r = .ok out := by
  simp only [compileLookup, bind_eq_ok_iff, mapError_eq_ok_iff]

end Query

end SearchGateway
