import SearchGateway.Proofs.Query.Atoms

/-!
# Queries as they are sent

Queries and request bodies are encoded faithfully. Two queries with the same text are `Alike`: an
integer and a double that are written with the same digits cannot be told apart in it, and nothing
else is lost. Of a request the index is not part of the body, and of a time limit only its text is.
-/

namespace SearchGateway

open SearchGateway.Filter (Literal Point)
open SearchGateway.Json (Writable)

/-! ### Likeness -/

namespace Filter

/-- The same literal up to integers and doubles that are written alike. -/
inductive Literal.Alike : Literal → Literal → Prop
  | same (v : Literal) : Alike v v
  | intFloat {i : Int64} {x : Binary64} (h : Json.intChars i.toInt = x.jsonChars) :
    Alike (.int i) (.float x)
  | floatInt {x : Binary64} {i : Int64} (h : x.jsonChars = Json.intChars i.toInt) :
    Alike (.float x) (.int i)
  | list {vs ws : List Literal} (h : List.Forall₂ Alike vs ws) : Alike (.list vs) (.list ws)

end Filter

namespace Query

inductive Leaf.Alike : Leaf → Leaf → Prop
  | same (l : Leaf) : Alike l l
  | matching (field operator : String) {v w : Literal} (h : v.Alike w) :
    Alike (.matching field v operator) (.matching field w operator)
  | range (field : String) {gt gt' gte gte' lt lt' lte lte' : Literal} (hgt : gt.Alike gt')
    (hgte : gte.Alike gte') (hlt : lt.Alike lt') (hlte : lte.Alike lte') :
    Alike (.range field gt gte lt lte) (.range field gt' gte' lt' lte')
  | terms (field : String) {vs ws : List Literal} (h : List.Forall₂ Literal.Alike vs ws) :
    Alike (.terms field (some vs)) (.terms field (some ws))

/-- The same query up to numbers that are written alike. -/
inductive Alike : Query → Query → Prop
  | leaf {l m : Leaf} (h : l.Alike m) : Alike (leaf l) (leaf m)
  | bool {must must' mustNot mustNot' should should' : List Query} (minimum : String)
    (hmust : List.Forall₂ Alike must must') (hmustNot : List.Forall₂ Alike mustNot mustNot')
    (hshould : List.Forall₂ Alike should should') :
    Alike (bool must mustNot should minimum) (bool must' mustNot' should' minimum)
  | nested (path : String) {q q' : Query} (h : Alike q q') : Alike (nested path q) (nested path q')

end Query

/-- The same query, or none on both sides. -/
def Request.BodiesAlike : Option Query.Body → Option Query.Body → Prop :=
  Option.Rel fun b b' => b.toQuery.Alike b'.toQuery

/-- The same time limit as far as it is sent. -/
def Request.SameLimit (ns ns' : Int) : Prop :=
  ns ≤ 0 ∧ ns' ≤ 0 ∨ 0 < ns ∧ 0 < ns' ∧ timeoutText ns = timeoutText ns'

/-- The same request as far as its body goes. -/
structure Request.Alike (r r' : Request) : Prop where
  query : BodiesAlike r.query r'.query
  start : r.start = r'.start
  size : r.size = r'.size
  sort : r.sort = r'.sort
  aggregations : r.aggregations = r'.aggregations
  source : r.source = r'.source
  queryTimeout : SameLimit r.queryTimeout r'.queryTimeout

namespace Query

/-! ### Literals -/

mutual

theorem numerals_of_alike : (v w : Literal) → v.Alike w →
    (literalJson v).numerals = (literalJson w).numerals
  | .null, _, h | .bool _, _, h | .string _, _, h => by cases h; rfl
  | .int _, _, h | .float _, _, h => by
    cases h with
    | same => rfl
    | _ h => exact congrArg Json.raw h
  | .list vs, _, h => by
    cases h with
    | same => rfl
    | list h =>
      rw [literalJson, literalJson, Json.numerals_array, Json.numerals_array,
        map_numerals_of_alike vs _ h]

theorem map_numerals_of_alike : (vs ws : List Literal) → List.Forall₂ Literal.Alike vs ws →
    (literalsJson vs).map Json.numerals = (literalsJson ws).map Json.numerals
  | [], _, h => by cases h; rfl
  | v :: vs, _, h => by
    cases h with
    | cons h hs =>
      rw [literalsJson, literalsJson, List.map_cons, List.map_cons, numerals_of_alike v _ h,
        map_numerals_of_alike vs _ hs]

end

mutual

theorem alike_of_numerals : (v w : Literal) → Writable v.atoms → Writable w.atoms →
    (literalJson v).numerals = (literalJson w).numerals → v.Alike w
  | .null, w, _, _, h => by
    cases w with
    | null => exact .same _
    | _ => simp [literalJson, Json.numerals, Json.said] at h
  | .bool b, w, _, _, h => by
    cases w with
    | bool b' => cases h; exact .same _
    | _ => simp [literalJson, Json.numerals, Json.said] at h
  | .string s, w, _, _, h => by
    cases w with
    | string s' => cases h; exact .same _
    | _ => simp [literalJson, Json.numerals, Json.said] at h
  | .int i, w, _, _, h => by
    cases w with
    | int j =>
      have hij : i.toInt = j.toInt := Json.intChars_inj (Json.raw.inj h)
      rw [Int64.toInt_inj.1 hij]
      exact .same _
    | float x => exact .intFloat (Json.raw.inj h)
    | _ => simp [literalJson, Json.numerals, Json.said] at h
  | .float x, w, hv, hw, h => by
    cases w with
    | int j => exact .floatInt (Json.raw.inj h)
    | float y =>
      have hx := hv x (List.mem_singleton_self _)
      have hy := hw y (List.mem_singleton_self _)
      rw [Binary64.jsonChars_inj hx hy (Json.raw.inj h)]
      exact .same _
    | _ => simp [literalJson, Json.numerals, Json.said] at h
  | .list vs, w, hv, hw, h => by
    cases w with
    | list ws =>
      rw [literalJson, literalJson, Json.numerals_array, Json.numerals_array] at h
      exact .list (alikeAll_of_numerals vs ws hv hw (Json.array.inj h))
    | _ => simp [literalJson, Json.numerals, Json.said] at h

theorem alikeAll_of_numerals : (vs ws : List Literal) → Writable (Literal.atomsAll vs) →
    Writable (Literal.atomsAll ws) →
    (literalsJson vs).map Json.numerals = (literalsJson ws).map Json.numerals →
    List.Forall₂ Literal.Alike vs ws
  | [], ws, _, _, h => by
    cases ws with
    | nil => exact .nil
    | cons w ws => cases h
  | v :: vs, ws, hv, hw, h => by
    cases ws with
    | nil => cases h
    | cons w ws =>
      rw [Literal.atomsAll, Json.writable_append] at hv hw
      obtain ⟨hhead, htail⟩ := List.cons.inj h
      exact .cons (alike_of_numerals v w hv.1 hw.1 hhead)
        (alikeAll_of_numerals vs ws hv.2 hw.2 htail)

end

theorem numerals_bound?_of_alike {v w : Literal} (h : v.Alike w) :
    (bound? v).map Json.numerals = (bound? w).map Json.numerals := by
  have hnull : v.isNull = w.isNull := by cases h <;> rfl
  unfold bound?
  rw [hnull]
  cases w.isNull <;> simp [numerals_of_alike v w h]

/-- A bound that is left out is null. -/
theorem alike_of_numerals_bound? {v w : Literal} (hv : Writable v.atoms) (hw : Writable w.atoms)
    (h : (bound? v).map Json.numerals = (bound? w).map Json.numerals) : v.Alike w := by
  have hnull (u : Literal) (hu : u.isNull = true) : u = .null := by
    cases u <;> cases hu
    rfl
  unfold bound? at h
  cases hv' : v.isNull with
  | true =>
    cases hw' : w.isNull with
    | true =>
      rw [hnull v hv', hnull w hw']
      exact .same _
    | false => simp [hv', hw'] at h
  | false =>
    cases hw' : w.isNull with
    | true => simp [hv', hw'] at h
    | false =>
      simp only [hv', hw', Bool.false_eq_true, if_false, Option.map_some, Option.some.injEq] at h
      exact alike_of_numerals v w hv hw h

/-! ### Leaf clauses -/

theorem point_inj {p q : Point} (hp : Writable p.atoms) (hq : Writable q.atoms)
    (h : (pointJson p).numerals = (pointJson q).numerals) : p = q := by
  obtain ⟨lon, lat⟩ := p
  obtain ⟨lon', lat'⟩ := q
  obtain ⟨⟨-, hlat⟩, -, hlon⟩ := Json.eq_of_numerals_pair h
  simp only [Point.atoms, Json.writable_double] at hp hq
  rw [Binary64.jsonChars_inj hp.1 hq.1 (Json.raw.inj hlat),
    Binary64.jsonChars_inj hp.2.1 hq.2.1 (Json.raw.inj hlon)]

theorem points_inj {ps qs : List Point} (hp : Writable (ps.flatMap Point.atoms))
    (hq : Writable (qs.flatMap Point.atoms))
    (h : (ps.map pointJson).map Json.numerals = (qs.map pointJson).map Json.numerals) :
    ps = qs := by
  induction ps generalizing qs with
  | nil =>
    cases qs with
    | nil => rfl
    | cons q qs => cases h
  | cons p ps ih =>
    cases qs with
    | nil => cases h
    | cons q qs =>
      rw [List.flatMap_cons, Json.writable_append] at hp hq
      obtain ⟨hhead, htail⟩ := List.cons.inj h
      rw [point_inj hp.1 hq.1 hhead, ih hp.2 hq.2 htail]

theorem strings_inj {ss ts : List String}
    (h : (ss.map Json.string).map Json.numerals = (ts.map Json.string).map Json.numerals) :
    ss = ts := by
  rw [List.map_map, List.map_map] at h
  exact List.map_injective_iff.2 (fun _ _ hst => Json.string.inj hst) h

/-- A list that was not given is told from an empty one. -/
theorem listOrNull_cases {α : Type} {encode : List α → List Json} {as bs : Option (List α)}
    (h : (listOrNull (as.map encode)).numerals = (listOrNull (bs.map encode)).numerals) :
    as = none ∧ bs = none ∨ ∃ xs ys, as = some xs ∧ bs = some ys ∧
      (encode xs).map Json.numerals = (encode ys).map Json.numerals := by
  cases as with
  | none =>
    cases bs with
    | none => exact .inl ⟨rfl, rfl⟩
    | some ys => simp [listOrNull, Json.numerals, Json.said] at h
  | some xs =>
    cases bs with
    | none => simp [listOrNull, Json.numerals, Json.said] at h
    | some ys =>
      simp only [Option.map_some, listOrNull, Json.numerals_array] at h
      exact .inr ⟨xs, ys, rfl, rfl, Json.array.inj h⟩

theorem leaf_alike_of_numerals {l m : Leaf} (hl : Writable l.atoms) (hm : Writable m.atoms)
    (h : l.json.numerals = m.json.numerals) : l.Alike m := by
  -- Clauses of different kinds differ in the key of their document.
  cases l with
  | matching field v operator =>
    cases m with
    | matching field' v' operator' =>
      obtain ⟨rfl, hbody⟩ := Json.eq_of_numerals_inner h
      obtain ⟨⟨-, hvalue⟩, -, hoperator⟩ := Json.eq_of_numerals_pair hbody
      cases hoperator
      simp only [Leaf.atoms, Json.writable_text, Json.writable_append] at hl hm
      exact .matching field operator (alike_of_numerals v v' hl.1 hm.1 hvalue)
    | _ => exact absurd (Json.eq_of_numerals_single h).1 (by decide)
  | present field =>
    cases m with
    | present field' =>
      cases (Json.eq_of_numerals_inner h).2
      exact .same _
    | _ => exact absurd (Json.eq_of_numerals_single h).1 (by decide)
  | range field gt gte lt lte =>
    cases m with
    | range field' gt' gte' lt' lte' =>
      obtain ⟨rfl, hbody⟩ := Json.eq_of_numerals_inner h
      simp only [Leaf.atoms, Json.writable_text, Json.writable_append] at hl hm
      obtain ⟨⟨⟨hgt, hgte⟩, hlt⟩, hlte⟩ := hl
      obtain ⟨⟨⟨hgt', hgte'⟩, hlt'⟩, hlte'⟩ := hm
      have hbounds := Json.eq_of_numerals_record hbody rfl (by simp)
      simp only [List.map_cons, List.map_nil, List.cons.injEq, Prod.mk.injEq, true_and,
        and_true] at hbounds
      exact .range field (alike_of_numerals_bound? hgt hgt' hbounds.1)
        (alike_of_numerals_bound? hgte hgte' hbounds.2.1)
        (alike_of_numerals_bound? hlt hlt' hbounds.2.2.1)
        (alike_of_numerals_bound? hlte hlte' hbounds.2.2.2)
    | _ => exact absurd (Json.eq_of_numerals_single h).1 (by decide)
  | terms field values =>
    cases m with
    | terms field' values' =>
      obtain ⟨rfl, hbody⟩ := Json.eq_of_numerals_inner h
      simp only [Leaf.atoms, Json.writable_text] at hl hm
      rcases listOrNull_cases hbody with ⟨rfl, rfl⟩ | ⟨vs, ws, rfl, rfl, hvalues⟩
      · exact .same _
      · exact .terms field (alikeAll_of_numerals vs ws hl hm hvalues)
    | _ => exact absurd (Json.eq_of_numerals_single h).1 (by decide)
  | ids values =>
    cases m with
    | ids values' =>
      rcases listOrNull_cases (Json.eq_of_numerals_inner h).2 with
        ⟨rfl, rfl⟩ | ⟨vs, ws, rfl, rfl, hvalues⟩
      · exact .same _
      · rw [strings_inj hvalues]
        exact .same _
    | _ => exact absurd (Json.eq_of_numerals_single h).1 (by decide)
  | wildcard field pattern =>
    cases m with
    | wildcard field' pattern' =>
      obtain ⟨rfl, hbody⟩ := Json.eq_of_numerals_inner h
      cases (Json.eq_of_numerals_single hbody).2
      exact .same _
    | _ => exact absurd (Json.eq_of_numerals_single h).1 (by decide)
  | geoBox field topLeft bottomRight =>
    cases m with
    | geoBox field' topLeft' bottomRight' =>
      obtain ⟨rfl, hbody⟩ := Json.eq_of_numerals_inner h
      obtain ⟨⟨-, htop⟩, -, hbottom⟩ := Json.eq_of_numerals_pair hbody
      simp only [Leaf.atoms, Json.writable_text, Json.writable_append] at hl hm
      rw [point_inj hl.1 hm.1 htop, point_inj hl.2 hm.2 hbottom]
      exact .same _
    | _ => exact absurd (Json.eq_of_numerals_single h).1 (by decide)
  | geoPolygon field points =>
    cases m with
    | geoPolygon field' points' =>
      obtain ⟨rfl, hbody⟩ := Json.eq_of_numerals_inner h
      simp only [Leaf.atoms, Json.writable_text] at hl hm
      rcases listOrNull_cases (Json.eq_of_numerals_single hbody).2 with
        ⟨rfl, rfl⟩ | ⟨ps, qs, rfl, rfl, hpoints⟩
      · exact .same _
      · rw [points_inj hl hm hpoints]
        exact .same _
    | _ => exact absurd (Json.eq_of_numerals_single h).1 (by decide)
  | queryString query fields operator minimum =>
    cases m with
    | queryString query' fields' operator' minimum' =>
      have hbody := Json.eq_of_numerals_record (Json.eq_of_numerals_single h).2 rfl (by simp)
      simp only [List.map_cons, List.map_nil, List.cons.injEq, Prod.mk.injEq, true_and, and_true,
        Json.numerals_list?_iff, Json.numerals_text?_iff] at hbody
      obtain ⟨hquery, hfields, hoperator, rfl⟩ := hbody
      cases hquery
      cases hoperator
      rw [strings_inj hfields]
      exact .same _
    | _ => exact absurd (Json.eq_of_numerals_single h).1 (by decide)

theorem numerals_of_leaf_alike {l m : Leaf} (h : l.Alike m) :
    l.json.numerals = m.json.numerals := by
  cases h with
  | same => rfl
  | matching field operator h =>
    simp only [Leaf.json, Json.numerals_object, List.map_cons, List.map_nil,
      numerals_of_alike _ _ h]
  | range field hgt hgte hlt hlte =>
    simp only [Leaf.json, Json.numerals_object, Json.numerals_record, List.map_cons, List.map_nil,
      numerals_bound?_of_alike hgt, numerals_bound?_of_alike hgte, numerals_bound?_of_alike hlt,
      numerals_bound?_of_alike hlte]
  | terms field h =>
    simp only [Leaf.json, Json.numerals_object, listOrNull, Option.map_some,
      Json.numerals_array, List.map_cons, List.map_nil, map_numerals_of_alike _ _ h]

theorem exists_leaf_json (l : Leaf) :
    ∃ k body, l.json = .object [(k, body)] ∧ k ≠ "bool" ∧ k ≠ "nested" := by
  cases l <;> exact ⟨_, _, rfl, by decide, by decide⟩

/-! ### Queries -/

mutual

theorem query_numerals_of_alike : (q q' : Query) → q.Alike q' →
    q.json.numerals = q'.json.numerals
  | .leaf l, _, h => by
    cases h with
    | leaf h => exact numerals_of_leaf_alike h
  | .bool must mustNot should minimum, _, h => by
    cases h with
    | bool _ hmust hmustNot hshould =>
      have hclauses {qs qs' : List Query} (h : (jsons qs).map Json.numerals =
          (jsons qs').map Json.numerals) : (Json.list? (jsons qs)).map Json.numerals =
            (Json.list? (jsons qs')).map Json.numerals := Json.numerals_list?_iff.2 h
      simp only [Query.json, Json.numerals_object, Json.numerals_record, List.map_cons,
        List.map_nil, hclauses (queries_numerals_of_alike must _ hmust),
        hclauses (queries_numerals_of_alike mustNot _ hmustNot),
        hclauses (queries_numerals_of_alike should _ hshould)]
  | .nested path q, _, h => by
    cases h with
    | nested _ h =>
      simp only [Query.json, Json.numerals_object, List.map_cons, List.map_nil,
        query_numerals_of_alike q _ h]

theorem queries_numerals_of_alike : (qs qs' : List Query) → List.Forall₂ Query.Alike qs qs' →
    (jsons qs).map Json.numerals = (jsons qs').map Json.numerals
  | [], _, h => by cases h; rfl
  | q :: qs, _, h => by
    cases h with
    | cons h hs =>
      rw [jsons, jsons, List.map_cons, List.map_cons, query_numerals_of_alike q _ h,
        queries_numerals_of_alike qs _ hs]

end

mutual

theorem query_alike_of_numerals : (q q' : Query) → Writable q.atoms → Writable q'.atoms →
    q.json.numerals = q'.json.numerals → q.Alike q'
  | .leaf l, q', hq, hq', h => by
    obtain ⟨k, body, hl, hbool, hnested⟩ := exists_leaf_json l
    cases q' with
    | leaf m => exact .leaf (leaf_alike_of_numerals hq hq' h)
    | bool must mustNot should minimum =>
      rw [Query.json, hl, Query.json] at h
      exact absurd (Json.eq_of_numerals_single h).1 hbool
    | nested path q =>
      rw [Query.json, hl, Query.json] at h
      exact absurd (Json.eq_of_numerals_single h).1 hnested
  | .bool must mustNot should minimum, q', hq, hq', h => by
    cases q' with
    | leaf m =>
      obtain ⟨k, body, hm, hbool, hnested⟩ := exists_leaf_json m
      rw [Query.json, Query.json, hm] at h
      exact absurd (Json.eq_of_numerals_single h).1 hbool.symm
    | bool must' mustNot' should' minimum' =>
      rw [Query.json, Query.json] at h
      have hbody := Json.eq_of_numerals_record (Json.eq_of_numerals_single h).2 rfl (by simp)
      simp only [List.map_cons, List.map_nil, List.cons.injEq, Prod.mk.injEq, true_and, and_true,
        Json.numerals_list?_iff, Json.numerals_text?_iff] at hbody
      obtain ⟨hmust, hmustNot, hshould, rfl⟩ := hbody
      simp only [Query.atoms, Json.writable_append] at hq hq'
      exact .bool minimum (queries_alike_of_numerals must must' hq.1.1.1 hq'.1.1.1 hmust)
        (queries_alike_of_numerals mustNot mustNot' hq.1.1.2 hq'.1.1.2 hmustNot)
        (queries_alike_of_numerals should should' hq.1.2 hq'.1.2 hshould)
    | nested path q =>
      rw [Query.json, Query.json] at h
      exact absurd (Json.eq_of_numerals_single h).1 (by decide)
  | .nested path q, q', hq, hq', h => by
    cases q' with
    | leaf m =>
      obtain ⟨k, body, hm, hbool, hnested⟩ := exists_leaf_json m
      rw [Query.json, Query.json, hm] at h
      exact absurd (Json.eq_of_numerals_single h).1 hnested.symm
    | bool must mustNot should minimum =>
      rw [Query.json, Query.json] at h
      exact absurd (Json.eq_of_numerals_single h).1 (by decide)
    | nested path' q' =>
      rw [Query.json, Query.json] at h
      obtain ⟨⟨-, hpath⟩, -, hquery⟩ := Json.eq_of_numerals_pair (Json.eq_of_numerals_single h).2
      cases hpath
      rw [Query.atoms, Json.writable_text] at hq hq'
      exact .nested path (query_alike_of_numerals q q' hq hq' hquery)

theorem queries_alike_of_numerals : (qs qs' : List Query) → Writable (Query.atomsAll qs) →
    Writable (Query.atomsAll qs') →
    (jsons qs).map Json.numerals = (jsons qs').map Json.numerals → List.Forall₂ Query.Alike qs qs'
  | [], qs', _, _, h => by
    cases qs' with
    | nil => exact .nil
    | cons q' qs' => cases h
  | q :: qs, qs', hq, hq', h => by
    cases qs' with
    | nil => cases h
    | cons q' qs' =>
      rw [Query.atomsAll, Json.writable_append] at hq hq'
      obtain ⟨hhead, htail⟩ := List.cons.inj h
      exact .cons (query_alike_of_numerals q q' hq.1 hq'.1 hhead)
        (queries_alike_of_numerals qs qs' hq.2 hq'.2 htail)

end

/-! ### Requests -/

mutual

theorem aggregation_inj : (a b : Aggregation) → a.json.numerals = b.json.numerals → a = b
  | .terms field size shardSize, b, h => by
    cases b with
    | terms field' size' shardSize' =>
      rw [Aggregation.json, Aggregation.json] at h
      have hbody := (Json.eq_of_numerals_single h).2
      simp only [Json.numerals_object, List.map_cons, List.map_nil, Json.object.injEq,
        List.cons.injEq, Prod.mk.injEq, true_and, and_true] at hbody
      obtain ⟨hfield, hsize, hshardSize⟩ := hbody
      cases hfield
      rw [Json.intChars_inj (Json.raw.inj hsize), Json.intChars_inj (Json.raw.inj hshardSize)]
    | nested path aggregations => simp [Aggregation.json, Json.numerals_object] at h
  | .nested path as, b, h => by
    cases b with
    | terms field size shardSize => simp [Aggregation.json, Json.numerals_object] at h
    | nested path' bs =>
      rw [Aggregation.json, Aggregation.json] at h
      obtain ⟨⟨-, hpath⟩, -, haggs⟩ := Json.eq_of_numerals_pair h
      cases (Json.eq_of_numerals_single hpath).2
      rw [Json.numerals_object, Json.numerals_object] at haggs
      rw [aggregations_inj as bs (Json.object.inj haggs)]

theorem aggregations_inj : (as bs : List (String × Aggregation)) →
    (Aggregation.membersJson as).map (fun m => (m.1, m.2.numerals)) =
      (Aggregation.membersJson bs).map (fun m => (m.1, m.2.numerals)) → as = bs
  | [], bs, h => by
    cases bs with
    | nil => rfl
    | cons b bs => cases h
  | (name, a) :: as, bs, h => by
    cases bs with
    | nil => cases h
    | cons b bs =>
      obtain ⟨name', b⟩ := b
      obtain ⟨hhead, htail⟩ := List.cons.inj h
      have hname : name = name' := (Prod.mk.inj hhead).1
      rw [aggregations_inj as bs htail, hname, aggregation_inj a b (Prod.mk.inj hhead).2]

end

theorem aggregationsMember_inj {as bs : List (String × Aggregation)}
    (h : (if as.isEmpty then none else some (Json.object (Aggregation.membersJson as))).map
        Json.numerals =
      (if bs.isEmpty then none else some (Json.object (Aggregation.membersJson bs))).map
        Json.numerals) : as = bs := by
  cases as with
  | nil =>
    cases bs with
    | nil => rfl
    | cons b bs => cases h
  | cons a as =>
    cases bs with
    | nil => cases h
    | cons b bs =>
      have hobject := Option.some.inj h
      rw [Json.numerals_object, Json.numerals_object] at hobject
      exact aggregations_inj _ _ (Json.object.inj hobject)

theorem sort_inj {s t : SortClause} (h : s.json.numerals = t.json.numerals) : s = t := by
  obtain ⟨field, order, path⟩ := s
  obtain ⟨field', order', path'⟩ := t
  obtain ⟨rfl, hbody⟩ := Json.eq_of_numerals_single h
  have hmembers := Json.eq_of_numerals_record hbody rfl (by simp)
  simp only [List.map_cons, List.map_nil, List.cons.injEq, Prod.mk.injEq, true_and,
    and_true] at hmembers
  obtain ⟨horder, hnested⟩ := hmembers
  cases horder
  have hpath : (Json.text? path).map Json.numerals = (Json.text? path').map Json.numerals := by
    cases hp : Json.text? path with
    | none =>
      cases hp' : Json.text? path' with
      | none => rfl
      | some v' => rw [hp, hp'] at hnested; cases hnested
    | some v =>
      cases hp' : Json.text? path' with
      | none => rw [hp, hp'] at hnested; cases hnested
      | some v' =>
        rw [hp, hp'] at hnested
        exact congrArg some (Json.eq_of_numerals_single (Option.some.inj hnested)).2
  rw [Json.numerals_text?_iff.1 hpath]

theorem sorts_inj {ss ts : List SortClause}
    (h : (ss.map SortClause.json).map Json.numerals = (ts.map SortClause.json).map Json.numerals) :
    ss = ts := by
  rw [List.map_map, List.map_map] at h
  exact List.map_injective_iff.2 (fun _ _ hst => sort_inj hst) h

theorem source_inj {s t : SourceFilter} (h : s.json.numerals = t.json.numerals) : s = t := by
  obtain ⟨includes, excludes⟩ := s
  obtain ⟨includes', excludes'⟩ := t
  have hmembers := Json.eq_of_numerals_record h rfl (by simp)
  simp only [List.map_cons, List.map_nil, List.cons.injEq, Prod.mk.injEq, true_and, and_true,
    Json.numerals_list?_iff] at hmembers
  rw [strings_inj hmembers.1, strings_inj hmembers.2]

theorem sourceMember_inj {s t : SourceFilter}
    (h : (if s.isEmpty then none else some s.json).map Json.numerals =
      (if t.isEmpty then none else some t.json).map Json.numerals) : s = t := by
  have hempty (u : SourceFilter) (hu : u.isEmpty = true) : u = ⟨[], []⟩ := by
    obtain ⟨includes, excludes⟩ := u
    simpa [SourceFilter.isEmpty] using hu
  cases hs : s.isEmpty with
  | true =>
    cases ht : t.isEmpty with
    | true => rw [hempty s hs, hempty t ht]
    | false => simp [hs, ht] at h
  | false =>
    cases ht : t.isEmpty with
    | true => simp [hs, ht] at h
    | false =>
      simp only [hs, ht, Bool.false_eq_true, if_false, Option.map_some, Option.some.injEq] at h
      exact source_inj h

theorem timeout_iff {ns ns' : Int} :
    (if 0 < ns then some (Json.string (Request.timeoutText ns)) else none).map Json.numerals =
      (if 0 < ns' then some (Json.string (Request.timeoutText ns')) else none).map Json.numerals ↔
        Request.SameLimit ns ns' := by
  have hstring {s t : String} :
      (Json.string s).numerals = (Json.string t).numerals ↔ s = t :=
    ⟨fun h => Json.string.inj h, fun h => by rw [h]⟩
  unfold Request.SameLimit
  by_cases hns : 0 < ns <;> by_cases hns' : 0 < ns' <;>
    simp [hns, hns', hstring, Int.not_le.2, Int.not_lt.1]

theorem bodies_alike_of_numerals {o o' : Option Query.Body}
    (ho : Writable (o.elim [] fun b => b.toQuery.atoms))
    (ho' : Writable (o'.elim [] fun b => b.toQuery.atoms))
    (h : (o.map fun b => b.toQuery.json).map Json.numerals =
      (o'.map fun b => b.toQuery.json).map Json.numerals) : Request.BodiesAlike o o' := by
  cases o with
  | none =>
    cases o' with
    | none => exact .none
    | some b' => cases h
  | some b =>
    cases o' with
    | none => cases h
    | some b' => exact .some (query_alike_of_numerals _ _ ho ho' (Option.some.inj h))

theorem bodies_numerals_of_alike {o o' : Option Query.Body} (h : Request.BodiesAlike o o') :
    (o.map fun b => b.toQuery.json).map Json.numerals =
      (o'.map fun b => b.toQuery.json).map Json.numerals := by
  cases h with
  | none => rfl
  | some h => exact congrArg some (query_numerals_of_alike _ _ h)

theorem request_alike_of_numerals {r r' : Request} (hr : Writable r.atoms)
    (hr' : Writable r'.atoms) (h : r.json.numerals = r'.json.numerals) : r.Alike r' := by
  have hmembers := Json.eq_of_numerals_record h rfl (by simp)
  simp only [List.map_cons, List.map_nil, List.cons.injEq, Prod.mk.injEq, true_and, and_true,
    Json.numerals_list?_iff, timeout_iff] at hmembers
  obtain ⟨hstart, hsize, hlimit, hquery, hsort, haggs, hsource⟩ := hmembers
  simp only [Request.atoms, Json.writable_append] at hr hr'
  exact
    { query := bodies_alike_of_numerals hr.1.1.1 hr'.1.1.1 hquery
      start := Json.intChars_inj (Json.raw.inj (Option.some.inj hstart))
      size := Json.intChars_inj (Json.raw.inj (Option.some.inj hsize))
      sort := sorts_inj hsort
      aggregations := aggregationsMember_inj haggs
      source := sourceMember_inj hsource
      queryTimeout := hlimit }

theorem request_numerals_of_alike {r r' : Request} (h : r.Alike r') :
    r.json.numerals = r'.json.numerals := by
  simp only [Request.json, Json.numerals_record, List.map_cons, List.map_nil,
    bodies_numerals_of_alike h.query, timeout_iff.2 h.queryTimeout, h.start, h.size, h.sort,
    h.aggregations, h.source]

/-- A clause on a number whose field is not ASCII. -/
def numberSample (v : Literal) : Query := .leaf (.matching "größe" v "OR")

theorem readable_numberSample {v : Literal} (hv : ∀ s, .text s ∉ v.atoms) :
    Json.Readable (numberSample v).atoms := by
  intro s hs
  have hcases : s = "größe" ∨ .text s ∈ v.atoms ∨ s = "OR" := by
    simpa [numberSample, Query.atoms, Leaf.atoms] using hs
  rcases hcases with rfl | hs | rfl
  · exact Text.isUnicode_iff.2 (Json.genuine_of_all (by decide))
  · exact absurd hs (hv s)
  · exact Text.isUnicode_iff.2 (Json.genuine_of_all (by decide))

/-- Queries and request bodies are encoded faithfully. -/
theorem faithful_json_and_body :
    Json.Faithful (fun q : Query => q.json.write false) Query.atoms Query.Alike ∧
      Json.Faithful Request.body Request.atoms Request.Alike :=
  ⟨Json.faithful_of false shows_query fun q q' hq hq' =>
      ⟨query_alike_of_numerals q q' hq hq', query_numerals_of_alike q q'⟩,
    Json.faithful_of false shows_request fun _ _ hr hr' =>
      ⟨request_alike_of_numerals hr hr', request_numerals_of_alike⟩⟩

/-- Both zeros are written alike, and what is not a number is refused. -/
theorem faithful_json_and_body_zero :
    (∃ text, (numberSample (.int 0)).json.write false = .ok text ∧
      (numberSample (.float .zero)).json.write false = .ok text) ∧
    ∃ x, (numberSample (.float .nan)).json.write false = .error x := by
  have hfaithful := faithful_json_and_body.1
  have halike : (numberSample (.int 0)).Alike (numberSample (.float .zero)) :=
    .leaf (.matching _ _ (.intFloat (by decide +kernel)))
  have hint : ∃ text, (numberSample (.int 0)).json.write false = .ok text := ⟨_, rfl⟩
  have hfloat : ∃ text, (numberSample (.float .zero)).json.write false = .ok text := ⟨_, rfl⟩
  obtain ⟨text, htext⟩ := hint
  obtain ⟨text', htext'⟩ := hfloat
  have heq : text = text' :=
    (hfaithful.eq_iff _ _ _ _ htext htext' (readable_numberSample nofun)
      (readable_numberSample (by simp [Literal.atoms]))).2 halike
  refine ⟨⟨text, htext, heq ▸ htext'⟩, (hfaithful.fails_iff _).2 ⟨.nan, ?_, by decide⟩⟩
  simp [numberSample, Query.atoms, Leaf.atoms, Literal.atoms]

end Query

end SearchGateway
