import Mathlib.Data.List.Forall2
import SearchGateway.Proofs.Query.Meaning

/-!
# What lowering makes of a condition

`Lowers m inverted n e` says which entry a condition becomes, read off its core: a comparison
becomes a clause, inside the nested object it belongs to if there is one, and a group becomes the
body of its entries. What follows reads it there and does not open `entry` (`lowers_of_entry`). In
the same way `Builds m c l` says which clause a comparison becomes (`builds_of_comparison`).

`mem_gather` says which slots the entries of a group take: one for each clause outside of nested
objects, and one for each nested path, with all its clauses in order.
-/

namespace SearchGateway

open SearchGateway.Index (Metadata)
open SearchGateway.Filter (Comparison Connective Field Literal Point)

theorem Filter.Field.firstSegment_name {f : Field} (h : f.Dotless) :
    Index.firstSegment f.name = f.first := by
  obtain ⟨path, negated⟩ := f
  have hstop (s : String) (hs : s ∈ path) (more : List Char) :
      (s.toList ++ more).takeWhile (· ≠ '.') = s.toList ++ more.takeWhile (· ≠ '.') := by
    refine List.takeWhile_append_of_pos fun c hc => decide_eq_true fun e => ?_
    exact h s hs (e ▸ hc)
  match path, hstop with
  | [], _ => rfl
  | [s], hstop =>
    have hs := hstop s List.mem_cons_self []
    rw [List.append_nil, List.takeWhile_nil, List.append_nil] at hs
    rw [Index.firstSegment, Field.name, Text.join, String.toList_ofList]
    show String.ofList (s.toList.takeWhile (· ≠ '.')) = s
    rw [hs, String.ofList_toList]
  | s :: t :: path, hstop =>
    have hs := hstop s List.mem_cons_self
      ('.' :: Text.joinChars ['.'] ((t :: path).map String.toList))
    rw [List.takeWhile_cons_of_neg (by simp), List.append_nil] at hs
    rw [Index.firstSegment, Field.name, Text.join, String.toList_ofList]
    show String.ofList ((s.toList ++ ['.'] ++
      Text.joinChars ['.'] ((t :: path).map String.toList)).takeWhile (· ≠ '.')) = s
    rw [List.append_assoc, List.singleton_append, hs, String.ofList_toList]

namespace Query.Lowering

theorem isNested_name {m : Metadata} {c : Comparison} (h : c.field.Dotless) :
    m.isNested c.field.name = c.isInside m := by
  rw [Index.Metadata.isNested, Field.firstSegment_name h, Comparison.isInside]

/-- Whether the clause of a comparison is to be inverted depends on its relation and operand. -/
theorem leafOf_inverts {m : Metadata} {c : Comparison} {l : Leaf} {base : Bool}
    (h : leafOf m c = .ok (l, base)) : base = c.inverts := by
  unfold leafOf at h
  cases hr : c.relation <;> simp only [hr] at h <;> simp only [Comparison.inverts, hr]
  all_goals
    repeat' split at h
    all_goals simp_all

theorem comparison_eq_ok_iff {m : Metadata} {c : Comparison} {p : Leaf × Bool} :
    comparison m c = .ok p ↔
      c.check = .ok () ∧ m.hasField c.field.name = true ∧ leafOf m c = .ok p := by
  unfold comparison
  cases c.check with
  | error f => simp
  | ok u => cases m.hasField c.field.name <;> simp

theorem comparison_inverts {m : Metadata} {c : Comparison} {l : Leaf} {base : Bool}
    (h : comparison m c = .ok (l, base)) : base = c.inverts :=
  leafOf_inverts (comparison_eq_ok_iff.1 h).2.2

/-- The clauses that comparisons become, each on the field of its comparison. -/
inductive Builds (m : Metadata) (c : Comparison) : Leaf → Prop where
  | matching : Builds m c (.matching c.field.name c.value "OR")
  | present : Builds m c (.present c.field.name)
  | range {gt gte lt lte : Literal} :
      (∀ b ∈ [gt, gte, lt, lte], b = .null ∨ b = c.value ∨ b ∈ c.value.elements) →
      Builds m c (.range c.field.name gt gte lt lte)
  | within : Builds m c (within m c.field.name c.value.elements)
  | like : Builds m c (.wildcard c.field.name (wildcardOf c.value.termText))
  | box {northEast southWest : Point} : northEast ∈ c.value.points → southWest ∈ c.value.points →
      m.isOfKind c.field.name .geoPoint = true → Builds m c (box c.field.name northEast southWest)
  | ring : m.isOfKind c.field.name .geoPoint = true →
      Builds m c (.geoPolygon c.field.name (some (closeRing c.value.points)))

theorem builds_of_leafOf {m : Metadata} {c : Comparison} {l : Leaf} {base : Bool}
    (h : leafOf m c = .ok (l, base)) : Builds m c l := by
  unfold leafOf at h
  cases hr : c.relation with
  | unset => rw [hr] at h; cases h
  | equal | different =>
    simp only [hr] at h
    split at h
    · cases h; exact .present
    · cases h; exact .matching
  | greater | greaterEqual | less | lessEqual =>
    rw [hr] at h
    cases h
    exact .range (by simp)
  | range =>
    simp only [hr] at h
    split at h
    · next lo hi helements =>
      cases h
      exact .range (by simp [helements])
    · cases h
  | within => rw [hr] at h; cases h; exact .within
  | like => rw [hr] at h; cases h; exact .like
  | viewport =>
    simp only [hr] at h
    split at h
    · next northEast southWest hpoints =>
      split at h
      · next hgeo =>
        cases h
        exact .box (by simp [hpoints]) (by simp [hpoints]) hgeo
      · cases h
    · cases h
  | polygon =>
    simp only [hr] at h
    split at h
    · next hgeo => cases h; exact .ring hgeo
    · cases h

theorem builds_of_comparison {m : Metadata} {c : Comparison} {l : Leaf} {base : Bool}
    (h : comparison m c = .ok (l, base)) : m.hasField c.field.name = true ∧ Builds m c l := by
  obtain ⟨-, hfield, hleaf⟩ := comparison_eq_ok_iff.1 h
  exact ⟨hfield, builds_of_leafOf hleaf⟩

/-- The clause of a comparison, placed with all its negations. -/
def placedLeaf (c : Comparison) (l : Leaf) (flipped : Bool) : Placed :=
  (.leaf l, ((c.inverts ^^ c.negated) ^^ c.field.negated) ^^ flipped)

inductive Lowers (m : Metadata) (inverted : Bool) (n : Filter) : Entry → Prop where
  | clause {c : Comparison} {flipped : Bool} {l : Leaf} :
      n.core = (.comparison c, flipped) → comparison m c = .ok (l, c.inverts) →
      c.isInside m = false → Lowers m inverted n (.clause (placedLeaf c l (flipped ^^ inverted)))
  | inside {c : Comparison} {flipped : Bool} {l : Leaf} :
      n.core = (.comparison c, flipped) → comparison m c = .ok (l, c.inverts) →
      c.isInside m = true →
      Lowers m inverted n (.inside c.field.first (placedLeaf c l (flipped ^^ inverted)))
  | group {op : Connective} {children : List Filter} {negated flipped : Bool} {es : List Entry} :
      n.core = (.group op children negated, flipped) → 2 ≤ children.length →
      entries m children = .ok es →
      Lowers m inverted n (.group (body op es) (negated ^^ (flipped ^^ inverted)))

/-- The negation of a skipped group is carried to the condition in it. -/
theorem Lowers.skip {m : Metadata} {inverted negated : Bool} {op : Connective} {n : Filter}
    {e : Entry} (h : Lowers m (inverted ^^ negated) n e) :
    Lowers m inverted (.group op [n] negated) e := by
  have hmove (flipped : Bool) : (flipped ^^ (inverted ^^ negated)) =
      ((flipped ^^ negated) ^^ inverted) := by
    cases flipped <;> cases inverted <;> cases negated <;> rfl
  cases h with
  | clause hc hl hi => rw [hmove]; exact .clause (by rw [Filter.core_group_single, hc]) hl hi
  | inside hc hl hi => rw [hmove]; exact .inside (by rw [Filter.core_group_single, hc]) hl hi
  | group hc hlen hes => rw [hmove]; exact .group (by rw [Filter.core_group_single, hc]) hlen hes

theorem lowers_of_entry {m : Metadata} {n : Filter} {q : Connective → List Filter → Bool → Prop}
    (hn : n.Every (·.field.Dotless) q) {inverted : Bool} {e : Entry}
    (h : entry m inverted n = .ok e) : Lowers m inverted n e := by
  induction hn generalizing inverted e with
  | @comparison c hc =>
    rw [entry] at h
    cases hcmp : comparison m c with
    | error f => rw [hcmp] at h; cases h
    | ok r =>
      obtain ⟨l, base⟩ := r
      have hbase := comparison_inverts hcmp
      subst hbase
      rw [hcmp] at h
      simp only [bind, Except.bind, pure, Except.pure, isNested_name hc, Except.ok.injEq] at h
      subst h
      have hp : (Query.leaf l, ((c.inverts ^^ c.negated) ^^ c.field.negated) ^^ inverted) =
          placedLeaf c l (false ^^ inverted) := by simp [placedLeaf]
      rw [hp]
      split
      · exact .inside (Filter.core_comparison c) hcmp ‹_›
      · exact .clause (Filter.core_comparison c) hcmp (Bool.eq_false_iff.2 ‹_›)
  | @group op children negated _ _ ih =>
    rcases children with _ | ⟨n, _ | ⟨n', ns⟩⟩
    · rw [entry] at h; cases h
    · rw [entry] at h
      exact (ih n (by simp) h).skip
    · rw [entry] at h
      cases hes : entries m (n :: n' :: ns) with
      | error f => rw [hes] at h; cases h
      | ok es =>
        rw [hes] at h
        cases h
        have : Lowers m inverted (.group op (n :: n' :: ns) negated)
            (.group (body op es) (negated ^^ (false ^^ inverted))) :=
          .group (Filter.core_group_cons_cons op n n' ns negated) (Nat.le_add_left 2 _) hes
        simpa using this

theorem forall₂_entries {m : Metadata} {ns : List Filter} {es : List Entry}
    (h : entries m ns = .ok es) : List.Forall₂ (fun n e => entry m false n = .ok e) ns es := by
  induction ns generalizing es with
  | nil => rw [entries] at h; cases h; exact .nil
  | cons n ns ih =>
    rw [entries] at h
    cases he : entry m false n with
    | error f => rw [he] at h; cases h
    | ok e =>
      cases hes : entries m ns with
      | error f => rw [he, hes] at h; cases h
      | ok es' =>
        rw [he, hes] at h
        cases h
        exact .cons he (ih hes)

theorem entries_eq_mapM (m : Metadata) (ns : List Filter) :
    entries m ns = ns.mapM (entry m false) := by
  induction ns with
  | nil => rw [entries]; rfl
  | cons n ns ih => rw [entries, ih, List.mapM_cons]

/-! ## Gathering -/

namespace Entry

/-- The clause of an entry outside of nested objects. -/
def single? : Entry → Option Placed
  | clause p => some p
  | group b inverted => some (b.toQuery, inverted)
  | inside _ _ => none

/-- The nested path of an entry. -/
def path? : Entry → Option String
  | inside path _ => some path
  | _ => none

/-- The clause of an entry inside the objects at a path. -/
def at? (path : String) : Entry → Option Placed
  | inside p x => if p = path then some x else none
  | _ => none

theorem at?_inside_self (path : String) (x : Placed) : (inside path x).at? path = some x :=
  if_pos rfl

theorem at?_inside_of_ne {path other : String} (h : path ≠ other) (x : Placed) :
    (inside path x).at? other = none :=
  if_neg h

end Entry

namespace Slot

theorem contents_filter_self (path : String) (slots : List Slot) :
    contents path (slots.filter fun s => !s.isScope path) = [] := by
  induction slots with
  | nil => rfl
  | cons s slots ih =>
    cases s with
    | single p => rwa [List.filter_cons_of_pos rfl, contents]
    | scope p ps =>
      by_cases hp : p = path
      · rwa [List.filter_cons_of_neg (by simp [isScope, hp])]
      · rwa [List.filter_cons_of_pos (by simp [isScope, hp]), contents, if_neg hp]

theorem contents_filter_ne {path other : String} (hne : other ≠ path) (slots : List Slot) :
    contents path (slots.filter fun s => !s.isScope other) = contents path slots := by
  induction slots with
  | nil => rfl
  | cons s slots ih =>
    cases s with
    | single p => rwa [List.filter_cons_of_pos rfl, contents, contents]
    | scope p ps =>
      by_cases hp : p = other
      · rw [List.filter_cons_of_neg (by simp [isScope, hp]), ih, contents, if_neg (hp ▸ hne)]
      · rw [List.filter_cons_of_pos (by simp [isScope, hp]), contents, contents, ih]

theorem gather_cons (e : Entry) (es : List Entry) : gather (e :: es) = absorb e (gather es) := rfl

theorem contents_gather (path : String) (es : List Entry) :
    contents path (gather es) = es.filterMap (Entry.at? path) := by
  induction es with
  | nil => rfl
  | cons e es ih =>
    rw [gather_cons]
    cases e with
    | clause p => rwa [absorb, contents, List.filterMap_cons_none rfl]
    | group b inverted => rwa [absorb, contents, List.filterMap_cons_none rfl]
    | inside p x =>
      by_cases hp : p = path
      · subst hp
        rw [absorb, contents, if_pos rfl, contents_filter_self, ih,
          List.filterMap_cons_some (Entry.at?_inside_self p x), List.append_nil]
      · rw [absorb, contents, if_neg hp, contents_filter_ne hp, ih,
          List.filterMap_cons_none (Entry.at?_inside_of_ne hp x)]

theorem mem_gather {s : Slot} {es : List Entry} : s ∈ gather es ↔
    (∃ p ∈ es.filterMap Entry.single?, s = .single p) ∨
      ∃ path ∈ es.filterMap Entry.path?, s = .scope path (es.filterMap (Entry.at? path)) := by
  induction es with
  | nil => simp [gather]
  | cons e es ih =>
    rw [gather_cons]
    cases e with
    | clause p =>
      have hkeep (path : String) : (Entry.clause p :: es).filterMap (Entry.at? path) =
          es.filterMap (Entry.at? path) := List.filterMap_cons_none rfl
      rw [absorb, List.mem_cons, List.filterMap_cons_some (f := Entry.single?) rfl,
        List.filterMap_cons_none (f := Entry.path?) rfl, List.exists_mem_cons_iff, or_assoc]
      simp only [hkeep, ih]
    | group b inverted =>
      have hkeep (path : String) : (Entry.group b inverted :: es).filterMap (Entry.at? path) =
          es.filterMap (Entry.at? path) := List.filterMap_cons_none rfl
      rw [absorb, List.mem_cons, List.filterMap_cons_some (f := Entry.single?) rfl,
        List.filterMap_cons_none (f := Entry.path?) rfl, List.exists_mem_cons_iff, or_assoc]
      simp only [hkeep, ih]
    | inside path x =>
      have hself := List.filterMap_cons_some (l := es) (Entry.at?_inside_self path x)
      have hkeep {other : String} (h : path ≠ other) :=
        List.filterMap_cons_none (l := es) (Entry.at?_inside_of_ne h x)
      rw [absorb, contents_gather, List.mem_cons, List.mem_filter,
        List.filterMap_cons_none (f := Entry.single?) rfl,
        List.filterMap_cons_some (f := Entry.path?) rfl]
      simp only [ih]
      -- The scope of `path` is drawn to the front; every other slot stays.
      constructor
      · rintro (rfl | ⟨⟨p, hp, rfl⟩ | ⟨other, ho, rfl⟩, hs⟩)
        · exact .inr ⟨path, List.mem_cons_self, by rw [hself]⟩
        · exact .inl ⟨p, hp, rfl⟩
        · have hne : path ≠ other := fun e => by simp [isScope, e] at hs
          exact .inr ⟨other, List.mem_cons_of_mem _ ho, by rw [hkeep hne]⟩
      · rintro (⟨p, hp, rfl⟩ | ⟨other, ho, rfl⟩)
        · exact .inr ⟨.inl ⟨p, hp, rfl⟩, rfl⟩
        · by_cases hne : path = other
          · subst hne; exact .inl (by rw [hself])
          · have ho' := (List.mem_cons.1 ho).resolve_left (Ne.symm hne)
            exact .inr ⟨.inr ⟨other, ho', by rw [hkeep hne]⟩, by simp [isScope, Ne.symm hne]⟩

/-- Where a slot comes from: a clause or a group by itself, or the conditions on one nested path. -/
inductive ComesFrom (es : List Entry) : Slot → Prop where
  | clause {p : Placed} : .clause p ∈ es → ComesFrom es (.single p)
  | group {b : Body} {inverted : Bool} :
      .group b inverted ∈ es → ComesFrom es (.single (b.toQuery, inverted))
  | scope {path : String} {ps : List Placed} :
      ps ≠ [] → (∀ p ∈ ps, .inside path p ∈ es) → ComesFrom es (.scope path ps)

theorem comesFrom_of_mem_gather {s : Slot} {es : List Entry} (h : s ∈ gather es) :
    ComesFrom es s := by
  rcases mem_gather.1 h with ⟨p, hp, rfl⟩ | ⟨path, hpath, rfl⟩
  · obtain ⟨e, he, hsingle⟩ := List.mem_filterMap.1 hp
    cases e with
    | clause p' => cases hsingle; exact .clause he
    | group b inverted => cases hsingle; exact .group he
    | inside path p' => cases hsingle
  · obtain ⟨e, he, hpath⟩ := List.mem_filterMap.1 hpath
    cases e with
    | clause p => cases hpath
    | group b inverted => cases hpath
    | inside path' x =>
      cases hpath
      refine .scope ?_ fun p hp => ?_
      · exact List.ne_nil_of_mem (List.mem_filterMap.2 ⟨_, he, Entry.at?_inside_self path x⟩)
      · obtain ⟨e', he', hsome⟩ := List.mem_filterMap.1 hp
        cases e' with
        | clause p' => cases hsome
        | group b inverted => cases hsome
        | inside other y =>
          by_cases hother : other = path
          · subst hother
            rw [Entry.at?_inside_self] at hsome
            cases hsome
            exact he'
          · rw [Entry.at?_inside_of_ne hother] at hsome
            cases hsome

end Slot

end Query.Lowering

end SearchGateway
