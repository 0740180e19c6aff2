import Mathlib.Data.List.Basic
import SearchGateway.Proofs.Filter.Structure
import SearchGateway.Proofs.Filter.Words
import SearchGateway.Proofs.Filter.Grammar

/-!
# Canonical filters

A canonical filter is one that can be written down: its comparisons have a path of names, a
relation and an operand that fits it, and its groups have two children at least. The one exception
is a negated group around a single negated filter, which is how a double negation is kept.

What the grammar derives is canonical (`Derives.canonical`).
-/

namespace SearchGateway.Filter

open SearchGateway.Text

/-- No double in the literal, however deep in lists, is infinite or not a number. -/
inductive Literal.Finite : Literal → Prop where
  | null : Finite .null
  | bool (b : Bool) : Finite (.bool b)
  | int (i : Int64) : Finite (.int i)
  | float {x : Binary64} : x.isFinite = true → Finite (.float x)
  | string (s : String) : Finite (.string s)
  | list {items : List Literal} : (∀ v ∈ items, Finite v) → Finite (.list items)

structure Comparison.Canonical (c : Comparison) : Prop where
  path_ne : c.field.path ≠ []
  isName : ∀ p ∈ c.field.path, Index.isName p.toList = true
  first_ne : c.field.first ≠ "NOT"
  not_negated : c.field.negated = false
  mem_all : c.relation ∈ Relation.all
  fits : c.relation.rejects c.value = none
  finite : c.value.Finite

/-- A group that keeps a double negation. -/
def KeepsNegation (op : Connective) (children : List Filter) (negated : Bool) : Prop :=
  op = .and ∧ negated = true ∧ ∃ n, children = [n] ∧ n.isNegated = true

def GroupCanonical (op : Connective) (children : List Filter) (negated : Bool) : Prop :=
  op.IsJunction ∧ (2 ≤ children.length ∨ KeepsNegation op children negated)

def Canonical : Filter → Prop := Every Comparison.Canonical GroupCanonical

/-! ## Negation and sequences -/

theorem Canonical.negate {n : Filter} (h : Canonical n) : Canonical n.negate := by
  rw [Filter.negate]
  split
  · rename_i hneg
    refine .group ⟨.inl rfl, .inr ⟨rfl, rfl, n, rfl, hneg⟩⟩ ?_
    intro m hm
    rw [List.mem_singleton.1 hm]
    exact h
  · rename_i hneg
    cases h with
    | comparison hc => exact .comparison ⟨hc.1, hc.2, hc.3, hc.4, hc.5, hc.6, hc.7⟩
    | group hq hchildren =>
      obtain ⟨hop, hlength | ⟨-, hnegated, -⟩⟩ := hq
      · exact .group ⟨hop, .inl hlength⟩ hchildren
      · exact absurd hnegated hneg

theorem canonical_collapse {op : Connective} (hop : op.IsJunction) {ns : List Filter}
    (hne : ns ≠ []) (h : ∀ n ∈ ns, Canonical n) : Canonical (collapse op ns) := by
  match ns, hne with
  | [n], _ => exact h n List.mem_cons_self
  | n :: m :: ns, _ => exact .group ⟨hop, .inl (by simp)⟩ h

/-! ## Literals -/

theorem finite_of_classify {word : List Char} {v : Literal} (h : classify word = .ok v) :
    v.Finite := by
  cases classified_of_classify h with
  | bool b => exact .bool b
  | null => exact .null
  | string => exact .string _
  | int _ _ _ => exact .int _
  | float _ _ hvalue => exact .float (Binary64.isFinite_of_ofDigits? hvalue)

theorem ReadsLiterals.finite {x : Extent} {s rest : List Char} {vs : List Literal}
    (h : ReadsLiterals x s vs rest) : ∀ v ∈ vs, v.Finite := by
  induction h with
  | word _ _ hclass => exact List.forall_mem_singleton.2 (finite_of_classify hclass)
  | quoted _ => exact List.forall_mem_singleton.2 (.string _)
  | empty _ => exact List.forall_mem_singleton.2 (.list (by simp))
  | list _ ih => exact List.forall_mem_singleton.2 (.list ih)
  | last _ _ _ ih => exact ih
  | cons _ _ _ _ ih ihs => exact List.forall_mem_cons.2 ⟨List.forall_mem_singleton.1 ih, ihs⟩

/-! ## Comparisons -/

/-- The operator of negation: its sign, or its word where no name goes on. -/
theorem readsOperator_not_iff {s rest : List Char} :
    ReadsOperator Connective.aliases s .not rest ↔
      s = '!' :: rest ∨ s = "NOT".toList ++ rest ∧ Stops isNamePart rest := by
  constructor
  · rintro ⟨⟨text, op⟩, rfl, ⟨spelling, hspelling, htext⟩, ⟨he, hstop⟩, -⟩
    dsimp only at hspelling htext he
    rcases List.mem_cons.1 hspelling with rfl | hspelling
    · subst htext
      exact .inr ⟨he, hstop (by decide)⟩
    · rw [List.mem_singleton.1 hspelling] at htext
      exact .inl (by rw [he, ← htext]; rfl)
  · -- A longer spelling at the front would begin with the same character.
    have hlongest {a : Alias Connective} (hop : a.operator = .not) (hstands : a.Stands s rest)
        (hspelling : a.IsSpelling Connective.aliases)
        (hlong : ∀ b ∈ connectiveTable, b.text.head? = a.text.head? →
          b.text.length ≤ a.text.length) :
        ReadsOperator Connective.aliases s .not rest := by
      refine ⟨a, hop, hspelling, hstands, fun b hb r hr => ?_⟩
      have hb := mem_connectiveTable.2 hb
      have hne := text_ne_nil_of_mem_connectiveTable b hb
      have hne' := text_ne_nil_of_mem_connectiveTable a (mem_connectiveTable.2 hspelling)
      refine hlong b hb ?_
      rw [← List.head?_append_of_ne_nil _ hne, ← List.head?_append_of_ne_nil _ hne', ← hr.1,
        ← hstands.1]
    rintro (rfl | ⟨rfl, hstop⟩)
    · exact hlongest (a := ⟨"!".toList, .not⟩) rfl ⟨rfl, fun h => absurd h (by decide)⟩
        ⟨"!", by decide, rfl⟩ (by decide)
    · exact hlongest (a := ⟨"NOT".toList, .not⟩) rfl ⟨rfl, fun _ => hstop⟩
        ⟨"NOT", by decide, rfl⟩ (by decide)

/-- A name at the front is the operator only if it is `NOT`. -/
theorem exists_readsOperator_not_iff {p : String} {u : List Char}
    (hp : Index.isName p.toList = true) (hu : Stops isNamePart u) :
    (∃ r, ReadsOperator Connective.aliases (p.toList ++ u) .not r) ↔ p = "NOT" := by
  constructor
  · rintro ⟨r, hr⟩
    rcases readsOperator_not_iff.1 hr with he | ⟨he, hstop⟩
    · -- A name does not start with the sign.
      obtain ⟨c, t, hc, hstart, -⟩ := isName_iff.1 hp
      rw [hc] at he
      cases he
      cases hstart
    · have hname : ∀ c ∈ "NOT".toList, isNamePart c = true := List.all_eq_true.1 (by decide)
      have htake := congrArg (List.takeWhile isNamePart) he
      rw [takeWhile_append_stop (isNamePart_of_isName hp) hu,
        takeWhile_append_stop hname hstop] at htake
      exact String.toList_inj.1 htake
  · rintro rfl
    exact ⟨u, readsOperator_not_iff.2 (.inr ⟨rfl, hu⟩)⟩

/-- A path starts with its first name, which ends there. -/
theorem IsPath.first {path : List String} {text rest : List Char} (h : IsPath path text)
    (hrest : Stops Filter.isPathPart rest) : Index.isName (path.headD "").toList = true ∧
      ∃ u, text ++ rest = (path.headD "").toList ++ u ∧ Stops isNamePart u := by
  obtain ⟨p, hp, ⟨rfl, rfl⟩ | ⟨path', text', -, rfl, rfl⟩⟩ := h.cases
  · exact ⟨hp, rest, rfl, hrest.isNamePart⟩
  · refine ⟨hp, '.' :: text' ++ rest, List.append_assoc .., fun c hc => ?_⟩
    cases hc
    decide

theorem IsPath.exists_readsOperator_not_iff {path : List String} {text rest : List Char}
    (h : IsPath path text) (hrest : Stops Filter.isPathPart rest) :
    (∃ r, ReadsOperator Connective.aliases (text ++ rest) .not r) ↔ path.headD "" = "NOT" := by
  obtain ⟨hname, u, he, hu⟩ := h.first hrest
  rw [he]
  exact Filter.exists_readsOperator_not_iff hname hu

theorem mem_all_of_rejects {relation : Relation} {v : Literal} (h : relation.rejects v = none) :
    relation ∈ Relation.all := by
  cases relation with
  | unset => cases h
  | _ => decide

theorem ReadsComparison.canonical {s rest : List Char} {c : Comparison}
    (h : ReadsComparison s c rest) (hnot : ∀ r, ¬ ReadsOperator Connective.aliases s .not r) :
    c.Canonical := by
  obtain ⟨path, s₁, s₂, s₃, s₄, relation, v, hfield, hskips, hop, -, hvalue, hfits, rfl⟩ := h
  have hdot := head?_ne_dot_of_readsOperator hskips hop
  obtain ⟨text, rfl, hpath, hrest⟩ := (readsField_iff hdot).1 hfield
  have hfirst : path.headD "" ≠ "NOT" := by
    intro he
    obtain ⟨r, hr⟩ := (hpath.exists_readsOperator_not_iff hrest).2 he
    exact hnot r hr
  exact ⟨hpath.1, hpath.2.1, hfirst, rfl, mem_all_of_rejects hfits, hfits,
    List.forall_mem_singleton.1 hvalue.finite⟩

/-! ## Derivations -/

theorem Joins.canonical {op : Connective} {ns : List Filter} {n : Filter} (h : Joins op ns n)
    (hop : op.IsJunction) (hns : ∀ m ∈ ns, Canonical m) : Canonical n := by
  obtain ⟨hne, rfl⟩ := joins_iff.1 h
  exact canonical_collapse hop hne hns

/-- All operands that are derived are canonical. -/
theorem Derives.canonical {x : Nonterminal} {s rest : List Char} {ns : List Filter}
    (h : Derives x s ns rest) : ∀ n ∈ ns, Canonical n := by
  induction h with
  | comparison _ hnot hc => exact List.forall_mem_singleton.2 (.comparison (hc.canonical hnot))
  | not _ _ _ ih =>
    have hn := List.forall_mem_singleton.1 ih
    exact List.forall_mem_singleton.2 hn.negate
  | parens _ _ hn _ ih => exact List.forall_mem_singleton.2 (hn.canonical (.inr rfl) ih)
  | factor _ ih => exact ih
  | and _ _ _ _ ih ihs => exact List.forall_mem_cons.2 ⟨List.forall_mem_singleton.1 ih, ihs⟩
  | term _ hn ih => exact List.forall_mem_singleton.2 (hn.canonical (.inl rfl) ih)
  | or _ hn _ _ _ ih ihs => exact List.forall_mem_cons.2 ⟨hn.canonical (.inl rfl) ih, ihs⟩

theorem Sentence.canonical {s : List Char} {n : Filter} (h : Sentence s n) : Canonical n := by
  obtain ⟨ns, rest, hns, hn, -⟩ := h
  exact hn.canonical (.inr rfl) hns.canonical

end SearchGateway.Filter
