import SearchGateway.Filter.Tree

/-!
# The structure of filters

`Every p q n`: all comparisons of `n` satisfy `p` and all its groups satisfy `q`. Induction over
`Every` is induction over the filter, with the hypothesis for each child of a group.

`core n` is what remains of `n` when groups of a single child are skipped, with the parity of the
negations of the groups that were skipped.
-/

namespace SearchGateway.Filter

/-- The connectives that join conditions. -/
def Connective.IsJunction (op : Connective) : Prop := op = .and ∨ op = .or

inductive Every (p : Comparison → Prop) (q : Connective → List Filter → Bool → Prop) :
    Filter → Prop where
  | comparison {c : Comparison} : p c → Every p q (.comparison c)
  | group {op : Connective} {children : List Filter} {negated : Bool} :
      q op children negated → (∀ n ∈ children, Every p q n) →
      Every p q (.group op children negated)

def core : Filter → Filter × Bool
  | group _ [n] negated => ((core n).1, (core n).2 ^^ negated)
  | n => (n, false)

theorem core_group_single (op : Connective) (n : Filter) (negated : Bool) :
    core (group op [n] negated) = ((core n).1, (core n).2 ^^ negated) := by
  rw [core]

theorem core_comparison (c : Comparison) : core (comparison c) = (comparison c, false) := by
  simp [core]

theorem core_group_cons_cons (op : Connective) (n n' : Filter) (ns : List Filter)
    (negated : Bool) : core (group op (n :: n' :: ns) negated) =
      (group op (n :: n' :: ns) negated, false) := by
  simp [core]

theorem Every.core {p : Comparison → Prop} {q : Connective → List Filter → Bool → Prop} {n : Filter}
    (h : Every p q n) : Every p q n.core.1 := by
  induction h with
  | comparison hc => rw [core_comparison]; exact .comparison hc
  | @group op children negated hq hchildren ih =>
    match children, hq, hchildren, ih with
    | [], hq, hchildren, _ => exact .group hq hchildren
    | [n], _, _, ih => rw [core_group_single]; exact ih n List.mem_cons_self
    | n :: n' :: ns, hq, hchildren, _ => rw [core_group_cons_cons]; exact .group hq hchildren

end SearchGateway.Filter
