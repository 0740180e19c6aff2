import SearchGateway.Filter.Scanner

/-!
# Reading filters

`NOT` binds tighter than `AND`, which binds tighter than `OR`; parentheses group.

    filter      ::= conjunction (OR conjunction)*
    conjunction ::= factor (AND factor)*
    factor      ::= NOT factor | '(' filter ')' | field relation literal

A sequence of several operands becomes one group that holds them in the order written; a sequence
of one is that operand.
-/

namespace SearchGateway

namespace Filter

open SearchGateway.Text

theorem length_first?_lt {ω : Type} {t : List (Alias ω)} {s rest : List Char} {a : Alias ω}
    (ht : ∀ a ∈ t, a.text ≠ []) (h : Alias.first? t s = some (a, rest)) :
    rest.length < s.length := by
  induction t with
  | nil => simp [Alias.first?] at h
  | cons b t ih =>
    simp only [Alias.first?] at h
    split at h
    · rename_i r hr
      have := Alias.length_after?_le hr
      have := List.length_pos_iff.2 (ht b List.mem_cons_self)
      grind
    · exact ih (fun a ha => ht a (List.mem_cons_of_mem _ ha)) h

theorem text_ne_nil_of_mem_connectiveTable : ∀ a ∈ connectiveTable, a.text ≠ [] := by decide

theorem text_ne_nil_of_mem_relationTable : ∀ a ∈ relationTable, a.text ≠ [] := by decide

theorem length_scanConnective?_lt {op : Connective} {s rest : List Char}
    (h : scanConnective? op s = some rest) : rest.length < s.length := by
  have hs := length_skipLayout_le s
  unfold scanConnective? at h
  split at h
  · rename_i a r hr
    have := length_first?_lt text_ne_nil_of_mem_connectiveTable hr
    grind
  · simp at h

/-- A field, a relation and a literal that fits it. -/
def scanComparison (s : List Char) : Except ParseError (Scanned Filter s) := do
  if s = [] then .error (.located .missingOperand s)
  else
    let field ← scanField s
    have hf := field.lt
    have hr := length_skipLayout_le field.rest
    match h : Alias.first? relationTable (skipLayout field.rest) with
    | none =>
      match skipLayout field.rest with
      | [] => .error (.located (.missingOperator (Field.name ⟨field.value, false⟩)) [])
      | rest => .error (.located .unknownOperator rest)
    | some (a, rest) =>
      have ha := length_first?_lt text_ne_nil_of_mem_relationTable h
      have hs := length_skipLayout_le rest
      let value ← scanLiteral (skipLayout rest)
      have hv := Nat.lt_trans (Nat.lt_of_lt_of_le value.lt hs)
        (Nat.lt_trans (Nat.lt_of_lt_of_le ha hr) hf)
      match Comparison.make ⟨field.value, false⟩ a.operator value.value with
      | .error m => .error (.misfit m)
      | .ok c => return ⟨.comparison c, value.rest, hv⟩

mutual

/-- Operands with `OR` between them. -/
def scanAlternatives (s : List Char) : Except ParseError (Scanned (List Filter) s) := do
  let first ← scanConjuncts s
  have hf := first.lt
  let operand := collapse .and first.value
  match h : scanConnective? .or first.rest with
  | none => return ⟨[operand], first.rest, hf⟩
  | some rest =>
    have hr := length_scanConnective?_lt h
    let more ← scanAlternatives rest
    return (more.map (operand :: ·)).weaken (by omega)
termination_by (s.length, 2)

/-- Operands with `AND` between them. -/
def scanConjuncts (s : List Char) : Except ParseError (Scanned (List Filter) s) := do
  let first ← scanFactor s
  have hf := first.lt
  match h : scanConnective? .and first.rest with
  | none => return ⟨[first.value], first.rest, hf⟩
  | some rest =>
    have hr := length_scanConnective?_lt h
    let more ← scanConjuncts rest
    return (more.map (first.value :: ·)).weaken (by omega)
termination_by (s.length, 1)

/-- A negation, a filter in parentheses or a comparison. -/
def scanFactor (s : List Char) : Except ParseError (Scanned Filter s) :=
  match hn : scanConnective? .not s with
  | some rest =>
    have hr := length_scanConnective?_lt hn
    (scanFactor rest).map fun r => (r.map negate).weaken (by omega)
  | none =>
    have hs := length_skipLayout_le s
    match ho : skipLayout s with
    | '(' :: inner => do
      let filters ← scanAlternatives inner
      have hi := filters.lt
      have hc := length_skipLayout_le filters.rest
      match hm : skipLayout filters.rest with
      | ')' :: rest => return ⟨collapse .or filters.value, rest, by simp_all; omega⟩
      | [] => .error (.located .unclosedParenthesis ('(' :: inner))
      | rest => .error (.located .expectedClose rest)
    | rest => (scanComparison rest).map fun r => r.weaken (by rw [← ho]; omega)
termination_by (s.length, 0)
decreasing_by all_goals simp_all [Prod.lex_def]; try omega

end

/-- Reads a whole filter. -/
def parse (input : String) : Except ParseError Filter := do
  if isBlankText input then .error .empty
  else
    let filters ← scanAlternatives input.toList
    match skipLayout filters.rest with
    | [] => return collapse .or filters.value
    | ')' :: rest => .error (.located .unbalancedClose (')' :: rest))
    | rest => .error (.located .unexpected rest)

namespace Field

/-- Reads a whole field, with a negation in front or without. -/
def parse (input : String) : Except ParseError Field := do
  let s := skipLayout input.toList
  let (negated, s) :=
    match scanConnective? .not s with
    | some rest => (true, skipLayout rest)
    | none => (false, s)
  let field ← scanField s
  match skipLayout field.rest with
  | [] => return ⟨field.value, negated⟩
  | rest => .error (.located .unexpectedAfterField rest)

end Field

/-- Reads a text that is one spelling of an operator and nothing else. -/
def parseOperator {ω : Type} (table : List (Alias ω)) (missing : Problem) (input : String) :
    Except ParseError ω :=
  let s := skipLayout input.toList
  match Alias.first? table s with
  | none => .error (.located missing s)
  | some (a, rest) =>
    match skipLayout rest with
    | [] => .ok a.operator
    | rest => .error (.located .unexpectedAfterOperator rest)

def Connective.parse (input : String) : Except ParseError Connective :=
  parseOperator connectiveTable .unknownConnective input

def Relation.parse (input : String) : Except ParseError Relation :=
  parseOperator relationTable .unknownOperator input

end Filter

end SearchGateway
