import SearchGateway.Proofs.Text.Items
import SearchGateway.Query.Wildcard

/-!
# Wildcard patterns match what `LIKE` patterns match

The two pattern languages are read by one reader that is told the signs for any text and for any
character (`Signs.tokens`): a backslash makes the next character stand for itself. Swapping the
signs keeps the tokens (`tokens_swapWildcards`), although escapes are dropped, kept and added on the
way, so that both patterns match the same texts (`matches_wildcardOf`).

Line breaks are put in before a pattern is read. `LinesBroken` says what that is without a scan: cut
the pattern at each backslash followed by `n`, and join the parts by line breaks.
-/

namespace SearchGateway.Query

open SearchGateway.Text

namespace Pattern

inductive Token
  | any
  | one
  | literal (c : Char)
  deriving DecidableEq

/-- The characters by which a pattern language asks for any text and for any one character. -/
structure Signs where
  any : Char
  one : Char

def like : Signs := ⟨'%', '_'⟩

def backend : Signs := ⟨'*', '?'⟩

namespace Signs

/-- What a character stands for by itself. -/
def token (g : Signs) (c : Char) : Token :=
  if c = g.any then .any else if c = g.one then .one else .literal c

/-- The tokens of a pattern. A backslash at the end stands for itself. -/
def tokens (g : Signs) : List Char → List Token
  | [] => []
  | ['\\'] => [.literal '\\']
  | '\\' :: c :: cs => .literal c :: tokens g cs
  | c :: cs => g.token c :: tokens g cs

theorem tokens_escape (g : Signs) (c : Char) (cs : List Char) :
    g.tokens ('\\' :: c :: cs) = .literal c :: g.tokens cs := by
  rw [tokens]

theorem tokens_cons (g : Signs) {c : Char} (h : c ≠ '\\') (cs : List Char) :
    g.tokens (c :: cs) = g.token c :: g.tokens cs := by
  rw [tokens]
  · rintro rfl
    exact absurd rfl h
  · rintro _ _ rfl
    exact absurd rfl h

end Signs

/-- A text that a sequence of tokens matches from its beginning to its end. -/
inductive Matches : List Token → List Char → Prop where
  | nil : Matches [] []
  | any {ts : List Token} {s : List Char} (front : List Char) :
      Matches ts s → Matches (.any :: ts) (front ++ s)
  | one {ts : List Token} {s : List Char} (c : Char) :
      Matches ts s → Matches (.one :: ts) (c :: s)
  | literal {ts : List Token} {s : List Char} {c : Char} :
      Matches ts s → Matches (.literal c :: ts) (c :: s)

theorem Matches.count_literal_le {ts : List Token} {s : List Char} (h : Matches ts s) (c : Char) :
    ts.count (.literal c) ≤ s.count c := by
  induction h with
  | nil => exact Nat.le_refl 0
  | any front _ ih =>
    rw [List.count_cons_of_ne (by simp), List.count_append]
    omega
  | one d _ ih =>
    rw [List.count_cons_of_ne (by simp)]
    exact ih.trans List.count_le_count_cons
  | @literal ts s d _ ih =>
    rw [List.count_cons, List.count_cons]
    simp only [beq_iff_eq, Token.literal.injEq]
    omega

/-! ### Swapping the signs -/

namespace Signs

variable (g : Signs)

theorem token_of_ne {c : Char} (hany : c ≠ g.any) (hone : c ≠ g.one) : g.token c = .literal c := by
  rw [token, if_neg hany, if_neg hone]

/-- A character that is no sign stands for itself wherever it occurs, escaped or not. -/
theorem count_literal_tokens {c : Char} (hany : c ≠ g.any) (hone : c ≠ g.one) (hback : c ≠ '\\')
    (cs : List Char) : (g.tokens cs).count (.literal c) = cs.count c := by
  fun_induction tokens g cs with
  | case1 => rfl
  | case2 => simp [Ne.symm hback]
  | case3 d cs ih =>
    rw [List.count_cons, List.count_cons_of_ne (Ne.symm hback), List.count_cons, ih]
    simp
  | case4 d cs _ _ ih =>
    rw [List.count_cons, List.count_cons, ih]
    by_cases hd : d = c
    · rw [hd, g.token_of_ne hany hone]
      simp
    · have hne : g.token d ≠ .literal c := by
        unfold token
        split
        · exact Token.noConfusion
        · split
          · exact Token.noConfusion
          · simpa using hd
      simp [hne, hd]

end Signs

theorem tokens_swapWildcards (cs : List Char) :
    backend.tokens (swapWildcards cs) = like.tokens cs := by
  fun_induction swapWildcards cs with
  | case1 => rfl
  | case2 => rfl
  | case3 c cs hc ih =>
    -- An escaped sign of `LIKE` is no sign of the backend, so its escape can go.
    rw [like.tokens_escape, ← ih]
    rcases hc with rfl | rfl <;> exact backend.tokens_cons (by decide) _
  | case4 c cs _ ih => rw [like.tokens_escape, backend.tokens_escape, ih]
  | case5 c cs _ _ hc ih =>
    rw [backend.tokens_escape, ih]
    rcases hc with rfl | rfl <;> rw [like.tokens_cons (by decide)] <;> rfl
  | case6 cs _ _ _ ih =>
    rw [backend.tokens_cons (by decide), like.tokens_cons (by decide), ih]
    rfl
  | case7 cs _ _ _ _ ih =>
    rw [backend.tokens_cons (by decide), like.tokens_cons (by decide), ih]
    rfl
  | case8 c cs hlone hescape hc hany hone ih =>
    have hback : c ≠ '\\' := by
      rintro rfl
      cases cs with
      | nil => exact hlone rfl rfl
      | cons d cs => exact hescape d cs rfl rfl
    rw [not_or] at hc
    rw [backend.tokens_cons hback, like.tokens_cons hback, ih, backend.token_of_ne hc.1 hc.2,
      like.token_of_ne hany hone]

/-! ### Line breaks -/

/-- The second pattern is the first with a line break for each backslash followed by `n`. -/
def LinesBroken (p q : List Char) : Prop :=
  ∃ parts : List (List Char), (∀ part ∈ parts, ¬ ['\\', 'n'] <:+: part) ∧
    p = joinChars ['\\', 'n'] parts ∧ q = joinChars ['\n'] parts

theorem breakLines_cons {c : Char} {cs : List Char} (h : c = '\\' → cs.head? ≠ some 'n') :
    breakLines (c :: cs) = c :: breakLines cs := by
  rw [breakLines]
  rintro cs' rfl rfl
  exact h rfl rfl

theorem breakLines_append {part rest : List Char} (hpart : ¬ ['\\', 'n'] <:+: part)
    (hrest : rest.head? ≠ some 'n') : breakLines (part ++ rest) = part ++ breakLines rest := by
  induction part with
  | nil => rfl
  | cons c part ih =>
    rw [List.cons_append, breakLines_cons, ih fun h => hpart (List.infix_cons h)]
    · rfl
    · rintro rfl
      cases part with
      | nil => exact hrest
      | cons d part =>
        intro hd
        cases hd
        exact hpart (List.prefix_append ['\\', 'n'] part).isInfix

theorem breakLines_joinChars {parts : List (List Char)}
    (h : ∀ part ∈ parts, ¬ ['\\', 'n'] <:+: part) :
    breakLines (joinChars ['\\', 'n'] parts) = joinChars ['\n'] parts := by
  induction parts with
  | nil => rfl
  | cons part parts ih =>
    obtain ⟨hpart, hparts⟩ := List.forall_mem_cons.1 h
    cases parts with
    | nil =>
      have hend := breakLines_append hpart (show ([] : List Char).head? ≠ some 'n' by simp)
      rwa [List.append_nil, breakLines, List.append_nil] at hend
    | cons part' parts =>
      rw [joinChars_cons_cons, joinChars_cons_cons, ← ih hparts, breakLines_append hpart (by simp)]
      rfl

theorem exists_parts (p : List Char) : ∃ part parts,
    (∀ x ∈ part :: parts, ¬ ['\\', 'n'] <:+: x) ∧ p = joinChars ['\\', 'n'] (part :: parts) := by
  fun_induction breakLines p with
  | case1 => exact ⟨[], [], by simp, rfl⟩
  | case2 cs ih =>
    obtain ⟨part, parts, hparts, rfl⟩ := ih
    exact ⟨[], part :: parts, List.forall_mem_cons.2 ⟨by simp, hparts⟩, rfl⟩
  | case3 c cs hne ih =>
    obtain ⟨part, parts, hparts, rfl⟩ := ih
    obtain ⟨hpart, hmore⟩ := List.forall_mem_cons.1 hparts
    refine ⟨c :: part, parts, List.forall_mem_cons.2 ⟨fun hinfix => ?_, hmore⟩, ?_⟩
    · rcases List.infix_cons_iff.1 hinfix with hprefix | hinfix
      · obtain ⟨rfl, hn⟩ := List.cons_prefix_cons.1 hprefix
        obtain ⟨part', rfl⟩ := hn
        -- The part would begin with the `n` of a line break.
        cases parts <;> exact hne _ rfl rfl
      · exact hpart hinfix
    · cases parts <;> rfl

theorem linesBroken_iff {p q : List Char} : LinesBroken p q ↔ q = breakLines p := by
  constructor
  · rintro ⟨parts, hparts, rfl, rfl⟩
    exact (breakLines_joinChars hparts).symm
  · rintro rfl
    obtain ⟨part, parts, hparts, rfl⟩ := exists_parts p
    exact ⟨part :: parts, hparts, rfl, breakLines_joinChars hparts⟩

theorem count_breakLines {c : Char} (hback : c ≠ '\\') (hn : c ≠ 'n') (hbreak : c ≠ '\n')
    (cs : List Char) : (breakLines cs).count c = cs.count c := by
  fun_induction breakLines cs with
  | case1 => rfl
  | case2 cs ih =>
    rw [List.count_cons_of_ne (Ne.symm hbreak), List.count_cons_of_ne (Ne.symm hback),
      List.count_cons_of_ne (Ne.symm hn), ih]
  | case3 d cs _ ih => rw [List.count_cons, List.count_cons, ih]

end Pattern

open Pattern

/-- The wildcard pattern of a `LIKE` pattern matches the texts that the `LIKE` pattern does once
line breaks are put in. The signs of the backend are never signs in it: each of them has to be found
in the text. -/
theorem matches_wildcardOf (p : String) : ∃ q, (∀ q', LinesBroken p.toList q' ↔ q' = q) ∧
    ∀ t : String,
      (Matches (backend.tokens (wildcardOf p).toList) t.toList ↔ Matches (like.tokens q) t.toList) ∧
      (Matches (backend.tokens (wildcardOf p).toList) t.toList →
        p.toList.count '*' ≤ t.toList.count '*' ∧ p.toList.count '?' ≤ t.toList.count '?') := by
  have htokens : backend.tokens (wildcardOf p).toList = like.tokens (breakLines p.toList) := by
    rw [wildcardOf, String.toList_ofList, tokens_swapWildcards]
  refine ⟨breakLines p.toList, fun q' => linesBroken_iff, fun t => ?_⟩
  rw [htokens]
  refine ⟨Iff.rfl, fun hmatches => ?_⟩
  have hfound {c : Char} (hc : c = '*' ∨ c = '?') : p.toList.count c ≤ t.toList.count c := by
    calc p.toList.count c = (breakLines p.toList).count c := by
          symm
          rcases hc with rfl | rfl <;> exact count_breakLines (by decide) (by decide) (by decide) _
      _ = (like.tokens (breakLines p.toList)).count (.literal c) := by
          symm
          rcases hc with rfl | rfl <;>
            exact like.count_literal_tokens (by decide) (by decide) (by decide) _
      _ ≤ t.toList.count c := hmatches.count_literal_le c
  exact ⟨hfound (.inl rfl), hfound (.inr rfl)⟩

/-- Signs of both languages, some of them escaped, and a line break. -/
def signsSample : String := "5\\%*_\\n%"

theorem matches_wildcardOf_signs :
    Matches (backend.tokens (wildcardOf signsSample).toList) "5%*x\nend".toList ∧
      signsSample.toList.count '*' ≤ "5%*x\nend".toList.count '*' ∧
      ¬ Matches (backend.tokens (wildcardOf signsSample).toList) "5%yx\nend".toList := by
  have htokens : backend.tokens (wildcardOf signsSample).toList =
      [.literal '5', .literal '%', .literal '*', .one, .literal '\n', .any] := by decide +kernel
  have hmatches : Matches (backend.tokens (wildcardOf signsSample).toList) "5%*x\nend".toList := by
    rw [htokens]
    exact .literal (.literal (.literal (.one 'x' (.literal (.any "end".toList .nil)))))
  obtain ⟨q, -, hq⟩ := matches_wildcardOf signsSample
  exact ⟨hmatches, ((hq _).2 hmatches).1, fun h => absurd ((hq _).2 h).1 (by decide)⟩

end SearchGateway.Query
