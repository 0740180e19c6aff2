import Mathlib.Data.List.Nodup
import SearchGateway.Proofs.Filter.Fields

/-!
# Tables of spellings

A table is made by putting one spelling after the other at its place. Its order is strict and, texts
being distinct, total, so a table is determined by its members (`table_of_perm`). An alias that
begins another is shorter and stands after it, which is why the first alias of a table that stands
at the front of a text is the longest of all that do (`first?_table_eq_some_iff`), also where a word
is passed over because a name goes on after it.
-/

namespace SearchGateway.Filter

open SearchGateway.Text

namespace Alias

variable {ω : Type}

/-! ### The order of a table -/

theorem precedes_iff {a b : Alias ω} : a.precedes b = true ↔ byteLength b.text < byteLength a.text ∨
    byteLength a.text = byteLength b.text ∧ a.text < b.text := by
  simp [precedes]

theorem precedes_trans {a b c : Alias ω} (hab : a.precedes b = true) (hbc : b.precedes c = true) :
    a.precedes c = true := by
  rw [precedes_iff] at hab hbc ⊢
  rcases hab with hab | ⟨hab, hlt⟩
  · exact .inl (by omega)
  · rcases hbc with hbc | ⟨hbc, hlt'⟩
    · exact .inl (by omega)
    · exact .inr ⟨by omega, List.lt_trans hlt hlt'⟩

theorem precedes_asymm {a b : Alias ω} (hab : a.precedes b = true) : ¬ b.precedes a = true := by
  intro hba
  rw [precedes_iff] at hab hba
  rcases hab with hab | ⟨hab, hlt⟩
  · omega
  · rcases hba with hba | ⟨-, hlt'⟩
    · omega
    · exact List.lt_asymm hlt hlt'

theorem precedes_of_not_precedes {a b : Alias ω} (hne : a.text ≠ b.text)
    (h : ¬ a.precedes b = true) : b.precedes a = true := by
  rw [precedes_iff, not_or, not_and] at h
  rw [precedes_iff]
  rcases Nat.lt_or_ge (byteLength a.text) (byteLength b.text) with hlt | hge
  · exact .inl hlt
  · have heq : byteLength b.text = byteLength a.text := by omega
    rcases Std.lt_trichotomy a.text b.text with hlt | htext | hgt
    · exact absurd hlt (h.2 heq.symm)
    · exact absurd htext hne
    · exact .inr ⟨heq, hgt⟩

def Sorted (t : List (Alias ω)) : Prop := t.Pairwise fun a b => a.precedes b = true

/-- An alias that begins another has fewer bytes, so it comes later. -/
theorem Sorted.unhidden {t : List (Alias ω)} (ht : Sorted t) : Unhidden t := by
  refine ht.imp fun {a b} hab hbegins => ?_
  obtain ⟨more, hmore⟩ := hbegins
  have hbytes := byteLength_append a.text more
  rw [hmore] at hbytes
  rcases precedes_iff.1 hab with hlt | ⟨heq, hlt⟩
  · omega
  · have hnil : more = [] := byteLength_eq_zero_iff.1 (by omega)
    rw [hnil, List.append_nil] at hmore
    rw [hmore] at hlt
    exact List.lt_irrefl _ hlt

theorem eq_of_sorted_of_perm {t u : List (Alias ω)} (ht : Sorted t) (hu : Sorted u)
    (h : t.Perm u) : t = u :=
  h.eq_of_pairwise (fun _ _ _ _ hab hba => absurd hba (precedes_asymm hab)) ht hu

theorem insert_perm (a : Alias ω) (t : List (Alias ω)) : (insert a t).Perm (a :: t) := by
  induction t with
  | nil => exact .refl _
  | cons b t ih =>
    rw [insert]
    split
    · exact .refl _
    · exact (ih.cons b).trans (.swap a b t)

theorem Sorted.insert {t : List (Alias ω)} (ht : Sorted t) {a : Alias ω}
    (hnew : ∀ b ∈ t, b.text ≠ a.text) : Sorted (Alias.insert a t) := by
  induction t with
  | nil => exact List.pairwise_singleton ..
  | cons b t ih =>
    obtain ⟨hb, ht'⟩ := List.pairwise_cons.1 ht
    obtain ⟨hab, hnew'⟩ := List.forall_mem_cons.1 hnew
    rw [Alias.insert]
    split
    · next hbefore =>
      refine List.pairwise_cons.2 ⟨fun c hc => ?_, ht⟩
      rcases List.mem_cons.1 hc with rfl | hc
      · exact hbefore
      · exact precedes_trans hbefore (hb c hc)
    · next hafter =>
      refine List.pairwise_cons.2 ⟨fun c hc => ?_, ih ht' hnew'⟩
      rcases List.mem_cons.1 ((insert_perm a t).mem_iff.1 hc) with rfl | hc
      · exact precedes_of_not_precedes hab.symm hafter
      · exact hb c hc

/-! ### Making a table -/

/-- Spellings can be added if none is empty, none is in the table and none comes twice. -/
theorem exists_extend_iff {t : List (Alias ω)} {more : List (ω × List Char)} :
    (∃ u, extend t more = .ok u) ↔ (∀ x ∈ more, x.2 ≠ []) ∧
      (∀ x ∈ more, ∀ a ∈ t, a.text ≠ x.2) ∧ (more.map (·.2)).Nodup := by
  induction more generalizing t with
  | nil => simp [extend]
  | cons x more ih =>
    obtain ⟨op, text⟩ := x
    rw [extend, List.forall_mem_cons, List.forall_mem_cons, List.map_cons, List.nodup_cons]
    by_cases hempty : text = []
    · rw [if_pos hempty]
      exact iff_of_false (by simp) fun h => h.1.1 hempty
    rw [if_neg hempty]
    cases hfind : t.find? (·.text = text) with
    | some other =>
      have hmem := List.mem_of_find?_eq_some hfind
      have htext : other.text = text := by simpa using List.find?_some hfind
      exact iff_of_false (by simp) fun h => h.2.1.1 other hmem htext
    | none =>
      have hfresh : ∀ a ∈ t, a.text ≠ text := by simpa using hfind
      simp only [ih, (insert_perm _ t).mem_iff, List.forall_mem_cons]
      constructor
      · rintro ⟨hne, hnew, hnodup⟩
        refine ⟨⟨hempty, hne⟩, ⟨hfresh, fun x hx => (hnew x hx).2⟩, fun hmem => ?_, hnodup⟩
        obtain ⟨x, hx, htext⟩ := List.mem_map.1 hmem
        exact (hnew x hx).1 htext.symm
      · rintro ⟨⟨-, hne⟩, ⟨-, hnew⟩, htext, hnodup⟩
        refine ⟨hne, fun x hx => ⟨?_, hnew x hx⟩, hnodup⟩
        rintro rfl
        exact htext (List.mem_map_of_mem hx)

/-- Adding spellings keeps the order, and adds just these. -/
theorem sorted_and_perm_of_extend {t u : List (Alias ω)} (ht : Sorted t)
    {more : List (ω × List Char)} (h : extend t more = .ok u) :
    Sorted u ∧ u.Perm (more.map (fun x => ⟨x.2, x.1⟩) ++ t) := by
  induction more generalizing t with
  | nil =>
    cases h
    exact ⟨ht, .refl _⟩
  | cons x more ih =>
    obtain ⟨op, text⟩ := x
    rw [extend] at h
    split at h
    · cases h
    · split at h
      · cases h
      · next hfind =>
        have hfresh : ∀ a ∈ t, a.text ≠ text := by simpa using hfind
        obtain ⟨hu, hperm⟩ := ih (ht.insert hfresh) h
        refine ⟨hu, hperm.trans ?_⟩
        exact ((insert_perm _ t).append_left _).trans List.perm_middle

variable {spellings : List (ω × List String)} {t : List (Alias ω)}

/-- The alias is one of the given spellings. -/
def Registered (spellings : List (ω × List String)) (a : Alias ω) : Prop :=
  ∃ texts, (a.operator, texts) ∈ spellings ∧ ∃ text ∈ texts, text.toList = a.text

/-- There is a table exactly if no spelling is empty and none comes twice. -/
theorem exists_table_iff : (∃ t, table spellings = .ok t) ↔
    "" ∉ spellings.flatMap (·.2) ∧ (spellings.flatMap (·.2)).Nodup := by
  have htable : table spellings =
      extend [] (spellings.flatMap fun x => x.2.map fun s => (x.1, s.toList)) := rfl
  have htexts : (spellings.flatMap fun x => x.2.map fun s => (x.1, s.toList)).map (·.2) =
      (spellings.flatMap (·.2)).map String.toList := by
    simp [List.map_flatMap, Function.comp_def]
  rw [htable, exists_extend_iff, htexts,
    List.nodup_map_iff fun _ _ => String.toList_injective]
  refine and_congr ?_ ⟨fun h => h.2, fun h => ⟨by simp, h⟩⟩
  rw [← List.forall_mem_map (f := Prod.snd) (P := (· ≠ [])), htexts, List.forall_mem_map]
  constructor
  · intro h hmem
    exact h "" hmem rfl
  · intro h s hs hnil
    rw [String.toList_eq_nil_iff.1 hnil] at hs
    exact h hs

theorem sorted_and_perm_of_table (h : table spellings = .ok t) : Sorted t ∧
    t.Perm (spellings.flatMap fun x => x.2.map fun s => ⟨s.toList, x.1⟩) := by
  obtain ⟨hsorted, hperm⟩ := sorted_and_perm_of_extend List.Pairwise.nil h
  refine ⟨hsorted, ?_⟩
  simpa [List.map_flatMap, Function.comp_def] using hperm

theorem mem_table_of_eq_ok (h : table spellings = .ok t) {a : Alias ω} :
    a ∈ t ↔ Registered spellings a := by
  rw [(sorted_and_perm_of_table h).2.mem_iff, List.mem_flatMap]
  constructor
  · rintro ⟨⟨op, texts⟩, hx, ha⟩
    obtain ⟨s, hs, rfl⟩ := List.mem_map.1 ha
    exact ⟨texts, hx, s, hs, rfl⟩
  · rintro ⟨texts, hx, s, hs, htext⟩
    exact ⟨_, hx, List.mem_map.2 ⟨s, hs, by rw [htext]⟩⟩

/-- The order in which the operators are given does not matter. -/
theorem table_of_perm {other : List (ω × List String)} (hperm : other.Perm spellings)
    (h : table spellings = .ok t) : table other = .ok t := by
  have htexts := hperm.flatMap_right (·.2)
  obtain ⟨hempty, hnodup⟩ := exists_table_iff.1 ⟨t, h⟩
  obtain ⟨u, hu⟩ := exists_table_iff.2
    ⟨fun hmem => hempty (htexts.mem_iff.1 hmem), htexts.nodup_iff.2 hnodup⟩
  obtain ⟨ht, hmembers⟩ := sorted_and_perm_of_table h
  obtain ⟨hu', hmembers'⟩ := sorted_and_perm_of_table hu
  rw [hu, eq_of_sorted_of_perm hu' ht
    (hmembers'.trans ((hperm.flatMap_right _).trans hmembers.symm))]

/-! ### Finding an alias -/

/-- The alias is allowed and stands at the front of `s`, and no other that does has more bytes. -/
def Longest (allowed : Alias ω → Prop) (s : List Char) (a : Alias ω) (rest : List Char) : Prop :=
  allowed a ∧ a.Stands s rest ∧
    ∀ b, allowed b → ∀ r, b.Stands s r → byteLength b.text ≤ byteLength a.text

theorem Stands.isPrefix_iff_byteLength {a b : Alias ω} {s rest r : List Char}
    (ha : a.Stands s rest) (hb : b.Stands s r) :
    b.text <+: a.text ↔ byteLength b.text ≤ byteLength a.text := by
  constructor
  · rintro ⟨more, hmore⟩
    rw [← hmore, byteLength_append]
    omega
  · intro hle
    rcases List.prefix_or_prefix_of_prefix hb.isPrefix ha.isPrefix with hbegins | ⟨more, hmore⟩
    · exact hbegins
    · rw [← hmore, byteLength_append] at hle
      have hnil : more = [] := byteLength_eq_zero_iff.1 (by omega)
      rw [hnil, List.append_nil] at hmore
      exact hmore ▸ List.prefix_rfl

theorem first?_table_eq_some_iff (h : table spellings = .ok t) {s : List Char} {a : Alias ω}
    {rest : List Char} :
    first? t s = some (a, rest) ↔ Longest (Registered spellings) s a rest := by
  rw [first?_eq_some_iff_of_unhidden (sorted_and_perm_of_table h).1.unhidden, Longest]
  simp only [mem_table_of_eq_ok h]
  refine and_congr_right fun _ => and_congr_right fun ha => ?_
  exact forall₂_congr fun b _ => forall₂_congr fun r hr => ha.isPrefix_iff_byteLength hr

theorem first?_table_eq_none_iff (h : table spellings = .ok t) {s : List Char} :
    first? t s = none ↔ ∀ a, Registered spellings a → ∀ rest, ¬ a.Stands s rest := by
  rw [first?_eq_none_iff]
  simp only [mem_table_of_eq_ok h]

end Alias

/-! ### Operators on their own -/

/-- The word with layout around it. -/
def Padded (word s : List Char) : Prop :=
  ∃ front back, front ++ back ⊆ layout ∧ s = front ++ word ++ back

theorem padded_iff {word s : List Char} :
    Padded word s ↔ ∃ back, Skips s (word ++ back) ∧ Skips back [] := by
  constructor
  · rintro ⟨front, back, hlayout, rfl⟩
    obtain ⟨hfront, hback⟩ := List.append_subset.1 hlayout
    exact ⟨back, ⟨front, hfront, List.append_assoc ..⟩, back, hback, (List.append_nil _).symm⟩
  · rintro ⟨-, ⟨front, hfront, rfl⟩, back, hback, rfl⟩
    refine ⟨front, back, List.append_subset.2 ⟨hfront, hback⟩, ?_⟩
    rw [List.append_nil, List.append_assoc]

theorem parseOperator_eq_ok_iff_first? {ω : Type} {t : List (Alias ω)} {missing : Problem}
    {input : String} {op : ω} : parseOperator t missing input = .ok op ↔
      ∃ a rest, Alias.first? t (skipLayout input.toList) = some (a, rest) ∧
        skipLayout rest = [] ∧ a.operator = op := by
  rw [parseOperator]
  cases Alias.first? t (skipLayout input.toList) with
  | none => simp
  | some found =>
    obtain ⟨a, rest⟩ := found
    dsimp only
    constructor
    · intro h
      split at h
      · next hrest =>
        cases h
        exact ⟨a, rest, rfl, hrest, rfl⟩
      · cases h
    · rintro ⟨a', rest', hfound, hrest, rfl⟩
      cases hfound
      rw [hrest]

/-- Layout neither goes on with a name nor begins an alias of visible characters. -/
theorem longest_of_skips {ω : Type} {allowed : Alias ω → Prop}
    (hvisible : ∀ b, allowed b → ∀ c ∈ b.text, isLayout c = false) {a : Alias ω} (ha : allowed a)
    {back : List Char} (hback : Skips back []) : a.Longest allowed (a.text ++ back) back := by
  refine ⟨ha, ⟨rfl, fun _ => hback.stops.isNamePart⟩, fun b hb r hr => ?_⟩
  rcases List.prefix_or_prefix_of_prefix hr.isPrefix (List.prefix_append a.text back) with
    ⟨more, hmore⟩ | ⟨more, hmore⟩
  · rw [← hmore, byteLength_append]
    omega
  · -- What `b` has beyond `a` would be layout.
    have hbegins : more <+: back := (List.prefix_append_right_inj a.text).1 (hmore ▸ hr.isPrefix)
    obtain ⟨blanks, hblanks, rfl⟩ := hback
    rw [List.append_nil] at hbegins
    have hnil : more = [] := List.eq_nil_iff_forall_not_mem.2 fun c hc => by
      have hno := hvisible b hb c (hmore ▸ List.mem_append_right _ hc)
      rw [isLayout_iff.2 (hblanks (hbegins.subset hc))] at hno
      cases hno
    rw [← hmore, hnil, List.append_nil]

/-- A text is read as an operator if it is one of its spellings with layout around it. -/
theorem parseOperator_table_eq_ok_iff {ω : Type} {spellings : List (ω × List String)}
    {t : List (Alias ω)} (ht : Alias.table spellings = .ok t)
    (hvisible : ∀ a, Alias.Registered spellings a → ∀ c ∈ a.text, isLayout c = false)
    {missing : Problem} {input : String} {op : ω} : parseOperator t missing input = .ok op ↔
      ∃ a, Alias.Registered spellings a ∧ a.operator = op ∧ Padded a.text input.toList := by
  simp only [parseOperator_eq_ok_iff_first?, Alias.first?_table_eq_some_iff ht, padded_iff]
  constructor
  · rintro ⟨a, rest, ⟨ha, ⟨hstand, -⟩, -⟩, hrest, hop⟩
    exact ⟨a, ha, hop, rest, hstand ▸ skips_skipLayout _, skips_nil_iff.2 hrest⟩
  · rintro ⟨a, ha, hop, back, hfront, hback⟩
    have hne : a.text ≠ [] := by
      intro hnil
      obtain ⟨texts, hx, s, hs, htext⟩ := ha
      rw [hnil, String.toList_eq_nil_iff] at htext
      exact (Alias.exists_table_iff.1 ⟨t, ht⟩).1 (List.mem_flatMap.2 ⟨_, hx, htext ▸ hs⟩)
    refine ⟨a, back, ?_, skips_nil_iff.1 hback, hop⟩
    obtain ⟨c, cs, hcs⟩ := List.exists_cons_of_ne_nil hne
    have hc := hvisible a ha c (hcs ▸ List.mem_cons_self)
    have hskip : skipLayout input.toList = a.text ++ back := by
      rw [hcs, List.cons_append] at hfront ⊢
      exact hfront.skipLayout_cons hc
    rw [hskip]
    exact longest_of_skips hvisible ha hback

theorem table_connectives :
    Alias.table (Connective.all.map fun c => (c, c.aliases)) = .ok connectiveTable := by
  obtain ⟨t, ht⟩ := Alias.exists_table_iff.2
    (show "" ∉ (Connective.all.map fun c => (c, c.aliases)).flatMap (·.2) ∧ _ by decide)
  rw [connectiveTable, ht]
  rfl

theorem table_relations :
    Alias.table (Relation.all.map fun r => (r, r.aliases)) = .ok relationTable := by
  obtain ⟨t, ht⟩ := Alias.exists_table_iff.2
    (show "" ∉ (Relation.all.map fun r => (r, r.aliases)).flatMap (·.2) ∧ _ by decide)
  rw [relationTable, ht]
  rfl

/-- One of the spellings, with layout around it. -/
def SpelledBy (aliases : List String) (s : List Char) : Prop :=
  ∃ text ∈ aliases, Padded text.toList s

section operators

variable {ω : Type} {all : List ω} {aliases : ω → List String}

theorem registered_map_iff (hall : ∀ op, op ∈ all ∨ aliases op = []) {a : Alias ω} :
    Alias.Registered (all.map fun op => (op, aliases op)) a ↔
      ∃ text ∈ aliases a.operator, text.toList = a.text := by
  constructor
  · rintro ⟨texts, hx, text, htext, heq⟩
    obtain ⟨op, -, hop⟩ := List.mem_map.1 hx
    cases hop
    exact ⟨text, htext, heq⟩
  · rintro ⟨text, htext, heq⟩
    have hop : a.operator ∈ all := (hall _).resolve_right (List.ne_nil_of_mem htext)
    exact ⟨_, List.mem_map.2 ⟨_, hop, rfl⟩, text, htext, heq⟩

theorem parseOperator_eq_ok_iff {t : List (Alias ω)}
    (ht : Alias.table (all.map fun op => (op, aliases op)) = .ok t)
    (hall : ∀ op, op ∈ all ∨ aliases op = [])
    (hvisible : ∀ a ∈ t, a.text.all (fun c => !isLayout c) = true) {missing : Problem}
    {input : String} {op : ω} :
    parseOperator t missing input = .ok op ↔ SpelledBy (aliases op) input.toList := by
  rw [parseOperator_table_eq_ok_iff ht fun a ha c hc => by
    simpa using List.all_eq_true.1 (hvisible a ((Alias.mem_table_of_eq_ok ht).2 ha)) c hc]
  simp only [registered_map_iff hall]
  constructor
  · rintro ⟨a, ⟨text, htext, heq⟩, rfl, hpadded⟩
    exact ⟨text, htext, heq ▸ hpadded⟩
  · rintro ⟨text, htext, hpadded⟩
    exact ⟨⟨text.toList, op⟩, ⟨text, htext, rfl⟩, rfl, hpadded⟩

end operators

theorem Connective.parse_eq_ok_iff {input : String} {op : Connective} :
    Connective.parse input = .ok op ↔ SpelledBy op.aliases input.toList :=
  parseOperator_eq_ok_iff table_connectives (fun op => by cases op <;> decide) (by decide)

theorem Relation.parse_eq_ok_iff {input : String} {op : Relation} :
    Relation.parse input = .ok op ↔ SpelledBy op.aliases input.toList :=
  parseOperator_eq_ok_iff table_relations (fun op => by cases op <;> decide) (by decide)

/-- Spellings make a table unless one is empty or comes twice, and it is the same table in whatever
order the operators are given. At the front of any text it finds the longest registered alias that
stands there, and none only if none does. An operator on its own is therefore read from its
spellings with layout around them, and from nothing else. -/
theorem table_finds_longest {ω : Type} (spellings : List (ω × List String)) :
    ((∃ f, Alias.table spellings = .error f) ↔
      "" ∈ spellings.flatMap (·.2) ∨ ¬ (spellings.flatMap (·.2)).Nodup) ∧
    (∀ t, Alias.table spellings = .ok t →
      (∀ other, other.Perm spellings → Alias.table other = .ok t) ∧
      ∀ s, (∀ a rest, Alias.first? t s = some (a, rest) ↔
          a.Longest (Alias.Registered spellings) s rest) ∧
        (Alias.first? t s = none ↔
          ∀ a, Alias.Registered spellings a → ∀ rest, ¬ a.Stands s rest)) ∧
    (∀ input op, Connective.parse input = .ok op ↔ SpelledBy op.aliases input.toList) ∧
    ∀ input op, Relation.parse input = .ok op ↔ SpelledBy op.aliases input.toList := by
  refine ⟨?_, fun t ht => ⟨fun other hperm => Alias.table_of_perm hperm ht, fun s => ?_⟩,
    fun input op => Connective.parse_eq_ok_iff, fun input op => Relation.parse_eq_ok_iff⟩
  · rw [exists_error_iff, Alias.exists_table_iff, not_and_or, not_not]
  · exact ⟨fun a rest => Alias.first?_table_eq_some_iff ht, Alias.first?_table_eq_none_iff ht⟩

/-- Spellings that begin one another. -/
def overlapping : List (Nat × List String) := [(1, ["IN", "!"]), (2, ["INSIDE", "!=", "=="])]

theorem table_finds_longest_overlapping : ∃ t, Alias.table overlapping = .ok t ∧
    Alias.table overlapping.reverse = .ok t ∧
    Alias.Longest (Alias.Registered overlapping) "INSIDE(".toList ⟨"INSIDE".toList, 2⟩ ['('] ∧
    ∀ a, Alias.Registered overlapping a → ∀ rest, ¬ a.Stands "INSIDER".toList rest := by
  obtain ⟨hperm, hfinds⟩ := (table_finds_longest overlapping).2.1 _ rfl
  refine ⟨_, rfl, hperm _ (List.reverse_perm _), ((hfinds _).1 _ _).1 ?_, (hfinds _).2.1 ?_⟩
  · decide
  · decide

end SearchGateway.Filter
