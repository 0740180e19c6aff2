import Mathlib.Data.List.Forall2
import SearchGateway.Ordering
import SearchGateway.Proofs.Filter.Fields

/-!
# Written orderings

`Clause.Spells` gives the ways to write a clause: the name of its field, a word for the direction
or, for an ascending one, none, and blanks around these. A clause is read exactly from a text that
spells it (`Clause.parse_eq_ok_iff`). An ordering is read from the texts of its clauses joined by
commas, and what is read has a clause for each part between commas (`parse_join_and_split`).
-/

namespace SearchGateway

open SearchGateway.Text

namespace Ordering

/-- The word for a direction. -/
def directionWord (ascending : Bool) : String := if ascending then "ASC" else "DESC"

theorem ascending?_eq_some_iff {word : String} {ascending : Bool} :
    ascending? word = some ascending ↔ word = directionWord ascending := by
  unfold ascending?
  constructor
  · intro h
    split at h
    · next he => cases h; exact he
    · split at h
      · next he => cases h; exact he
      · cases h
  · rintro rfl
    cases ascending <;> decide

theorem isWord_directionWord (ascending : Bool) : IsWord (directionWord ascending).toList := by
  have hall : (directionWord ascending).toList.all (!isBlank ·) = true := by
    cases ascending <;> decide
  refine ⟨by cases ascending <;> decide, fun c hc => ?_⟩
  simpa using List.all_eq_true.1 hall c hc

namespace Clause

/-- The ways to lay a clause out. Without a direction it is ascending. -/
inductive Layout (c : Clause) : List Char → Prop where
  | bare {front back : List Char} : Blanks front → Blanks back → c.ascending = true →
      Layout c (front ++ (c.field.name.toList ++ back))
  | directed {front gap back : List Char} : Blanks front → Blanks gap → gap ≠ [] → Blanks back →
      Layout c (front ++ (c.field.name.toList ++
        (gap ++ ((directionWord c.ascending).toList ++ back))))

/-- The text is a way to write the clause. -/
def Spells (text : String) (c : Clause) : Prop := c.field.Plain ∧ c.Layout text.toList

theorem ofField_eq_ok_iff {name : String} (hname : IsWord name.toList) {ascending : Bool}
    {c : Clause} : Clause.ofField name ascending = .ok c ↔
      c.field.Plain ∧ c.field.name = name ∧ c.ascending = ascending := by
  unfold Clause.ofField
  constructor
  · intro h
    split at h
    · cases h
    · next f hf =>
      split at h
      · cases h
      · next hneg =>
        cases h
        obtain ⟨hplain, hname⟩ := (Filter.Field.parse_of_isWord hname).1 ⟨hf, by simpa using hneg⟩
        exact ⟨hplain, hname, rfl⟩
  · rintro ⟨hplain, he, rfl⟩
    obtain ⟨hf, hneg⟩ := (Filter.Field.parse_of_isWord hname).2 ⟨hplain, he⟩
    rw [hf]
    simp only [hneg, Bool.false_eq_true, if_false]

/-- A clause is read exactly from the texts that spell it. -/
theorem parse_eq_ok_iff {text : String} {c : Clause} :
    Clause.parse text = .ok c ↔ Spells text c := by
  constructor
  · intro h
    cases hwords : wordsChars text.toList with
    | nil =>
      rw [Clause.parse, words, hwords] at h
      cases h
    | cons w ws =>
      obtain ⟨front, rest, hfront, hw, hbreaks, htext, hws⟩ := wordsChars_eq_cons_iff.1 hwords
      have hname : IsWord (String.ofList w).toList := by rwa [String.toList_ofList]
      rw [Clause.parse, words, hwords, List.map_cons] at h
      cases ws with
      | nil =>
        obtain ⟨hplain, hfield, hasc⟩ := (ofField_eq_ok_iff hname).1 h
        refine ⟨hplain, ?_⟩
        rw [htext, ← String.toList_ofList (l := w), ← hfield]
        exact .bare hfront (wordsChars_eq_nil_iff.1 hws) hasc
      | cons v vs =>
        obtain ⟨gap, back, hgap, hword, -, rfl, hvs⟩ := wordsChars_eq_cons_iff.1 hws
        cases vs with
        | nil =>
          simp only [List.map_cons, List.map_nil] at h
          split at h
          · next ascending hasc =>
            obtain ⟨hplain, hfield, rfl⟩ := (ofField_eq_ok_iff hname).1 h
            have hv := ascending?_eq_some_iff.1 hasc
            refine ⟨hplain, ?_⟩
            rw [htext, ← String.toList_ofList (l := w), ← String.toList_ofList (l := v), ← hfield,
              hv]
            refine .directed hfront hgap (fun hnil => ?_) (wordsChars_eq_nil_iff.1 hvs)
            rw [hnil] at hbreaks
            exact hword.not_breaks_append back hbreaks
          · cases h
        | cons u us => cases h
  · rintro ⟨hplain, hlayout⟩
    have hname := hplain.isWord_name
    rw [Clause.parse, words]
    generalize text.toList = s at hlayout
    cases hlayout with
    | bare hfront hback hasc =>
      rw [wordsChars_append_left hfront, wordsChars_append_of_isWord hname hback.breaks,
        wordsChars_of_blanks hback, List.map_singleton, String.ofList_toList]
      exact (ofField_eq_ok_iff hname).2 ⟨hplain, rfl, hasc⟩
    | directed hfront hgap hne hback =>
      have hdirection := isWord_directionWord c.ascending
      rw [wordsChars_append_left hfront,
        wordsChars_append_of_isWord hname (hgap.breaks_append hne _), wordsChars_append_left hgap,
        wordsChars_append_of_isWord hdirection hback.breaks, wordsChars_of_blanks hback,
        List.map_cons, List.map_singleton, String.ofList_toList, String.ofList_toList]
      simp only [ascending?_eq_some_iff.2 rfl]
      exact (ofField_eq_ok_iff hname).2 ⟨hplain, rfl, rfl⟩

theorem Spells.not_mem {text : String} {c : Clause} (h : Spells text c) : ',' ∉ text.toList := by
  obtain ⟨hplain, hlayout⟩ := h
  have hblanks {s : List Char} (hs : Blanks s) : ',' ∉ s := fun hc => absurd (hs _ hc) (by decide)
  have hname : ',' ∉ c.field.name.toList := fun hc =>
    absurd (hplain.isPath.isPathPart _ hc) (by decide)
  have hdirection : ',' ∉ (directionWord c.ascending).toList := by
    cases c.ascending <;> decide
  generalize text.toList = s at hlayout
  cases hlayout with
  | bare hfront hback _ => simp [hblanks hfront, hblanks hback, hname]
  | directed hfront hgap _ hback =>
    simp [hblanks hfront, hblanks hgap, hblanks hback, hname, hdirection]

end Clause

theorem parseClauses_eq_ok_iff {seen : List (List String)} {texts : List String}
    {cs : List Clause} : parseClauses seen texts = .ok cs ↔
      List.Forall₂ Clause.Spells texts cs ∧ (cs.map fun c => c.field.path).Nodup ∧
        ∀ c ∈ cs, c.field.path ∉ seen := by
  induction texts generalizing seen cs with
  | nil =>
    rw [parseClauses]
    constructor
    · intro h
      cases h
      exact ⟨.nil, List.nodup_nil, List.forall_mem_nil _⟩
    · rintro ⟨h, -, -⟩
      cases h
      rfl
  | cons text texts ih =>
    rw [parseClauses, bind_eq_ok_iff]
    constructor
    · rintro ⟨c, hc, h⟩
      split at h
      · cases h
      · next hseen =>
        obtain ⟨more, hmore, h⟩ := bind_eq_ok_iff.1 h
        cases h
        obtain ⟨hspells, hnodup, hfresh⟩ := ih.1 hmore
        refine ⟨.cons (Clause.parse_eq_ok_iff.1 hc) hspells, ?_, ?_⟩
        · refine List.nodup_cons.2 ⟨fun hmem => ?_, hnodup⟩
          obtain ⟨d, hd, he⟩ := List.mem_map.1 hmem
          exact hfresh d hd (he ▸ List.mem_cons_self)
        · refine List.forall_mem_cons.2 ⟨hseen, fun d hd hin => ?_⟩
          exact hfresh d hd (List.mem_cons_of_mem _ hin)
    · rintro ⟨hspells, hnodup, hfresh⟩
      cases hspells with
      | cons hc hspells =>
        obtain ⟨hfirst, hnodup⟩ := List.nodup_cons.1 hnodup
        obtain ⟨hseen, hfresh⟩ := List.forall_mem_cons.1 hfresh
        refine ⟨_, Clause.parse_eq_ok_iff.2 hc, ?_⟩
        rw [if_neg hseen]
        refine bind_eq_ok_iff.2 ⟨_, ih.2 ⟨hspells, hnodup, fun d hd hin => ?_⟩, rfl⟩
        rcases List.mem_cons.1 hin with he | hin
        · exact hfirst (List.mem_map.2 ⟨d, hd, he⟩)
        · exact hfresh d hd hin

/-- The parts between the commas are the texts of the clauses. -/
theorem split_join_of_spells {texts : List String} {cs : List Clause} (hne : texts ≠ [])
    (h : List.Forall₂ Clause.Spells texts cs) : split ',' (join "," texts) = texts := by
  have hcommas : ∀ text ∈ texts, ',' ∉ text.toList :=
    ((List.forall₂_and_left _ _).1 (h.imp fun _ _ hc => ⟨hc.not_mem, hc⟩)).1
  rw [split_join hne, flatMap_split_of_not_mem hcommas]

theorem isBlankText_join_of_spells {texts : List String} {cs : List Clause} (hne : texts ≠ [])
    (h : List.Forall₂ Clause.Spells texts cs) : isBlankText (join "," texts) = false := by
  -- A blank text has no commas, so it would be the text of one clause.
  rw [Bool.eq_false_iff]
  intro hblank
  have hsplit := split_join_of_spells hne h
  have hcomma : ',' ∉ (join "," texts).toList := fun hc =>
    absurd (List.all_eq_true.1 hblank _ hc) (by decide)
  rw [split_of_not_mem hcomma] at hsplit
  cases h with
  | nil => exact hne rfl
  | cons hc _ =>
    rw [← (List.cons.inj hsplit).1, ← Clause.parse_eq_ok_iff, Clause.parse,
      words_of_isBlankText hblank] at hc
    cases hc

/-- Clauses on distinct fields are read from any texts that spell them, joined by commas. What is
read, from any text, has a clause for each part between commas, in order and on distinct fields, and
is empty only if the text is blank. -/
theorem parse_join_and_split :
    (∀ {texts : List String} {cs : List Clause}, List.Forall₂ Clause.Spells texts cs →
      (cs.map fun c => c.field.path).Nodup → parse (join "," texts) = .ok cs) ∧
    ∀ {input : String} {cs : List Clause}, parse input = .ok cs →
      (cs.map fun c => c.field.path).Nodup ∧ (cs = [] ↔ isBlankText input = true) ∧
        (cs ≠ [] → List.Forall₂ Clause.Spells (split ',' input) cs) := by
  refine ⟨fun {texts cs} hspells hnodup => ?_, fun {input cs} h => ?_⟩
  · cases texts with
    | nil =>
      cases hspells
      rfl
    | cons text more =>
      have hne := List.cons_ne_nil text more
      rw [parse, isBlankText_join_of_spells hne hspells, if_neg Bool.false_ne_true,
        split_join_of_spells hne hspells]
      exact parseClauses_eq_ok_iff.2 ⟨hspells, hnodup, fun _ _ => List.not_mem_nil⟩
  · unfold parse at h
    cases hblank : isBlankText input with
    | true =>
      rw [hblank, if_pos rfl] at h
      cases h
      exact ⟨List.nodup_nil, by simp, fun hne => absurd rfl hne⟩
    | false =>
      rw [hblank, if_neg Bool.false_ne_true] at h
      obtain ⟨hspells, hnodup, -⟩ := parseClauses_eq_ok_iff.1 h
      refine ⟨hnodup, ⟨fun hnil => ?_, fun he => (by cases he)⟩, fun _ => hspells⟩
      rw [hnil] at hspells
      have hparts := List.map_eq_nil_iff.1 (List.forall₂_nil_right_iff.1 hspells)
      exact absurd hparts (splitChars_ne_nil ',' input.toList)

def cheapest : Clause where
  field := ⟨["price"], false⟩
  ascending := false

def byCity : Clause where
  field := ⟨["address", "city"], false⟩

theorem spells_cheapest : Clause.Spells "\tprice  DESC" cheapest := by
  have htext : "\tprice  DESC".toList = ['\t'] ++ (cheapest.field.name.toList ++
      ([' ', ' '] ++ ((directionWord cheapest.ascending).toList ++ []))) := by decide
  refine ⟨⟨by decide, by decide, by decide, rfl⟩, ?_⟩
  rw [htext]
  exact .directed (List.forall_mem_singleton.2 rfl) (List.all_eq_true.1 rfl) (by decide)
    (List.forall_mem_nil _)

theorem spells_byCity : Clause.Spells "address.city " byCity := by
  have htext : "address.city ".toList = [] ++ (byCity.field.name.toList ++ [' ']) := by decide
  refine ⟨⟨by decide, by decide, by decide, rfl⟩, ?_⟩
  rw [htext]
  exact .bare (List.forall_mem_nil _) (List.forall_mem_singleton.2 rfl) rfl

theorem parse_join_and_split_cheapest :
    parse (join "," ["\tprice  DESC", "address.city "]) = .ok [cheapest, byCity] ∧
      List.Forall₂ Clause.Spells (split ',' "\tprice  DESC,address.city ") [cheapest, byCity] := by
  have hparse : parse (join "," ["\tprice  DESC", "address.city "]) = .ok [cheapest, byCity] :=
    parse_join_and_split.1 (.cons spells_cheapest (.cons spells_byCity .nil)) (by decide)
  exact ⟨hparse, (parse_join_and_split.2 hparse).2.2 (by decide)⟩

end Ordering

end SearchGateway
