import Mathlib.Data.List.Induction
import Mathlib.Data.List.Nodup
import Mathlib.Data.List.Perm.Basic
import SearchGateway.Text.NameSet

/-!
# Members of sets of names

A set of names is known by its members (`NameSet.ext`), so whatever is made from a list of names by
way of a set does not depend on their order or on how often each is named. Where the order counts, a
list of names keeps the first of those that are equal (`Text.eraseDups_concat`).
-/

namespace SearchGateway

namespace Text

theorem eraseDups_concat (l : List String) (a : String) :
    (l ++ [a]).eraseDups = if a ∈ l then l.eraseDups else l.eraseDups ++ [a] := by
  rw [List.eraseDups_append]
  split
  · next h => simp [List.removeAll, h]
  · next h => simp [List.removeAll, h, List.eraseDups_cons]

theorem nodup_eraseDups (l : List String) : l.eraseDups.Nodup := by
  induction l using List.reverseRecOn with
  | nil => simp
  | append_singleton l a ih =>
    rw [eraseDups_concat]
    split
    · exact ih
    · next h =>
      rw [← List.concat_eq_append]
      exact ih.concat (mt List.mem_eraseDups.1 h)

/-- Names that are left out in a part are left out in the whole. -/
theorem eraseDups_append_eraseDups (l l' : List String) :
    (l.eraseDups ++ l'.eraseDups).eraseDups = (l ++ l').eraseDups := by
  have hright : ∀ l l' : List String, (l ++ l'.eraseDups).eraseDups = (l ++ l').eraseDups := by
    intro l l'
    induction l' using List.reverseRecOn with
    | nil => rw [List.eraseDups_nil]
    | append_singleton l' a ih =>
      rw [eraseDups_concat, ← List.append_assoc, eraseDups_concat]
      by_cases h : a ∈ l'
      · rw [if_pos h, if_pos (List.mem_append_right l h), ih]
      · rw [if_neg h, ← List.append_assoc, eraseDups_concat, ih]
        simp only [List.mem_append, List.mem_eraseDups]
  rw [hright]
  induction l' using List.reverseRecOn with
  | nil => simpa using hright [] l
  | append_singleton l' a ih =>
    rw [← List.append_assoc, ← List.append_assoc, eraseDups_concat, eraseDups_concat, ih]
    simp only [List.mem_append, List.mem_eraseDups]

end Text

namespace NameSet

theorem mem_insertMany {s : NameSet} {names : List String} {a : String} :
    a ∈ s.insertMany names ↔ a ∈ s ∨ a ∈ names := by
  induction names generalizing s with
  | nil => simp [insertMany]
  | cons name names ih =>
    have hstep : s.insertMany (name :: names) = (s.insert name).insertMany names := rfl
    rw [hstep, ih, mem_insert, List.mem_cons]
    tauto

theorem mem_eraseMany {s : NameSet} {names : List String} {a : String} :
    a ∈ s.eraseMany names ↔ a ∈ s ∧ a ∉ names := by
  induction names generalizing s with
  | nil => simp [eraseMany]
  | cons name names ih =>
    have hstep : s.eraseMany (name :: names) = (s.erase name).eraseMany names := rfl
    rw [hstep, ih, mem_erase, List.mem_cons]
    tauto

theorem mem_ofList {names : List String} {a : String} : a ∈ ofList names ↔ a ∈ names := by
  rw [ofList, mem_insertMany]
  exact or_iff_right List.not_mem_nil

theorem nodup_toList (s : NameSet) : s.toList.Nodup := by
  refine s.ascending.imp ?_
  rintro a _ hlt rfl
  exact String.lt_irrefl a hlt

/-- Two sets with the same members are the same. -/
theorem ext {s t : NameSet} (h : ∀ a, a ∈ s ↔ a ∈ t) : s = t := by
  have hperm : s.toList.Perm t.toList :=
    (List.perm_ext_iff_of_nodup s.nodup_toList t.nodup_toList).2 h
  have hlist : s.toList = t.toList :=
    List.Perm.eq_of_pairwise (fun _ _ _ _ hab hba => absurd hab (String.lt_asymm hba))
      s.ascending t.ascending hperm
  cases s
  cases t
  cases hlist
  rfl

theorem ofList_eq_of_perm {names names' : List String} (h : names.Perm names') :
    ofList names = ofList names' := by
  apply ext
  intro a
  rw [mem_ofList, mem_ofList, h.mem_iff]

end NameSet

end SearchGateway
