/-!
# Sets of names

A set of names is its list in strictly ascending order; names are ordered by their characters. Since
the order is part of the type, two sets with the same members are equal.
-/

namespace SearchGateway

structure NameSet where
  toList : List String
  ascending : toList.Pairwise (· < ·)

namespace NameSet

instance : Membership String NameSet := ⟨fun s a => a ∈ s.toList⟩

instance (s : NameSet) (a : String) : Decidable (a ∈ s) :=
  inferInstanceAs (Decidable (a ∈ s.toList))

def empty : NameSet := ⟨[], .nil⟩

def size (s : NameSet) : Nat := s.toList.length

/-- Puts a name at its place, unless it is there already. -/
def place (a : String) : List String → List String
  | [] => [a]
  | b :: bs => if a < b then a :: b :: bs else if a = b then b :: bs else b :: place a bs

@[simp] theorem mem_place {a b : String} {l : List String} : b ∈ place a l ↔ b = a ∨ b ∈ l := by
  induction l with
  | nil => simp [place]
  | cons c l ih =>
    simp only [place]
    split
    · simp
    · split
      · rename_i h; subst h; simp
      · simp only [List.mem_cons, ih]; grind

theorem ascending_place {a : String} {l : List String} (h : l.Pairwise (· < ·)) :
    (place a l).Pairwise (· < ·) := by
  induction l with
  | nil => simp [place]
  | cons c l ih =>
    obtain ⟨hc, hl⟩ := List.pairwise_cons.1 h
    simp only [place]
    split
    · rename_i hac
      exact List.pairwise_cons.2
        ⟨fun x hx => (List.mem_cons.1 hx).elim (fun e => e ▸ hac)
          fun hx => String.lt_trans hac (hc x hx), h⟩
    · split
      · exact h
      · rename_i hac hne
        refine List.pairwise_cons.2 ⟨fun x hx => ?_, ih hl⟩
        rcases mem_place.1 hx with rfl | hx
        · exact Std.lt_of_le_of_ne (String.not_lt.1 hac) (Ne.symm hne)
        · exact hc x hx

def insert (s : NameSet) (a : String) : NameSet := ⟨place a s.toList, ascending_place s.ascending⟩

def erase (s : NameSet) (a : String) : NameSet :=
  ⟨s.toList.filter (· ≠ a), s.ascending.filter _⟩

def insertMany (s : NameSet) (names : List String) : NameSet := names.foldl insert s

def eraseMany (s : NameSet) (names : List String) : NameSet := names.foldl erase s

def ofList (names : List String) : NameSet := empty.insertMany names

@[simp] theorem mem_insert {s : NameSet} {a b : String} : b ∈ s.insert a ↔ b = a ∨ b ∈ s :=
  mem_place

@[simp] theorem mem_erase {s : NameSet} {a b : String} : b ∈ s.erase a ↔ b ∈ s ∧ b ≠ a := by
  show b ∈ s.toList.filter _ ↔ b ∈ s.toList ∧ _
  simp

end NameSet

end SearchGateway
