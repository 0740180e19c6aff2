import Mathlib.Logic.Relation
import SearchGateway.Proofs.Filter.Traces

/-!
# Reading goes forward

A call may rely on what the readers it calls guarantee: they leave a suffix of the text they start
from, a proper one unless they only skip layout, and name no place but such a one when they fail
(`Call.Keeps`). What it has to show for that is local to its script (`Script.Safe`), and the calls
in a script are smaller, so that every call keeps its guarantee (`keeps_ending`, by induction over
the size of calls). Hence a run that starts at the front of a text never leaves the text.
-/

namespace SearchGateway.Filter

open SearchGateway.Text

theorem suffix_of_cons {a : Char} {t s : List Char} (h : a :: t <:+ s) :
    t <:+ s ∧ t.length < s.length :=
  ⟨(List.suffix_cons a t).trans h, h.length_le⟩

namespace Call

/-- The places that a call knows: the items of a list keep that of its bracket. -/
def held : Call → List (List Char)
  | items start s => [s, start]
  | c => [c.place]

/-- Skipping layout may stay where it is. -/
def consumes : Call → Bool
  | layout _ => false
  | _ => true

/-- Readers call others of lower rank, unless text was read before. -/
def rank : Call → Nat
  | filter _ | fieldName _ | operatorName _ _ => 8
  | alternatives _ => 7
  | conjuncts _ => 6
  | factor _ => 5
  | comparison _ => 4
  | field _ => 3
  | path _ | items _ _ => 2
  | literal _ | connective _ _ => 1
  | quoted _ | word _ | spelling _ _ | layout _ => 0

def size (c : Call) : Nat := 9 * c.place.length + c.rank

/-- What a call guarantees of its ending. -/
def Keeps (c : Call) : Ending → Prop
  | .ok rest => rest <:+ c.place ∧ (c.consumes = true → rest.length < c.place.length)
  | .error (some rest) => ∃ t ∈ c.held, rest <:+ t
  | .error none => True

/-- A call that another may make. -/
structure Below (c' c : Call) : Prop where
  place : c'.place <:+ c.place
  held : ∀ t ∈ c'.held, ∃ u ∈ c.held, t <:+ u
  size : c'.size < c.size

variable {c c' : Call}

theorem place_mem_held (c : Call) : c.place ∈ c.held := by
  cases c <;> exact List.mem_cons_self

theorem rank_lt (c : Call) : c.rank < 9 := by
  unfold rank
  split <;> decide

theorem size_lt (hplace : c'.place <:+ c.place)
    (h : c'.place.length < c.place.length ∨ c'.rank < c.rank) : c'.size < c.size := by
  have hlength := hplace.length_le
  have hrank := c'.rank_lt
  unfold size
  omega

/-- A call that knows only where it starts. -/
theorem below_of_place (hheld : c'.held = [c'.place]) (hplace : c'.place <:+ c.place)
    (h : c'.place.length < c.place.length ∨ c'.rank < c.rank) : c'.Below c := by
  refine ⟨hplace, fun t ht => ⟨c.place, c.place_mem_held, ?_⟩, size_lt hplace h⟩
  rw [hheld, List.mem_singleton] at ht
  rwa [ht]

theorem keeps_ok {rest : List Char} (h : rest <:+ c.place) (hlt : rest.length < c.place.length) :
    c.Keeps (.ok rest) :=
  ⟨h, fun _ => hlt⟩

theorem keeps_at {rest : List Char} (h : rest <:+ c.place) : c.Keeps (.error (some rest)) :=
  ⟨c.place, c.place_mem_held, h⟩

theorem keeps_error (h : c'.Below c) {e : Option (List Char)} (he : c'.Keeps (.error e)) :
    c.Keeps (.error e) := by
  cases e with
  | none => trivial
  | some rest =>
    obtain ⟨t, ht, hrest⟩ := he
    obtain ⟨u, hu, htu⟩ := h.held t ht
    exact ⟨u, hu, hrest.trans htu⟩

/-- What is left after a call that consumes is behind the caller too. -/
theorem keeps_of_below (h : c'.Below c) (hconsumes : c'.consumes = true) {e : Ending}
    (he : c'.Keeps e) : c.Keeps e := by
  cases e with
  | error e => exact keeps_error h he
  | ok rest =>
    have hlt := he.2 hconsumes
    have hle := h.place.length_le
    exact ⟨he.1.trans h.place, fun _ => Nat.lt_of_lt_of_le hlt hle⟩

end Call

namespace Script

variable {c c' : Call}

/-- A script that keeps the guarantee of its call, if the readers it calls keep theirs. -/
def Safe (c : Call) : Script → Prop
  | stop e => c.Keeps e
  | call c' next => c'.Below c ∧ ∀ e, c'.Keeps e → (next e).Safe c

theorem safe_andThen {next : List Char → Script} (h : c'.Below c)
    (hnext : ∀ rest, c'.Keeps (.ok rest) → (next rest).Safe c) : (andThen c' next).Safe c := by
  refine ⟨h, fun e he => ?_⟩
  cases e with
  | ok rest => exact hnext rest he
  | error e => exact Call.keeps_error h he

theorem safe_tail (h : c'.Below c) (hconsumes : c'.consumes = true) : (call c' stop).Safe c :=
  ⟨h, fun _ he => Call.keeps_of_below h hconsumes he⟩

theorem safe_toEnd {s : List Char} (hs : s <:+ c.place) (hlt : s.length < c.place.length) :
    (toEnd s).Safe c := by
  refine safe_andThen (Call.below_of_place rfl hs (.inl hlt)) fun rest hrest => ?_
  show c.Keeps (if rest = [] then .ok [] else .error (some rest))
  split
  · exact Call.keeps_ok List.nil_suffix (Nat.zero_lt_of_lt hlt)
  · exact Call.keeps_at (hrest.1.trans hs)

theorem safe_sequence {op : Connective} {again : List Char → Call} (h : c'.Below c)
    (hconsumes : c'.consumes = true) (hplace : ∀ s, (again s).place = s)
    (hheld : ∀ s, (again s).held = [s]) (hagain : ∀ s, (again s).consumes = true) :
    (sequence op c' again).Safe c := by
  refine safe_andThen h fun rest hrest => ?_
  have hlt := Nat.lt_of_lt_of_le (hrest.2 hconsumes) h.place.length_le
  have hsuffix := hrest.1.trans h.place
  refine ⟨Call.below_of_place rfl hsuffix (.inl hlt), fun e he => ?_⟩
  cases e with
  | error e => exact Call.keeps_ok hsuffix hlt
  | ok more =>
    refine safe_tail (Call.below_of_place ?_ ?_ (.inl ?_)) (hagain more)
    · rw [hheld, hplace]
    · rw [hplace]
      exact he.1.trans hsuffix
    · rw [hplace]
      exact Nat.lt_trans (he.2 rfl) hlt

theorem keeps_run {script : Script} (h : script.Safe c)
    (hcalls : ∀ c' : Call, c'.Below c → c'.Keeps c'.ending) : c.Keeps (script.run Call.ending) := by
  induction script with
  | stop e => exact h
  | call c' next ih => exact ih _ (h.2 _ (hcalls c' h.1))

theorem below_of_mem_calls {script : Script} (h : script.Safe c)
    (hcalls : ∀ c' : Call, c'.Below c → c'.Keeps c'.ending) :
    ∀ c' ∈ script.calls Call.ending, c'.Below c := by
  induction script with
  | stop e => exact List.forall_mem_nil _
  | call c' next ih => exact List.forall_mem_cons.2 ⟨h.1, ih _ (h.2 _ (hcalls c' h.1))⟩

end Script

namespace Call

open Script

/-! ### The scripts keep what they have to -/

theorem safe_filter (input : String) : (filter input).script.Safe (filter input) := by
  rw [script]
  split
  · trivial
  · refine safe_andThen (below_of_place rfl List.suffix_rfl (.inr (by simp [rank]))) ?_
    exact fun rest hrest => safe_toEnd hrest.1 (hrest.2 rfl)

theorem safe_field_toEnd {c : Call} {s : List Char} (hs : s <:+ c.place) (hrank : 3 < c.rank) :
    (andThen (field s) toEnd).Safe c := by
  refine safe_andThen (below_of_place rfl hs (.inr hrank)) fun rest hrest => ?_
  exact safe_toEnd (hrest.1.trans hs) (Nat.lt_of_lt_of_le (hrest.2 rfl) hs.length_le)

theorem safe_fieldName (input : String) : (fieldName input).script.Safe (fieldName input) := by
  refine safe_andThen (below_of_place rfl List.suffix_rfl (.inr (by simp [rank]))) fun s hs => ?_
  refine ⟨below_of_place rfl hs.1 (.inr (by simp [rank])), fun e he => ?_⟩
  cases e with
  | error e => exact safe_field_toEnd hs.1 (by simp [rank])
  | ok rest =>
    have hrest := he.1.trans hs.1
    refine safe_andThen (below_of_place rfl hrest (.inr (by simp [rank]))) fun t ht => ?_
    exact safe_field_toEnd (ht.1.trans hrest) (by simp [rank])

theorem safe_operatorName (t : Table) (input : String) :
    (operatorName t input).script.Safe (operatorName t input) := by
  refine safe_andThen (below_of_place rfl List.suffix_rfl (.inr (by simp [rank]))) fun s hs => ?_
  refine ⟨below_of_place rfl hs.1 (.inr (by simp [rank])), fun e he => ?_⟩
  cases e with
  | error e => exact keeps_at hs.1
  | ok rest => exact safe_toEnd (he.1.trans hs.1) (Nat.lt_of_lt_of_le (he.2 rfl) hs.1.length_le)

theorem safe_factor (s : List Char) : (factor s).script.Safe (factor s) := by
  refine ⟨below_of_place rfl List.suffix_rfl (.inr (by simp [rank])), fun e he => ?_⟩
  cases e with
  | ok rest => exact safe_tail (below_of_place rfl he.1 (.inl (he.2 rfl))) rfl
  | error e =>
    refine safe_andThen (below_of_place rfl List.suffix_rfl (.inr (by simp [rank]))) fun t ht => ?_
    split
    · next inner =>
      obtain ⟨hinner, hlt⟩ := suffix_of_cons ht.1
      refine safe_andThen (below_of_place rfl hinner (.inl hlt)) fun rest hrest => ?_
      have hrest' := hrest.1.trans hinner
      have hlt' := Nat.lt_trans (hrest.2 rfl) hlt
      refine safe_andThen (below_of_place rfl hrest' (.inl hlt')) fun u hu => ?_
      have hu' := hu.1.trans hrest'
      split
      · next after =>
        obtain ⟨hafter, hlt⟩ := suffix_of_cons hu'
        exact keeps_ok hafter hlt
      · exact keeps_at ht.1
      · exact keeps_at hu'
    · exact safe_tail (below_of_place rfl ht.1 (.inr (by simp [rank]))) rfl

theorem safe_comparison (s : List Char) : (comparison s).script.Safe (comparison s) := by
  rw [script]
  split
  · exact keeps_at List.suffix_rfl
  · refine safe_andThen (below_of_place rfl List.suffix_rfl (.inr (by simp [rank]))) ?_
    intro rest hrest
    refine safe_andThen (below_of_place rfl hrest.1 (.inr (by simp [rank]))) ?_
    intro operator hoperator
    have hplace := hoperator.1.trans hrest.1
    refine ⟨below_of_place rfl hplace (.inr (by simp [rank])), fun e he => ?_⟩
    cases e with
    | error e => exact keeps_at hplace
    | ok behind =>
      have hbehind := he.1.trans hplace
      refine safe_andThen (below_of_place rfl hbehind (.inr (by simp [rank]))) ?_
      intro value hvalue
      have hvalue' := hvalue.1.trans hbehind
      refine safe_andThen (below_of_place rfl hvalue' (.inr (by simp [rank]))) ?_
      intro after hafter
      show Keeps _ (if misfits s then .error none else .ok after)
      split
      · trivial
      · exact keeps_ok (hafter.1.trans hvalue')
          (Nat.lt_of_lt_of_le (hafter.2 rfl) hvalue'.length_le)

theorem safe_path (s : List Char) : (path s).script.Safe (path s) := by
  simp only [script]
  split
  · exact keeps_at List.suffix_rfl
  · next c cs =>
    split
    · have hdrop : cs.dropWhile isNamePart <:+ cs := List.dropWhile_suffix _
      split
      · next rest hdot =>
        rw [hdot] at hdrop
        obtain ⟨hrest, hlt⟩ := suffix_of_cons (hdrop.trans (List.suffix_cons c cs))
        exact safe_tail (below_of_place rfl hrest (.inl hlt)) rfl
      · exact keeps_ok (hdrop.trans (List.suffix_cons c cs)) (Nat.lt_succ_of_le hdrop.length_le)
    · exact keeps_at List.suffix_rfl

theorem safe_literal (s : List Char) : (literal s).script.Safe (literal s) := by
  simp only [script]
  split
  · next cs =>
    have hcs := suffix_of_cons (List.suffix_refl ('"' :: cs))
    refine ⟨below_of_place rfl hcs.1 (.inl hcs.2), fun e he => ?_⟩
    cases e with
    | error e => exact keeps_at List.suffix_rfl
    | ok rest => exact keeps_ok (he.1.trans hcs.1) (Nat.lt_trans (he.2 rfl) hcs.2)
  · next cs =>
    have hcs := suffix_of_cons (List.suffix_refl ('[' :: cs))
    refine safe_andThen (below_of_place rfl hcs.1 (.inl hcs.2)) fun t ht => ?_
    have hsuffix := ht.1.trans hcs.1
    have hlt := Nat.lt_of_le_of_lt ht.1.length_le hcs.2
    split
    · next rest =>
      obtain ⟨hrest, hlt⟩ := suffix_of_cons hsuffix
      exact keeps_ok hrest hlt
    · refine safe_tail ⟨hsuffix, ?_, size_lt hsuffix (.inl hlt)⟩ rfl
      -- The items keep the place of the bracket, which is where the literal starts.
      refine List.forall_mem_cons.2 ⟨⟨_, List.mem_cons_self, hsuffix⟩, ?_⟩
      rw [List.forall_mem_singleton]
      exact ⟨_, List.mem_cons_self, List.suffix_rfl⟩
  · exact safe_tail (below_of_place rfl List.suffix_rfl (.inr (by simp [rank]))) rfl

theorem safe_items (start s : List Char) : (items start s).script.Safe (items start s) := by
  have hstart : (items start s).Keeps (.error (some start)) :=
    ⟨start, List.mem_cons_of_mem _ List.mem_cons_self, List.suffix_rfl⟩
  refine safe_andThen (below_of_place rfl List.suffix_rfl (.inr (by simp [rank]))) fun t ht => ?_
  split
  · exact hstart
  · next c cs =>
    refine safe_andThen (below_of_place rfl ht.1 (.inr (by simp [rank]))) fun rest hrest => ?_
    have hrest' := hrest.1.trans ht.1
    refine safe_andThen (below_of_place rfl hrest' (.inr (by simp [rank]))) fun u hu => ?_
    have hu' := hu.1.trans hrest'
    split
    · next more =>
      obtain ⟨hmore, hlt⟩ := suffix_of_cons hu'
      refine safe_tail ⟨hmore, ?_, size_lt hmore (.inl hlt)⟩ rfl
      refine List.forall_mem_cons.2 ⟨⟨s, List.mem_cons_self, hmore⟩, ?_⟩
      rw [List.forall_mem_singleton]
      exact ⟨start, List.mem_cons_of_mem _ List.mem_cons_self, List.suffix_rfl⟩
    · next after =>
      obtain ⟨hafter, hlt⟩ := suffix_of_cons hu'
      exact keeps_ok hafter hlt
    · exact hstart
    · exact keeps_at hu'

theorem safe_quoted (s : List Char) : (quoted s).script.Safe (quoted s) := by
  simp only [script]
  split
  · trivial
  · next rest =>
    obtain ⟨hrest, hlt⟩ := suffix_of_cons (List.suffix_refl ('"' :: rest))
    exact keeps_ok hrest hlt
  · next rest =>
    have htail := suffix_of_cons (List.suffix_refl ('\\' :: '"' :: rest))
    obtain ⟨hrest, hlt⟩ := suffix_of_cons htail.1
    exact safe_tail (below_of_place rfl hrest (.inl hlt)) rfl
  · next rest =>
    have htail := suffix_of_cons (List.suffix_refl ('\\' :: '\\' :: rest))
    obtain ⟨hrest, hlt⟩ := suffix_of_cons htail.1
    exact safe_tail (below_of_place rfl hrest (.inl hlt)) rfl
  · next c rest _ _ _ =>
    obtain ⟨hrest, hlt⟩ := suffix_of_cons (List.suffix_refl (c :: rest))
    exact safe_tail (below_of_place rfl hrest (.inl hlt)) rfl

theorem safe_word (s : List Char) : (word s).script.Safe (word s) := by
  have hs : s = (splitWord s).1 ++ (splitWord s).2 := (splitWord_eq_iff.1 rfl).1
  have hlength := length_splitWord s
  show Keeps _ (if _ then _ else _)
  split
  · exact keeps_at List.suffix_rfl
  · next hword =>
    have hpos := List.length_pos_iff.2 fun hnil => hword (.inl hnil)
    refine keeps_ok ⟨_, hs.symm⟩ ?_
    show (splitWord s).2.length < s.length
    omega

theorem safe_spelling (t : Table) (s : List Char) :
    (spelling t s).script.Safe (spelling t s) := by
  -- No spelling is empty, so that finding one is progress.
  have hfound {ω : Type} {table : List (Alias ω)} (htable : ∀ a ∈ table, a.text ≠ []) :
      (spelling t s).Keeps (endingOf? ((Alias.first? table s).map Prod.snd)) := by
    cases hfirst : Alias.first? table s with
    | none => trivial
    | some found =>
      have hs := (Alias.exists_of_first? hfirst).2
      exact keeps_ok ⟨_, hs.symm⟩ (length_first?_lt htable hfirst)
  cases t with
  | connectives => exact hfound text_ne_nil_of_mem_connectiveTable
  | relations => exact hfound text_ne_nil_of_mem_relationTable

theorem safe_connective (op : Connective) (s : List Char) :
    (connective op s).script.Safe (connective op s) := by
  refine safe_andThen (below_of_place rfl List.suffix_rfl (.inr (by simp [rank]))) ?_
  intro rest hrest
  refine ⟨below_of_place rfl hrest.1 (.inr (by simp [rank])), fun e he => ?_⟩
  cases e with
  | error e => trivial
  | ok after =>
    show Keeps _ (if _ then _ else _)
    split
    · exact keeps_ok (he.1.trans hrest.1) (Nat.lt_of_lt_of_le (he.2 rfl) hrest.1.length_le)
    · trivial

theorem safe_script (c : Call) : c.script.Safe c := by
  cases c with
  | filter input => exact safe_filter input
  | fieldName input => exact safe_fieldName input
  | operatorName t input => exact safe_operatorName t input
  | alternatives s =>
    have hbelow : (conjuncts s).Below (alternatives s) :=
      below_of_place rfl List.suffix_rfl (.inr (by simp [rank]))
    exact safe_sequence hbelow rfl (fun _ => rfl) (fun _ => rfl) fun _ => rfl
  | conjuncts s =>
    have hbelow : (factor s).Below (conjuncts s) :=
      below_of_place rfl List.suffix_rfl (.inr (by simp [rank]))
    exact safe_sequence hbelow rfl (fun _ => rfl) (fun _ => rfl) fun _ => rfl
  | factor s => exact safe_factor s
  | comparison s => exact safe_comparison s
  | field s => exact safe_tail (below_of_place rfl List.suffix_rfl (.inr (by simp [rank]))) rfl
  | path s => exact safe_path s
  | literal s => exact safe_literal s
  | items start s => exact safe_items start s
  | quoted s => exact safe_quoted s
  | word s => exact safe_word s
  | connective op s => exact safe_connective op s
  | spelling t s => exact safe_spelling t s
  | layout s => exact ⟨List.dropWhile_suffix _, fun h => by cases h⟩

/-! ### Runs -/

/-- Every call keeps its guarantee. -/
theorem keeps_ending (c : Call) : c.Keeps c.ending := by
  induction hn : c.size using Nat.strong_induction_on generalizing c with
  | _ n ih =>
    rw [ending_eq_run]
    exact keeps_run c.safe_script fun c' h => ih _ (hn ▸ h.size) c' rfl

theorem below_of_mem_calls {c c' : Call} (h : c' ∈ c.calls) : c'.Below c :=
  Script.below_of_mem_calls c.safe_script (fun c' _ => c'.keeps_ending) c' h

/-- Every chain of calls ends. -/
theorem wellFounded_calls : WellFounded fun c' c : Call => c' ∈ c.calls :=
  Subrelation.wf (fun h => (below_of_mem_calls h).size) (measure size).wf

/-- A call and all calls made while it runs. -/
def Reaches : Call → Call → Prop := Relation.ReflTransGen fun c c' => c' ∈ c.calls

theorem Reaches.held {c c' : Call} (h : Reaches c c') :
    ∀ t ∈ c'.held, ∃ u ∈ c.held, t <:+ u := by
  induction h with
  | refl => exact fun t ht => ⟨t, ht, List.suffix_rfl⟩
  | tail _ hcall ih =>
    intro t ht
    obtain ⟨u, hu, htu⟩ := (below_of_mem_calls hcall).held t ht
    obtain ⟨v, hv, huv⟩ := ih u hu
    exact ⟨v, hv, htu.trans huv⟩

/-- A call that goes on with the loop it is in: the operands of a sequence, a chain of negations,
the names of a path, the items of a list, the characters of a quoted text. -/
inductive Repeats : Call → Call → Prop
  | alternatives (s t : List Char) : Repeats (alternatives s) (alternatives t)
  | conjuncts (s t : List Char) : Repeats (conjuncts s) (conjuncts t)
  | factor (s t : List Char) : Repeats (factor s) (factor t)
  | path (s t : List Char) : Repeats (path s) (path t)
  | items (start s t : List Char) : Repeats (items start s) (items start t)
  | quoted (s t : List Char) : Repeats (quoted s) (quoted t)

theorem Repeats.rank_eq {c c' : Call} (h : Repeats c c') : c'.rank = c.rank := by
  cases h <;> rfl

/-- The pieces of the text that a call takes out: a name, the part of a path before a name that is
missing, a bare word, and the token at the place of a failure. -/
inductive Cuts : Call → List Char → Prop
  | name {c : Char} {cs : List Char} : isNameStart c = true →
      Cuts (path (c :: cs)) (c :: cs.takeWhile isNamePart)
  | passed {s text rest : List Char} :
      scanField s = .error (.located (.emptySegment text) rest) → Cuts (field s) text
  | word (s : List Char) : Cuts (word s) (splitWord s).1
  | token {c : Call} {rest : List Char} : c.ending = .error (some rest) →
      Cuts c (rest.takeWhile fun ch => !isLayout ch)

theorem eq_append_of_emptySegment {s text rest : List Char}
    (h : scanField s = .error (.located (.emptySegment text) rest)) : s = text ++ rest := by
  have hkeeps := keeps_ending (path s)
  rw [ending] at hkeeps
  rw [scanField] at h
  cases hpath : scanPath s with
  | ok r => rw [hpath] at h; cases h
  | error place =>
    rw [hpath] at h hkeeps
    obtain ⟨t, ht, hplace⟩ := hkeeps
    cases List.mem_singleton.1 ht
    simp only at h
    split at h
    · cases h
    · cases h
      exact (List.suffix_iff_eq_append.1 hplace).symm

/-- Each piece begins where the call starts, or where it fails. -/
theorem Cuts.exists_append {c : Call} {text : List Char} (h : c.Cuts text) :
    ∃ after, text ++ after = c.place ∨ c.ending = .error (some (text ++ after)) := by
  cases h with
  | @name c cs hc =>
    refine ⟨cs.dropWhile isNamePart, .inl ?_⟩
    rw [List.cons_append, List.takeWhile_append_dropWhile]
    rfl
  | passed hfield => exact ⟨_, .inl (eq_append_of_emptySegment hfield).symm⟩
  | word s => exact ⟨(splitWord s).2, .inl (splitWord_eq_iff.1 rfl).1.symm⟩
  | @token c rest hfail =>
    refine ⟨rest.dropWhile fun ch => !isLayout ch, .inr ?_⟩
    rw [List.takeWhile_append_dropWhile]
    exact hfail

end Call

/-- The text left at some byte of the input: as many bytes as its offset says are before it. -/
structure IsPlace (input rest : List Char) : Prop where
  isSuffix : rest <:+ input
  offset_add : offset input rest + byteLength rest = byteLength input

theorem isPlace_of_suffix {input rest : List Char} (h : rest <:+ input) : IsPlace input rest := by
  have := byteLength_le_of_suffix h
  exact ⟨h, by rw [offset]; omega⟩

/-- The shorter of two texts left is the later place. -/
theorem offset_lt {input s t : List Char} (hs : s <:+ input) (ht : t <:+ s)
    (hlt : t.length < s.length) : offset input s < offset input t := by
  have hbytes := byteLength_lt_of_suffix ht fun e => Nat.lt_irrefl _ (e ▸ hlt)
  have := byteLength_le_of_suffix hs
  rw [offset, offset]
  omega

/-- A call in a run on the input stays in it and goes forward: what it leaves is behind the place it
started from, and so is a call that goes on with the same loop. Its calls read the text in order. -/
structure Call.Sound (input : List Char) (c : Call) : Prop where
  ends : c.ending = c.script.run Call.ending
  trace : c.Trace c.place c.calls c.ending
  before : IsPlace input c.place
  after : ∀ rest, c.ending = .ok rest → IsPlace input rest ∧
    (c.consumes = true → offset input c.place < offset input rest)
  failure : ∀ rest, c.ending = .error (some rest) → IsPlace input rest
  calls : ∀ c' ∈ c.calls, c'.size < c.size ∧
    (c.Repeats c' → offset input c.place < offset input c'.place)
  cuts : ∀ text, c.Cuts text → ∃ rest, IsPlace input (text ++ rest) ∧ IsPlace input rest

theorem Call.sound_of_held {input : List Char} {c : Call} (h : ∀ t ∈ c.held, t <:+ input) :
    c.Sound input := by
  have hplace := h c.place c.place_mem_held
  have hkeeps := c.keeps_ending
  have hfailure (rest : List Char) (hfail : c.ending = .error (some rest)) : rest <:+ input := by
    rw [hfail] at hkeeps
    obtain ⟨t, ht, hrest⟩ := hkeeps
    exact hrest.trans (h t ht)
  refine ⟨c.ending_eq_run, c.trace_calls, isPlace_of_suffix hplace, fun rest hrest => ?_,
    fun rest hfail => isPlace_of_suffix (hfailure rest hfail), fun c' hc' => ?_,
    fun text htext => ?_⟩
  · rw [hrest] at hkeeps
    exact ⟨isPlace_of_suffix (hkeeps.1.trans hplace),
      fun hconsumes => offset_lt hplace hkeeps.1 (hkeeps.2 hconsumes)⟩
  · have hbelow := below_of_mem_calls hc'
    refine ⟨hbelow.size, fun hrepeats => offset_lt hplace hbelow.place ?_⟩
    -- Of two calls of one reader the smaller is the one with less text.
    have hsize := hbelow.size
    have hrank := hrepeats.rank_eq
    unfold size at hsize
    omega
  · obtain ⟨rest, hcut⟩ := htext.exists_append
    have hsuffix : text ++ rest <:+ input := by
      rcases hcut with hcut | hcut
      · exact hcut ▸ hplace
      · exact hfailure _ hcut
    exact ⟨rest, isPlace_of_suffix hsuffix,
      isPlace_of_suffix ((List.suffix_append text rest).trans hsuffix)⟩

/-- The ways to read a text. -/
def Call.roots (input : String) : List Call :=
  [.filter input, .fieldName input, .operatorName .connectives input,
    .operatorName .relations input]

theorem Call.held_of_mem_roots {input : String} {root : Call} (h : root ∈ roots input) :
    root.held = [input.toList] := by
  simp only [roots, List.mem_cons, List.not_mem_nil, or_false] at h
  rcases h with rfl | rfl | rfl | rfl <;> rfl

theorem Call.sound_of_reaches {input : String} {root c : Call} (hroot : root ∈ roots input)
    (h : root.Reaches c) : c.Sound input.toList := by
  refine sound_of_held fun t ht => ?_
  obtain ⟨u, hu, htu⟩ := h.held t ht
  rw [held_of_mem_roots hroot, List.mem_singleton] at hu
  rwa [← hu]

/-- The error is that of one of the ways to read the text. -/
def Fails (input : String) (e : ParseError) : Prop :=
  parse input = .error e ∨ Field.parse input = .error e ∨ Connective.parse input = .error e ∨
    Relation.parse input = .error e

theorem Fails.exists_root {input : String} {e : ParseError} (h : Fails input e) :
    ∃ root ∈ Call.roots input, root.ending = .error e.place? := by
  rcases h with h | h | h | h
  · exact ⟨.filter input, by simp [Call.roots], by rw [Call.ending, h]; rfl⟩
  · exact ⟨.fieldName input, by simp [Call.roots], by rw [Call.ending, h]; rfl⟩
  · exact ⟨.operatorName .connectives input, by simp [Call.roots], by rw [Call.ending, h]; rfl⟩
  · exact ⟨.operatorName .relations input, by simp [Call.roots], by rw [Call.ending, h]; rfl⟩

/-- Every call made while a text is read starts and ends in the text and goes forward, no chain of
calls is endless, and the offset named in an error is that of a place in the text. -/
theorem reading_progresses (input : String) :
    (∀ root ∈ Call.roots input, ∀ c, root.Reaches c → c.Sound input.toList) ∧
    (WellFounded fun c' c : Call => c' ∈ c.calls) ∧
    ∀ p rest, Fails input (.located p rest) → IsPlace input.toList rest ∧
      (ParseError.located p rest).failure input =
        p.failure (offset input.toList rest) (token rest) := by
  refine ⟨fun root hroot c h => Call.sound_of_reaches hroot h, Call.wellFounded_calls, ?_⟩
  intro p rest hfails
  obtain ⟨root, hroot, hending⟩ := hfails.exists_root
  exact ⟨(Call.sound_of_reaches hroot .refl).failure rest hending, rfl⟩

/-- A negation and a parenthesis: the run comes to the end of the text, and as a connective the
text fails behind its first byte. -/
theorem reading_progresses_unclosed :
    (Call.filter "!(").Reaches (.alternatives []) ∧ (Call.alternatives []).Sound "!(".toList ∧
      Fails "!(" (.located .unexpectedAfterOperator ['(']) ∧
      IsPlace "!(".toList ['('] ∧ offset "!(".toList ['('] = 1 := by
  have hnot : scanConnective? .not ['!', '('] = some ['('] := by decide
  have hopen : scanConnective? .not ['('] = none := by decide
  have hreaches : (Call.filter "!(").Reaches (.alternatives []) := by
    have hfilter : .alternatives ['!', '('] ∈ (Call.filter "!(").calls := List.mem_cons_self
    have hfirst : .conjuncts ['!', '('] ∈ (Call.alternatives ['!', '(']).calls :=
      List.mem_cons_self
    have hfactor : .factor ['!', '('] ∈ (Call.conjuncts ['!', '(']).calls := List.mem_cons_self
    have hnegated : .factor ['('] ∈ (Call.factor ['!', '(']).calls := by
      simp [Call.calls, Call.script, Script.calls, Call.ending, hnot]
    have hinner : .alternatives [] ∈ (Call.factor ['(']).calls := by
      simp [Call.calls, Call.script, Script.calls, Script.andThen, Call.ending, hopen, skipLayout,
        isLayout]
    exact ((((Relation.ReflTransGen.single hfilter).tail hfirst).tail hfactor).tail hnegated).tail
      hinner
  have hfails : Fails "!(" (.located .unexpectedAfterOperator ['(']) := by
    refine .inr (.inr (.inl ?_))
    decide
  obtain ⟨hsound, -, herror⟩ := reading_progresses "!("
  exact ⟨hreaches, hsound _ List.mem_cons_self _ hreaches, hfails, (herror _ _ hfails).1, by decide⟩

end SearchGateway.Filter
