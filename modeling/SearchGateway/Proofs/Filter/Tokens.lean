import Mathlib.Data.List.TakeWhile
import SearchGateway.Filter.Parser
import SearchGateway.Index.FieldKind
import SearchGateway.Proofs.Text.Bytes

/-!
# What the tokens of a filter are

Each kind of token is said here without the scanner, by what stands at the front of the text and
why it cannot be longer: an operator is the longest of its spellings that stands there
(`ReadsOperator`), a field the longest path of names (`ReadsField`), a bare word reaches to the
next delimiter (`ReadsWord`), a quoted text to its closing quote (`Quoted`). One lemma for each
says that the scanner finds exactly these.
-/

namespace SearchGateway.Filter

open SearchGateway.Text

/-- What a reader takes from the front of the text, failures apart. -/
def taken {ε α : Type} {s : List Char} : Except ε (Scanned α s) → Option (α × List Char)
  | .ok r => some (r.value, r.rest)
  | .error _ => none

theorem taken_ok {ε α : Type} {s : List Char} (r : Scanned α s) :
    taken (.ok r : Except ε (Scanned α s)) = some (r.value, r.rest) := rfl

theorem length_lt_of_taken {ε α : Type} {s rest : List Char} {v : α} {r : Except ε (Scanned α s)}
    (h : taken r = some (v, rest)) : rest.length < s.length := by
  cases r with
  | error e => cases h
  | ok r => cases h; exact r.lt

theorem offset_append (before s : List Char) : offset (before ++ s) s = byteLength before := by
  rw [offset, byteLength_append, Nat.add_sub_cancel]

/-- A text that does not go on with a character of the class. -/
def Stops (p : Char → Bool) (s : List Char) : Prop := ∀ c ∈ s.head?, p c = false

theorem takeWhile_append_stop {p : Char → Bool} {s t : List Char} (hs : ∀ c ∈ s, p c = true)
    (ht : Stops p t) : (s ++ t).takeWhile p = s := by
  rw [List.takeWhile_append_of_pos hs]
  cases t with
  | nil => simp
  | cons c t => simp [ht c rfl]

theorem dropWhile_append_stop {p : Char → Bool} {s t : List Char} (hs : ∀ c ∈ s, p c = true)
    (ht : Stops p t) : (s ++ t).dropWhile p = t := by
  rw [List.dropWhile_append_of_pos hs]
  cases t with
  | nil => rfl
  | cons c t => simp [ht c rfl]

theorem stops_dropWhile (p : Char → Bool) (s : List Char) : Stops p (s.dropWhile p) := by
  intro c hc
  have := List.head?_dropWhile_not p s
  rw [hc] at this
  simpa using this

/-! ## Layout -/

/-- What may stand between two tokens. -/
def layout : List Char := [' ', '\t', '\r', '\n']

theorem isLayout_iff {c : Char} : isLayout c = true ↔ c ∈ layout := by
  simp only [isLayout, layout, Bool.or_eq_true, beq_iff_eq, List.mem_cons, List.not_mem_nil,
    or_false]
  tauto

/-- `t` is `s` without some of the layout in front. -/
def Skips (s t : List Char) : Prop := ∃ blanks, blanks ⊆ layout ∧ s = blanks ++ t

theorem Skips.refl (s : List Char) : Skips s s := ⟨[], List.nil_subset _, rfl⟩

theorem Skips.trans {s t u : List Char} (h : Skips s t) (h' : Skips t u) : Skips s u := by
  obtain ⟨blanks, hb, rfl⟩ := h
  obtain ⟨blanks', hb', rfl⟩ := h'
  exact ⟨blanks ++ blanks', List.append_subset.2 ⟨hb, hb'⟩, (List.append_assoc ..).symm⟩

theorem skips_space (s : List Char) : Skips (' ' :: s) s := ⟨[' '], by decide, rfl⟩

theorem skips_skipLayout (s : List Char) : Skips s (skipLayout s) :=
  ⟨s.takeWhile isLayout, fun _ hc => isLayout_iff.1 (List.mem_takeWhile_imp hc),
    List.takeWhile_append_dropWhile.symm⟩

theorem Skips.skipLayout_eq {s t : List Char} (h : Skips s t) : skipLayout s = skipLayout t := by
  obtain ⟨blanks, hb, rfl⟩ := h
  exact List.dropWhile_append_of_pos fun c hc => isLayout_iff.2 (hb hc)

theorem skipLayout_cons {c : Char} (hc : isLayout c = false) (s : List Char) :
    skipLayout (c :: s) = c :: s :=
  List.dropWhile_cons_of_neg (by simp [hc])

theorem Skips.skipLayout_cons {s t : List Char} {c : Char} (h : Skips s (c :: t))
    (hc : isLayout c = false) : skipLayout s = c :: t := by
  rw [h.skipLayout_eq, Filter.skipLayout_cons hc]

theorem skips_nil_iff {s : List Char} : Skips s [] ↔ skipLayout s = [] :=
  ⟨fun h => h.skipLayout_eq, fun h => h ▸ skips_skipLayout s⟩

theorem skipLayout_skipLayout (s : List Char) : skipLayout (skipLayout s) = skipLayout s :=
  (skips_skipLayout s).skipLayout_eq.symm

/-! ## Operators -/

namespace Alias

variable {ω : Type}

/-- The alias stands at the front of `s`, and no name goes on after it if it is a word. -/
def Stands (a : Alias ω) (s rest : List Char) : Prop :=
  s = a.text ++ rest ∧ (a.isWord = true → ∀ c ∈ rest.head?, isNamePart c = false)

theorem after?_eq_some_iff {a : Alias ω} {s rest : List Char} :
    a.after? s = some rest ↔ a.Stands s rest := by
  unfold after? Stands
  constructor
  · intro h
    split at h
    · rename_i hp
      obtain ⟨r, rfl⟩ := List.isPrefixOf_iff_prefix.1 hp
      simp only [List.drop_left] at h
      split at h
      · cases h
      · rename_i hw
        cases h
        refine ⟨rfl, fun hword c hc => ?_⟩
        rw [hword, hc] at hw
        simpa using hw
    · cases h
  · rintro ⟨rfl, hw⟩
    rw [if_pos (List.isPrefixOf_iff_prefix.2 ⟨rest, rfl⟩), List.drop_left, if_neg]
    intro hb
    rw [Bool.and_eq_true] at hb
    cases hr : rest.head? with
    | none => simp [hr] at hb
    | some c =>
      have := hw hb.1 c hr
      simp [hr, this] at hb

theorem Stands.isPrefix {a : Alias ω} {s rest : List Char} (h : a.Stands s rest) : a.text <+: s :=
  ⟨rest, h.1.symm⟩

theorem Stands.isPrefix_iff {a b : Alias ω} {s rest r : List Char} (ha : a.Stands s rest)
    (hb : b.Stands s r) : b.text <+: a.text ↔ b.text.length ≤ a.text.length :=
  ⟨List.IsPrefix.length_le, List.prefix_of_prefix_length_le hb.isPrefix ha.isPrefix⟩

theorem first?_eq_none_iff {t : List (Alias ω)} {s : List Char} :
    first? t s = none ↔ ∀ a ∈ t, ∀ rest, ¬ a.Stands s rest := by
  induction t with
  | nil => simp [first?]
  | cons a t ih =>
    rw [first?]
    cases ha : a.after? s with
    | some rest =>
      constructor
      · intro h; cases h
      · intro h; exact absurd (after?_eq_some_iff.1 ha) (h a List.mem_cons_self rest)
    | none =>
      have hnot : ∀ rest, ¬ a.Stands s rest := fun rest hr => by
        rw [after?_eq_some_iff.2 hr] at ha; cases ha
      rw [List.forall_mem_cons, ← ih]
      exact ⟨fun h => ⟨hnot, h⟩, fun h => h.2⟩

/-- No alias comes before one that begins with it, so that none is hidden by another. -/
def Unhidden (t : List (Alias ω)) : Prop := t.Pairwise fun a b => ¬ a.text <+: b.text

/-- The first alias of a table that hides none has all others that stand at the front in it. -/
theorem first?_eq_some_iff_of_unhidden {t : List (Alias ω)} (ht : Unhidden t) {s : List Char}
    {a : Alias ω} {rest : List Char} : first? t s = some (a, rest) ↔
      a ∈ t ∧ a.Stands s rest ∧ ∀ b ∈ t, ∀ r, b.Stands s r → b.text <+: a.text := by
  induction t with
  | nil => simp [first?]
  | cons b t ih =>
    obtain ⟨hb, ht⟩ := List.pairwise_cons.1 ht
    rw [first?]
    cases hafter : b.after? s with
    | some r =>
      have hstand := after?_eq_some_iff.1 hafter
      constructor
      · intro h
        cases h
        refine ⟨List.mem_cons_self, hstand, fun b' hb' r' hr' => ?_⟩
        rcases List.mem_cons.1 hb' with rfl | hb'
        · exact List.prefix_rfl
        · -- Of two texts at the front of one text, one begins with the other.
          rcases List.prefix_or_prefix_of_prefix hr'.isPrefix hstand.isPrefix with hle | hle
          · exact hle
          · exact absurd hle (hb b' hb')
      · rintro ⟨hmem, ha, hlong⟩
        rcases List.mem_cons.1 hmem with rfl | hmem
        · rw [List.append_cancel_left (ha.1.symm.trans hstand.1)]
        · exact absurd (hlong b List.mem_cons_self r hstand) (hb a hmem)
    | none =>
      have hnot : ∀ r, ¬ b.Stands s r := fun r hr => by
        rw [after?_eq_some_iff.2 hr] at hafter; cases hafter
      simp only
      rw [ih ht]
      constructor
      · rintro ⟨hmem, ha, hlong⟩
        refine ⟨List.mem_cons_of_mem _ hmem, ha, fun b' hb' r' hr' => ?_⟩
        rcases List.mem_cons.1 hb' with rfl | hb'
        · exact absurd hr' (hnot r')
        · exact hlong b' hb' r' hr'
      · rintro ⟨hmem, ha, hlong⟩
        refine ⟨?_, ha, fun b' hb' => hlong b' (List.mem_cons_of_mem _ hb')⟩
        rcases List.mem_cons.1 hmem with rfl | hmem
        · exact absurd ha (hnot rest)
        · exact hmem

/-- Longer aliases come first, and no text comes twice. -/
def Ranked (t : List (Alias ω)) : Prop :=
  t.Pairwise fun a b => b.text.length ≤ a.text.length ∧ a.text ≠ b.text

theorem Ranked.unhidden {t : List (Alias ω)} (ht : Ranked t) : Unhidden t :=
  ht.imp fun h hbegins => h.2 (hbegins.eq_of_length_le h.1)

/-- The first alias of a ranked table is the longest that stands at the front. -/
theorem first?_eq_some_iff {t : List (Alias ω)} (ht : Ranked t) {s : List Char} {a : Alias ω}
    {rest : List Char} : first? t s = some (a, rest) ↔
      a ∈ t ∧ a.Stands s rest ∧ ∀ b ∈ t, ∀ r, b.Stands s r → b.text.length ≤ a.text.length := by
  rw [first?_eq_some_iff_of_unhidden ht.unhidden]
  refine and_congr_right fun _ => and_congr_right fun ha => ?_
  exact forall₂_congr fun b _ => forall₂_congr fun r hr => ha.isPrefix_iff hr

/-- The alias is one of the given spellings of its operator. -/
def IsSpelling (spellings : ω → List String) (a : Alias ω) : Prop :=
  ∃ s ∈ spellings a.operator, s.toList = a.text

end Alias

/-- The longest spelling at the front of `s` is one of the operator `op`. -/
def ReadsOperator {ω : Type} (spellings : ω → List String) (s : List Char) (op : ω)
    (rest : List Char) : Prop :=
  ∃ a : Alias ω, a.operator = op ∧ a.IsSpelling spellings ∧ a.Stands s rest ∧
    ∀ b : Alias ω, b.IsSpelling spellings → ∀ r, b.Stands s r → b.text.length ≤ a.text.length

theorem ranked_connectiveTable : Alias.Ranked connectiveTable := by
  unfold Alias.Ranked; decide

theorem ranked_relationTable : Alias.Ranked relationTable := by
  unfold Alias.Ranked; decide

/-- A table that holds spellings only, and all of them. -/
theorem mem_table_iff {ω : Type} {spellings : ω → List String} {t : List (Alias ω)}
    (hsound : ∀ a ∈ t, ∃ s ∈ spellings a.operator, s.toList = a.text)
    (hall : ∀ op, ∀ s ∈ spellings op, ⟨s.toList, op⟩ ∈ t) {a : Alias ω} :
    a ∈ t ↔ a.IsSpelling spellings := by
  constructor
  · exact hsound a
  · obtain ⟨text, op⟩ := a
    rintro ⟨s, hs, rfl⟩
    exact hall op s hs

theorem mem_connectiveTable {a : Alias Connective} :
    a ∈ connectiveTable ↔ a.IsSpelling Connective.aliases :=
  mem_table_iff (by decide) fun op => by cases op <;> decide

theorem mem_relationTable {a : Alias Relation} :
    a ∈ relationTable ↔ a.IsSpelling Relation.aliases :=
  mem_table_iff (by decide) fun op => by cases op <;> decide

section table

variable {ω : Type} {spellings : ω → List String} {t : List (Alias ω)}

/-- A ranked table of all spellings finds the operators. -/
theorem first?_iff_readsOperator (ht : Alias.Ranked t)
    (hmem : ∀ a, a ∈ t ↔ a.IsSpelling spellings) {s rest : List Char} {op : ω} :
    (∃ a, Alias.first? t s = some (a, rest) ∧ a.operator = op) ↔
      ReadsOperator spellings s op rest := by
  constructor
  · rintro ⟨a, ha, rfl⟩
    obtain ⟨hin, hstand, hlong⟩ := (Alias.first?_eq_some_iff ht).1 ha
    exact ⟨a, rfl, (hmem a).1 hin, hstand, fun b hb => hlong b ((hmem b).2 hb)⟩
  · rintro ⟨a, hop, hin, hstand, hlong⟩
    refine ⟨a, (Alias.first?_eq_some_iff ht).2 ⟨(hmem a).2 hin, hstand, fun b hb => ?_⟩, hop⟩
    exact hlong b ((hmem b).1 hb)

/-- No spelling of a table of visible texts starts with layout. -/
theorem ReadsOperator.skipLayout_eq (hmem : ∀ a, a ∈ t ↔ a.IsSpelling spellings)
    (hvisible : ∀ a ∈ t, a.text.head?.any (fun c => !isLayout c) = true) {s rest : List Char}
    {op : ω} (h : ReadsOperator spellings s op rest) : skipLayout s = s := by
  obtain ⟨a, -, hin, ⟨rfl, -⟩, -⟩ := h
  obtain ⟨c, hc, hlayout⟩ := (Option.any_eq_true ..).1 (hvisible a ((hmem a).2 hin))
  obtain ⟨cs, hcs⟩ := List.head?_eq_some_iff.1 hc
  rw [hcs, List.cons_append, skipLayout_cons (by simpa using hlayout)]

end table

theorem ReadsOperator.skipLayout_connective {s rest : List Char} {op : Connective}
    (h : ReadsOperator Connective.aliases s op rest) : skipLayout s = s :=
  h.skipLayout_eq (fun _ => mem_connectiveTable) (by decide)

theorem ReadsOperator.skipLayout_relation {s rest : List Char} {op : Relation}
    (h : ReadsOperator Relation.aliases s op rest) : skipLayout s = s :=
  h.skipLayout_eq (fun _ => mem_relationTable) (by decide)

theorem scanConnective?_eq_some_iff {op : Connective} {s rest : List Char} :
    scanConnective? op s = some rest ↔ ReadsOperator Connective.aliases (skipLayout s) op rest := by
  rw [← first?_iff_readsOperator ranked_connectiveTable fun _ => mem_connectiveTable,
    scanConnective?]
  constructor
  · intro h
    split at h
    · split at h
      · rename_i a r ha hop
        cases h
        exact ⟨a, ha, hop⟩
      · cases h
    · cases h
  · rintro ⟨a, ha, hop⟩
    simp only [ha, if_pos hop]

/-- Another operator is next. -/
theorem scanConnective?_eq_none_of_ne {op other : Connective} {s rest : List Char}
    (h : scanConnective? op s = some rest) (hne : op ≠ other) : scanConnective? other s = none := by
  unfold scanConnective? at h ⊢
  split at h
  · rename_i a r ha
    split at h
    · rename_i hop
      exact if_neg fun e => hne (hop.symm.trans e)
    · cases h
  · cases h

/-! ## Fields -/

/-- The text of a path: names with dots between them. -/
def IsPath (path : List String) (text : List Char) : Prop :=
  path ≠ [] ∧ (∀ p ∈ path, Index.isName p.toList = true) ∧
    text = joinChars ['.'] (path.map String.toList)

/-- The longest path at the front of `s`. -/
def ReadsField (s : List Char) (path : List String) (rest : List Char) : Prop :=
  ∃ text, s = text ++ rest ∧ IsPath path text ∧
    ∀ path' text', IsPath path' text' → text' <+: s → text'.length ≤ text.length

/-- The characters of paths. -/
def isPathPart (c : Char) : Bool := isNamePart c || c == '.'

theorem Stops.isNamePart {s : List Char} (h : Stops isPathPart s) : Stops isNamePart s := by
  intro c hc
  have := h c hc
  rw [isPathPart, Bool.or_eq_false_iff] at this
  exact this.1

theorem isName_iff {cs : List Char} : Index.isName cs = true ↔
    ∃ c t, cs = c :: t ∧ isNameStart c = true ∧ ∀ d ∈ t, isNamePart d = true := by
  cases cs with
  | nil => simp [Index.isName]
  | cons c t =>
    simp only [Index.isName, Bool.and_eq_true, List.all_eq_true, List.cons.injEq]
    constructor
    · rintro ⟨hc, ht⟩; exact ⟨c, t, ⟨rfl, rfl⟩, hc, ht⟩
    · rintro ⟨c, t, ⟨rfl, rfl⟩, hc, ht⟩; exact ⟨hc, ht⟩

theorem isNamePart_of_isName {cs : List Char} (h : Index.isName cs = true) :
    ∀ c ∈ cs, isNamePart c = true := by
  obtain ⟨c, t, rfl, hc, ht⟩ := isName_iff.1 h
  intro d hd
  rcases List.mem_cons.1 hd with rfl | hd
  · simp [isNamePart, hc]
  · exact ht d hd

theorem isPath_singleton {p : String} (h : Index.isName p.toList = true) : IsPath [p] p.toList :=
  ⟨by simp, by simpa using h, rfl⟩

theorem IsPath.cons {path : List String} {text : List Char} (h : IsPath path text) {p : String}
    (hp : Index.isName p.toList = true) : IsPath (p :: path) (p.toList ++ '.' :: text) := by
  obtain ⟨hne, hnames, rfl⟩ := h
  obtain ⟨q, qs, rfl⟩ := List.exists_cons_of_ne_nil hne
  exact ⟨by simp, List.forall_mem_cons.2 ⟨hp, hnames⟩, by simp [joinChars]⟩

/-- A path is a name, or a name in front of a path. -/
theorem IsPath.cases {path : List String} {text : List Char} (h : IsPath path text) :
    ∃ p, Index.isName p.toList = true ∧ (path = [p] ∧ text = p.toList ∨
      ∃ path' text', IsPath path' text' ∧ path = p :: path' ∧ text = p.toList ++ '.' :: text') := by
  obtain ⟨hne, hnames, rfl⟩ := h
  match path, hne, hnames with
  | [p], _, hnames => exact ⟨p, hnames p (by simp), .inl ⟨rfl, rfl⟩⟩
  | p :: q :: ps, _, hnames =>
    rw [List.forall_mem_cons] at hnames
    refine ⟨p, hnames.1, .inr ⟨q :: ps, _, ⟨by simp, hnames.2, rfl⟩, rfl, ?_⟩⟩
    simp [joinChars]

theorem IsPath.isPathPart {path : List String} {text : List Char} (h : IsPath path text) :
    ∀ c ∈ text, isPathPart c = true := by
  induction path generalizing text with
  | nil => exact absurd rfl h.1
  | cons p ps ih =>
    obtain ⟨q, hq, ⟨-, rfl⟩ | ⟨path', text', hpath', he, rfl⟩⟩ := h.cases
    · intro c hc
      simp [Filter.isPathPart, isNamePart_of_isName hq c hc]
    · cases he
      intro c hc
      rcases List.mem_append.1 hc with hc | hc
      · simp [Filter.isPathPart, isNamePart_of_isName hq c hc]
      · rcases List.mem_cons.1 hc with rfl | hc
        · rfl
        · exact ih hpath' c hc

/-- A path goes on as long as its last name does. -/
theorem IsPath.snoc {path : List String} {text : List Char} (h : IsPath path text) {c : Char}
    (hc : isNamePart c = true) : ∃ path', IsPath path' (text ++ [c]) := by
  induction path generalizing text with
  | nil => exact absurd rfl h.1
  | cons p ps ih =>
    obtain ⟨q, hq, ⟨-, rfl⟩ | ⟨path', text', hpath', he, rfl⟩⟩ := h.cases
    · refine ⟨[String.ofList (q.toList ++ [c])], ?_⟩
      have hname : Index.isName (q.toList ++ [c]) = true := by
        obtain ⟨d, t, he, hd, ht⟩ := isName_iff.1 hq
        rw [he, List.cons_append]
        refine isName_iff.2 ⟨d, t ++ [c], rfl, hd, fun e hin => ?_⟩
        rcases List.mem_append.1 hin with hin | hin
        · exact ht e hin
        · rwa [List.mem_singleton.1 hin]
      have := isPath_singleton (p := String.ofList (q.toList ++ [c])) (by simpa using hname)
      simpa using this
    · cases he
      obtain ⟨more, hmore⟩ := ih hpath'
      exact ⟨p :: more, by simpa using hmore.cons hq⟩

/-- The longest path is the one that no character of a path follows, unless it is a dot. -/
theorem readsField_iff {s rest : List Char} {path : List String} (hdot : rest.head? ≠ some '.') :
    ReadsField s path rest ↔
      ∃ text, s = text ++ rest ∧ IsPath path text ∧ Stops isPathPart rest := by
  constructor
  · rintro ⟨text, rfl, hpath, hlong⟩
    refine ⟨text, rfl, hpath, fun c hc => ?_⟩
    obtain ⟨r, rfl⟩ := List.head?_eq_some_iff.1 hc
    have hne : c ≠ '.' := fun e => hdot (by rw [e]; rfl)
    cases hpart : isNamePart c with
    | false => simp [isPathPart, hpart, hne]
    | true =>
      obtain ⟨path', hpath'⟩ := hpath.snoc hpart
      have := hlong path' _ hpath' ⟨r, by simp⟩
      rw [List.length_append] at this
      exact absurd this (Nat.not_succ_le_self _)
  · rintro ⟨text, rfl, hpath, hstop⟩
    refine ⟨text, rfl, hpath, fun path' text' hpath' hprefix => ?_⟩
    by_contra hlt
    -- A longer path would hold the character that stops this one.
    obtain ⟨more, rfl⟩ := List.prefix_of_prefix_length_le (List.prefix_append text rest) hprefix
      (Nat.le_of_not_le hlt)
    cases more with
    | nil => simp at hlt
    | cons c more =>
      have hc : c ∈ rest.head? := by
        obtain ⟨tail, ht⟩ := hprefix
        rw [List.append_assoc] at ht
        rw [← List.append_cancel_left ht]
        rfl
      have hpart := hpath'.isPathPart c (by simp)
      rw [hstop c hc] at hpart
      cases hpart

theorem taken_scanPath_cons (c : Char) (cs : List Char) : taken (scanPath (c :: cs)) =
    if isNameStart c then
      match cs.dropWhile isNamePart with
      | '.' :: rest => (taken (scanPath rest)).map fun r =>
          (String.ofList (c :: cs.takeWhile isNamePart) :: r.1, r.2)
      | rest => some ([String.ofList (c :: cs.takeWhile isNamePart)], rest)
    else none := by
  rw [scanPath]
  split
  · split
    · rename_i rest h
      simp only [h]
      cases scanPath rest <;> rfl
    · rename_i hne
      split
      · rename_i rest h
        exact (hne rest h).elim
      · rfl
  · rfl

/-- Reading a path stops only where no path goes on. -/
theorem isPath_of_taken {s rest : List Char} {path : List String}
    (h : taken (scanPath s) = some (path, rest)) :
    ∃ text, s = text ++ rest ∧ IsPath path text ∧ Stops isPathPart rest := by
  induction hn : s.length using Nat.strong_induction_on generalizing s path with
  | _ n ih =>
    cases s with
    | nil => rw [scanPath] at h; cases h
    | cons c cs =>
      rw [taken_scanPath_cons] at h
      split at h
      · rename_i hc
        have hname : Index.isName (c :: cs.takeWhile isNamePart) = true :=
          isName_iff.2 ⟨c, _, rfl, hc, fun d hd => List.mem_takeWhile_imp hd⟩
        have hcs := (List.takeWhile_append_dropWhile (p := isNamePart) (l := cs)).symm
        have hstop := stops_dropWhile isNamePart cs
        split at h
        · rename_i more hdrop
          obtain ⟨⟨path', rest'⟩, hmore, he⟩ := Option.map_eq_some_iff.1 h
          cases he
          have hlt := length_lt_of_dropWhile_cons (a := c) hdrop
          obtain ⟨text, rfl, hpath, hrest⟩ := ih more.length (hn ▸ hlt) hmore rfl
          refine ⟨_, ?_, hpath.cons (by simpa using hname), hrest⟩
          rw [hdrop] at hcs
          simp only [String.toList_ofList, List.cons_append, List.append_assoc]
          rw [← hcs]
        · rename_i hne
          cases h
          refine ⟨_, ?_, isPath_singleton (by simpa using hname), fun d hd => ?_⟩
          · simp only [String.toList_ofList, List.cons_append]
            rw [← hcs]
          · have hdot : d ≠ '.' := by
              rintro rfl
              obtain ⟨r, hr⟩ := List.head?_eq_some_iff.1 hd
              exact hne r hr
            simp [isPathPart, hstop d hd, hdot]
      · cases h

theorem IsPath.taken_append {path : List String} {text rest : List Char} (h : IsPath path text)
    (hstop : Stops Filter.isPathPart rest) :
    taken (scanPath (text ++ rest)) = some (path, rest) := by
  induction path generalizing text with
  | nil => exact absurd rfl h.1
  | cons p ps ih =>
    obtain ⟨q, hq, ⟨he, rfl⟩ | ⟨path', text', hpath', he, rfl⟩⟩ := h.cases
    · cases he
      obtain ⟨c, t, hct, hc, ht⟩ := isName_iff.1 hq
      rw [hct, List.cons_append, taken_scanPath_cons, if_pos hc,
        takeWhile_append_stop ht hstop.isNamePart, dropWhile_append_stop ht hstop.isNamePart,
        ← hct, String.ofList_toList]
      split
      · have := hstop '.' rfl
        cases this
      · rfl
    · cases he
      obtain ⟨c, t, hct, hc, ht⟩ := isName_iff.1 hq
      have hdot : Stops isNamePart ('.' :: (text' ++ rest)) := fun d hd => by cases hd; decide
      rw [List.append_assoc, List.cons_append, hct, List.cons_append, taken_scanPath_cons,
        if_pos hc, takeWhile_append_stop ht hdot, dropWhile_append_stop ht hdot, ← hct,
        String.ofList_toList]
      simp only [ih hpath', Option.map_some]

theorem taken_scanPath {s rest : List Char} {path : List String} :
    taken (scanPath s) = some (path, rest) ↔
      ∃ text, s = text ++ rest ∧ IsPath path text ∧ Stops isPathPart rest := by
  constructor
  · exact isPath_of_taken
  · rintro ⟨text, rfl, hpath, hstop⟩
    exact hpath.taken_append hstop

end SearchGateway.Filter
