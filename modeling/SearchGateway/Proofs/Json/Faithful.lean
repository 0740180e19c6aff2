import SearchGateway.Proofs.Json.Printing

/-!
# Faithful encodings

An encoding turns the values of a type into JSON values and writes those. What it has to get right
is said of the *atoms* of a value, its doubles and its texts: an encoding is `Faithful` if it fails
exactly on a double that is not finite, writes documents otherwise, and tells values apart that are
not alike. `faithful_of` reduces this to the JSON values: they show the atoms (`Shows`), and they
differ in more than the form of their numbers.
-/

namespace SearchGateway.Json

open SearchGateway.Text

/-! ### Texts of Unicode characters -/

theorem not_isHeld_hexDigit : ∀ n < 16, isHeld (hexDigit n) = false := by decide

theorem not_isHeld_of_isNumeric {c : Char} (h : isNumeric c = true) : isHeld c = false := by
  by_contra hheld
  have hle : firstHeld ≤ c.toNat := of_decide_eq_true (Bool.of_not_eq_false hheld)
  have hupper : c.toNat ≤ 101 := by
    simp only [isNumeric, Bool.or_eq_true, Char.isDigit, Bool.and_eq_true, decide_eq_true_eq,
      beq_iff_eq] at h
    rcases h with ((((h | h) | h) | h) | h) | h
    · have hnine : c.toNat ≤ 57 := h.2
      omega
    all_goals rw [h]; decide
  rw [firstHeld] at hle
  omega

theorem genuine_of_all {cs : List Char} (h : (cs.all fun c => !isHeld c) = true) : Genuine cs :=
  genuine_of_not_isHeld fun c hc => Bool.not_eq_true' _ ▸ List.all_eq_true.1 h c hc

theorem genuine_cons {c : Char} (hc : isHeld c = false) {cs : List Char} (h : Genuine cs) :
    Genuine (c :: cs) :=
  (genuine_of_not_isHeld (List.forall_mem_singleton.2 hc)).append h

theorem genuine_unicodeEscape (c : Char) : Genuine (unicodeEscape c) := by
  refine genuine_of_not_isHeld fun d hd => ?_
  simp only [unicodeEscape, List.mem_cons, List.not_mem_nil, or_false] at hd
  rcases hd with rfl | rfl | rfl | rfl | rfl | rfl
  · decide
  · decide
  all_goals exact not_isHeld_hexDigit _ (by omega)

theorem genuine_escapeChar (markup : Bool) {c : Char} (hc : isHeld c = false) :
    Genuine (escapeChar markup c) := by
  have hpair (d : Char) (hd : isHeld d = false) : Genuine ['\\', d] :=
    genuine_cons (by decide) (genuine_cons hd genuine_nil)
  unfold escapeChar
  split_ifs
  · exact hpair _ (by decide)
  · exact hpair _ (by decide)
  · exact hpair _ (by decide)
  · exact hpair _ (by decide)
  · exact hpair _ (by decide)
  · exact genuine_unicodeEscape c
  · exact genuine_cons hc genuine_nil

theorem genuine_quote (markup : Bool) {s : String} (h : IsUnicode s) :
    Genuine (quote markup s.toList) := by
  obtain ⟨u, rfl⟩ := h
  rw [quote, glyphs_ofUnicode, List.flatMap_map]
  refine genuine_cons (by decide) (Genuine.append (Genuine.flatMap fun c _ => ?_)
    (genuine_cons (by decide) genuine_nil))
  rw [escapeGlyph]
  cases hc : isHeld c with
  | true => exact genuine_ofChar c
  | false => exact genuine_escapeChar markup hc

theorem genuine_number (n : Number) : Genuine n.text :=
  genuine_of_not_isHeld fun c hc => not_isHeld_of_isNumeric (n.isNumeric_text c hc)

mutual

/-- A value of Unicode texts is printed as one. -/
theorem genuine_print (markupKeys : Bool) : (v : Json) → v.copies = [] →
    (∀ x ∈ v.doubles, x.isFinite = true) → (∀ s ∈ v.texts, IsUnicode s) →
    Genuine (v.print markupKeys)
  | null, _, _, _ => by
    rw [print]
    exact genuine_of_all (by decide)
  | bool b, _, _, _ => by
    rw [print, boolChars]
    cases b <;> exact genuine_of_all (by decide)
  | int i, _, _, _ => by
    obtain ⟨n, htext, -⟩ := exists_number_int i
    rw [print, ← htext]
    exact genuine_number n
  | float x, _, hfinite, _ => by
    obtain ⟨n, htext, -⟩ := Binary64.exists_number_float (hfinite x (List.mem_singleton_self x))
    rw [print, ← htext]
    exact genuine_number n
  | string s, _, _, htexts => genuine_quote true (htexts s (List.mem_singleton_self s))
  | array vs, hcopies, hfinite, htexts => by
    rw [print]
    exact genuine_cons (by decide) ((genuine_printItems markupKeys vs hcopies hfinite htexts).append
      (genuine_cons (by decide) genuine_nil))
  | object ms, hcopies, hfinite, htexts => by
    rw [print]
    exact genuine_cons (by decide)
      ((genuine_printMembers markupKeys ms hcopies hfinite htexts).append
        (genuine_cons (by decide) genuine_nil))
  | raw text, hcopies, _, _ => by cases hcopies

theorem genuine_printItems (markupKeys : Bool) : (vs : List Json) →
    collectItems copyOf (fun _ => []) vs = [] →
    (∀ x ∈ collectItems doubleOf (fun _ => []) vs, x.isFinite = true) →
    (∀ s ∈ collectItems textOf (fun k => [k]) vs, IsUnicode s) → Genuine (printItems markupKeys vs)
  | [], _, _, _ => genuine_nil
  | [v], hcopies, hfinite, htexts => by
    rw [collectItems, List.append_eq_nil_iff] at hcopies
    rw [collectItems, List.forall_mem_append] at hfinite htexts
    rw [printItems]
    exact genuine_print markupKeys v hcopies.1 hfinite.1 htexts.1
  | v :: w :: vs, hcopies, hfinite, htexts => by
    rw [collectItems, List.append_eq_nil_iff] at hcopies
    rw [collectItems, List.forall_mem_append] at hfinite htexts
    rw [printItems_cons_cons]
    exact (genuine_print markupKeys v hcopies.1 hfinite.1 htexts.1).append
      (genuine_cons (by decide)
        (genuine_printItems markupKeys (w :: vs) hcopies.2 hfinite.2 htexts.2))

theorem genuine_printMembers (markupKeys : Bool) : (ms : List (String × Json)) →
    collectMembers copyOf (fun _ => []) ms = [] →
    (∀ x ∈ collectMembers doubleOf (fun _ => []) ms, x.isFinite = true) →
    (∀ s ∈ collectMembers textOf (fun k => [k]) ms, IsUnicode s) →
    Genuine (printMembers markupKeys ms)
  | [], _, _, _ => genuine_nil
  | [(k, v)], hcopies, hfinite, htexts => by
    rw [collectMembers, List.nil_append, List.append_eq_nil_iff] at hcopies
    rw [collectMembers, List.nil_append, List.forall_mem_append] at hfinite
    rw [collectMembers, List.forall_mem_append, List.forall_mem_append,
      List.forall_mem_singleton] at htexts
    rw [printMembers]
    exact (genuine_quote markupKeys htexts.1).append (genuine_cons (by decide)
      (genuine_print markupKeys v hcopies.1 hfinite.1 htexts.2.1))
  | (k, v) :: m :: ms, hcopies, hfinite, htexts => by
    rw [collectMembers, List.nil_append, List.append_eq_nil_iff] at hcopies
    rw [collectMembers, List.nil_append, List.forall_mem_append] at hfinite
    rw [collectMembers, List.forall_mem_append, List.forall_mem_append,
      List.forall_mem_singleton] at htexts
    rw [printMembers_cons_cons]
    exact (genuine_quote markupKeys htexts.1).append (genuine_cons (by decide)
      ((genuine_print markupKeys v hcopies.1 hfinite.1 htexts.2.1).append (genuine_cons (by decide)
        (genuine_printMembers markupKeys (m :: ms) hcopies.2 hfinite.2 htexts.2.2))))

end

/-! ### Records -/

section said

variable (value key : String → String)

theorem said_array (items : List Json) :
    (array items).said value key = array (items.map (said value key)) := by
  rw [said, saidItems_eq]

theorem said_object (members : List (String × Json)) : (object members).said value key =
    object (members.map fun m => (key m.1, m.2.said value key)) := by
  rw [said, saidMembers_eq]

theorem said_record (members : List (String × Option Json)) : (record members).said value key =
    record (members.map fun m => (key m.1, m.2.map (said value key))) := by
  rw [record, said_object, record, List.map_filterMap, List.filterMap_map]
  congr 2
  funext ⟨k, o⟩
  cases o <;> rfl

end said

theorem numerals_array (items : List Json) : (array items).numerals = array (items.map numerals) :=
  said_array id id items

theorem numerals_object (members : List (String × Json)) :
    (object members).numerals = object (members.map fun m => (m.1, m.2.numerals)) :=
  said_object id id members

theorem numerals_record (members : List (String × Option Json)) :
    (record members).numerals = record (members.map fun m => (m.1, m.2.map numerals)) :=
  said_record id id members

/-- Objects of one member. -/
theorem eq_of_numerals_single {k k' : String} {v v' : Json}
    (h : (object [(k, v)]).numerals = (object [(k', v')]).numerals) :
    k = k' ∧ v.numerals = v'.numerals := by
  simpa [numerals_object] using h

/-- Objects of one member that is an object of one member. -/
theorem eq_of_numerals_inner {k l k' l' : String} {v v' : Json}
    (h : (object [(k, object [(l, v)])]).numerals = (object [(k', object [(l', v')])]).numerals) :
    l = l' ∧ v.numerals = v'.numerals :=
  eq_of_numerals_single (eq_of_numerals_single h).2

theorem eq_of_numerals_pair {k l k' l' : String} {v w v' w' : Json}
    (h : (object [(k, v), (l, w)]).numerals = (object [(k', v'), (l', w')]).numerals) :
    (k = k' ∧ v.numerals = v'.numerals) ∧ l = l' ∧ w.numerals = w'.numerals := by
  simpa [numerals_object] using h

/-- The members of a record that are given. -/
theorem sublist_keys (members : List (String × Option Json)) :
    ((members.filterMap fun m => m.2.map fun v => (m.1, v)).map (·.1)).Sublist
      (members.map (·.1)) := by
  induction members with
  | nil => exact List.Sublist.slnil
  | cons m ms ih =>
    obtain ⟨k, o⟩ := m
    cases o with
    | none => exact ih.cons k
    | some v => exact ih.cons_cons k

theorem key_mem_of_mem {members : List (String × Option Json)} {m : String × Json}
    (h : m ∈ members.filterMap fun m => m.2.map fun v => (m.1, v)) :
    m.1 ∈ members.map (·.1) :=
  (sublist_keys members).subset (List.mem_map_of_mem h)

/-- A record over different keys tells which members are given. -/
theorem record_inj {ms ms' : List (String × Option Json)} (hkeys : ms.map (·.1) = ms'.map (·.1))
    (hnodup : (ms.map (·.1)).Nodup) (h : record ms = record ms') : ms = ms' := by
  injection h with h
  induction ms generalizing ms' with
  | nil => exact (List.map_eq_nil_iff.1 hkeys.symm).symm
  | cons m ms ih =>
    obtain ⟨m', ms', rfl⟩ : ∃ m' more, ms' = m' :: more :=
      List.exists_cons_of_ne_nil fun hnil => by rw [hnil] at hkeys; cases hkeys
    obtain ⟨k, o⟩ := m
    obtain ⟨k', o'⟩ := m'
    rw [List.map_cons, List.map_cons] at hkeys
    obtain ⟨hk, hrest⟩ := List.cons.inj hkeys
    cases hk
    obtain ⟨hfresh, hdistinct⟩ := List.nodup_cons.1 hnodup
    -- A member on one side only would have to stand among the later keys of the other.
    cases o with
    | none =>
      cases o' with
      | none => rw [ih hrest hdistinct h]
      | some v' =>
        have hmem : (k, v') ∈ ms.filterMap fun m => m.2.map fun v => (m.1, v) :=
          h.symm ▸ List.mem_cons_self
        exact absurd (key_mem_of_mem hmem) hfresh
    | some v =>
      cases o' with
      | none =>
        have hmem : (k, v) ∈ ms'.filterMap fun m => m.2.map fun v => (m.1, v) :=
          h ▸ List.mem_cons_self
        exact absurd (hrest ▸ key_mem_of_mem hmem) hfresh
      | some v' =>
        obtain ⟨hv, htail⟩ := List.cons.inj h
        cases hv
        rw [ih hrest hdistinct htail]

theorem eq_of_numerals_record {ms ms' : List (String × Option Json)}
    (h : (record ms).numerals = (record ms').numerals) (hkeys : ms.map (·.1) = ms'.map (·.1))
    (hnodup : (ms.map (·.1)).Nodup) :
    ms.map (fun m => (m.1, m.2.map numerals)) = ms'.map fun m => (m.1, m.2.map numerals) := by
  have hfst (l : List (String × Option Json)) :
      (l.map fun m => (m.1, m.2.map numerals)).map (·.1) = l.map (·.1) := by
    rw [List.map_map]
    rfl
  rw [numerals_record, numerals_record] at h
  exact record_inj (by rw [hfst, hfst, hkeys]) (by rw [hfst]; exact hnodup) h

theorem numerals_text?_iff {s t : String} :
    (text? s).map numerals = (text? t).map numerals ↔ s = t := by
  unfold text?
  by_cases hs : s = "" <;> by_cases ht : t = "" <;>
    simp [hs, ht, numerals, said, eq_comm]

theorem numerals_list?_iff {vs ws : List Json} :
    (list? vs).map numerals = (list? ws).map numerals ↔ vs.map numerals = ws.map numerals := by
  cases vs <;> cases ws <;> simp [list?, numerals_array]

/-! ### What a value shows -/

section collect

variable {α β : Type} (scalar : Json → List α) (key : String → List α)

theorem collect_array (items : List Json) :
    (array items).collect scalar key = items.flatMap (collect scalar key) := by
  rw [collect, collectItems_eq]

theorem collect_object (members : List (String × Json)) : (object members).collect scalar key =
    members.flatMap fun m => key m.1 ++ m.2.collect scalar key := by
  rw [collect, collectMembers_eq]

/-- What a member of a record contributes. -/
def collectMember (m : String × Option Json) : List α :=
  m.2.elim [] fun v => key m.1 ++ v.collect scalar key

theorem collect_record (members : List (String × Option Json)) :
    (record members).collect scalar key = members.flatMap (collectMember scalar key) := by
  rw [record, collect_object]
  induction members with
  | nil => rfl
  | cons m ms ih =>
    obtain ⟨k, o⟩ := m
    cases o with
    | none => exact ih
    | some v => rw [List.flatMap_cons, ← ih]; rfl

mutual

theorem flatMap_collect (f : α → List β) : (v : Json) →
    (v.collect scalar key).flatMap f =
      v.collect (fun w => (scalar w).flatMap f) fun k => (key k).flatMap f
  | null | bool _ | int _ | float _ | string _ | raw _ => by simp only [collect]
  | array items => by
    rw [collect, collect, flatMap_collectItems f items]
  | object members => by
    rw [collect, collect, flatMap_collectMembers f members]

theorem flatMap_collectItems (f : α → List β) : (items : List Json) →
    (collectItems scalar key items).flatMap f =
      collectItems (fun w => (scalar w).flatMap f) (fun k => (key k).flatMap f) items
  | [] => rfl
  | v :: vs => by
    rw [collectItems, collectItems, List.flatMap_append, flatMap_collect f v,
      flatMap_collectItems f vs]

theorem flatMap_collectMembers (f : α → List β) : (members : List (String × Json)) →
    (collectMembers scalar key members).flatMap f =
      collectMembers (fun w => (scalar w).flatMap f) (fun k => (key k).flatMap f) members
  | [] => rfl
  | (k, v) :: ms => by
    rw [collectMembers, collectMembers, List.flatMap_append, List.flatMap_append,
      flatMap_collect f v, flatMap_collectMembers f ms]

end

end collect

/-- A double or a text. -/
inductive Atom
  | double (x : Binary64)
  | text (s : String)

/-- A double of the atoms that is not finite cannot be written. -/
def Writable (atoms : List Atom) : Prop := ∀ x, .double x ∈ atoms → x.isFinite = true

theorem writable_append {as bs : List Atom} :
    Writable (as ++ bs) ↔ Writable as ∧ Writable bs := by
  simp only [Writable, List.mem_append, or_imp, forall_and]

theorem writable_double {x : Binary64} {as : List Atom} :
    Writable (.double x :: as) ↔ x.isFinite = true ∧ Writable as := by
  simp only [Writable, List.mem_cons, Atom.double.injEq, or_imp, forall_and, forall_eq]

theorem writable_text {s : String} {as : List Atom} : Writable (.text s :: as) ↔ Writable as := by
  simp only [Writable, List.mem_cons, reduceCtorEq, false_or]

/-- All texts of the atoms are of Unicode characters. -/
def Readable (atoms : List Atom) : Prop := ∀ s, .text s ∈ atoms → IsUnicode s

/-- A way to collect from values that passes over everything except doubles and texts, and over
texts of Unicode characters. -/
structure Selects {α : Type} (scalar : Json → List α) (text : String → List α) : Prop where
  null : scalar null = []
  bool : ∀ b, scalar (bool b) = []
  int : ∀ i, scalar (int i) = []
  string : ∀ s, scalar (string s) = text s
  unicode : ∀ s, IsUnicode s → text s = []

def Atom.select {α : Type} (scalar : Json → List α) (key : String → List α) : Atom → List α
  | double x => scalar (float x)
  | text s => key s

/-- The doubles and the texts of a value are the atoms, up to texts of Unicode characters. -/
def Shows (v : Json) (atoms : List Atom) : Prop :=
  ∀ (α : Type) (scalar : Json → List α) (key : String → List α), Selects scalar key →
    v.collect scalar key = atoms.flatMap (Atom.select scalar key)

section Shows

variable {v : Json} {atoms : List Atom}

theorem Shows.mem_doubles (h : Shows v atoms) {x : Binary64} :
    x ∈ v.doubles ↔ .double x ∈ atoms := by
  have hselects : Selects doubleOf fun _ => [] :=
    ⟨rfl, fun _ => rfl, fun _ => rfl, fun _ => rfl, fun _ _ => rfl⟩
  rw [doubles, h _ doubleOf _ hselects, List.mem_flatMap]
  constructor
  · rintro ⟨a, ha, hx⟩
    cases a with
    | double y => rwa [List.mem_singleton.1 hx]
    | text s => cases hx
  · intro hx
    exact ⟨_, hx, List.mem_singleton_self x⟩

theorem Shows.copies_eq_nil (h : Shows v atoms) : v.copies = [] := by
  have hselects : Selects copyOf fun _ => [] :=
    ⟨rfl, fun _ => rfl, fun _ => rfl, fun _ => rfl, fun _ _ => rfl⟩
  rw [copies, h _ copyOf _ hselects, List.flatMap_eq_nil_iff]
  intro a _
  cases a <;> rfl

open Classical in
/-- The texts that are not of Unicode characters only. -/
noncomputable def strays (s : String) : List String := if IsUnicode s then [] else [s]

theorem Shows.isUnicode (h : Shows v atoms) (hatoms : Readable atoms) :
    ∀ s ∈ v.texts, IsUnicode s := by
  have hselects : Selects (fun w => (textOf w).flatMap strays) fun k => [k].flatMap strays :=
    ⟨rfl, fun _ => rfl, fun _ => rfl, fun _ => rfl, fun s hs => by simp [strays, hs]⟩
  have hstrays : v.texts.flatMap strays = [] := by
    rw [texts, flatMap_collect, h _ _ _ hselects, List.flatMap_eq_nil_iff]
    intro a ha
    cases a with
    | double x => rfl
    | text s => simp [Atom.select, strays, hatoms s ha]
  intro s hs
  have hs' := List.flatMap_eq_nil_iff.1 hstrays s hs
  by_contra hnot
  simp [strays, hnot] at hs'

end Shows

/-! ### Encodings -/

/-- An encoding fails exactly on a double that is not finite. What it writes is a document, without
control characters and of Unicode characters if the texts are; and if they are, it tells the value
up to `Alike`. -/
structure Faithful {α : Type} (encode : α → Except Binary64 String) (atoms : α → List Atom)
    (Alike : α → α → Prop) : Prop where
  fails_iff : ∀ a, (∃ x, encode a = .error x) ↔ ∃ x, .double x ∈ atoms a ∧ x.isFinite = false
  document : ∀ a text, encode a = .ok text →
    (∃ d : Document, d.text = text.toList) ∧ ∀ c ∈ text.toList, 0x20 ≤ c.toNat
  unicode : ∀ a text, encode a = .ok text → Readable (atoms a) → IsUnicode text
  eq_iff : ∀ a b text text', encode a = .ok text → encode b = .ok text' →
    Readable (atoms a) → Readable (atoms b) → (text = text' ↔ Alike a b)

theorem faithful_of {α : Type} {json : α → Json} {atoms : α → List Atom} {Alike : α → α → Prop}
    (markupKeys : Bool) (hshows : ∀ a, Shows (json a) (atoms a))
    (halike : ∀ a b, Writable (atoms a) → Writable (atoms b) →
      ((json a).numerals = (json b).numerals ↔ Alike a b)) :
    Faithful (fun a => (json a).write markupKeys) atoms Alike where
  fails_iff a := by
    rw [exists_write_eq_error_iff]
    simp only [(hshows a).mem_doubles]
  document a text h := by
    obtain ⟨hfinite, htext⟩ := write_eq_ok_iff.1 h
    obtain ⟨d, hd, -, hprintable⟩ :=
      exists_isPrinted markupKeys (json a) (hshows a).copies_eq_nil hfinite
    rw [htext, ← hd]
    exact ⟨⟨d, rfl⟩, hprintable⟩
  unicode a text h hatoms := by
    obtain ⟨hfinite, htext⟩ := write_eq_ok_iff.1 h
    rw [isUnicode_iff, htext]
    exact genuine_print markupKeys _ (hshows a).copies_eq_nil hfinite ((hshows a).isUnicode hatoms)
  eq_iff a b text text' h h' hatoms hatoms' := by
    obtain ⟨hfinite, htext⟩ := write_eq_ok_iff.1 h
    obtain ⟨hfinite', htext'⟩ := write_eq_ok_iff.1 h'
    rw [← String.toList_inj, htext, htext',
      print_eq_iff (hshows a).copies_eq_nil (hshows b).copies_eq_nil hfinite hfinite'
        ((hshows a).isUnicode hatoms) ((hshows b).isUnicode hatoms')]
    exact halike a b (fun x hx => hfinite x ((hshows a).mem_doubles.2 hx))
      fun x hx => hfinite' x ((hshows b).mem_doubles.2 hx)

end SearchGateway.Json
