import SearchGateway.Proofs.Json.Content
import SearchGateway.Proofs.Json.Numerals
import SearchGateway.Proofs.Json.Quoting

/-!
# Printed values

A value without a copied text is printed as a document, unless it holds a double that is not finite
(`exists_isPrinted`). What the text says is the value again (`said`), except that an integer and a
double of the same digits look alike, and that a stray byte is lost. By `content_eq_of_text_eq` the
text decides that much, so values of Unicode texts are printed alike exactly if they are the same up
to numbers of the same digits (`print_eq_iff`).
-/

namespace SearchGateway.Json

open SearchGateway.Text

/-! ### Parts of a value -/

section collect

variable {α : Type} (scalar : Json → List α) (key : String → List α)

mutual

/-- What the scalars and the keys of a value contribute, in the order of the text. -/
def collect : Json → List α
  | array items => collectItems items
  | object members => collectMembers members
  | v => scalar v

def collectItems : List Json → List α
  | [] => []
  | v :: vs => collect v ++ collectItems vs

def collectMembers : List (String × Json) → List α
  | [] => []
  | (k, v) :: ms => key k ++ (collect v ++ collectMembers ms)

end

theorem collectItems_eq (items : List Json) :
    collectItems scalar key items = items.flatMap (collect scalar key) := by
  induction items with
  | nil => rfl
  | cons v vs ih => rw [collectItems, ih, List.flatMap_cons]

theorem collectMembers_eq (members : List (String × Json)) :
    collectMembers scalar key members =
      members.flatMap fun m => key m.1 ++ collect scalar key m.2 := by
  induction members with
  | nil => rfl
  | cons m ms ih => rw [collectMembers, ih, List.flatMap_cons, List.append_assoc]

end collect

def doubleOf : Json → List Binary64
  | float x => [x]
  | _ => []

/-- The doubles of a value. -/
def doubles (v : Json) : List Binary64 := v.collect doubleOf fun _ => []

def textOf : Json → List String
  | string s => [s]
  | _ => []

/-- The texts of a value and its keys. -/
def texts (v : Json) : List String := v.collect textOf fun k => [k]

def copyOf : Json → List (List Char)
  | raw text => [text]
  | _ => []

/-- The texts that are copied into a value. -/
def copies (v : Json) : List (List Char) := v.collect copyOf fun _ => []

/-! ### Values that cannot be written -/

mutual

theorem lastUnwritable_eq_none_iff : (v : Json) →
    (v.lastUnwritable = none ↔ ∀ x ∈ v.doubles, x.isFinite = true)
  | null => by simp [lastUnwritable, doubles, collect, doubleOf]
  | bool _ => by simp [lastUnwritable, doubles, collect, doubleOf]
  | int _ => by simp [lastUnwritable, doubles, collect, doubleOf]
  | float x => by
    simp only [lastUnwritable, doubles, collect, doubleOf, List.forall_mem_singleton]
    cases x.isFinite <;> simp
  | string _ => by simp [lastUnwritable, doubles, collect, doubleOf]
  | array items => by
    rw [lastUnwritable, doubles, collect]
    exact lastUnwritableItem_eq_none_iff items
  | object members => by
    rw [lastUnwritable, doubles, collect]
    exact lastUnwritableMember_eq_none_iff members
  | raw _ => by simp [lastUnwritable, doubles, collect, doubleOf]

theorem lastUnwritableItem_eq_none_iff : (items : List Json) →
    (lastUnwritableItem items = none ↔
      ∀ x ∈ collectItems doubleOf (fun _ => []) items, x.isFinite = true)
  | [] => by simp [lastUnwritableItem, collectItems]
  | v :: vs => by
    rw [lastUnwritableItem, Option.orElse_eq_orElse, Option.orElse_eq_or, Option.or_eq_none_iff,
      lastUnwritableItem_eq_none_iff vs, lastUnwritable_eq_none_iff v, collectItems,
      List.forall_mem_append, and_comm]
    rfl

theorem lastUnwritableMember_eq_none_iff : (members : List (String × Json)) →
    (lastUnwritableMember members = none ↔
      ∀ x ∈ collectMembers doubleOf (fun _ => []) members, x.isFinite = true)
  | [] => by simp [lastUnwritableMember, collectMembers]
  | (k, v) :: ms => by
    rw [lastUnwritableMember, Option.orElse_eq_orElse, Option.orElse_eq_or, Option.or_eq_none_iff,
      lastUnwritableMember_eq_none_iff ms, lastUnwritable_eq_none_iff v, collectMembers,
      List.nil_append, List.forall_mem_append, and_comm]
    rfl

end

theorem write_eq_ok_iff {v : Json} {markupKeys : Bool} {text : String} :
    v.write markupKeys = .ok text ↔
      (∀ x ∈ v.doubles, x.isFinite = true) ∧ text.toList = v.print markupKeys := by
  rw [← lastUnwritable_eq_none_iff, write]
  cases v.lastUnwritable with
  | none =>
    rw [Except.ok.injEq, ← String.toList_inj, String.toList_ofList]
    simp [eq_comm]
  | some x => simp

theorem exists_write_eq_error_iff {v : Json} {markupKeys : Bool} :
    (∃ x, v.write markupKeys = .error x) ↔ ∃ x ∈ v.doubles, x.isFinite = false := by
  have hnone := lastUnwritable_eq_none_iff v
  rw [write]
  cases hlast : v.lastUnwritable with
  | none =>
    rw [hlast] at hnone
    simpa using fun x hx => hnone.1 rfl x hx
  | some x =>
    rw [hlast] at hnone
    simpa using hnone

/-! ### What is said -/

section said

variable (value key : String → String)

mutual

/-- A value with its texts and keys replaced and its numbers by their digits. -/
def said : Json → Json
  | int i => raw (intChars i)
  | float x => raw x.jsonChars
  | string s => string (value s)
  | array items => array (saidItems items)
  | object members => object (saidMembers members)
  | v => v

def saidItems : List Json → List Json
  | [] => []
  | v :: vs => said v :: saidItems vs

def saidMembers : List (String × Json) → List (String × Json)
  | [] => []
  | (k, v) :: ms => (key k, said v) :: saidMembers ms

end

theorem saidItems_eq (items : List Json) :
    saidItems value key items = items.map (said value key) := by
  induction items with
  | nil => rfl
  | cons v vs ih => rw [saidItems, ih, List.map_cons]

theorem saidMembers_eq (members : List (String × Json)) :
    saidMembers value key members = members.map fun m => (key m.1, said value key m.2) := by
  induction members with
  | nil => rfl
  | cons m ms ih => rw [saidMembers, ih, List.map_cons]

end said

/-- A value with its numbers by their digits. -/
def numerals (v : Json) : Json := v.said id id

section numerals

variable {value key : String → String}

mutual

theorem said_eq_numerals : (v : Json) → (∀ s ∈ v.texts, value s = s ∧ key s = s) →
    v.said value key = v.numerals
  | null, _ => rfl
  | bool _, _ => rfl
  | int _, _ => rfl
  | float _, _ => rfl
  | string s, h => by
    have hs := (h s (List.mem_singleton_self s)).1
    rw [said, numerals, said, hs]
    rfl
  | array items, h => by
    rw [said, numerals, said, saidItems_eq_numerals items h]
  | object members, h => by
    rw [said, numerals, said, saidMembers_eq_numerals members h]
  | raw _, _ => rfl

theorem saidItems_eq_numerals : (items : List Json) →
    (∀ s ∈ collectItems textOf (fun k => [k]) items, value s = s ∧ key s = s) →
    saidItems value key items = saidItems id id items
  | [], _ => rfl
  | v :: vs, h => by
    rw [collectItems, List.forall_mem_append] at h
    rw [saidItems, saidItems, said_eq_numerals v h.1, saidItems_eq_numerals vs h.2]
    rfl

theorem saidMembers_eq_numerals : (members : List (String × Json)) →
    (∀ s ∈ collectMembers textOf (fun k => [k]) members, value s = s ∧ key s = s) →
    saidMembers value key members = saidMembers id id members
  | [], _ => rfl
  | (k, v) :: ms, h => by
    rw [collectMembers, List.forall_mem_append, List.forall_mem_append,
      List.forall_mem_singleton] at h
    rw [saidMembers, saidMembers, said_eq_numerals v h.2.1, saidMembers_eq_numerals ms h.2.2,
      h.1.2]
    rfl

end

end numerals

theorem printItems_cons_cons (markupKeys : Bool) (v w : Json) (vs : List Json) :
    printItems markupKeys (v :: w :: vs) =
      print markupKeys v ++ ',' :: printItems markupKeys (w :: vs) := by
  rw [printItems]
  exact fun h => nomatch h

theorem printMembers_cons_cons (markupKeys : Bool) (k : String) (v : Json) (m : String × Json)
    (ms : List (String × Json)) : printMembers markupKeys ((k, v) :: m :: ms) =
      quote markupKeys k.toList ++
        ':' :: (print markupKeys v ++ ',' :: printMembers markupKeys (m :: ms)) := by
  rw [printMembers]
  exact fun h => nomatch h

mutual

/-- The digits of a number are all that is printed of it. -/
theorem print_numerals (markupKeys : Bool) : (v : Json) →
    v.numerals.print markupKeys = v.print markupKeys
  | null => rfl
  | bool _ => rfl
  | int _ => by rw [numerals, said, print, print]
  | float _ => by rw [numerals, said, print, print]
  | string _ => rfl
  | array items => by rw [numerals, said, print, print, printItems_numerals markupKeys items]
  | object members => by
    rw [numerals, said, print, print, printMembers_numerals markupKeys members]
  | raw _ => rfl

theorem printItems_numerals (markupKeys : Bool) : (items : List Json) →
    printItems markupKeys (saidItems id id items) = printItems markupKeys items
  | [] => rfl
  | [v] => by
    have hv := print_numerals markupKeys v
    rw [saidItems, saidItems, printItems, printItems]
    exact hv
  | v :: w :: vs => by
    have hv := print_numerals markupKeys v
    have hvs := printItems_numerals markupKeys (w :: vs)
    rw [saidItems] at hvs
    rw [saidItems, saidItems, printItems_cons_cons, printItems_cons_cons, hvs, ← hv]
    rfl

theorem printMembers_numerals (markupKeys : Bool) : (members : List (String × Json)) →
    printMembers markupKeys (saidMembers id id members) = printMembers markupKeys members
  | [] => rfl
  | [(k, v)] => by
    have hv := print_numerals markupKeys v
    rw [saidMembers, saidMembers, printMembers, printMembers, ← hv]
    rfl
  | (k, v) :: m :: ms => by
    have hv := print_numerals markupKeys v
    have hms := printMembers_numerals markupKeys (m :: ms)
    rw [saidMembers] at hms
    rw [saidMembers, saidMembers, printMembers_cons_cons, printMembers_cons_cons, hms, ← hv]
    rfl

end

/-! ### Documents of values -/

/-- A document of the text that says the value and has no control character. -/
def IsPrinted (markupKeys : Bool) (v : Json) (d : Document) : Prop :=
  d.text = v.print markupKeys ∧ d.content = v.said (written true) (written markupKeys) ∧
    ∀ c ∈ d.text, 0x20 ≤ c.toNat

theorem le_toNat_of_isNumeric {c : Char} (h : isNumeric c = true) : 0x20 ≤ c.toNat := by
  by_contra hlt
  have hnumeric : ∀ n < 0x20, isNumeric (Char.ofNat n) = false := by decide
  have hfalse := hnumeric c.toNat (by omega)
  rw [Char.ofNat_toNat, h] at hfalse
  cases hfalse

theorem isPrinted_number (markupKeys : Bool) {v : Json} {n : Number}
    (hprint : v.print markupKeys = n.text)
    (hsaid : v.said (written true) (written markupKeys) = raw n.text) :
    IsPrinted markupKeys v (.number n) := by
  refine ⟨?_, ?_, ?_⟩
  · rw [Document.text, hprint]
  · rw [Document.content, hsaid]
  · intro c hc
    rw [Document.text] at hc
    exact le_toNat_of_isNumeric (n.isNumeric_text c hc)

theorem isPrinted_word (markupKeys : Bool) {v : Json} {d : Document}
    (htext : d.text = v.print markupKeys)
    (hcontent : d.content = v.said (written true) (written markupKeys))
    (hletters : (d.text.all fun c => 0x20 ≤ c.toNat) = true) : IsPrinted markupKeys v d :=
  ⟨htext, hcontent, fun c hc => of_decide_eq_true (List.all_eq_true.1 hletters c hc)⟩

theorem forall_mem_enclosed {p : Char → Prop} {left right : Char} (hleft : p left)
    (hright : p right) {s : List Char} (hs : ∀ c ∈ s, p c) : ∀ c ∈ left :: (s ++ [right]), p c :=
  List.forall_mem_cons.2 ⟨hleft, List.forall_mem_append.2
    ⟨hs, List.forall_mem_singleton.2 hright⟩⟩

theorem exists_isPrinted_string (markupKeys : Bool) (s : String) :
    ∃ d, IsPrinted markupKeys (string s) d := by
  obtain ⟨l, hquote, hvalue, hlone, hprintable⟩ := exists_literal true s
  refine ⟨.string l, ?_, ?_, ?_⟩
  · rw [Document.text, print, hquote]
  · rw [Document.content, string?_of_isLone hlone, said, ← hvalue]
    rfl
  · rw [Document.text]
    exact forall_mem_enclosed (by decide) (by decide) hprintable

def ItemsPrinted (markupKeys : Bool) (vs : List Json) (items : List (Blank × Document × Blank)) :
    Prop :=
  Document.itemsText [] items = printItems markupKeys vs ∧
    Document.itemsContent items = saidItems (written true) (written markupKeys) vs ∧
    ∀ c ∈ Document.itemsText [] items, 0x20 ≤ c.toNat

theorem itemsPrinted_singleton {markupKeys : Bool} {v : Json} {d : Document}
    (h : IsPrinted markupKeys v d) : ItemsPrinted markupKeys [v] [(noBlank, d, noBlank)] := by
  obtain ⟨htext, hcontent, hprintable⟩ := h
  have hitems : Document.itemsText [] [(noBlank, d, noBlank)] = d.text := by
    simp [Document.itemsText, noBlank]
  refine ⟨?_, ?_, ?_⟩
  · rw [hitems, htext, printItems]
  · rw [Document.itemsContent, Document.itemsContent, saidItems, saidItems, hcontent]
  · rw [hitems]
    exact hprintable

theorem ItemsPrinted.cons {markupKeys : Bool} {v w : Json} {vs : List Json} {d : Document}
    {items : List (Blank × Document × Blank)} (hd : IsPrinted markupKeys v d)
    (h : ItemsPrinted markupKeys (w :: vs) items) :
    ItemsPrinted markupKeys (v :: w :: vs) ((noBlank, d, noBlank) :: items) := by
  obtain ⟨htext, hcontent, hprintable⟩ := hd
  obtain ⟨hitems, hcontents, hprintable'⟩ := h
  obtain ⟨item, more, rfl⟩ : ∃ item more, items = item :: more := by
    cases items with
    | nil => rw [Document.itemsContent, saidItems] at hcontents; cases hcontents
    | cons item more => exact ⟨item, more, rfl⟩
  have hall : Document.itemsText [] ((noBlank, d, noBlank) :: item :: more) =
      d.text ++ ',' :: Document.itemsText [] (item :: more) := by
    rw [Document.itemsText, Document.itemsText_comma]
    simp [noBlank]
  refine ⟨?_, ?_, ?_⟩
  · rw [hall, htext, hitems, printItems_cons_cons]
  · rw [Document.itemsContent, hcontents, hcontent]
    rfl
  · rw [hall]
    exact List.forall_mem_append.2 ⟨hprintable, List.forall_mem_cons.2 ⟨by decide, hprintable'⟩⟩

def MembersPrinted (markupKeys : Bool) (ms : List (String × Json))
    (members : List (Key × Document × Blank)) : Prop :=
  Document.membersText [] members = printMembers markupKeys ms ∧
    Document.membersContent members = saidMembers (written true) (written markupKeys) ms ∧
    ∀ c ∈ Document.membersText [] members, 0x20 ≤ c.toNat

/-- The key of a text. -/
theorem exists_key (markupKeys : Bool) (k : String) :
    ∃ key : Key, key.text = quote markupKeys k.toList ++ [':'] ∧ key.name = written markupKeys k ∧
      ∀ c ∈ key.text, 0x20 ≤ c.toNat := by
  obtain ⟨l, hquote, hvalue, hlone, hprintable⟩ := exists_literal markupKeys k
  have htext : Key.text ⟨noBlank, l, hlone, noBlank, noBlank⟩ =
      quote markupKeys k.toList ++ [':'] := by
    rw [hquote]
    simp [Key.text, noBlank]
  refine ⟨⟨noBlank, l, hlone, noBlank, noBlank⟩, htext, hvalue, ?_⟩
  rw [htext]
  refine List.forall_mem_append.2 ⟨?_, List.forall_mem_singleton.2 (by decide)⟩
  rw [hquote]
  exact forall_mem_enclosed (by decide) (by decide) hprintable

theorem membersPrinted_singleton {markupKeys : Bool} {k : String} {v : Json} {key : Key}
    {d : Document} (hkey : key.text = quote markupKeys k.toList ++ [':'])
    (hname : key.name = written markupKeys k) (hprintableKey : ∀ c ∈ key.text, 0x20 ≤ c.toNat)
    (h : IsPrinted markupKeys v d) :
    MembersPrinted markupKeys [(k, v)] [(key, d, noBlank)] := by
  obtain ⟨htext, hcontent, hprintable⟩ := h
  have hmembers : Document.membersText [] [(key, d, noBlank)] = key.text ++ d.text := by
    simp [Document.membersText, noBlank]
  refine ⟨?_, ?_, ?_⟩
  · rw [hmembers, hkey, htext, printMembers, List.append_assoc, List.singleton_append]
  · rw [Document.membersContent, Document.membersContent, saidMembers, saidMembers, hcontent, hname]
  · rw [hmembers]
    exact List.forall_mem_append.2 ⟨hprintableKey, hprintable⟩

theorem MembersPrinted.cons {markupKeys : Bool} {k : String} {v : Json} {m : String × Json}
    {ms : List (String × Json)} {key : Key} {d : Document}
    {members : List (Key × Document × Blank)}
    (hkey : key.text = quote markupKeys k.toList ++ [':'])
    (hname : key.name = written markupKeys k) (hprintableKey : ∀ c ∈ key.text, 0x20 ≤ c.toNat)
    (hd : IsPrinted markupKeys v d) (h : MembersPrinted markupKeys (m :: ms) members) :
    MembersPrinted markupKeys ((k, v) :: m :: ms) ((key, d, noBlank) :: members) := by
  obtain ⟨htext, hcontent, hprintable⟩ := hd
  obtain ⟨hmembers, hcontents, hprintable'⟩ := h
  obtain ⟨member, more, rfl⟩ : ∃ member more, members = member :: more := by
    cases members with
    | nil => rw [Document.membersContent, saidMembers] at hcontents; cases hcontents
    | cons member more => exact ⟨member, more, rfl⟩
  have hall : Document.membersText [] ((key, d, noBlank) :: member :: more) =
      key.text ++ (d.text ++ ',' :: Document.membersText [] (member :: more)) := by
    obtain ⟨key', d', after'⟩ := member
    simp [Document.membersText, noBlank]
  refine ⟨?_, ?_, ?_⟩
  · rw [hall, hkey, htext, hmembers, printMembers_cons_cons, List.append_assoc,
      List.singleton_append]
  · rw [Document.membersContent, hcontents, hcontent, hname]
    rfl
  · rw [hall]
    exact List.forall_mem_append.2 ⟨hprintableKey, List.forall_mem_append.2
      ⟨hprintable, List.forall_mem_cons.2 ⟨by decide, hprintable'⟩⟩⟩

mutual

/-- A value is printed as a document that says it. -/
theorem exists_isPrinted (markupKeys : Bool) : (v : Json) → v.copies = [] →
    (∀ x ∈ v.doubles, x.isFinite = true) → ∃ d, IsPrinted markupKeys v d
  | null, _, _ => ⟨.null, isPrinted_word markupKeys rfl rfl (by decide)⟩
  | bool b, _, _ =>
    ⟨.bool b, by cases b <;> exact isPrinted_word markupKeys rfl rfl (by decide)⟩
  | int i, _, _ => by
    obtain ⟨n, htext, -⟩ := exists_number_int i
    exact ⟨.number n, isPrinted_number markupKeys htext.symm (by rw [htext, said])⟩
  | float x, _, hfinite => by
    obtain ⟨n, htext, -⟩ := Binary64.exists_number_float (hfinite x (List.mem_singleton_self x))
    exact ⟨.number n, isPrinted_number markupKeys htext.symm (by rw [htext, said])⟩
  | string s, _, _ => exists_isPrinted_string markupKeys s
  | array vs, hcopies, hfinite => by
    obtain ⟨items, htext, hcontent, hprintable⟩ := exists_itemsPrinted markupKeys vs hcopies hfinite
    refine ⟨.array noBlank items, ?_, ?_, ?_⟩
    · rw [Document.text, print, htext]
      rfl
    · rw [Document.content, said, hcontent]
    · rw [Document.text]
      exact forall_mem_enclosed (by decide) (by decide) hprintable
  | object ms, hcopies, hfinite => by
    obtain ⟨members, htext, hcontent, hprintable⟩ :=
      exists_membersPrinted markupKeys ms hcopies hfinite
    refine ⟨.object noBlank members, ?_, ?_, ?_⟩
    · rw [Document.text, print, htext]
      rfl
    · rw [Document.content, said, hcontent]
    · rw [Document.text]
      exact forall_mem_enclosed (by decide) (by decide) hprintable
  | raw text, hcopies, _ => by cases hcopies

theorem exists_itemsPrinted (markupKeys : Bool) : (vs : List Json) →
    collectItems copyOf (fun _ => []) vs = [] →
    (∀ x ∈ collectItems doubleOf (fun _ => []) vs, x.isFinite = true) →
    ∃ items, ItemsPrinted markupKeys vs items
  | [], _, _ => ⟨[], rfl, rfl, nofun⟩
  | [v], hcopies, hfinite => by
    rw [collectItems, List.append_eq_nil_iff] at hcopies
    rw [collectItems, List.forall_mem_append] at hfinite
    obtain ⟨d, hd⟩ := exists_isPrinted markupKeys v hcopies.1 hfinite.1
    exact ⟨_, itemsPrinted_singleton hd⟩
  | v :: w :: vs, hcopies, hfinite => by
    rw [collectItems, List.append_eq_nil_iff] at hcopies
    rw [collectItems, List.forall_mem_append] at hfinite
    obtain ⟨d, hd⟩ := exists_isPrinted markupKeys v hcopies.1 hfinite.1
    obtain ⟨items, hitems⟩ := exists_itemsPrinted markupKeys (w :: vs) hcopies.2 hfinite.2
    exact ⟨_, hitems.cons hd⟩

theorem exists_membersPrinted (markupKeys : Bool) : (ms : List (String × Json)) →
    collectMembers copyOf (fun _ => []) ms = [] →
    (∀ x ∈ collectMembers doubleOf (fun _ => []) ms, x.isFinite = true) →
    ∃ members, MembersPrinted markupKeys ms members
  | [], _, _ => ⟨[], rfl, rfl, nofun⟩
  | [(k, v)], hcopies, hfinite => by
    rw [collectMembers, List.nil_append, List.append_eq_nil_iff] at hcopies
    rw [collectMembers, List.nil_append, List.forall_mem_append] at hfinite
    obtain ⟨d, hd⟩ := exists_isPrinted markupKeys v hcopies.1 hfinite.1
    obtain ⟨key, hkey, hname, hprintable⟩ := exists_key markupKeys k
    exact ⟨_, membersPrinted_singleton hkey hname hprintable hd⟩
  | (k, v) :: m :: ms, hcopies, hfinite => by
    rw [collectMembers, List.nil_append, List.append_eq_nil_iff] at hcopies
    rw [collectMembers, List.nil_append, List.forall_mem_append] at hfinite
    obtain ⟨d, hd⟩ := exists_isPrinted markupKeys v hcopies.1 hfinite.1
    obtain ⟨key, hkey, hname, hprintable⟩ := exists_key markupKeys k
    obtain ⟨members, hmembers⟩ := exists_membersPrinted markupKeys (m :: ms) hcopies.2 hfinite.2
    exact ⟨_, hmembers.cons hkey hname hprintable hd⟩

end

/-- Every document of the text of a value says that value. -/
theorem content_of_text_eq_print {markupKeys : Bool} {v : Json} (hcopies : v.copies = [])
    (hfinite : ∀ x ∈ v.doubles, x.isFinite = true) {d : Document}
    (h : d.text = v.print markupKeys) :
    d.content = v.said (written true) (written markupKeys) := by
  obtain ⟨e, htext, hcontent, -⟩ := exists_isPrinted markupKeys v hcopies hfinite
  rw [← hcontent]
  exact Document.content_eq_of_text_eq (h.trans htext.symm)

theorem said_written {v : Json} (h : ∀ s ∈ v.texts, IsUnicode s) (markupKeys : Bool) :
    v.said (written true) (written markupKeys) = v.numerals :=
  said_eq_numerals v fun s hs =>
    ⟨written_of_isUnicode (h s hs) true, written_of_isUnicode (h s hs) markupKeys⟩

/-- The text decides a value of Unicode texts up to numbers of the same digits. -/
theorem print_eq_iff {markupKeys : Bool} {v w : Json} (hv : v.copies = []) (hw : w.copies = [])
    (hfinite : ∀ x ∈ v.doubles, x.isFinite = true) (hfinite' : ∀ x ∈ w.doubles, x.isFinite = true)
    (hunicode : ∀ s ∈ v.texts, IsUnicode s) (hunicode' : ∀ s ∈ w.texts, IsUnicode s) :
    v.print markupKeys = w.print markupKeys ↔ v.numerals = w.numerals := by
  constructor
  · intro h
    obtain ⟨d, htext, hcontent, -⟩ := exists_isPrinted markupKeys v hv hfinite
    rw [said_written hunicode] at hcontent
    rw [← hcontent, content_of_text_eq_print hw hfinite' (htext.trans h), said_written hunicode']
  · intro h
    rw [← print_numerals markupKeys v, h, print_numerals]

end SearchGateway.Json
