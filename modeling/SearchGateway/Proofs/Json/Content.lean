import SearchGateway.Proofs.Json.Reading

/-!
# What a text says

`Document.content` is a document without what may be written in different ways: the layout and the
escapes. The text of a document decides its content (`content_eq_of_text_eq`), so a text says one
thing only, however it is taken apart.
-/

namespace SearchGateway.Json

open SearchGateway.Text

/-! ### Symbols of equal texts -/

theorem Hex4.append_inj {n m : Hex4} {s t : List Char} (h : n.text ++ s = m.text ++ t) :
    n = m ∧ s = t := by
  obtain ⟨htext, hrest⟩ := List.append_inj h (n.length_eq.trans m.length_eq.symm)
  cases n
  cases m
  cases htext
  exact ⟨rfl, hrest⟩

namespace Symbol

/-- A pair as its two surrogates, which have the same text. -/
def atoms : Symbol → Literal
  | pair high low hhigh hlow =>
    [lone high ⟨hhigh.1, by omega⟩, lone low ⟨by omega, hlow.2⟩]
  | c => [c]

def isPair : Symbol → Bool
  | pair _ _ _ _ => true
  | _ => false

theorem letter_ne_u (e : Escape) : e.letter ≠ 'u' := by
  cases e <;> decide

theorem letter_injective : Function.Injective Escape.letter := by
  intro e e' h
  cases e <;> cases e' <;> first | rfl | exact absurd h (by decide)

/-- Pairs apart, what a text begins with is one symbol only. -/
theorem append_inj {a b : Symbol} (ha : a.isPair = false) (hb : b.isPair = false)
    {s t : List Char} (h : a.text ++ s = b.text ++ t) : a = b ∧ s = t := by
  cases a with
  | pair => cases ha
  | plain c hc =>
    cases b with
    | pair => cases hb
    | plain d hd =>
      cases h
      exact ⟨rfl, rfl⟩
    | _ => exact absurd (List.cons.inj h).1 hc.2
  | escape e =>
    cases b with
    | pair => cases hb
    | plain d hd => exact absurd (List.cons.inj h).1.symm hd.2
    | escape e' =>
      obtain ⟨hletter, hrest⟩ := List.cons.inj (List.cons.inj h).2
      exact ⟨congrArg escape (letter_injective hletter), hrest⟩
    | code m _ | lone m _ => exact absurd (List.cons.inj (List.cons.inj h).2).1 (letter_ne_u e)
  | code n hn =>
    cases b with
    | pair => cases hb
    | plain d hd => exact absurd (List.cons.inj h).1.symm hd.2
    | escape e => exact absurd (List.cons.inj (List.cons.inj h).2).1.symm (letter_ne_u e)
    | code m _ =>
      obtain ⟨rfl, hrest⟩ := Hex4.append_inj (List.cons.inj (List.cons.inj h).2).2
      exact ⟨rfl, hrest⟩
    | lone m hm =>
      obtain ⟨rfl, -⟩ := Hex4.append_inj (List.cons.inj (List.cons.inj h).2).2
      omega
  | lone n hn =>
    cases b with
    | pair => cases hb
    | plain d hd => exact absurd (List.cons.inj h).1.symm hd.2
    | escape e => exact absurd (List.cons.inj (List.cons.inj h).2).1.symm (letter_ne_u e)
    | code m hm =>
      obtain ⟨rfl, -⟩ := Hex4.append_inj (List.cons.inj (List.cons.inj h).2).2
      omega
    | lone m _ =>
      obtain ⟨rfl, hrest⟩ := Hex4.append_inj (List.cons.inj (List.cons.inj h).2).2
      exact ⟨rfl, hrest⟩

theorem text_ne_nil (c : Symbol) : c.text ≠ [] := by
  cases c <;> exact List.cons_ne_nil _ _

theorem isPair_of_mem_atoms {c a : Symbol} (h : a ∈ c.atoms) : a.isPair = false := by
  cases c with
  | pair high low hhigh hlow =>
    rcases List.mem_cons.1 h with rfl | h
    · rfl
    · rw [List.mem_singleton.1 h]
      rfl
  | _ =>
    rw [List.mem_singleton.1 h]
    rfl

end Symbol

namespace Literal

theorem text_atoms (s : Literal) : text (s.flatMap Symbol.atoms) = s.text := by
  induction s with
  | nil => rfl
  | cons c s ih =>
    have hc : text c.atoms = c.text := by
      cases c <;> simp [Symbol.atoms, text, Symbol.text]
    rw [List.flatMap_cons, text, List.flatMap_append, ← text, ← text, ih, hc]
    rfl

theorem resolve?_atoms (s : Literal) : resolve? (s.flatMap Symbol.atoms) = s.resolve? := by
  fun_induction resolve? s with
  | case1 => rfl
  | case2 high hhigh low hlow s hpair ih =>
    show resolve? (.lone high hhigh :: .lone low hlow :: s.flatMap Symbol.atoms) = _
    rw [resolve?, if_pos hpair, ih]
  | case3 high hhigh low hlow s hpair =>
    show resolve? (.lone high hhigh :: .lone low hlow :: s.flatMap Symbol.atoms) = _
    rw [resolve?, if_neg hpair]
  | case4 n hn s hnot =>
    cases s with
    | nil => rfl
    | cons c s =>
      cases c with
      | lone low hlow => exact (hnot low hlow s rfl).elim
      | pair high low hhigh hlow =>
        show resolve? (.lone n hn :: .lone high _ :: _) = _
        rw [resolve?, if_neg (by omega)]
      | _ => rfl
  | case5 c s _ hnot ih =>
    cases c with
    | lone n hn => exact (hnot n hn rfl).elim
    | pair high low hhigh hlow =>
      show resolve? (.lone high _ :: .lone low _ :: s.flatMap Symbol.atoms) = _
      rw [resolve?, if_pos ⟨hhigh.2, hlow.1⟩, ih]
      rfl
    | _ =>
      rw [← ih]
      rfl

theorem eq_of_text_eq {s t : Literal} (hs : ∀ c ∈ s, c.isPair = false)
    (ht : ∀ c ∈ t, c.isPair = false) (h : s.text = t.text) : s = t := by
  induction s generalizing t with
  | nil =>
    cases t with
    | nil => rfl
    | cons d t => exact absurd (List.append_eq_nil_iff.1 h.symm).1 d.text_ne_nil
  | cons c s ih =>
    cases t with
    | nil => exact absurd (List.append_eq_nil_iff.1 h).1 c.text_ne_nil
    | cons d t =>
      obtain ⟨hc, hsmore⟩ := List.forall_mem_cons.1 hs
      obtain ⟨hd, htmore⟩ := List.forall_mem_cons.1 ht
      obtain ⟨rfl, hrest⟩ := Symbol.append_inj hc hd h
      rw [ih hsmore htmore hrest]

/-- What a string stands for is seen in its text. -/
theorem resolve?_eq_of_text_eq {s t : Literal} (h : s.text = t.text) :
    s.resolve? = t.resolve? := by
  have hatoms (s : Literal) : ∀ a ∈ s.flatMap Symbol.atoms, a.isPair = false := by
    intro a ha
    obtain ⟨c, -, hc⟩ := List.mem_flatMap.1 ha
    exact Symbol.isPair_of_mem_atoms hc
  rw [← text_atoms s, ← text_atoms t] at h
  rw [← resolve?_atoms s, ← resolve?_atoms t, eq_of_text_eq (hatoms s) (hatoms t) h]

end Literal

namespace Document

mutual

/-- What a document says. A number stands by its text, and so does a string that cannot be
resolved. -/
def content : Document → Json
  | null => .null
  | bool b => .bool b
  | number n => .raw n.text
  | string s => s.string?.elim (.raw s.text) .string
  | array _ items => .array (itemsContent items)
  | object _ members => .object (membersContent members)

def itemsContent : List (Blank × Document × Blank) → List Json
  | [] => []
  | (_, d, _) :: items => content d :: itemsContent items

def membersContent : List (Key × Document × Blank) → List (String × Json)
  | [] => []
  | (key, d, _) :: members => (key.name, content d) :: membersContent members

end

/-! ### Parts of equal texts -/

theorem text_append_inj {d e : Document} {s t : List Char} (hs : Ended s) (ht : Ended t)
    (h : d.text ++ s = e.text ++ t) : d.raw = e.raw ∧ s = t := by
  have hd := valueAt_text d hs
  rw [h, valueAt_text e ht] at hd
  obtain ⟨hraw, hrest⟩ := Prod.mk.inj (Except.ok.inj hd)
  exact ⟨hraw.symm, hrest.symm⟩

theorem raw_eq_of_text_eq {d e : Document} (h : d.text = e.text) : d.raw = e.raw := by
  have hended : Ended [] := nofun
  exact (text_append_inj hended hended (congrArg (· ++ []) h)).1

theorem items_raw_eq {blank blank' : Blank} {items items' : List (Blank × Document × Blank)}
    (h : (array blank items).text = (array blank' items').text) :
    items.map (·.2.1.raw) = items'.map (·.2.1.raw) := by
  rw [text, text] at h
  have hskip := congrArg skipLayout (List.cons.inj h).2
  rw [List.append_assoc, List.append_assoc, skipLayout_append blank.2,
    skipLayout_append blank'.2] at hskip
  have hclose : skipLayout (itemsText [] [] ++ [']']) = [']'] := rfl
  match items, items' with
  | [], [] => rfl
  | [], item' :: items' =>
    obtain ⟨c, u, hc, -, hne⟩ := exists_skipLayout_items item' items' [']']
    rw [hclose, hc] at hskip
    exact absurd (List.cons.inj hskip).1.symm hne
  | item :: items, [] =>
    obtain ⟨c, u, hc, -, hne⟩ := exists_skipLayout_items item items [']']
    rw [hclose, hc] at hskip
    exact absurd (List.cons.inj hskip).1 hne
  | item :: items, item' :: items' =>
    have helements := elements_itemsText item items [] rfl
    rw [elements_itemsText item' items' [] hskip] at helements
    exact (Prod.mk.inj helements).1.symm

theorem skipLayout_key (k : Key) (s : List Char) : skipLayout (k.text ++ s) =
    '"' :: (k.literal.text ++ '"' :: (k.between.1 ++ ':' :: (k.after.1 ++ s))) := by
  have htext : k.text ++ s = k.before.1 ++
      '"' :: (k.literal.text ++ '"' :: (k.between.1 ++ ':' :: (k.after.1 ++ s))) := by
    simp [Key.text]
  rw [htext, skipLayout_append k.before.2, skipLayout_of_not (by decide)]

/-- The name of a key is what its escapes stand for. -/
theorem name_eq_of_literal_text_eq {k k' : Key} (h : k.literal.text = k'.literal.text) :
    k.name = k'.name := by
  have hvalue := unescape_text k.isLone_literal
  rw [h, unescape_text k'.isLone_literal] at hvalue
  unfold Key.name Literal.value
  rw [Option.some.inj hvalue]

theorem key_append_inj {k k' : Key} {d d' : Document} {s s' : List Char}
    (h : skipLayout (k.text ++ (d.text ++ s)) = skipLayout (k'.text ++ (d'.text ++ s'))) :
    k.name = k'.name ∧ d.text ++ s = d'.text ++ s' := by
  rw [skipLayout_key, skipLayout_key] at h
  have hstring := congrArg splitString (List.cons.inj h).2
  rw [splitString_text, splitString_text] at hstring
  obtain ⟨hliteral, hrest⟩ := Prod.mk.inj (Option.some.inj hstring)
  refine ⟨name_eq_of_literal_text_eq hliteral, ?_⟩
  have hcolon := congrArg skipLayout hrest
  rw [skipLayout_append k.between.2, skipLayout_append k'.between.2,
    skipLayout_of_not (by decide), skipLayout_of_not (by decide)] at hcolon
  have hvalue := congrArg skipLayout (List.cons.inj hcolon).2
  rw [skipLayout_append k.after.2, skipLayout_append k'.after.2, skipLayout_text_append,
    skipLayout_text_append] at hvalue
  exact hvalue

/-- What follows a member: a comma and the others, or the end of the object. -/
def membersRest (members : List (Key × Document × Blank)) (t : List Char) : List Char :=
  membersText [','] members ++ '\x7d' :: t

theorem membersRest_cons (m : Key × Document × Blank) (members : List (Key × Document × Blank))
    (t : List Char) : membersRest (m :: members) t =
      ',' :: (membersText [] (m :: members) ++ '\x7d' :: t) := by
  rw [membersRest, membersText, membersText]
  rfl

theorem membersText_cons (k : Key) (d : Document) (after : Blank)
    (members : List (Key × Document × Blank)) (t : List Char) :
    membersText [] ((k, d, after) :: members) ++ '\x7d' :: t =
      k.text ++ (d.text ++ (after.1 ++ membersRest members t)) := by
  rw [membersText, membersRest]
  simp

theorem exists_membersRest_eq (members : List (Key × Document × Blank)) (t : List Char) :
    ∃ c u, membersRest members t = c :: u ∧ (c = ',' ∨ c = '\x7d' ∨ c = ']') ∧
      isLayout c = false := by
  cases members with
  | nil => exact ⟨'\x7d', t, rfl, .inr (.inl rfl), by decide⟩
  | cons m members => exact ⟨',', _, membersRest_cons m members t, .inl rfl, by decide⟩

theorem members_raw_eq {members members' : List (Key × Document × Blank)} {t t' : List Char}
    (h : skipLayout (membersText [] members ++ '\x7d' :: t) =
      skipLayout (membersText [] members' ++ '\x7d' :: t')) :
    members.map (fun m => (m.1.name, m.2.1.raw)) = members'.map fun m => (m.1.name, m.2.1.raw) := by
  induction members generalizing members' with
  | nil =>
    cases members' with
    | nil => rfl
    | cons m' members' =>
      obtain ⟨k', d', after'⟩ := m'
      rw [membersText_cons, skipLayout_key] at h
      cases h
  | cons m members ih =>
    obtain ⟨k, d, after⟩ := m
    cases members' with
    | nil =>
      rw [membersText_cons, skipLayout_key] at h
      cases h
    | cons m' members' =>
      obtain ⟨k', d', after'⟩ := m'
      rw [membersText_cons, membersText_cons] at h
      obtain ⟨hname, hvalue⟩ := key_append_inj h
      obtain ⟨c, u, hrest, hc, hlayout⟩ := exists_membersRest_eq members t
      obtain ⟨c', u', hrest', hc', hlayout'⟩ := exists_membersRest_eq members' t'
      have hended : Ended (membersRest members t) := hrest ▸ ended_cons hc u
      have hended' : Ended (membersRest members' t') := hrest' ▸ ended_cons hc' u'
      obtain ⟨hraw, hafter⟩ :=
        text_append_inj (hended.append after.2) (hended'.append after'.2) hvalue
      have hskip := congrArg skipLayout hafter
      rw [skipLayout_append after.2, skipLayout_append after'.2, hrest, hrest',
        skipLayout_of_not hlayout, skipLayout_of_not hlayout', ← hrest, ← hrest'] at hskip
      have hmore : members.map (fun m => (m.1.name, m.2.1.raw)) =
          members'.map fun m => (m.1.name, m.2.1.raw) := by
        match members, members' with
        | [], [] => rfl
        | [], m' :: members' => rw [membersRest_cons] at hskip; cases hskip
        | m :: members, [] => rw [membersRest_cons] at hskip; cases hskip
        | m :: members, m' :: members' =>
          rw [membersRest_cons, membersRest_cons] at hskip
          exact ih (congrArg skipLayout (List.cons.inj hskip).2)
      rw [List.map_cons, List.map_cons, hmore, hname, hraw]

/-! ### Contents -/

theorem string_content_eq {s s' : Literal} (h : s.text = s'.text) :
    (string s).content = (string s').content := by
  rw [content, content, Literal.string?, Literal.string?, Literal.resolve?_eq_of_text_eq h, h]

mutual

/-- Documents of one raw text say the same. -/
theorem content_eq_of_raw_eq : (d e : Document) → d.raw = e.raw → d.content = e.content
  | null, e, h => by
    cases e <;> cases h
    rfl
  | bool b, e, h => by
    cases e with
    | bool b' =>
      have htext := (Raw.mk.inj h).2
      rw [text, text] at htext
      cases b <;> cases b' <;> first | rfl | exact absurd htext (by decide)
    | _ => cases h
  | number n, e, h => by
    cases e with
    | number n' =>
      have htext := (Raw.mk.inj h).2
      rw [text, text] at htext
      rw [content, content, htext]
    | _ => cases h
  | string s, e, h => by
    cases e with
    | string s' => exact string_content_eq (Raw.mk.inj h).2
    | _ => cases h
  | array blank items, e, h => by
    cases e with
    | array blank' items' =>
      rw [content, content, itemsContent_eq items items' (items_raw_eq (Raw.mk.inj h).2)]
    | _ => cases h
  | object blank members, e, h => by
    cases e with
    | object blank' members' =>
      have htext := (Raw.mk.inj h).2
      rw [text, text] at htext
      have hskip := congrArg skipLayout (List.cons.inj htext).2
      rw [List.append_assoc, List.append_assoc, skipLayout_append blank.2,
        skipLayout_append blank'.2] at hskip
      rw [content, content, membersContent_eq members members' (members_raw_eq hskip)]
    | _ => cases h

theorem itemsContent_eq : (items items' : List (Blank × Document × Blank)) →
    items.map (·.2.1.raw) = items'.map (·.2.1.raw) → itemsContent items = itemsContent items'
  | [], items', h => by
    rw [List.map_eq_nil_iff.1 h.symm]
  | (_, d, _) :: items, items', h => by
    obtain ⟨⟨before', d', after'⟩, more, rfl, hd, hmore⟩ := List.map_eq_cons_iff.1 h.symm
    rw [itemsContent, itemsContent, content_eq_of_raw_eq d d' hd.symm,
      itemsContent_eq items more hmore.symm]

theorem membersContent_eq : (members members' : List (Key × Document × Blank)) →
    members.map (fun m => (m.1.name, m.2.1.raw)) = members'.map (fun m => (m.1.name, m.2.1.raw)) →
    membersContent members = membersContent members'
  | [], members', h => by
    rw [List.map_eq_nil_iff.1 h.symm]
  | (k, d, _) :: members, members', h => by
    obtain ⟨⟨k', d', after'⟩, more, rfl, hd, hmore⟩ := List.map_eq_cons_iff.1 h.symm
    obtain ⟨hname, hraw⟩ := Prod.mk.inj hd
    rw [membersContent, membersContent, content_eq_of_raw_eq d d' hraw.symm,
      membersContent_eq members more hmore.symm, hname]

end

theorem content_eq_of_text_eq {d e : Document} (h : d.text = e.text) : d.content = e.content :=
  content_eq_of_raw_eq d e (raw_eq_of_text_eq h)

end Document

/-! ### Keys -/

mutual

/-- No object in the value has a key twice. -/
def Distinct : Json → Prop
  | array items => ItemsDistinct items
  | object members => (members.map (·.1)).Nodup ∧ MembersDistinct members
  | _ => True

def ItemsDistinct : List Json → Prop
  | [] => True
  | v :: vs => Distinct v ∧ ItemsDistinct vs

def MembersDistinct : List (String × Json) → Prop
  | [] => True
  | (_, v) :: ms => Distinct v ∧ MembersDistinct ms

end

theorem itemsDistinct_iff {items : List Json} :
    ItemsDistinct items ↔ ∀ v ∈ items, v.Distinct := by
  induction items with
  | nil => simp [ItemsDistinct]
  | cons v vs ih => rw [ItemsDistinct, ih, List.forall_mem_cons]

theorem membersDistinct_iff {members : List (String × Json)} :
    MembersDistinct members ↔ ∀ m ∈ members, m.2.Distinct := by
  induction members with
  | nil => simp [MembersDistinct]
  | cons m ms ih => rw [MembersDistinct, ih, List.forall_mem_cons]

theorem distinct_array {items : List Json} : (array items).Distinct ↔ ∀ v ∈ items, v.Distinct := by
  rw [Distinct, itemsDistinct_iff]

theorem distinct_object {members : List (String × Json)} :
    (object members).Distinct ↔ (members.map (·.1)).Nodup ∧ ∀ m ∈ members, m.2.Distinct := by
  rw [Distinct, membersDistinct_iff]

namespace Document

theorem map_fst_membersContent (members : List (Key × Document × Blank)) :
    (membersContent members).map (·.1) = members.map (·.1.name) := by
  induction members with
  | nil => rfl
  | cons m members ih => rw [membersContent, List.map_cons, ih, List.map_cons]

mutual

/-- The keys of a document are those of its content. -/
theorem distinct_content_iff : (d : Document) → (d.content.Distinct ↔ d.Distinct)
  | null => by simp [content, Json.Distinct, Distinct]
  | bool b => by simp [content, Json.Distinct, Distinct]
  | number n => by simp [content, Json.Distinct, Distinct]
  | string s => by
    rw [content]
    cases s.string? <;> simp [Json.Distinct, Distinct]
  | array _ items => by rw [content, Json.Distinct, Distinct, itemsDistinct_content_iff items]
  | object _ members => by
    rw [content, Json.Distinct, Distinct, map_fst_membersContent,
      membersDistinct_content_iff members]

theorem itemsDistinct_content_iff : (items : List (Blank × Document × Blank)) →
    (Json.ItemsDistinct (itemsContent items) ↔ ItemsDistinct items)
  | [] => by simp [itemsContent, Json.ItemsDistinct, ItemsDistinct]
  | (_, d, _) :: items => by
    rw [itemsContent, Json.ItemsDistinct, ItemsDistinct, distinct_content_iff d,
      itemsDistinct_content_iff items]

theorem membersDistinct_content_iff : (members : List (Key × Document × Blank)) →
    (Json.MembersDistinct (membersContent members) ↔ MembersDistinct members)
  | [] => by simp [membersContent, Json.MembersDistinct, MembersDistinct]
  | (_, d, _) :: members => by
    rw [membersContent, Json.MembersDistinct, MembersDistinct, distinct_content_iff d,
      membersDistinct_content_iff members]

end

end Document

end SearchGateway.Json
