import SearchGateway.Proofs.Json.Reading

/-!
# Looking up a path of keys

The search for a path runs over a text once and keeps the depth, the number of keys found and
whether the last key was on the path. On the text of a document without duplicate keys it finds
what the document holds at the path, and nothing where the document holds nothing
(`get_text`, `getArray_text`).

The search is followed through the text part by part. A value off the path is passed over
(`seek_value`), and so are members under other keys (`seek_members`). When the search has left the
only member that is on the path it finds nothing any more, whatever it has counted (`Lost`). What
one key of the path does is `finds_step`; `finds_value` goes along all of them.
-/

namespace SearchGateway.Json

open SearchGateway.Text

/-! ### Steps of a search -/

section steps

variable {path : List String} {st : SeekState}

theorem seek_ordinary {c : Char} (hc : Ordinary c) (t : List Char) :
    seekFrom path st (c :: t) = seekFrom path st t := by
  obtain ⟨hquote, hopen, hclose, hbracket, -, hcolon⟩ := hc
  rw [seekFrom, if_neg hquote, if_neg hopen, if_neg hclose, if_neg hbracket, if_neg hcolon]

theorem seek_ordinaries {s : List Char} (hs : ∀ c ∈ s, Ordinary c) (t : List Char) :
    seekFrom path st (s ++ t) = seekFrom path st t := by
  induction s with
  | nil => rfl
  | cons c s ih =>
    rw [List.cons_append, seek_ordinary (hs c List.mem_cons_self),
      ih fun d hd => hs d (List.mem_cons_of_mem _ hd)]

theorem seek_blank (b : Blank) (t : List Char) :
    seekFrom path st (b.1 ++ t) = seekFrom path st t :=
  seek_ordinaries (fun c hc => ordinary_of_isLayout (b.2 c hc)) t

theorem seek_skipLayout (t : List Char) : seekFrom path st (skipLayout t) = seekFrom path st t := by
  have hsplit : t = t.takeWhile isLayout ++ skipLayout t := List.takeWhile_append_dropWhile.symm
  conv_rhs => rw [hsplit]
  exact (seek_blank ⟨t.takeWhile isLayout, fun c hc => List.mem_takeWhile_imp hc⟩ _).symm

/-- A string that is no key changes nothing. -/
theorem seek_string (s : Literal) {t : List Char} (ht : Ended t) :
    seekFrom path st ('"' :: (s.text ++ '"' :: t)) = seekFrom path st t := by
  rw [seekFrom, if_pos rfl]
  split
  · next hnone => rw [splitString_text] at hnone; cases hnone
  · next body rest hsome =>
    rw [splitString_text] at hsome
    cases hsome
    split
    · next hnil =>
      show none = seekFrom path st t
      rw [← seek_skipLayout t, hnil, seekFrom]
    · next d after hcons =>
      have hcolon : d ≠ ':' := by
        rintro rfl
        have hend := ht ':' (by rw [hcons]; rfl)
        revert hend
        decide
      rw [if_neg hcolon, ← hcons, seek_skipLayout]

/-- A key tells the search how to go on. -/
theorem seek_key (k : Key) (t : List Char) :
    seekFrom path st (k.text ++ t) =
      match st.key path k.literal.text with
      | .fail => none
      | .arrived => some (k.after.1 ++ t)
      | .next st => seekFrom path st (k.after.1 ++ t) := by
  have htext : k.text ++ t = k.before.1 ++ '"' :: (k.literal.text ++ '"' ::
      (k.between.1 ++ ':' :: (k.after.1 ++ t))) := by simp [Key.text]
  have hskip : skipLayout (k.between.1 ++ ':' :: (k.after.1 ++ t)) = ':' :: (k.after.1 ++ t) := by
    rw [skipLayout_append k.between.2, skipLayout_of_not (by decide)]
  rw [htext, seek_blank, seekFrom, if_pos rfl]
  split
  · next hnone => rw [splitString_text] at hnone; cases hnone
  · next body rest hsome =>
    rw [splitString_text] at hsome
    cases hsome
    split
    · next hnil => rw [hskip] at hnil; cases hnil
    · next d after hcons =>
      rw [hskip] at hcons
      cases hcons
      exact if_pos rfl

theorem seek_open (hon : st.onPath = true) (t : List Char) :
    seekFrom path st ('\x7b' :: t) = seekFrom path { st with level := st.level + 1 } t := by
  rw [seekFrom, if_neg (by decide), if_pos rfl, if_pos hon]

theorem seek_close (t : List Char) : seekFrom path st ('\x7d' :: t) =
    seekFrom path { st with
      level := st.level - 1
      found := if st.level - 1 = st.found then st.found - 1 else st.found } t := by
  rw [seekFrom, if_neg (by decide), if_neg (by decide), if_pos rfl]

/-- No key of the path names an element of an array. -/
def Plain (path : List String) : Prop := ∀ key ∈ path, key.toList.head? ≠ some '['

theorem wantsElement_of_plain (hplain : Plain path) (st : SeekState) :
    st.wantsElement path = none := by
  unfold SeekState.wantsElement
  split
  · cases hkey : path[st.level.toNat]? with
    | none => rfl
    | some key =>
      have hne := hplain key (List.mem_of_getElem? hkey)
      simp [hne]
  · rfl

theorem seek_array (hplain : Plain path) (blank : Blank) (items : List (Blank × Document × Blank))
    (t : List Char) :
    seekFrom path st ((Document.array blank items).text ++ t) = seekFrom path st t := by
  have hblock := Document.splitBlock_array blank items t
  rw [Document.text, List.cons_append, seekFrom, if_neg (by decide), if_neg (by decide),
    if_neg (by decide), if_pos rfl, wantsElement_of_plain hplain]
  dsimp only
  split
  · next hnone => rw [hblock] at hnone; cases hnone
  · next hsome =>
    rw [hblock] at hsome
    cases hsome
    rfl

/-- An object is passed over unless its key is on the path. -/
theorem seek_object_off (hoff : st.onPath = false) (blank : Blank)
    (members : List (Key × Document × Blank)) (t : List Char) :
    seekFrom path st ((Document.object blank members).text ++ t) = seekFrom path st t := by
  have hblock := Document.splitBlock_object blank members t
  rw [Document.text, List.cons_append, seekFrom, if_neg (by decide), if_pos rfl,
    if_neg (by simp [hoff])]
  split
  · next hnone => rw [hblock] at hnone; cases hnone
  · next hsome =>
    rw [hblock] at hsome
    cases hsome
    rfl

theorem seek_value (hplain : Plain path) {d : Document}
    (hoff : st.onPath = false ∨ ∀ blank members, d ≠ .object blank members) {t : List Char}
    (ht : Ended t) : seekFrom path st (d.text ++ t) = seekFrom path st t := by
  cases d with
  | null =>
    exact seek_ordinaries (fun c hc => (Document.IsWord.mem_text (d := .null) trivial hc).1) t
  | bool b =>
    exact seek_ordinaries (fun c hc => (Document.IsWord.mem_text (d := .bool b) trivial hc).1) t
  | number n =>
    exact seek_ordinaries (fun c hc => (Document.IsWord.mem_text (d := .number n) trivial hc).1) t
  | string s =>
    rw [Document.text, show '"' :: (s.text ++ ['"']) ++ t = '"' :: (s.text ++ '"' :: t) by simp]
    exact seek_string s ht
  | array blank items => exact seek_array hplain blank items t
  | object blank members =>
    rcases hoff with hoff | hoff
    · exact seek_object_off hoff blank members t
    · exact absurd rfl (hoff blank members)

end steps

/-! ### Keys -/

section keys

variable {path : List String}

theorem key_eq (st : SeekState) (k : Key) : st.key path k.literal.text =
    if st.level < 1 ∨ (path.length : Int) < st.level then .fail
    else if path[(st.level - 1).toNat]? = some k.name then
      if st.found = st.level - 1 then
        if st.found + 1 = path.length then .arrived
        else .next { st with found := st.found + 1, onPath := true }
      else .next { st with onPath := true }
    else .next { st with onPath := false } := by
  rw [SeekState.key, decoded_text k.isLone_literal]
  rfl

variable {n : Nat} {st : SeekState} {k : Key}

/-- A key that is not on the path. -/
theorem key_off (hlevel : st.level = n + 1) (hn : n < path.length) (hk : path[n]? ≠ some k.name) :
    st.key path k.literal.text = .next { st with onPath := false } := by
  have hindex : (st.level - 1).toNat = n := by omega
  rw [key_eq, if_neg (by omega), hindex, if_neg hk]

/-- The last key of the path. -/
theorem key_last (hlevel : st.level = n + 1) (hfound : st.found = n) (hn : n + 1 = path.length)
    (hk : path[n]? = some k.name) : st.key path k.literal.text = .arrived := by
  have hindex : (st.level - 1).toNat = n := by omega
  rw [key_eq, if_neg (by omega), hindex, if_pos hk, if_pos (by omega), if_pos (by omega)]

/-- A key on the path with more to follow. -/
theorem key_on (hlevel : st.level = n + 1) (hfound : st.found = n) (hn : n + 1 < path.length)
    (hk : path[n]? = some k.name) :
    st.key path k.literal.text = .next { st with found := n + 1, onPath := true } := by
  have hindex : (st.level - 1).toNat = n := by omega
  rw [key_eq, if_neg (by omega), hindex, if_pos hk, if_pos (by omega), if_neg (by omega), hfound]

end keys

/-! ### Members -/

section members

variable {path : List String} {n : Nat} {st : SeekState}

theorem ended_membersText (members : List (Key × Document × Blank)) {t : List Char}
    (ht : members = [] → Ended t) : Ended (Document.membersText [','] members ++ t) := by
  cases members with
  | nil => exact ht rfl
  | cons member members =>
    rw [Document.membersText]
    exact ended_cons (.inl rfl) _

/-- A member under another key is passed over. -/
theorem seek_member (hplain : Plain path) (hn : n < path.length) {lead : List Char}
    (hlead : ∀ c ∈ lead, c = ',') {key : Key} (hoff : path[n]? ≠ some key.name) (d : Document)
    (after : Blank) (members : List (Key × Document × Blank)) {t : List Char}
    (ht : members = [] → Ended t) (hlevel : st.level = n + 1) :
    seekFrom path st (Document.membersText lead ((key, d, after) :: members) ++ t) =
      seekFrom path { st with onPath := false } (Document.membersText [','] members ++ t) := by
  have hordinary : ∀ c ∈ lead, Ordinary c := fun c hc => by rw [hlead c hc]; decide
  rw [Document.membersText]
  simp only [List.append_assoc]
  rw [seek_ordinaries hordinary, seek_key, key_off hlevel hn hoff]
  dsimp only
  rw [seek_blank, seek_value hplain (.inl rfl) ((ended_membersText members ht).append after.2),
    seek_blank]

theorem seek_members (hplain : Plain path) (hn : n < path.length) {lead : List Char}
    (hlead : ∀ c ∈ lead, c = ',') {members : List (Key × Document × Blank)}
    (hoff : ∀ member ∈ members, path[n]? ≠ some member.1.name) {t : List Char} (ht : Ended t)
    (hlevel : st.level = n + 1) :
    ∃ onPath, seekFrom path st (Document.membersText lead members ++ t) =
      seekFrom path { st with onPath } t := by
  induction members generalizing lead st with
  | nil => exact ⟨st.onPath, rfl⟩
  | cons member members ih =>
    obtain ⟨key, d, after⟩ := member
    have hmore : ∃ onPath, seekFrom path { st with onPath := false }
        (Document.membersText [','] members ++ t) = seekFrom path { st with onPath } t :=
      ih (by simp) (fun member hmember => hoff member (List.mem_cons_of_mem _ hmember)) hlevel
    obtain ⟨onPath, hrest⟩ := hmore
    refine ⟨onPath, ?_⟩
    rw [seek_member hplain hn hlead (hoff _ List.mem_cons_self) d after members (fun _ => ht)
      hlevel, hrest]

/-- The search goes up to the first key that is on the path. -/
theorem seek_upto (hplain : Plain path) (hn : n < path.length) {lead : List Char}
    (hlead : ∀ c ∈ lead, c = ',') {first : List (Key × Document × Blank)}
    (hoff : ∀ member ∈ first, path[n]? ≠ some member.1.name) (key : Key) (d : Document)
    (after : Blank) (last : List (Key × Document × Blank)) (t : List Char)
    (hlevel : st.level = n + 1) :
    ∃ onPath, seekFrom path st
        (Document.membersText lead (first ++ (key, d, after) :: last) ++ t) =
      seekFrom path { st with onPath } (key.text ++ (d.text ++ (after.1 ++
        (Document.membersText [','] last ++ t)))) := by
  induction first generalizing lead st with
  | nil =>
    have hordinary : ∀ c ∈ lead, Ordinary c := fun c hc => by rw [hlead c hc]; decide
    refine ⟨st.onPath, ?_⟩
    rw [List.nil_append, Document.membersText]
    simp only [List.append_assoc]
    rw [seek_ordinaries hordinary]
  | cons member first ih =>
    obtain ⟨k, e, b⟩ := member
    have hmore : ∃ onPath, seekFrom path { st with onPath := false }
        (Document.membersText [','] (first ++ (key, d, after) :: last) ++ t) =
        seekFrom path { st with onPath } (key.text ++ (d.text ++ (after.1 ++
          (Document.membersText [','] last ++ t)))) :=
      ih (by simp) (fun member hmember => hoff member (List.mem_cons_of_mem _ hmember)) hlevel
    obtain ⟨onPath, hrest⟩ := hmore
    refine ⟨onPath, ?_⟩
    rw [List.cons_append, seek_member hplain hn hlead (hoff _ List.mem_cons_self) e b _ (by simp)
      hlevel, hrest]

/-- At this depth nothing is found in the text, whatever was found before it. -/
def Lost (path : List String) (level : Int) (t : List Char) : Prop :=
  ∀ st : SeekState, st.level = level → seekFrom path st t = none

theorem lost_members (hplain : Plain path) (hn : n < path.length) {lead : List Char}
    (hlead : ∀ c ∈ lead, c = ',') {members : List (Key × Document × Blank)}
    (hoff : ∀ member ∈ members, path[n]? ≠ some member.1.name) {t : List Char}
    (ht : Lost path n t) :
    Lost path (n + 1) (Document.membersText lead members ++ '\x7d' :: t) := by
  intro st hlevel
  obtain ⟨onPath, hrest⟩ := seek_members hplain hn hlead hoff
    (ended_cons (.inr (.inl rfl)) t) hlevel
  rw [hrest, seek_close]
  apply ht
  show st.level - 1 = n
  omega

end members

/-! ### Paths -/

namespace Document

/-- The one member of an object under a key. -/
theorem exists_of_member? {blank : Blank} {members : List (Key × Document × Blank)} {name : String}
    {d : Document} (hdistinct : (members.map (·.1.name)).Nodup)
    (h : (object blank members).member? name = some d) :
    ∃ first key after last, members = first ++ (key, d, after) :: last ∧ key.name = name ∧
      (∀ member ∈ first, member.1.name ≠ name) ∧ ∀ member ∈ last, member.1.name ≠ name := by
  obtain ⟨⟨key, e, after⟩, hfind, rfl⟩ := Option.map_eq_some_iff.1 h
  obtain ⟨hname, first, last, rfl, hfirst⟩ := List.find?_eq_some_iff_append.1 hfind
  have hname : key.name = name := by simpa using hname
  refine ⟨first, key, after, last, rfl, hname, fun member hmember => ?_, fun member hmember => ?_⟩
  · simpa using hfirst member hmember
  · intro heq
    rw [List.map_append, List.map_cons, List.nodup_append] at hdistinct
    have hnot := (List.nodup_cons.1 hdistinct.2.1).1
    exact hnot (List.mem_map.2 ⟨member, hmember, heq.trans hname.symm⟩)

theorem ne_of_member?_eq_none {blank : Blank} {members : List (Key × Document × Blank)}
    {name : String} (h : (object blank members).member? name = none) :
    ∀ member ∈ members, member.1.name ≠ name := by
  have hfind := List.find?_eq_none.1 (Option.map_eq_none_iff.1 h)
  intro member hmember
  simpa using hfind member hmember

theorem Distinct.nodup {blank : Blank} {members : List (Key × Document × Blank)}
    (h : (object blank members).Distinct) : (members.map (·.1.name)).Nodup := by
  rw [Distinct] at h
  exact h.1

theorem distinct_of_mem {members : List (Key × Document × Blank)} (h : MembersDistinct members)
    {member : Key × Document × Blank} (hmem : member ∈ members) : Distinct member.2.1 := by
  induction members with
  | nil => cases hmem
  | cons first members ih =>
    obtain ⟨key, d, after⟩ := first
    rw [MembersDistinct] at h
    rcases List.mem_cons.1 hmem with rfl | hmem
    · exact h.1
    · exact ih h.2 hmem

theorem distinct_of_member? {d e : Document} (hd : d.Distinct) {name : String}
    (h : d.member? name = some e) : e.Distinct := by
  cases d with
  | object blank members =>
    rw [Distinct] at hd
    obtain ⟨first, key, after, last, rfl, -⟩ := exists_of_member? hd.1 h
    exact distinct_of_mem hd.2 (List.mem_append_right _ List.mem_cons_self)
  | _ => cases h

theorem member?_eq_none {d : Document} (h : ∀ blank members, d ≠ .object blank members)
    (name : String) : d.member? name = none := by
  cases d with
  | object blank members => exact absurd rfl (h blank members)
  | _ => rfl

end Document

/-- A search ends at the value, after nothing but layout, or nowhere if there is none. -/
def Finds (out : Option (List Char)) : Option Document → Prop
  | some v => ∃ (b : Blank) (t : List Char), out = some (b.1 ++ (v.text ++ t)) ∧ Ended t
  | none => out = none

theorem lost_blank {path : List String} {level : Int} (b : Blank) {t : List Char}
    (h : Lost path level t) : Lost path level (b.1 ++ t) := by
  intro st hst
  rw [seek_blank]
  exact h st hst

section objects

variable {path : List String} {n : Nat} {name : String} {blank : Blank}
  {members : List (Key × Document × Blank)} {t : List Char}

/-- An object without the next key of the path. -/
theorem seek_missing (hplain : Plain path) (hname : path[n]? = some name)
    (hmember : (Document.object blank members).member? name = none) (hlost : Lost path n t)
    {st : SeekState} (hlevel : st.level = n + 1) :
    seekFrom path st (blank.1 ++ (Document.membersText [] members ++ '\x7d' :: t)) = none := by
  have hoff : ∀ member ∈ members, path[n]? ≠ some member.1.name := by
    intro member hmem heq
    rw [hname] at heq
    exact Document.ne_of_member?_eq_none hmember member hmem (Option.some.inj heq).symm
  have hn : n < path.length := (List.getElem?_eq_some_iff.1 hname).1
  rw [seek_blank]
  exact lost_members hplain hn (by simp) hoff hlost st hlevel

/-- An object with the next key of the path: the search comes to its value, and there is nothing for
it in the text after the value. -/
theorem seek_present (hplain : Plain path) (hname : path[n]? = some name)
    (hdistinct : (members.map (·.1.name)).Nodup) {d : Document}
    (hmember : (Document.object blank members).member? name = some d) (hlost : Lost path n t)
    (onPath : Bool) :
    ∃ (b : Blank) (u : List Char), Ended u ∧ Lost path (n + 1) u ∧
      seekFrom path ⟨n + 1, n, onPath⟩
          (blank.1 ++ (Document.membersText [] members ++ '\x7d' :: t)) =
        if n + 1 = path.length then some (b.1 ++ (d.text ++ u))
        else seekFrom path ⟨n + 1, n + 1, true⟩ (d.text ++ u) := by
  obtain ⟨first, key, after, last, rfl, rfl, hfirst, hlast⟩ :=
    Document.exists_of_member? hdistinct hmember
  have hn : n < path.length := (List.getElem?_eq_some_iff.1 hname).1
  have hoff : ∀ {ms : List (Key × Document × Blank)}, (∀ member ∈ ms, member.1.name ≠ key.name) →
      ∀ member ∈ ms, path[n]? ≠ some member.1.name := by
    intro ms hms member hmem heq
    rw [hname] at heq
    exact hms member hmem (Option.some.inj heq).symm
  have hclose : Ended ('\x7d' :: t) := ended_cons (.inr (.inl rfl)) t
  refine ⟨key.after, after.1 ++ (Document.membersText [','] last ++ '\x7d' :: t),
    (ended_membersText last fun _ => hclose).append after.2,
    lost_blank after (lost_members hplain hn (by simp) (hoff hlast) hlost), ?_⟩
  have hupto : ∃ onPath', seekFrom path ⟨n + 1, n, onPath⟩
      (Document.membersText [] (first ++ (key, d, after) :: last) ++ '\x7d' :: t) =
      seekFrom path ⟨n + 1, n, onPath'⟩ (key.text ++ (d.text ++ (after.1 ++
        (Document.membersText [','] last ++ '\x7d' :: t)))) :=
    seek_upto hplain hn (by simp) (hoff hfirst) key d after last _ rfl
  obtain ⟨onPath', hsame⟩ := hupto
  rw [seek_blank, hsame, seek_key]
  by_cases hend : n + 1 = path.length
  · rw [key_last rfl rfl hend hname, if_pos hend]
  · rw [key_on rfl rfl (Nat.lt_of_le_of_ne hn hend) hname, if_neg hend]
    dsimp only
    rw [seek_blank]

end objects

/-- One step into a value on the path: what is found in it is found behind the next key. -/
theorem finds_step {path : List String} (hplain : Plain path) {n : Nat} {name : String}
    (hname : path[n]? = some name) {d : Document} (hd : d.Distinct) {t : List Char}
    (ht : Ended t) (hlost : Lost path n t) {inner : Document → Option Document}
    (hinner : ∀ (e : Document) (b : Blank) (u : List Char), d.member? name = some e → Ended u →
      Lost path (n + 1) u → Finds (if n + 1 = path.length then some (b.1 ++ (e.text ++ u))
        else seekFrom path ⟨n + 1, n + 1, true⟩ (e.text ++ u)) (inner e)) :
    Finds (seekFrom path ⟨n, n, true⟩ (d.text ++ t)) ((d.member? name).bind inner) := by
  by_cases hobject : ∃ blank members, d = .object blank members
  · obtain ⟨blank, members, rfl⟩ := hobject
    have htext : (Document.object blank members).text ++ t =
        '\x7b' :: (blank.1 ++ (Document.membersText [] members ++ '\x7d' :: t)) := by
      simp [Document.text]
    rw [htext, seek_open rfl]
    cases hmember : (Document.object blank members).member? name with
    | none => exact seek_missing hplain hname hmember hlost rfl
    | some e =>
      obtain ⟨b, u, hended, hlost', hseek⟩ :=
        seek_present hplain hname hd.nodup hmember hlost true
      rw [hseek]
      exact hinner e b u hmember hended hlost'
  · have hnot : ∀ blank members, d ≠ .object blank members :=
      fun blank members heq => hobject ⟨blank, members, heq⟩
    rw [seek_value hplain (.inr hnot) ht, hlost _ rfl, Document.member?_eq_none hnot]
    rfl

/-- The search through a value that is on the path so far: the keys before it are found, and the
text after it holds nothing for the search. -/
theorem finds_value {path : List String} (hplain : Plain path) {keys before : List String}
    {name : String} (hpath : path = before ++ name :: keys) {d : Document} (hd : d.Distinct)
    {t : List Char} (ht : Ended t) (hlost : Lost path before.length t) :
    Finds (seekFrom path ⟨before.length, before.length, true⟩ (d.text ++ t))
      (d.at? (name :: keys)) := by
  -- one key of the path after the other
  induction keys generalizing before name d t with
  | nil =>
    have hname : path[before.length]? = some name := by simp [hpath]
    have hlength : before.length + 1 = path.length := by simp [hpath]
    refine finds_step hplain hname hd ht hlost fun e b u _ hended _ => ?_
    rw [if_pos hlength]
    exact ⟨b, u, rfl, hended⟩
  | cons next keys ih =>
    have hname : path[before.length]? = some name := by simp [hpath]
    have hlength : before.length + 1 ≠ path.length := by simp [hpath]
    have hpath' : path = (before ++ [name]) ++ next :: keys := by simp [hpath]
    have hbefore : (before ++ [name]).length = before.length + 1 := by simp
    refine finds_step hplain hname hd ht hlost fun e b u hmember hended hlost' => ?_
    rw [if_neg hlength]
    have hfinds := ih hpath' (Document.distinct_of_member? hd hmember) hended
    rw [hbefore, Int.natCast_succ] at hfinds
    exact hfinds hlost'

/-! ### Texts without strings -/

/-- No string can be read in the text: behind each of its quotes no other quote closes it. -/
def Unquoted : List Char → Prop
  | [] => True
  | c :: t => (c = '"' → splitString t = none) ∧ Unquoted t

theorem unquoted_of_append {s t : List Char} (h : Unquoted (s ++ t)) : Unquoted t := by
  induction s with
  | nil => exact h
  | cons c s ih => exact ih h.2

theorem splitString_eq_append {s body rest : List Char} (h : splitString s = some (body, rest)) :
    s = body ++ '"' :: rest := by
  fun_induction splitString s generalizing body rest with
  | case1 => cases h
  | case2 => cases h; rfl
  | case3 c cs ih | case4 c cs _ _ ih =>
    obtain ⟨⟨t, u⟩, hu, he⟩ := Option.map_eq_some_iff.1 h
    cases he
    rw [ih hu]
    rfl

theorem splitBlock_eq_append {opening closing : Char} {level : Nat} {s block rest : List Char}
    (h : splitBlock opening closing level s = some (block, rest)) : s = block ++ rest := by
  fun_induction splitBlock opening closing level s generalizing block rest with
  | case1 => cases h
  | case2 => cases h
  | case3 level cs text r hs hl ih =>
    obtain ⟨⟨t, u⟩, hu, he⟩ := Option.map_eq_some_iff.1 h
    cases he
    rw [splitString_eq_append hs, ih hu]
    simp
  | case4 level cs _ ih | case6 level cs _ _ _ ih | case7 level c cs _ _ _ ih =>
    obtain ⟨⟨t, u⟩, hu, he⟩ := Option.map_eq_some_iff.1 h
    cases he
    rw [ih hu]
    rfl
  | case5 => cases h; rfl

/-- A text in which no string can be read has no keys. -/
theorem seek_unquoted {path : List String} (hplain : Plain path) {t : List Char} (h : Unquoted t)
    (st : SeekState) : seekFrom path st t = none := by
  induction hlength : t.length using Nat.strong_induction_on generalizing t st with
  | _ n ih =>
    have hblock : ∀ {opening closing block rest},
        splitBlock opening closing 0 t = some (block, rest) → seekFrom path st rest = none := by
      intro opening closing block rest hsplit
      have hlt := length_splitBlock hsplit
      rw [splitBlock_eq_append hsplit] at h
      exact ih _ (hlength ▸ hlt) (unquoted_of_append h) st rfl
    cases t with
    | nil => rw [seekFrom]
    | cons c t =>
      have hrest : ∀ st, seekFrom path st t = none := fun st =>
        ih t.length (by rw [← hlength]; exact Nat.lt_succ_self _) h.2 st rfl
      rw [seekFrom]
      split
      · next hquote =>
        split
        · rfl
        · next hsome => rw [h.1 hquote] at hsome; cases hsome
      · split
        · split
          · exact hrest _
          · split
            · rfl
            · next hsome => exact hblock hsome
        · split
          · exact hrest _
          · split
            · rw [wantsElement_of_plain hplain]
              dsimp only
              split
              · rfl
              · next hsome => exact hblock hsome
            · split
              · rfl
              · exact hrest _

theorem splitString_literal (s : Literal) : splitString s.text = none := by
  have h := s.inside []
  rw [List.append_nil] at h
  rw [h]
  rfl

theorem unquoted_append {s t : List Char} (hs : ∀ c ∈ s, c ≠ '"') (ht : Unquoted t) :
    Unquoted (s ++ t) := by
  induction s with
  | nil => exact ht
  | cons c s ih =>
    exact ⟨fun hc => absurd hc (hs c List.mem_cons_self),
      ih fun d hd => hs d (List.mem_cons_of_mem _ hd)⟩

theorem unquoted_code (n : Hex4) {t : List Char} (ht : Unquoted t) :
    Unquoted ('\\' :: 'u' :: (n.text ++ t)) :=
  ⟨nofun, nofun, unquoted_append (fun d hd => (ne_of_isHexDigit (n.isHexDigit d hd)).1) ht⟩

/-- The quotes in a string are escaped, and none behind them closes a string. -/
theorem unquoted_text (s : Literal) : Unquoted s.text := by
  induction s with
  | nil => trivial
  | cons c s ih =>
    rw [Literal.text, List.flatMap_cons, ← Literal.text]
    cases c with
    | plain c h =>
      show Unquoted (c :: Literal.text s)
      exact ⟨fun hc => absurd hc h.1, ih⟩
    | escape e =>
      show Unquoted ('\\' :: e.letter :: Literal.text s)
      exact ⟨fun hc => absurd hc (by decide), fun _ => splitString_literal s, ih⟩
    | code n _ | lone n _ => exact unquoted_code n ih
    | pair high low _ _ =>
      rw [Symbol.text, List.cons_append, List.cons_append, List.append_assoc]
      exact unquoted_code high (unquoted_code low ih)

/-! ### Reading at a path -/

section reading

variable {path : List String}

theorem lost_nil (path : List String) (level : Int) : Lost path level [] := by
  intro st _
  rw [seekFrom]

theorem ended_blank (b : Blank) : Ended b.1 := by
  have h : Ended [] := by rintro c ⟨⟩
  have hb := h.append b.2
  rwa [List.append_nil] at hb

/-- A search through the text of a document finds what the document holds at the path. -/
theorem finds_text (hplain : Plain path) (hne : path ≠ []) {d : Document} (hd : d.Distinct)
    (before after : Blank) :
    Finds (seekFrom path {} (before.1 ++ (d.text ++ after.1))) (d.at? path) := by
  obtain ⟨name, keys, rfl⟩ := List.exists_cons_of_ne_nil hne
  have hlost : Lost (name :: keys) 0 after.1 := by
    have h := lost_blank after (lost_nil (name :: keys) 0)
    rwa [List.append_nil] at h
  rw [seek_blank]
  exact finds_value hplain (List.nil_append (name :: keys)).symm hd (ended_blank after) hlost

/-- What the lookup in a text gives for the lookup in the document. -/
def found : Option Document → Except SeekError Raw
  | some v => .ok v.raw
  | none => .error .pathNotFound

/-- What a text reads as a string is the string of the document, if it stands for characters. -/
theorem toOption_getString {text : List Char} {v : Option Document} (h : get text path = found v)
    (hresolved : ∀ d ∈ v, d.isResolved = true) :
    (getString text path).toOption = v.bind Document.string? := by
  rw [getString, h]
  cases v with
  | none => rfl
  | some d =>
    cases d with
    | string s =>
      rw [Option.bind_some, Document.string?, ← map_unescape_text (hresolved _ rfl)]
      simp only [found, Document.raw, bind, Except.bind, ↓reduceIte]
      cases unescape s.text <;> rfl
    | _ => rfl

theorem get_of_finds {text : List Char} {v : Option Document}
    (h : Finds (seekFrom path {} text) v) : get text path = found v := by
  rw [get]
  cases v with
  | none => rw [h]; rfl
  | some v =>
    obtain ⟨b, t, hseek, ht⟩ := h
    rw [hseek]
    dsimp only
    rw [skipLayout_append b.2, Document.skipLayout_text_append, Document.valueAt_text v ht]
    rfl

theorem get_text (hplain : Plain path) (hne : path ≠ []) {d : Document} (hd : d.Distinct)
    (before after : Blank) : get (before.1 ++ (d.text ++ after.1)) path = found (d.at? path) :=
  get_of_finds (finds_text hplain hne hd before after)

/-- A value that was read is looked into again: a string, which lost its quotes, has no keys. -/
theorem get_raw (hplain : Plain path) (hne : path ≠ []) {d : Document} (hd : d.Distinct) :
    get d.raw.text path = found (d.at? path) := by
  by_cases hstring : ∃ s, d = .string s
  · obtain ⟨s, rfl⟩ := hstring
    obtain ⟨name, keys, rfl⟩ := List.exists_cons_of_ne_nil hne
    rw [get, show (Document.string s).raw.text = s.text from rfl,
      seek_unquoted hplain (unquoted_text s)]
    rfl
  · have hraw : d.raw.text = d.text := by
      cases d with
      | string s => exact absurd ⟨s, rfl⟩ hstring
      | _ => rfl
    have h := get_text hplain hne hd noBlank noBlank
    rwa [noBlank, List.nil_append, List.append_nil, ← hraw] at h

/-- The items of an array at a path. -/
theorem getArray_text (hplain : Plain path) (hne : path ≠ []) {d : Document} (hd : d.Distinct)
    (before after : Blank) {blank : Blank} {items : List (Blank × Document × Blank)}
    (hat : d.at? path = some (.array blank items)) :
    getArray (before.1 ++ (d.text ++ after.1)) path = (items.map (·.2.1.raw), none) := by
  have hfinds := finds_text hplain hne hd before after
  rw [hat] at hfinds
  obtain ⟨b, t, hseek, -⟩ := hfinds
  have hskip : skipLayout (before.1 ++ (d.text ++ after.1)) = d.text ++ after.1 := by
    rw [skipLayout_append before.2, Document.skipLayout_text_append]
  have hstart : d.text ++ after.1 ≠ [] := by
    obtain ⟨c, cs, htext, -⟩ := d.exists_text_eq
    simp [htext]
  have hnonempty : before.1 ++ (d.text ++ after.1) ≠ [] :=
    fun h => hstart (List.append_eq_nil_iff.1 h).2
  have hopen : skipLayout (b.1 ++ ((Document.array blank items).text ++ t)) =
      '[' :: (blank.1 ++ (Document.itemsText [] items ++ ']' :: t)) := by
    rw [skipLayout_append b.2, Document.skipLayout_text_append, Document.text]
    simp
  rw [getArray, if_neg hnonempty, if_neg (by rw [hskip]; exact hstart), hseek]
  simp only [hopen]
  rw [skipLayout_append blank.2]
  cases items with
  | nil => rw [Document.itemsText, List.nil_append, skipLayout_of_not (by decide)]; rfl
  | cons item items =>
    obtain ⟨c, u, hu, hlayout, hclose⟩ := Document.exists_skipLayout_items item items (']' :: t)
    have helements := Document.elements_itemsText item items t (s := c :: u) (by
      rw [hu, skipLayout_of_not hlayout])
    rw [hu]
    split
    · next h => cases h
    · next h => exact absurd (List.cons.inj h).1 hclose
    · exact helements

end reading

end SearchGateway.Json
