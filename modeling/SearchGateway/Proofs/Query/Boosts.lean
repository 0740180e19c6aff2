import SearchGateway.Proofs.Filter.Words
import SearchGateway.Proofs.Query.SearchFields

/-!
# Boosts

A boost may be written in any spelling that `Binary64.read?` knows and is sent in one, digits with a
point between them. What is sent reads as the number that was asked for (`read?_boostText`), unless
that number is not finite: the names of such values are accepted for a boost, and what is sent for
them is no numeral (`boostText_of_not_finite`).
-/

namespace SearchGateway

open SearchGateway.Text
open SearchGateway.Filter (Stops takeWhile_append_stop dropWhile_append_stop)
open SearchGateway.Index (Metadata)

namespace Numeral

theorem splitExponentSign_withSign (negative : Bool) {cs : List Char} {c : Char}
    (hhead : cs.head? = some c) (hc : c.isDigit = true) :
    splitExponentSign (withSign negative cs) = (negative, cs) := by
  cases negative with
  | true => rfl
  | false =>
    rw [withSign, if_neg Bool.false_ne_true]
    unfold splitExponentSign
    split
    · cases hhead
      cases hc
    · cases hhead
      cases hc
    · rfl

end Numeral

namespace Binary64

/-! ### Values that are not finite -/

/-- The text is a name for a value that is not finite: `nan`, or `inf` or `infinity` after a sign if
any, in letters of either case. -/
def isNamed (s : String) : Bool :=
  let name := (Numeral.splitExponentSign s.toList).2.map Char.toLower
  s.toList.map Char.toLower = "nan".toList || name = "inf".toList || name = "infinity".toList

theorem isFinite_infinity (negative : Bool) : (infinity negative).isFinite = false := by
  cases negative <;> decide +kernel

theorem isFinite_nan : nan.isFinite = false := by decide +kernel

theorem isFinite_of_ofRatio? {negative : Bool} {n d : Nat} {x : Binary64}
    (h : ofRatio? negative n d = some x) : x.isFinite = true := by
  unfold ofRatio? at h
  dsimp only at h
  split at h
  · next hr =>
    cases h
    exact isFinite_ofRank negative hr
  · cases h

theorem isFinite_of_ofBinary? {negative : Bool} {c : Nat} {e : Int} {x : Binary64}
    (h : ofBinary? negative c e = some x) : x.isFinite = true := by
  have hzero : (ofRank negative 0).isFinite = true := isFinite_ofRank negative (by decide)
  unfold ofBinary? at h
  dsimp only at h
  split at h
  · cases h
    exact hzero
  · split at h
    · cases h
    · split at h
      · cases h
        exact hzero
      · split at h
        · exact isFinite_of_ofRatio? h
        · exact isFinite_of_ofRatio? h

theorem isFinite_of_readDecimal? {negative : Bool} {cs : List Char} {x : Binary64}
    (h : readDecimal? none negative cs = some x) : x.isFinite = true := by
  unfold readDecimal? at h
  dsimp only at h
  split at h
  · cases h
  · split at h
    · rw [Option.orElse_eq_orElse, Option.orElse_eq_or, Option.or_none] at h
      exact isFinite_of_ofDigits? h
    · split at h
      · obtain ⟨e, -, h⟩ := Option.bind_eq_some_iff.1 h
        rw [Option.orElse_eq_orElse, Option.orElse_eq_or, Option.or_none] at h
        exact isFinite_of_ofDigits? h
      · cases h

theorem isFinite_of_readHex? {negative : Bool} {cs : List Char} {x : Binary64}
    (h : readHex? none negative cs = some x) : x.isFinite = true := by
  unfold readHex? at h
  dsimp only at h
  split at h
  · cases h
  · split at h
    · cases h
    · split at h
      · obtain ⟨e, -, h⟩ := Option.bind_eq_some_iff.1 h
        rw [Option.orElse_eq_orElse, Option.orElse_eq_or, Option.or_none] at h
        exact isFinite_of_ofBinary? h
      · cases h

/-- Only a name leads to a value that is not finite: a number that is too large is refused. -/
theorem isFinite_of_read? {s : String} {x : Binary64} (h : read? s = some x) :
    x.isFinite = !isNamed s := by
  unfold read? readOr? at h
  dsimp only at h
  split at h
  · next hnan =>
    rw [← Option.some.inj h, isFinite_nan, isNamed, decide_eq_true hnan]
    rfl
  · next hnan =>
    split at h
    · next hinf =>
      rw [← Option.some.inj h, isFinite_infinity, isNamed, Bool.or_assoc, ← Bool.decide_or,
        decide_eq_true hinf, Bool.or_true]
      rfl
    · next hinf =>
      have hnamed : isNamed s = false := by
        rw [isNamed, Bool.or_assoc, ← Bool.decide_or, decide_eq_false hnan, decide_eq_false hinf]
        rfl
      rw [hnamed]
      split at h
      · cases h
      · split at h
        · split at h
          · exact isFinite_of_readHex? h
          · exact isFinite_of_readDecimal? h
        · exact isFinite_of_readDecimal? h

/-! ### Pointed numerals -/

section

variable {whole fraction : List Char} (hwhole : whole ≠ [])
  (hdigits : ∀ c ∈ whole ++ fraction, c.isDigit = true)

include hdigits

theorem splitMantissa_pointed :
    splitMantissa Char.isDigit (whole ++ '.' :: fraction) = (whole, fraction, []) := by
  obtain ⟨hdigits, hfraction⟩ := List.forall_mem_append.1 hdigits
  have hstop : Stops Char.isDigit ('.' :: fraction) := by
    rintro c ⟨⟩
    rfl
  rw [splitMantissa, takeWhile_append_stop hdigits hstop, dropWhile_append_stop hdigits hstop]
  simp only [List.takeWhile_eq_self_iff.2 hfraction, List.dropWhile_eq_nil_iff.2 hfraction]

theorem ne_of_mem_pointed {c d : Char} (hc : c ∈ whole ++ '.' :: fraction) (hd : d.isDigit = false)
    (hpoint : d ≠ '.') : c ≠ d := by
  rw [List.mem_append, List.mem_cons, or_left_comm, ← List.mem_append] at hc
  rcases hc with rfl | hc
  · exact hpoint.symm
  · exact ne_of_isDigit (hdigits c hc) hd

include hwhole

/-- Digits with a point between them are read as the number that they are the digits of. -/
theorem read?_withSign_pointed (negative : Bool) :
    read? (String.ofList (Numeral.withSign negative (whole ++ '.' :: fraction))) =
      ofDigits? negative whole fraction 0 := by
  have hpoint : ∀ name : List Char, '.' ∉ name → ∀ cs : List Char, '.' ∈ cs →
      cs.map Char.toLower ≠ name := by
    rintro name hname cs hcs rfl
    exact hname (List.mem_map.2 ⟨'.', hcs, rfl⟩)
  have hmem : '.' ∈ whole ++ '.' :: fraction := List.mem_append_right _ List.mem_cons_self
  have hsign : '.' ∈ Numeral.withSign negative (whole ++ '.' :: fraction) :=
    (Numeral.mem_withSign (by decide)).2 hmem
  have hsplit : Numeral.splitExponentSign (Numeral.withSign negative (whole ++ '.' :: fraction)) =
      (negative, whole ++ '.' :: fraction) := by
    obtain ⟨c, cs, rfl⟩ := List.exists_cons_of_ne_nil hwhole
    exact Numeral.splitExponentSign_withSign negative rfl (hdigits c List.mem_cons_self)
  have hplain : '_' ∉ whole ++ '.' :: fraction := fun hc =>
    ne_of_mem_pointed hdigits hc (by decide) (by decide) rfl
  have hfilter : (whole ++ '.' :: fraction).filter (· ≠ '_') = whole ++ '.' :: fraction :=
    List.filter_eq_self.2 fun c hc => decide_eq_true (ne_of_mem_of_not_mem hc hplain)
  have hread : readDecimal? none negative (whole ++ '.' :: fraction) =
      ofDigits? negative whole fraction 0 := by
    rw [readDecimal?, splitMantissa_pointed hdigits]
    dsimp only
    rw [if_neg fun hnil => hwhole hnil.1, Option.orElse_eq_orElse, Option.orElse_eq_or,
      Option.or_none]
  rw [read?, readOr?, String.toList_ofList]
  dsimp only
  rw [if_neg (hpoint _ (by decide) _ hsign), hsplit]
  dsimp only
  rw [if_neg (not_or.2 ⟨hpoint _ (by decide) _ hmem, hpoint _ (by decide) _ hmem⟩),
    if_neg (by simp [hplain]), hfilter]
  split
  · next c rest hbody =>
    have hc : c ∈ whole ++ '.' :: fraction := by
      rw [hbody]
      exact List.mem_cons_of_mem _ List.mem_cons_self
    rw [if_neg (not_or.2 ⟨ne_of_mem_pointed hdigits hc (by decide) (by decide),
      ne_of_mem_pointed hdigits hc (by decide) (by decide)⟩), ← hbody, hread]
  · exact hread

end

end Binary64

namespace Query.FreeText

/-! ### What is sent for a boost -/

/-- A numeral of the form `-?digits.digits`. -/
def IsDecimal (text : String) : Prop :=
  ∃ negative whole fraction, whole ≠ [] ∧ fraction ≠ [] ∧
    (∀ c ∈ whole ++ fraction, c.isDigit = true) ∧
    text.toList = Numeral.withSign negative (whole ++ '.' :: fraction)

theorem IsDecimal.read?_ne_none {text : String} (h : IsDecimal text) :
    Numeral.read? text.toList ≠ none := by
  obtain ⟨negative, whole, fraction, hwhole, hfraction, hdigits, htext⟩ := h
  rw [List.forall_mem_append] at hdigits
  rw [htext, Numeral.read?_pointed negative hwhole hdigits.1 hfraction hdigits.2]
  exact Option.some_ne_none _

section

variable {x : Binary64}

theorem boostText_eq (hx : x.isFinite = true) :
    ∃ whole fraction, (Binary64.shortest x.rank).Pointed whole fraction ∧
      boostText x = String.ofList (Numeral.withSign x.negative (whole ++ '.' :: fraction)) := by
  obtain ⟨whole, fraction, h, hplain⟩ := Binary64.plainChars_pointed hx
  refine ⟨whole, fraction, h, ?_⟩
  rw [boostText]
  rcases hplain with hplain | ⟨hplain, rfl⟩
  · rw [hplain, if_pos]
    rw [List.contains_iff_mem, Numeral.mem_withSign (by decide)]
    exact List.mem_append_right _ List.mem_cons_self
  · rw [hplain, if_neg, Numeral.withSign_append]
    rw [List.contains_iff_mem, Numeral.mem_withSign (by decide)]
    exact fun hpoint => absurd (h.isDigit '.' (List.mem_append_left _ hpoint)) (by decide)

theorem isDecimal_boostText (hx : x.isFinite = true) : IsDecimal (boostText x) := by
  obtain ⟨whole, fraction, h, htext⟩ := boostText_eq hx
  exact ⟨x.negative, whole, fraction, h.whole_ne, h.fraction_ne, h.isDigit,
    by rw [htext, String.toList_ofList]⟩

theorem read?_boostText (hx : x.isFinite = true) : Binary64.read? (boostText x) = some x := by
  obtain ⟨whole, fraction, h, htext⟩ := boostText_eq hx
  rw [htext, Binary64.read?_withSign_pointed h.whole_ne h.isDigit,
    Binary64.ofDigits?_of_pointed hx h]

/-- The texts of the values that are not finite. -/
def namedBoosts : List String := ["NaN.0", "+Inf.0", "-Inf.0"]

theorem boostText_of_not_finite (hx : x.isFinite = false) : boostText x ∈ namedBoosts := by
  have hrank : Binary64.infinityRank ≤ x.rank := Nat.not_lt.1 (of_decide_eq_false hx)
  rw [boostText, Binary64.plainChars, Binary64.charsBy]
  split
  · decide
  · next hnan =>
    have hinfinite : x.isInfinite = true := by
      rw [Binary64.isNaN, decide_eq_true_eq] at hnan
      rw [Binary64.isInfinite, beq_iff_eq]
      omega
    rw [if_pos hinfinite]
    cases x.negative with
    | true => decide
    | false => decide

theorem not_isDecimal_of_mem {boost : String} (h : boost ∈ namedBoosts) : ¬ IsDecimal boost := by
  have hnone : ∀ boost ∈ namedBoosts, Numeral.read? boost.toList = none := by decide
  exact fun hdecimal => hdecimal.read?_ne_none (hnone boost h)

end

/-! ### What an entry asks for -/

/-- The numeral of an entry, behind its last colon. -/
inductive AsksBoost (entry : String) : String → Prop
  | default (h : ':' ∉ entry.toList) : AsksBoost entry "1.0"
  | written {name boost : String} (hentry : entry = name ++ ":" ++ boost)
    (h : ':' ∉ boost.toList) : AsksBoost entry (trim boost)

theorem not_mem_of_splitBoost {entry name : String} (h : splitBoost entry = (name, none)) :
    ':' ∉ entry.toList := by
  unfold splitBoost at h
  dsimp only at h
  split at h
  · cases h
  · next hcolon => simpa using hcolon

theorem eq_of_splitBoost {entry name boost : String} (h : splitBoost entry = (name, some boost)) :
    entry = name ++ ":" ++ boost ∧ ':' ∉ boost.toList := by
  unfold splitBoost at h
  dsimp only at h
  split at h
  · next hcolon =>
    cases h
    have hne : entry.toList.reverse.dropWhile (· ≠ ':') ≠ [] := by
      intro hnil
      have hall := List.dropWhile_eq_nil_iff.1 hnil ':' (List.contains_iff_mem.1 hcolon)
      simp at hall
    obtain ⟨c, before, hbefore⟩ := List.exists_cons_of_ne_nil hne
    have hc : c = ':' := by
      have hhead := List.head?_dropWhile_not (· ≠ ':') entry.toList.reverse
      rw [hbefore] at hhead
      simpa using hhead
    have hsplit := List.takeWhile_append_dropWhile (p := (· ≠ ':')) (l := entry.toList.reverse)
    rw [hbefore, hc] at hsplit
    constructor
    · rw [← String.toList_inj, ← List.reverse_inj, hbefore]
      simpa using hsplit.symm
    · rw [String.toList_ofList, List.mem_reverse]
      intro hmem
      simpa using List.mem_takeWhile_imp hmem
  · cases h

theorem asksBoost_of_weighted {entry text : String} {x : Binary64}
    (h : weighted entry = .ok (text, x)) :
    ∃ numeral, AsksBoost entry numeral ∧ Binary64.read? numeral = some x := by
  unfold weighted at h
  split at h
  · next name hsplit =>
    cases h
    exact ⟨"1.0", .default (not_mem_of_splitBoost hsplit), by decide +kernel⟩
  · next name boost hsplit =>
    obtain ⟨hentry, hcolon⟩ := eq_of_splitBoost hsplit
    split at h
    · next x hread =>
      cases h
      exact ⟨trim boost, .written hentry hcolon, hread⟩
    · cases h

/-- How the boost of an entry is sent: as a decimal numeral for the number that was asked for. Only
a value that is asked for by a name of what is not finite is sent as something else. -/
def SendsBoost (entry out : String) : Prop :=
  ∃ name boost numeral x, out = name ++ "^" ++ boost ∧ '^' ∉ name.toList ∧
    AsksBoost entry numeral ∧ Binary64.read? numeral = some x ∧
    if Binary64.isNamed numeral then ¬ IsDecimal boost ∧ boost ∈ namedBoosts
    else IsDecimal boost ∧ Binary64.read? boost = some x

theorem sendsBoost_of_fieldEntry {m : Metadata} {entry out : String}
    (h : fieldEntry m entry = .ok out) : SendsBoost entry out := by
  obtain ⟨text, x, f, hweighted, hparse, -, -, rfl⟩ := fieldEntry_eq_ok_iff.1 h
  obtain ⟨numeral, hasks, hread⟩ := asksBoost_of_weighted hweighted
  have hfinite := Binary64.isFinite_of_read? hread
  refine ⟨_, _, numeral, x, rfl, not_mem_searchName (Filter.Field.isPath_of_parse hparse), hasks,
    hread, ?_⟩
  cases hnamed : Binary64.isNamed numeral with
  | false =>
    rw [hnamed] at hfinite
    exact ⟨isDecimal_boostText hfinite, read?_boostText hfinite⟩
  | true =>
    rw [hnamed] at hfinite
    have hmem := boostText_of_not_finite hfinite
    exact ⟨not_isDecimal_of_mem hmem, hmem⟩

/-- Every item of a list of fields has its boost sent, as a decimal numeral unless it was asked for
by the name of a value that is not finite. -/
theorem boosts_emitted {m : Metadata} {entries emitted : List String} (hne : entries ≠ [])
    (h : fields m entries = .ok emitted) : List.Forall₂ SendsBoost (items entries) emitted :=
  ((fields_eq_ok_iff hne).1 h).imp fun _ _ => sendsBoost_of_fieldEntry

theorem boosts_emitted_rawTexts :
    fields rawTexts ["note:-.5e1, title", "id: 0x1p-2"] =
        .ok ["note.raw^-5.0", "title.raw^1.0", "id^0.25"] ∧
      List.Forall₂ SendsBoost ["note:-.5e1", "title", "id: 0x1p-2"]
        ["note.raw^-5.0", "title.raw^1.0", "id^0.25"] := by
  have h : fields rawTexts ["note:-.5e1, title", "id: 0x1p-2"] =
      .ok ["note.raw^-5.0", "title.raw^1.0", "id^0.25"] := by decide +kernel
  have hitems : items ["note:-.5e1, title", "id: 0x1p-2"] =
      ["note:-.5e1", "title", "id: 0x1p-2"] := by decide
  have hall := boosts_emitted (by decide) h
  rw [hitems] at hall
  exact ⟨h, hall⟩

/-- A boost that is no number is accepted, and what is sent for it is no numeral. -/
theorem nan_boost_emitted :
    fields rawTexts ["title:nan"] = .ok ["title.raw^NaN.0"] ∧ ¬ IsDecimal "NaN.0" :=
  ⟨by decide +kernel, not_isDecimal_of_mem (by decide)⟩

end Query.FreeText

end SearchGateway
