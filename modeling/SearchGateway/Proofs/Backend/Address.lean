import Mathlib.Data.List.TakeWhile
import SearchGateway.Backend.Store
import SearchGateway.Proofs.Outcome

/-!
# Which addresses can be read

The address of a call is that of the backend with a path behind it. Whether it can be read is up to
the backend: an address that can be read with one path can be read with any path without escapes
(`exists_read_of_read`). What stands before the path ends in a colon and a port, wherever the
authority of the address ends, and no escape reaches over a colon (`checkEscapes_colon`).
-/

namespace SearchGateway.Backend

/-! ## Cutting a text at a character -/

section cut

variable {c : Char} {xs : List Char}

theorem takeWhile_append_of_mem (h : c ∈ xs) (ys : List Char) :
    (xs ++ ys).takeWhile (· ≠ c) = xs.takeWhile (· ≠ c) := by
  induction xs with
  | nil => cases h
  | cons x xs ih =>
    by_cases hx : x = c
    · simp [hx]
    · have hmem := (List.mem_cons.1 h).resolve_left (Ne.symm hx)
      simpa [hx] using ih hmem

theorem exists_dropWhile_append (h : c ∈ xs) :
    ∃ more, ∀ ys, (xs ++ ys).dropWhile (· ≠ c) = c :: more ++ ys := by
  induction xs with
  | nil => cases h
  | cons x xs ih =>
    by_cases hx : x = c
    · exact ⟨xs, fun ys => by simp [hx]⟩
    · obtain ⟨more, hmore⟩ := ih ((List.mem_cons.1 h).resolve_left (Ne.symm hx))
      exact ⟨more, fun ys => by simpa [hx] using hmore ys⟩

theorem takeWhile_append_of_not_mem (h : c ∉ xs) (ys : List Char) :
    (xs ++ ys).takeWhile (· ≠ c) = xs ++ ys.takeWhile (· ≠ c) :=
  List.takeWhile_append_of_pos fun _ hx => decide_eq_true fun e => h (e ▸ hx)

theorem dropWhile_append_of_not_mem (h : c ∉ xs) (ys : List Char) :
    (xs ++ ys).dropWhile (· ≠ c) = ys.dropWhile (· ≠ c) :=
  List.dropWhile_append_of_pos fun _ hx => decide_eq_true fun e => h (e ▸ hx)

end cut

namespace Address

/-! ## Escapes -/

theorem checkEscapes_cons {c : Char} (hc : c ≠ '%') (cs : List Char) :
    checkEscapes .other (c :: cs) = checkEscapes .other cs := by
  rw [checkEscapes.eq_def]
  simp [hc]

theorem checkEscapes_escape {a b : Char} (h : isHexDigit a = true ∧ isHexDigit b = true)
    (cs : List Char) : checkEscapes .other ('%' :: a :: b :: cs) = checkEscapes .other cs := by
  rw [checkEscapes.eq_def]
  simp [h, mayEscape]

theorem isHexDigit_of_checkEscapes {cs : List Char} (h : checkEscapes .other ('%' :: cs) = .ok ()) :
    ∃ a b rest, cs = a :: b :: rest ∧ isHexDigit a = true ∧ isHexDigit b = true := by
  rw [checkEscapes.eq_def] at h
  simp only [↓reduceIte] at h
  split at h
  · rename_i a b rest
    split at h
    · rename_i hab
      exact ⟨a, b, rest, rfl, Bool.and_eq_true_iff.1 hab⟩
    · cases h
  · cases h

theorem checkEscapes_plain {cs : List Char} (h : '%' ∉ cs) : checkEscapes .other cs = .ok () := by
  induction cs with
  | nil => rfl
  | cons c cs ih =>
    rw [checkEscapes_cons fun e => h (e ▸ List.mem_cons_self)]
    exact ih fun e => h (List.mem_cons_of_mem c e)

/-- No escape reaches over a colon, so what follows it can be exchanged. -/
theorem checkEscapes_colon {ys zs : List Char} (hzs : '%' ∉ zs) :
    ∀ {xs : List Char}, checkEscapes .other (xs ++ ':' :: ys) = .ok () →
      checkEscapes .other (xs ++ ':' :: zs) = .ok ()
  | [], _ => checkEscapes_plain (by simpa using hzs)
  | c :: xs, h => by
    by_cases hc : c = '%'
    · subst hc
      obtain ⟨a, b, rest, he, hab⟩ := isHexDigit_of_checkEscapes h
      match xs, he with
      | [], he => cases he; exact absurd hab.1 (by decide)
      | [_], he => cases he; exact absurd hab.2 (by decide)
      | _ :: _ :: xs, he =>
        cases he
        rw [List.cons_append, List.cons_append, List.cons_append, checkEscapes_escape hab] at h ⊢
        exact checkEscapes_colon hzs h
    · rw [List.cons_append, checkEscapes_cons hc] at h ⊢
      exact checkEscapes_colon hzs h

/-! ## Reading -/

theorem exists_resolve_iff {cs : List Char} :
    (∃ found, resolve .other cs = .ok found) ↔ checkEscapes .other cs = .ok () := by
  simp only [resolve, bind_eq_ok_iff, pure, Except.pure]
  constructor
  · rintro ⟨found, u, hu, -⟩
    exact hu
  · intro h
    exact ⟨_, (), h, rfl⟩

/-- Authority and path of an address. -/
def placeOf (main : List Char) : List Char := (main.drop 7).takeWhile (· ≠ '?')

theorem exists_readMain_iff {main : List Char} : (∃ a, readMain main = .ok a) ↔
    main.any isControl = false ∧
      (∃ x, readAuthority ((placeOf main).takeWhile (· ≠ '/')) = .ok x) ∧
      checkEscapes .other ((placeOf main).dropWhile (· ≠ '/')) = .ok () := by
  unfold readMain
  cases main.any isControl with
  | true => simp
  | false =>
    simp only [Bool.false_eq_true, ↓reduceIte, true_and, bind_eq_ok_iff, pure, Except.pure,
      Except.ok.injEq, ← exists_resolve_iff, placeOf]
    constructor
    · rintro ⟨a, x, hx, found, hfound, -⟩
      exact ⟨⟨x, hx⟩, found, hfound⟩
    · rintro ⟨⟨x, hx⟩, found, hfound⟩
      exact ⟨_, x, hx, found, hfound, rfl⟩

theorem exists_read_iff {text : String} : (∃ a, read text = .ok a) ↔
    (∃ a, readMain (text.toList.takeWhile (· ≠ '#')) = .ok a) ∧
      checkEscapes .other ((text.toList.dropWhile (· ≠ '#')).drop 1) = .ok () := by
  simp only [read, bind_eq_ok_iff, mapError_eq_ok_iff, pure, Except.pure, Except.ok.injEq,
    ← exists_resolve_iff]
  constructor
  · rintro ⟨a, x, hx, found, hfound, -⟩
    exact ⟨⟨x, hx⟩, found, hfound⟩
  · rintro ⟨⟨x, hx⟩, found, hfound⟩
    exact ⟨_, x, hx, found, hfound, rfl⟩

/-! ## Exchanging the path -/

/-- Characters that neither end a part of an address nor begin an escape. -/
def isTame (c : Char) : Bool := !isControl c && c != '#' && c != '?' && c != '/' && c != '%'

/-- The text of an address: whatever is given as the host, a port and a path. -/
def fullText (host port path : List Char) : List Char :=
  ['h', 't', 't', 'p', ':', '/', '/'] ++ (host ++ ':' :: (port ++ '/' :: path))

section exchange

variable {host port path path' : List Char} {c : Char}

theorem not_mem_of_isTame (hc : isTame c = false) (h : ∀ c ∈ port, isTame c = true) :
    c ∉ port := by
  intro hmem
  rw [h c hmem] at hc
  cases hc

/-- A cut that is neither in the host nor in the port is made behind them. -/
theorem takeWhile_host (hhost : c ∉ host) (hport : c ∉ port) (hcolon : c ≠ ':')
    (rest : List Char) : (host ++ ':' :: (port ++ rest)).takeWhile (· ≠ c) =
      host ++ ':' :: (port ++ rest.takeWhile (· ≠ c)) := by
  have hnot : c ∉ host ++ ':' :: port := by simp [hhost, hport, hcolon]
  simpa using takeWhile_append_of_not_mem hnot rest

theorem dropWhile_host (hhost : c ∉ host) (hport : c ∉ port) (hcolon : c ≠ ':')
    (rest : List Char) :
    (host ++ ':' :: (port ++ rest)).dropWhile (· ≠ c) = rest.dropWhile (· ≠ c) := by
  have hnot : c ∉ host ++ ':' :: port := by simp [hhost, hport, hcolon]
  simpa using dropWhile_append_of_not_mem hnot rest

theorem any_isControl_fullText (hport : ∀ c ∈ port, isTame c = true)
    (hpath : ∀ c ∈ path', isControl c = false)
    (h : (fullText host port path).any isControl = false) :
    (fullText host port path').any isControl = false := by
  rw [fullText, List.any_append, List.any_append, Bool.or_eq_false_iff,
    Bool.or_eq_false_iff] at h ⊢
  refine ⟨h.1, h.2.1, ?_⟩
  rw [List.any_eq_false]
  intro c hc
  rw [List.mem_cons, List.mem_append, List.mem_cons] at hc
  rcases hc with rfl | hc | rfl | hc
  · decide
  · have htame := hport c hc
    simp only [isTame, Bool.and_eq_true, Bool.not_eq_true'] at htame
    simp [htame]
  · decide
  · simp [hpath c hc]

theorem placeOf_fullText : placeOf (fullText host port path) =
    (host ++ ':' :: (port ++ '/' :: path)).takeWhile (· ≠ '?') := by
  rw [placeOf, fullText, List.drop_left' (by decide)]

theorem exists_readMain_fullText (hport : ∀ c ∈ port, isTame c = true)
    (hpath : ∀ c ∈ path', isControl c = false ∧ c ≠ '%')
    (h : ∃ a, readMain (fullText host port path) = .ok a) :
    ∃ a, readMain (fullText host port path') = .ok a := by
  obtain ⟨hcontrol, hauthority, hescapes⟩ := exists_readMain_iff.1 h
  refine exists_readMain_iff.2
    ⟨any_isControl_fullText hport (fun c hc => (hpath c hc).1) hcontrol, ?_⟩
  rw [placeOf_fullText] at hauthority hescapes ⊢
  have hplain : '%' ∉ '/' :: path'.takeWhile (· ≠ '?') := by
    intro hmem
    rcases List.mem_cons.1 hmem with he | hmem
    · cases he
    · exact (hpath '%' ((List.takeWhile_sublist _).mem hmem)).2 rfl
  by_cases hquery : '?' ∈ host
  · rw [takeWhile_append_of_mem hquery] at hauthority hescapes ⊢
    exact ⟨hauthority, hescapes⟩
  · have hend := not_mem_of_isTame (c := '?') (by decide) hport
    rw [takeWhile_host hquery hend (by decide),
      List.takeWhile_cons_of_pos (by decide)] at hauthority hescapes ⊢
    by_cases hslash : '/' ∈ host
    · -- The path begins in the host, and the port is part of it.
      obtain ⟨more, hmore⟩ := exists_dropWhile_append hslash
      have hescape : '%' ∉ port ++ '/' :: path'.takeWhile (· ≠ '?') := by
        rw [List.mem_append, not_or]
        exact ⟨not_mem_of_isTame (by decide) hport, hplain⟩
      rw [takeWhile_append_of_mem hslash] at hauthority ⊢
      rw [hmore] at hescapes ⊢
      exact ⟨hauthority, checkEscapes_colon hescape hescapes⟩
    · have hend := not_mem_of_isTame (c := '/') (by decide) hport
      rw [takeWhile_host hslash hend (by decide),
        List.takeWhile_cons_of_neg (by decide)] at hauthority ⊢
      rw [dropWhile_host hslash hend (by decide), List.dropWhile_cons_of_neg (by decide)]
      exact ⟨hauthority, checkEscapes_plain hplain⟩

theorem takeWhile_fullText (hhost : '#' ∉ host) (hport : '#' ∉ port) :
    (fullText host port path).takeWhile (· ≠ '#') =
      fullText host port (path.takeWhile (· ≠ '#')) := by
  rw [fullText, takeWhile_append_of_not_mem (by decide), takeWhile_host hhost hport (by decide),
    List.takeWhile_cons_of_pos (by decide), fullText]

theorem dropWhile_fullText (hhost : '#' ∉ host) (hport : '#' ∉ port) :
    (fullText host port path).dropWhile (· ≠ '#') = path.dropWhile (· ≠ '#') := by
  rw [fullText, dropWhile_append_of_not_mem (by decide), dropWhile_host hhost hport (by decide),
    List.dropWhile_cons_of_pos (by decide)]

/-- An address that can be read with a path can be read with any path without escapes. -/
theorem exists_read_of_read {text text' : String} (htext : text.toList = fullText host port path)
    (htext' : text'.toList = fullText host port path') (hport : ∀ c ∈ port, isTame c = true)
    (hpath : ∀ c ∈ path', isControl c = false ∧ c ≠ '%' ∧ c ≠ '#')
    (h : ∃ a, read text = .ok a) : ∃ a, read text' = .ok a := by
  obtain ⟨hmain, hescapes⟩ := exists_read_iff.1 h
  rw [htext] at hmain hescapes
  rw [exists_read_iff, htext']
  by_cases hhash : '#' ∈ host
  · -- The port and the path are part of the fragment.
    have hmem := List.mem_append_right ['h', 't', 't', 'p', ':', '/', '/'] hhash
    obtain ⟨more, hmore⟩ := exists_dropWhile_append hmem
    have hplain : '%' ∉ port ++ '/' :: path' := by
      rw [List.mem_append, List.mem_cons, not_or, not_or]
      exact ⟨not_mem_of_isTame (by decide) hport, by decide, fun hmem => (hpath _ hmem).2.1 rfl⟩
    rw [fullText, ← List.append_assoc] at hmain hescapes ⊢
    rw [takeWhile_append_of_mem hmem] at hmain ⊢
    rw [hmore] at hescapes ⊢
    exact ⟨hmain, checkEscapes_colon hplain hescapes⟩
  · have hend := not_mem_of_isTame (c := '#') (by decide) hport
    have hnone : path'.dropWhile (· ≠ '#') = [] :=
      List.dropWhile_eq_nil_iff.2 fun c hc => decide_eq_true (hpath c hc).2.2
    rw [takeWhile_fullText hhash hend] at hmain ⊢
    rw [dropWhile_fullText hhash hend, hnone]
    refine ⟨exists_readMain_fullText hport (fun c hc => ?_) hmain, rfl⟩
    have hmem := (List.takeWhile_sublist _).mem hc
    exact ⟨(hpath c hmem).1, (hpath c hmem).2.1⟩

end exchange

/-! ## The address of a backend -/

theorem isTame_of_isDigit {c : Char} (h : c.isDigit = true) : isTame c = true := by
  have hrange : 48 ≤ c.toNat ∧ c.toNat ≤ 57 := by
    simp only [Char.isDigit, Bool.and_eq_true, decide_eq_true_eq, UInt32.le_iff_toNat_le,
      ge_iff_le] at h
    exact h
  have hother (d : Char) (hd : d.toNat < 48 ∨ 57 < d.toNat) : c ≠ d := by
    rintro rfl
    omega
  simp only [isTame, isControl, Bool.and_eq_true, bne_iff_ne]
  refine ⟨⟨⟨⟨?_, hother '#' (by decide)⟩, hother '?' (by decide)⟩, hother '/' (by decide)⟩,
    hother '%' (by decide)⟩
  rw [Bool.not_eq_true', Bool.or_eq_false_iff]
  exact ⟨decide_eq_false (by omega), beq_eq_false_iff_ne.2 (by omega)⟩

theorem isTame_port (port : Int) : ∀ c ∈ (toString port).toList, isTame c = true := by
  intro c hc
  have hdigits (n : Nat) (hc : c ∈ n.repr.toList) : isTame c = true := by
    rw [Nat.toList_repr] at hc
    exact isTame_of_isDigit (Nat.isDigit_of_mem_toDigits (by decide) (by decide) hc)
  cases port with
  | ofNat n => exact hdigits n hc
  | negSucc n =>
    have hc : c ∈ ("-" ++ n.succ.repr).toList := hc
    rw [String.toList_append, List.mem_append] at hc
    rcases hc with hc | hc
    · have he : c = '-' := by simpa using hc
      subst he
      decide
    · exact hdigits n.succ hc

end Address

open Address in
/-- The address of a backend with a path behind it. -/
theorem fullText_of_address {host : String} {port : Int} {base : String}
    (h : address host port = .ok base) : ∃ hs ps, (∀ c ∈ ps, isTame c = true) ∧
      ∀ (target : String) (path : List Char), target.toList = '/' :: path →
        (base ++ target).toList = fullText hs ps path := by
  unfold address at h
  split at h
  · cases h
  · cases h
    generalize (if host.toList.contains ':' then "[" ++ host ++ "]" else host) = name
    refine ⟨name.toList, (toString port).toList, isTame_port port, fun target path htarget => ?_⟩
    simp [String.toList_append, htarget, fullText]

end SearchGateway.Backend
