import SearchGateway.Proofs.Filter.Words
import SearchGateway.Proofs.Index.Registry
import SearchGateway.Proofs.Query.Compiled
import SearchGateway.Proofs.Query.Source

/-!
# Requests by the defaults of an index

A request that names an index and at most a text takes everything else from the settings of the
index. `compile_defaults` says what becomes of it in a registry that was accepted: sizes and source
fields never stand in its way, and it is refused exactly if the name of the index is blank or the
minimum of the settings, which is needed for a text alone, is not one (`FreeText.IsMinimum`). The
checks of the settings look at neither of the two, so there are accepted registries with an index
that no request can name and with an index in which no text can be searched
(`compile_overfull_minimum`).
-/

namespace SearchGateway

namespace Query

open SearchGateway.Text
open SearchGateway.Filter (Stops takeWhile_append_stop dropWhile_append_stop)
open SearchGateway.Index (Metadata Registry Settings)

namespace FreeText

/-- A minimum as it is written: up to three digits, a minus sign before them or not, and a percent
sign after them or not. A percentage is at most 100, with either sign. -/
def IsMinimum (text : String) : Prop :=
  ∃ negative percent digits,
    text.toList = Numeral.withSign negative (digits ++ if percent then ['%'] else []) ∧
    digits ≠ [] ∧ digits.length ≤ 3 ∧ (∀ c ∈ digits, c.isDigit = true) ∧
    (percent = true → digitsValue digits ≤ 100)

theorem isMinimum_of_check {text : String} (h : checkMinimum text = .ok ()) : IsMinimum text := by
  unfold checkMinimum at h
  dsimp only at h
  have htext := Numeral.withSign_splitSign text.toList
  generalize (Numeral.splitSign text.toList).1 = negative at htext
  generalize (Numeral.splitSign text.toList).2 = body at h htext
  have hbody : body.takeWhile Char.isDigit ++ body.dropWhile Char.isDigit = body :=
    List.takeWhile_append_dropWhile
  have hdigits : ∀ c ∈ body.takeWhile Char.isDigit, c.isDigit = true :=
    fun c hc => List.mem_takeWhile_imp hc
  generalize body.takeWhile Char.isDigit = digits at h hbody hdigits
  generalize body.dropWhile Char.isDigit = rest at h hbody
  subst hbody
  split at h
  · cases h
  · next hform =>
    split at h
    · cases h
    · next hvalue =>
      simp only [not_or, not_and, Decidable.not_not, Nat.not_lt] at hform hvalue
      obtain ⟨hne, hlength, hrest⟩ := hform
      by_cases hnil : rest = []
      · subst hnil
        exact ⟨negative, false, digits, htext.symm, hne, hlength, hdigits, nofun⟩
      · have hpercent := hrest hnil
        subst hpercent
        exact ⟨negative, true, digits, htext.symm, hne, hlength, hdigits, fun _ => hvalue rfl⟩

theorem check_of_isMinimum {text : String} (h : IsMinimum text) : checkMinimum text = .ok () := by
  obtain ⟨negative, percent, digits, htext, hne, hlength, hdigits, hvalue⟩ := h
  have hstop : Stops Char.isDigit (if percent then ['%'] else []) := by
    cases percent <;> simp [Stops]
  have hhead : (digits ++ if percent then ['%'] else []).head? ≠ some '-' := by
    obtain ⟨c, cs, rfl⟩ := List.exists_cons_of_ne_nil hne
    intro hc
    have hdigit := hdigits c List.mem_cons_self
    rw [Option.some.inj hc] at hdigit
    cases hdigit
  rw [checkMinimum, htext, Numeral.splitSign_withSign negative hhead]
  simp only [takeWhile_append_stop hdigits hstop, dropWhile_append_stop hdigits hstop]
  rw [if_neg (by cases percent <;> simp [hne, hlength]), if_neg]
  rintro ⟨hpercent, hover⟩
  cases percent with
  | false => cases hpercent
  | true => exact absurd (hvalue rfl) (Nat.not_le.2 hover)

theorem checkMinimum_eq_ok_iff {text : String} : checkMinimum text = .ok () ↔ IsMinimum text :=
  ⟨isMinimum_of_check, check_of_isMinimum⟩

theorem isMinimum_default : IsMinimum "75%" := isMinimum_of_check (by decide +kernel)

end FreeText

namespace Compile

/-- The source fields by the settings alone. -/
def defaultSource (s : Settings) : SourceFilter :=
  ⟨(NameSet.ofList s.sourceIncludes).toList,
    (NameSet.ofList (s.sourceExcludes.filter (· ∉ s.sourceIncludes))).toList⟩

/-- The query of a text alone. -/
def defaultBody (s : Settings) (q : String) : Body :=
  if isBlankText q then {}
  else { should := [.leaf (.queryString (trim q) s.defaultFields "OR"
    s.withDefaults.minimumShouldMatch)] }

/-- The search for a text in an index of the settings, where nothing else is asked for. -/
def defaultSearch (name : String) (s : Settings) (q : String) : Request where
  index := name
  query := some (defaultBody s q)
  start := 0
  size := s.withDefaults.defaultSize
  sort := []
  aggregations := []
  source := defaultSource s
  queryTimeout := s.queryTimeout

section

variable {name : String} {settings : Settings} {m : Metadata}

theorem source_defaults (hsound : Metadata.Sound name settings m) :
    source m [] [] = .ok (defaultSource settings) := by
  have hincludes := hsound.sourceIncludes_eq
  have hexcludes := hsound.sourceExcludes_eq
  have herased :
      (NameSet.ofList m.sourceExcludes).eraseMany (NameSet.ofList m.sourceIncludes).toList =
        NameSet.ofList (m.sourceExcludes.filter (· ∉ m.sourceIncludes)) := by
    apply NameSet.ext
    intro f
    rw [NameSet.mem_eraseMany, NameSet.mem_ofList, NameSet.mem_ofList, List.mem_filter,
      decide_eq_true_iff]
    exact and_congr_right fun _ => not_congr NameSet.mem_ofList
  refine source_eq_ok_iff.2 ⟨fun f hf => hsound.hasField_source f ?_, ?_⟩
  · rw [List.mem_append, ← hincludes, ← hexcludes]
    simpa [wanted, unwanted, asked] using hf
  · have hinc : includeSet m [] = NameSet.ofList m.sourceIncludes := rfl
    have hexc : excludeSet m [] = NameSet.ofList m.sourceExcludes := rfl
    rw [hinc, hexc, herased, defaultSource, hincludes, hexcludes]

theorem pageSize_defaults (hsound : Metadata.Sound name settings m) (q : String) {size : Int} :
    pageSize m { index := name, text := q } = .ok size ↔
      isBlankText name = false ∧ settings.withDefaults.defaultSize = size := by
  have hle : ¬ m.maxSize < m.defaultSize := Int.not_lt.2 hsound.defaultSize_le
  have hcheck : ({ index := name, text := q } : SearchRequest).check =
      if isBlankText name then .error .indexName else .ok () := rfl
  rw [pageSize, hcheck, ← hsound.defaultSize_eq]
  cases isBlankText name <;>
    simp [bind_eq_ok_iff, mapError_eq_ok_iff, hle, pure, Except.pure]

theorem minimum_of_blank {q : String} (hq : isBlankText q = true) :
    minimum m { index := name, text := q } = .ok "" := by
  rw [minimum, if_pos ⟨rfl, by simp [SearchRequest.hasText, hq]⟩]
  rfl

theorem minimum_of_text (hsound : Metadata.Sound name settings m) {q : String}
    (hq : isBlankText q = false) {text : String} :
    minimum m { index := name, text := q } = .ok text ↔
      FreeText.IsMinimum settings.withDefaults.minimumShouldMatch ∧
        text = settings.withDefaults.minimumShouldMatch := by
  rw [minimum, if_neg (by simp [SearchRequest.hasText, hq]), ← hsound.minimumShouldMatch_eq,
    ← FreeText.checkMinimum_eq_ok_iff]
  simp only [show trim "" = "" from rfl, ↓reduceIte, bind_eq_ok_iff, mapError_eq_ok_iff, pure,
    Except.pure, Except.ok.injEq]
  constructor
  · rintro ⟨⟨⟩, hcheck, rfl⟩
    exact ⟨hcheck, rfl⟩
  · rintro ⟨hcheck, rfl⟩
    exact ⟨(), hcheck, rfl⟩

/-- The minimum of the settings is looked at for a text only. -/
theorem exists_minimum_iff (hsound : Metadata.Sound name settings m) (q : String) :
    (∃ text, minimum m { index := name, text := q } = .ok text) ↔
      isBlankText q = true ∨ FreeText.IsMinimum settings.withDefaults.minimumShouldMatch := by
  cases hq : isBlankText q with
  | true => exact ⟨fun _ => .inl rfl, fun _ => ⟨"", minimum_of_blank hq⟩⟩
  | false => simp [minimum_of_text hsound hq]

theorem query_defaults (hsound : Metadata.Sound name settings m) (q : String) {text : String}
    (htext : isBlankText q = false → text = settings.withDefaults.minimumShouldMatch) :
    query m { index := name, text := q } text = .ok (defaultBody settings q) := by
  have hfilter : filterBody m { index := name, text := q } = .ok {} :=
    filterBody_eq_ok_iff.2 (.inl ⟨rfl, rfl⟩)
  cases hq : isBlankText q with
  | true =>
    have hno : ({ index := name, text := q } : SearchRequest).hasText = false := by
      simp [SearchRequest.hasText, hq]
    rw [query_of_no_text m _ hno, hfilter, defaultBody, if_pos hq]
  | false =>
    have hhas : ({ index := name, text := q } : SearchRequest).hasText = true := by
      simp [SearchRequest.hasText, hq]
    refine (query_eq_ok_iff hhas).2 ⟨{}, hfilter, _, rfl, ?_⟩
    rw [defaultBody, hq, htext hq, ← hsound.defaultFields_eq]
    rfl

theorem facets_nil (m : Metadata) (size : Int) : facets m size [] = .ok [] := by
  rw [facets, show items [] = [] from rfl, Facets.families]
  simp [bind, Except.bind, pure, Except.pure]

/-- A search by the defaults is refused for a blank name and for a text without a minimum only. -/
theorem search_defaults (hsound : Metadata.Sound name settings m) (q : String) {out : Request} :
    search m { index := name, text := q } = .ok out ↔
      (isBlankText name = false ∧
        (isBlankText q = true ∨ FreeText.IsMinimum settings.withDefaults.minimumShouldMatch)) ∧
      out = defaultSearch name settings q := by
  have hsort : Compile.sort m { index := name, text := q } = .ok [] := rfl
  have hfacets := facets_nil m 0
  have hsource := source_defaults hsound
  have hquery : ∀ {text}, minimum m { index := name, text := q } = .ok text →
      query m { index := name, text := q } text = .ok (defaultBody settings q) :=
    fun hminimum => query_defaults hsound q fun hq => ((minimum_of_text hsound hq).1 hminimum).2
  have hout : defaultSearch name settings q =
      { index := m.name, query := some (defaultBody settings q), start := 0,
        size := settings.withDefaults.defaultSize, sort := [], aggregations := [],
        source := defaultSource settings, queryTimeout := m.queryTimeout } := by
    rw [hsound.name_eq, hsound.queryTimeout_eq, defaultSearch]
  rw [search_eq_ok_iff, ← exists_minimum_iff hsound]
  constructor
  · rintro ⟨size, hsize, text, hminimum, body, hbody, sort, hs, aggregations, ha, src, hsrc, rfl⟩
    obtain ⟨hname, rfl⟩ := (pageSize_defaults hsound q).1 hsize
    cases hbody.symm.trans (hquery hminimum)
    cases hs.symm.trans hsort
    cases ha.symm.trans hfacets
    cases hsrc.symm.trans hsource
    exact ⟨⟨hname, text, hminimum⟩, hout.symm⟩
  · rintro ⟨⟨hname, text, hminimum⟩, rfl⟩
    exact ⟨_, (pageSize_defaults hsound q).2 ⟨hname, rfl⟩, text, hminimum, _, hquery hminimum,
      _, hsort, _, hfacets, _, hsource, hout.symm⟩

theorem document_defaults (hsound : Metadata.Sound name settings m) (id : String) {out : Lookup} :
    document m { index := name, id } = .ok out ↔
      (isBlankText name = false ∧ isBlankText id = false) ∧
      out = ⟨name, trim id, defaultSource settings⟩ := by
  have hcheck : ({ index := name, id } : DocumentRequest).check = if isBlankText name then
      .error .indexName else if isBlankText id then .error .idRequired else .ok () := rfl
  rw [document, hcheck, source_defaults hsound, hsound.name_eq]
  cases isBlankText name <;> cases isBlankText id <;>
    simp [bind, Except.bind, pure, Except.pure, Except.mapError, eq_comm]

end

end Compile

/-- Of the settings that make a registry, a request for one of its indexes by the defaults needs no
more than a name that is not blank and, for a text, a minimum. The request then asks for what the
settings say. -/
theorem compile_defaults {entries : List (String × Settings)} {registry : Registry}
    (hmake : Registry.make entries = .ok registry) {name : String}
    (hname : name ∈ registry.names) :
    ∃ settings, (name, settings) ∈ entries ∧
      (∀ q out, compile registry { index := name, text := q } = .ok out ↔
        (isBlankText name = false ∧ (isBlankText q = true ∨ settings.minimumShouldMatch = "" ∨
          FreeText.IsMinimum settings.minimumShouldMatch)) ∧
        out = Compile.defaultSearch name settings q) ∧
      ∀ id out, compileLookup registry { index := name, id } = .ok out ↔
        (isBlankText name = false ∧ isBlankText id = false) ∧
        out = ⟨name, trim id, Compile.defaultSource settings⟩ := by
  obtain ⟨settings, m, hmem, hfind, hsound⟩ := Registry.exists_sound_of_mem_names hmake hname
  have hminimum : FreeText.IsMinimum settings.withDefaults.minimumShouldMatch ↔
      settings.minimumShouldMatch = "" ∨ FreeText.IsMinimum settings.minimumShouldMatch := by
    rw [Settings.withDefaults]
    dsimp only
    split
    · next hempty => exact ⟨fun _ => .inl hempty, fun _ => FreeText.isMinimum_default⟩
    · next hne => exact ⟨.inr, fun h => h.resolve_left hne⟩
  refine ⟨settings, hmem, fun q out => ?_, fun id out => ?_⟩
  · rw [compile_eq_ok_iff, ← hminimum, ← Compile.search_defaults hsound q]
    simp [hfind]
  · rw [compileLookup_eq_ok_iff, ← Compile.document_defaults hsound id]
    simp [hfind]

/-- An index with a minimum of its own and one by the defaults. -/
def catalog : List (String × Settings) := [
  ("products", {
    defaultSize := 5
    maxSize := 5
    minimumShouldMatch := "-30%"
    sourceIncludes := ["title"]
    sourceExcludes := ["id", "title"]
    fields := [⟨"title", "text"⟩, ⟨"price", "float"⟩] }),
  ("users", {})]

theorem compile_defaults_catalog :
    ∃ registry, Registry.make catalog = .ok registry ∧ "products" ∈ registry.names ∧
      ∃ settings, ("products", settings) ∈ catalog ∧
        (∀ q out, compile registry { index := "products", text := q } = .ok out ↔
          (isBlankText "products" = false ∧ (isBlankText q = true ∨
            settings.minimumShouldMatch = "" ∨ FreeText.IsMinimum settings.minimumShouldMatch)) ∧
          out = Compile.defaultSearch "products" settings q) ∧
        ∀ id out, compileLookup registry { index := "products", id } = .ok out ↔
          (isBlankText "products" = false ∧ isBlankText id = false) ∧
          out = ⟨"products", trim id, Compile.defaultSource settings⟩ := by
  have hmake : Registry.make catalog = .ok ⟨catalog.filterMap Index.metadataOf?⟩ :=
    Registry.make_eq_ok_iff.2 ⟨by decide +kernel, rfl⟩
  have hname : "products" ∈ Registry.names ⟨catalog.filterMap Index.metadataOf?⟩ := by
    decide +kernel
  exact ⟨_, hmake, hname, compile_defaults hmake hname⟩

/-- Settings that are accepted although no text can be searched in the one index and nothing at all
in the other. -/
def overfull : List (String × Settings) :=
  [("products", { minimumShouldMatch := "200%" }), (" ", {})]

theorem compile_overfull_minimum :
    ∃ registry, Registry.make overfull = .ok registry ∧ registry.names = [" ", "products"] ∧
      compile registry { index := "products", text := "x" } =
        .error (.freeText (.percentage "200%")) ∧
      compile registry { index := " ", text := "x" } = .error (.request .indexName) ∧
      compileLookup registry { index := " ", id := "1" } = .error (.request .indexName) := by
  have hmake : Registry.make overfull = .ok ⟨overfull.filterMap Index.metadataOf?⟩ :=
    Registry.make_eq_ok_iff.2 ⟨by decide +kernel, rfl⟩
  exact ⟨_, hmake, by decide +kernel, rfl, rfl, rfl⟩

end Query

end SearchGateway
