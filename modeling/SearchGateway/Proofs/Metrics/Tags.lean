import SearchGateway.Metrics.Sample
import SearchGateway.Proofs.Text.NameSet

/-!
# Merged tags and what is counted under them

Tags are known by their keys and the value of each (`ext_lookup`). Adding a value changes what one
key has (`lookup_add`), so after any number of them a key has what its own values come to
(`lookup_foldl_add`): the first that carries information, whatever the other keys are. Merging is
therefore independent of the order inside a set, and sets may be merged in groups.

A sample adds one to one counter (`counted_concat`), under tags with the keys of its scope.
-/

namespace SearchGateway.Metrics

open SearchGateway.Text

namespace Tags

def keys (t : Tags) : List String := t.map Prod.fst

@[simp] theorem keys_nil : keys [] = [] := rfl

@[simp] theorem keys_cons (kv : String × String) (t : Tags) : keys (kv :: t) = kv.1 :: keys t := rfl

theorem keys_append (t u : Tags) : keys (t ++ u) = keys t ++ keys u := List.map_append

/-- Every key comes once. -/
def Distinct (t : Tags) : Prop := t.keys.Nodup

/-! ### Values by key -/

theorem lookup_cons (k v : String) (t : Tags) (k' : String) :
    List.lookup k' ((k, v) :: t) = if k' = k then some v else t.lookup k' := by
  rw [List.lookup_cons]
  by_cases h : k' = k
  · rw [if_pos h, beq_iff_eq.2 h]
  · rw [if_neg h, beq_eq_false_iff_ne.2 h]

theorem lookup_eq_none_iff {t : Tags} {k : String} : t.lookup k = none ↔ k ∉ t.keys := by
  induction t with
  | nil => simp
  | cons kv t ih =>
    rw [lookup_cons, keys_cons, List.mem_cons, not_or, ← ih]
    by_cases h : k = kv.1
    · simp [h]
    · simp [h]

theorem mem_iff_lookup {t : Tags} (ht : t.Distinct) {k v : String} :
    (k, v) ∈ t ↔ t.lookup k = some v := by
  induction t with
  | nil => simp
  | cons kv t ih =>
    obtain ⟨hk, ht⟩ := List.nodup_cons.1 ht
    rw [lookup_cons, List.mem_cons, ih ht]
    by_cases h : k = kv.1
    · subst h
      have hnone : t.lookup kv.1 = none := lookup_eq_none_iff.2 hk
      simp [hnone, Prod.ext_iff, eq_comm]
    · simp [h, Prod.ext_iff]

theorem Distinct.nodup {t : Tags} (ht : t.Distinct) : t.Nodup :=
  List.Pairwise.of_map Prod.fst (fun _ _ hne hab => hne (congrArg Prod.fst hab)) ht

/-- Tags with the same value for every key are the same but for their order. -/
theorem perm_of_lookup {t u : Tags} (ht : t.Distinct) (hu : u.Distinct)
    (h : ∀ k, t.lookup k = u.lookup k) : t.Perm u := by
  refine (List.perm_ext_iff_of_nodup ht.nodup hu.nodup).2 fun (k, v) => ?_
  rw [mem_iff_lookup ht, mem_iff_lookup hu, h]

theorem Distinct.of_perm {t u : Tags} (ht : t.Distinct) (h : u.Perm t) : u.Distinct :=
  (h.map Prod.fst).nodup_iff.2 ht

theorem Distinct.lookup_of_perm {t u : Tags} (ht : t.Distinct) (h : u.Perm t) (k : String) :
    u.lookup k = t.lookup k := by
  refine Option.ext fun v => ?_
  rw [← mem_iff_lookup ht, ← mem_iff_lookup (ht.of_perm h), h.mem_iff]

theorem ext_lookup {t u : Tags} (ht : t.Distinct) (hkeys : t.keys = u.keys)
    (h : ∀ k, t.lookup k = u.lookup k) : t = u := by
  induction t generalizing u with
  | nil => exact (List.map_eq_nil_iff.1 hkeys.symm).symm
  | cons kv t ih =>
    obtain ⟨k, v⟩ := kv
    obtain ⟨⟨k', v'⟩, u, rfl⟩ : ∃ kv u', u = kv :: u' := by
      cases u with
      | nil => cases hkeys
      | cons kv u => exact ⟨kv, u, rfl⟩
    obtain ⟨rfl, htail⟩ : k = k' ∧ keys t = keys u := List.cons.inj hkeys
    obtain ⟨hk, ht⟩ := List.nodup_cons.1 ht
    have hv := h k
    rw [lookup_cons, lookup_cons, if_pos rfl, if_pos rfl] at hv
    cases hv
    congr 1
    refine ih ht htail fun k' => ?_
    by_cases hk' : k' = k
    · subst hk'
      rw [lookup_eq_none_iff.2 hk, lookup_eq_none_iff.2 (htail ▸ hk)]
    · simpa only [lookup_cons, if_neg hk'] using h k'

/-! ### Adding values -/

/-- The value of a key after another one is added for it. -/
def settle : Option String → String → Option String
  | none, new => some new
  | some old, new => some (if old = unknown then new else old)

theorem lookup_add (t : Tags) (kv : String × String) (k : String) :
    (add t kv).lookup k = if k = kv.1 then settle (t.lookup k) kv.2 else t.lookup k := by
  obtain ⟨k₀, v₀⟩ := kv
  induction t with
  | nil => rw [add, lookup_cons]; rfl
  | cons kv t ih =>
    obtain ⟨k', v'⟩ := kv
    rw [add]
    by_cases hsame : k' = k₀
    · subst hsame
      rw [if_pos rfl]
      by_cases hk : k = k'
      · subst hk
        by_cases hv : v' = unknown
        · simp [settle, hv]
        · simp [settle, hv]
      · by_cases hv : v' = unknown
        · simp [lookup_cons, hk, hv]
        · simp [lookup_cons, hk, hv]
    · rw [if_neg hsame, lookup_cons, ih, lookup_cons]
      by_cases hk : k = k'
      · simp [hk, hsame]
      · simp [hk]

theorem keys_add (t : Tags) (kv : String × String) :
    (add t kv).keys = if kv.1 ∈ t.keys then t.keys else t.keys ++ [kv.1] := by
  induction t with
  | nil => simp [add]
  | cons kv' t ih =>
    obtain ⟨k', v'⟩ := kv'
    rw [add]
    by_cases hsame : k' = kv.1
    · subst hsame
      by_cases hv : v' = unknown
      · simp [hv]
      · simp [hv]
    · rw [if_neg hsame, keys_cons, ih]
      by_cases hmem : kv.1 ∈ keys t
      · simp [hmem]
      · simp [hmem, Ne.symm hsame]

/-- The values of a key, in order. -/
def values (k : String) (t : Tags) : List String := (t.filter (·.1 = k)).map Prod.snd

/-- After adding values one by one, each key has what its own values come to. -/
theorem lookup_foldl_add (added t : Tags) (k : String) :
    (added.foldl add t).lookup k = (values k added).foldl settle (t.lookup k) := by
  induction added generalizing t with
  | nil => rfl
  | cons kv added ih =>
    rw [List.foldl_cons, ih, lookup_add]
    by_cases hk : k = kv.1
    · simp [values, hk]
    · simp [values, hk, Ne.symm hk]

/-- Adding values one by one keeps the keys in the order in which they first come. -/
theorem keys_foldl_add (added : Tags) : (added.foldl add []).keys = added.keys.eraseDups := by
  induction added using List.reverseRecOn with
  | nil => rfl
  | append_singleton added kv ih =>
    rw [List.foldl_concat, keys_add, ih, keys_append, keys_cons, keys_nil, eraseDups_concat]
    simp only [List.mem_eraseDups]

/-! ### Merging -/

/-- The first value that carries information, `unknown` if none does. -/
def informative (vs : List String) : Option String :=
  if vs = [] then none else some ((vs.find? (· ≠ unknown)).getD unknown)

theorem foldl_settle_some (vs : List String) (v : String) :
    vs.foldl settle (some v) = informative (v :: vs) := by
  induction vs generalizing v with
  | nil =>
    by_cases h : v = unknown
    · simp [informative, h]
    · simp [informative, h]
  | cons w vs ih =>
    rw [List.foldl_cons, settle, ih]
    by_cases h : v = unknown
    · simp [informative, h]
    · simp [informative, h]

theorem foldl_settle_none (vs : List String) : vs.foldl settle none = informative vs := by
  cases vs with
  | nil => rfl
  | cons v vs => exact foldl_settle_some vs v

/-- Of several values that are added only the first that carries information counts. -/
theorem foldl_settle_informative (vs : List String) (old : Option String) :
    (informative vs).toList.foldl settle old = vs.foldl settle old := by
  cases vs with
  | nil => rfl
  | cons w vs =>
    cases old with
    | none =>
      rw [foldl_settle_none (w :: vs)]
      simp [informative, settle]
    | some v =>
      rw [foldl_settle_some (w :: vs)]
      by_cases h : v = unknown
      · simp [informative, settle, h]
      · simp [informative, settle, h]

theorem informative_append (vs ws : List String) :
    informative ((informative vs).toList ++ (informative ws).toList) = informative (vs ++ ws) := by
  rw [← foldl_settle_none, List.foldl_append, foldl_settle_informative, foldl_settle_informative,
    ← List.foldl_append, foldl_settle_none]

theorem values_append (k : String) (t u : Tags) : values k (t ++ u) = values k t ++ values k u := by
  simp [values]

theorem values_eq_nil_of_not_mem {k : String} {t : Tags} (h : k ∉ t.keys) : values k t = [] := by
  rw [values, List.filter_eq_nil_iff.2, List.map_nil]
  rintro kv hkv hk
  exact h (List.mem_map.2 ⟨kv, hkv, by simpa using hk⟩)

theorem Distinct.values_eq {t : Tags} (ht : t.Distinct) (k : String) :
    values k t = (t.lookup k).toList := by
  induction t with
  | nil => rfl
  | cons kv t ih =>
    obtain ⟨hk, ht⟩ := List.nodup_cons.1 ht
    have hcons : values k (kv :: t) = values k [kv] ++ values k t := values_append k [kv] t
    rw [hcons, lookup_cons]
    by_cases h : k = kv.1
    · subst h
      rw [values_eq_nil_of_not_mem hk]
      simp [values]
    · simp [values, Ne.symm h, h, ← ih ht]

/-- The values of a key in a sequence of sets are those of the sets that have it. -/
theorem values_flatten {sets : List Tags} (hsets : ∀ t ∈ sets, t.Distinct) (k : String) :
    values k sets.flatten = sets.filterMap (List.lookup k) := by
  induction sets with
  | nil => rfl
  | cons t sets ih =>
    obtain ⟨ht, hsets⟩ := List.forall_mem_cons.1 hsets
    rw [List.flatten_cons, values_append, ih hsets, ht.values_eq, List.filterMap_cons]
    cases List.lookup k t <;> rfl

theorem lookup_merge {sets : List Tags} (hsets : ∀ t ∈ sets, t.Distinct) (k : String) :
    (merge sets).lookup k = informative (sets.filterMap (List.lookup k)) := by
  rw [merge, lookup_foldl_add, values_flatten hsets]
  exact foldl_settle_none _

theorem keys_merge (sets : List Tags) : (merge sets).keys = (keys sets.flatten).eraseDups :=
  keys_foldl_add _

theorem distinct_merge (sets : List Tags) : (merge sets).Distinct := by
  rw [Distinct, keys_merge]
  exact nodup_eraseDups _

/-- The order inside the sets does not matter. -/
theorem merge_perm {sets sets' : List Tags} (hsets : ∀ t ∈ sets, t.Distinct)
    (h : List.Forall₂ List.Perm sets' sets) : (merge sets').Perm (merge sets) := by
  have hvalues (k : String) : sets'.filterMap (List.lookup k) = sets.filterMap (List.lookup k) ∧
      ∀ t ∈ sets', t.Distinct := by
    induction h with
    | nil => exact ⟨rfl, List.forall_mem_nil _⟩
    | cons hperm _ ih =>
      obtain ⟨ht, hsets⟩ := List.forall_mem_cons.1 hsets
      obtain ⟨heq, hdistinct⟩ := ih hsets
      refine ⟨?_, List.forall_mem_cons.2 ⟨ht.of_perm hperm, hdistinct⟩⟩
      rw [List.filterMap_cons, List.filterMap_cons, ht.lookup_of_perm hperm, heq]
  refine perm_of_lookup (distinct_merge _) (distinct_merge _) fun k => ?_
  rw [lookup_merge (hvalues k).2, lookup_merge hsets, (hvalues k).1]

/-- Sets may be merged in two groups first. -/
theorem merge_merge {xs ys : List Tags} (hxs : ∀ t ∈ xs, t.Distinct) (hys : ∀ t ∈ ys, t.Distinct) :
    merge [merge xs, merge ys] = merge (xs ++ ys) := by
  have hpair : ∀ t ∈ [merge xs, merge ys], t.Distinct := by
    simp [distinct_merge]
  refine ext_lookup (distinct_merge _) ?_ fun k => ?_
  · simp only [keys_merge, List.flatten_cons, List.flatten_nil, List.append_nil, keys_append,
      List.flatten_append, eraseDups_append_eraseDups]
  · rw [lookup_merge hpair, lookup_merge (List.forall_mem_append.2 ⟨hxs, hys⟩),
      List.filterMap_append, ← informative_append, ← lookup_merge hxs, ← lookup_merge hys]
    simp only [List.filterMap_cons, List.filterMap_nil]
    cases List.lookup k (merge xs) <;> cases List.lookup k (merge ys) <;> rfl

/-! ### Standard keys -/

/-- The tags have exactly the given keys, each once and with a value that is not empty. -/
structure Complete (t : Tags) (ks : List String) : Prop where
  distinct : t.Distinct
  mem_keys_iff : ∀ k, k ∈ t.keys ↔ k ∈ ks
  ne_empty : ∀ kv ∈ t, kv.2 ≠ ""

theorem keys_standardize (t : Tags) (ks : List String) :
    (t.standardize ks).keys = ks.eraseDups := by
  rw [keys, standardize, List.map_map]
  refine (List.map_congr_left fun k _ => ?_).trans (List.map_id _)
  rw [Function.comp_apply]
  split <;> rfl

theorem complete_standardize (t : Tags) (ks : List String) : (t.standardize ks).Complete ks where
  distinct := by
    rw [Distinct, keys_standardize]
    exact nodup_eraseDups ks
  mem_keys_iff k := by rw [keys_standardize, List.mem_eraseDups]
  ne_empty kv hkv := by
    have hunknown : unknown ≠ "" := by decide
    obtain ⟨k, -, rfl⟩ := List.mem_map.1 hkv
    split
    · dsimp only
      split
      · exact hunknown
      · next hne => exact hne
    · exact hunknown

end Tags

/-! ### Counters -/

/-- How the text of a counter of successes or failures begins, whatever the tags. -/
def Scope.counterHead (c : Scope) (failed : Bool) : String :=
  "counter " ++ c.name ++ (if failed then ".error" else ".ok") ++ "\x7b"

theorem Scope.counterHead_unique {c c' : Scope} {failed failed' : Bool}
    (h : (c.counterHead failed).toList <+: (c'.counterHead failed').toList) :
    c = c' ∧ failed = failed' := by
  rw [← List.isPrefixOf_iff_prefix] at h
  revert h
  cases c <;> cases c' <;> cases failed <;> cases failed' <;> decide

namespace Sample

theorem complete_recorded (s : Sample) :
    s.recorded.Complete (if s.fault.isSome then s.scope.errorKeys else s.scope.okKeys) := by
  unfold recorded
  cases s.fault with
  | none => exact Tags.complete_standardize ..
  | some f => exact Tags.complete_standardize ..

theorem timer_ne_counter (s s' : Sample) : s.timer ≠ s'.counter := by
  intro h
  have hhead := congrArg (·.toList.head?) h
  simp [timer, counter] at hhead

theorem counterHead_begins (s : Sample) :
    (s.scope.counterHead s.fault.isSome).toList <+: s.counter.toList := by
  rw [counter, Scope.counterHead, Tags.text]
  simp only [String.toList_append, List.append_assoc, List.prefix_append_right_inj]
  exact List.prefix_append ..

theorem counterHead_begins_iff (s : Sample) {c : Scope} {failed : Bool} :
    (c.counterHead failed).toList <+: s.counter.toList ↔ c = s.scope ∧ failed = s.fault.isSome := by
  constructor
  · intro h
    rcases List.prefix_or_prefix_of_prefix h s.counterHead_begins with h | h
    · exact Scope.counterHead_unique h
    · obtain ⟨hc, hfailed⟩ := Scope.counterHead_unique h
      exact ⟨hc.symm, hfailed.symm⟩
  · rintro ⟨rfl, rfl⟩
    exact s.counterHead_begins

end Sample

/-- How often one was added to the counter of successes or failures of a scope. -/
def counted (samples : List Sample) (c : Scope) (failed : Bool) : Nat :=
  (samples.map Sample.counter).countP fun e => (c.counterHead failed).toList.isPrefixOf e.toList

/-- A sample adds one to the counter of its scope and outcome, and to no other. -/
theorem counted_concat (samples : List Sample) (s : Sample) (c : Scope) (failed : Bool) :
    counted (samples ++ [s]) c failed = counted samples c failed +
      if c = s.scope ∧ failed = s.fault.isSome then 1 else 0 := by
  rw [counted, List.map_append, List.countP_append, List.map_singleton, List.countP_singleton]
  simp only [List.isPrefixOf_iff_prefix, s.counterHead_begins_iff]
  rfl

/-- The report shows the counter of a sample with one more than before. -/
theorem counter_mem_report (samples : List Sample) (s : Sample) :
    s.counter ++ " " ++ toString ((samples.map Sample.counter).count s.counter + 1) ∈
      report (samples ++ [s]) := by
  have htimers : ((samples ++ [s]).map Sample.timer).count s.counter = 0 := by
    refine List.count_eq_zero.2 fun hmem => ?_
    obtain ⟨s', -, hs'⟩ := List.mem_map.1 hmem
    exact s'.timer_ne_counter s hs'
  rw [report, List.mem_mergeSort, List.mem_map]
  refine ⟨s.counter, List.mem_eraseDups.2 ?_, ?_⟩
  · simp
  · rw [List.count_append, htimers, List.map_append, List.count_append]
    simp

/-- Two sets that share keys; the first does not know one of the values. -/
def sharedKeys : List Tags :=
  [[("index", "books"), ("env", unknown)], [("env", "test"), ("index", "maps"), ("route", "")]]

/-- A search whose document was not found, without tags of its own. -/
def missedSearch : Sample where
  scope := .search
  resource := "get"
  tags := []
  fault := some (.failure (.notFound "document not found"))

end SearchGateway.Metrics
