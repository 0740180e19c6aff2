import Mathlib.Data.List.Induction
import SearchGateway.Proofs.Index.Registry
import SearchGateway.Query.Compile

/-!
# A registry shared by many calls

Refreshes, lookups and compilations run at the same time on one registry. Each is a `Task` that
moves by itself, and a schedule is any list of actions: a call begins, or a task makes its next
move. One move does one of three things:

* a refresh looks at one more index of its configuration, in any order, and keeps what came of it to
  itself. When none is left it replaces the registry as a whole, or fails;
* a call that reads the registry looks at it once;
* a compilation that has looked its index up finishes without the registry.

`Sound` says what is known of a task from the schedule so far. It holds of every task at every
moment, and at every moment the registry is what the configuration taken over last makes
(`steady_run`); `run_atomic` says what follows for the calls. A task that is left alone does what
the call does by itself (`World.run_ask`, `World.run_refresh`), and this too is part of
`run_atomic`: after any schedule, a call that begins and has no other between its moves.
-/

namespace SearchGateway.Sharing

open SearchGateway.Index (Settings Metadata Flaw Registry LookupFault metadataOf? flawsOf)

/-! ## Tasks and schedules -/

/-- A configuration names each index once. -/
structure Configuration where
  entries : List (String × Settings)
  nodup : (entries.map (·.1)).Nodup

/-- A call that reads the registry. -/
inductive Question
  | find (name : String)
  | names
  | compile (r : SearchRequest)

inductive Answer
  | found (result : Except LookupFault Metadata)
  | names (names : List String)
  | compiled (result : Except Query.Compile.Fault Request)

/-- What a call answers that has the registry to itself. -/
def answer (registry : Registry) : Question → Answer
  | .find name => .found (registry.find name)
  | .names => .names registry.names
  | .compile r => .compiled (Query.compile registry r)

/-- A call and where it stands. -/
inductive Task
  /-- The indexes that are left, and the metadata and flaws of the others. -/
  | refreshing (input : Configuration) (left : List (String × Settings))
      (metas : List (String × Metadata)) (flaws : List Flaw)
  | refreshed (input : Configuration)
  | refused (input : Configuration) (flaws : List Flaw)
  | asking (q : Question)
  /-- A compilation that has looked its index up. -/
  | looked (r : SearchRequest) (found : Except LookupFault Metadata)
  | answered (q : Question) (a : Answer)

/-- A refresh looks at the index number `pick` of those that are left. -/
def Task.visit (input : Configuration) (left : List (String × Settings))
    (metas : List (String × Metadata)) (flaws : List Flaw) (pick : Nat) : Task :=
  match left[pick]? with
  | none => .refreshing input left metas flaws
  | some (name, settings) =>
    match Metadata.make name settings with
    | .ok m => .refreshing input (left.eraseIdx pick) (metas ++ [(name, m)]) flaws
    | .error es => .refreshing input (left.eraseIdx pick) metas (flaws ++ es)

/-- The next move of a task, and the registry it puts in the place of the present one, if it does.
`pick` tells a refresh which index comes next. -/
def Task.move (registry : Registry) (pick : Nat) : Task → Task × Option (Configuration × Registry)
  | .refreshing input [] metas [] => (.refreshed input, some (input, ⟨metas⟩))
  | .refreshing input [] _ flaws => (.refused input flaws, none)
  | .refreshing input left metas flaws => (visit input left metas flaws pick, none)
  | .asking (.find name) => (.answered (.find name) (.found (registry.find name)), none)
  | .asking .names => (.answered .names (.names registry.names), none)
  | .asking (.compile r) => (.looked r (registry.find r.index), none)
  | .looked r found =>
    (.answered (.compile r) (.compiled (do
      let m ← found.mapError .index
      Query.Compile.search m r)), none)
  | .refreshed input => (.refreshed input, none)
  | .refused input flaws => (.refused input flaws, none)
  | .answered q a => (.answered q a, none)

structure World where
  registry : Registry
  /-- The configurations that were taken over, the last one at the end. -/
  taken : List Configuration
  tasks : List Task

inductive Action
  | refresh (input : Configuration)
  | ask (q : Question)
  /-- The task number `i` makes its next move. -/
  | move (i pick : Nat)

namespace World

def start (input : Configuration) (registry : Registry) : World := ⟨registry, [input], []⟩

def step (w : World) : Action → World
  | .refresh input => { w with tasks := w.tasks ++ [.refreshing input input.entries [] []] }
  | .ask q => { w with tasks := w.tasks ++ [.asking q] }
  | .move i pick =>
    match w.tasks[i]? with
    | none => w
    | some task =>
      match task.move w.registry pick with
      | (task, none) => { w with tasks := w.tasks.set i task }
      | (task, some (input, registry)) =>
        ⟨registry, w.taken ++ [input], w.tasks.set i task⟩

def run (w : World) (actions : List Action) : World := actions.foldl step w

theorem run_append (w : World) (actions more : List Action) :
    w.run (actions ++ more) = (w.run actions).run more := List.foldl_append

theorem run_concat (w : World) (actions : List Action) (a : Action) :
    w.run (actions ++ [a]) = (w.run actions).step a := w.run_append actions [a]

end World

/-! ## What is known of a task -/

/-- The registry is what the configuration makes, in whatever order it was made. -/
def Holds (registry : Registry) (input : Configuration) : Prop :=
  ∃ made, Registry.make input.entries = .ok made ∧ registry.indexes.Perm made.indexes

/-- A registry that is what a configuration makes answers as the one that is made. -/
theorem Holds.exists_answer_eq {registry : Registry} {input : Configuration}
    (h : Holds registry input) :
    ∃ made, Registry.make input.entries = .ok made ∧ ∀ q, answer registry q = answer made q := by
  obtain ⟨made, hmade, hperm⟩ := h
  have hnodup : (made.indexes.map (·.1)).Nodup := by
    rw [Index.Registry.map_fst_of_make hmade]
    exact input.nodup
  refine ⟨made, hmade, fun q => ?_⟩
  cases q with
  | find name => rw [answer, answer, Index.Registry.find_eq_of_perm hperm hnodup]
  | names => rw [answer, answer, Index.Registry.names_eq_of_perm hperm]
  | compile r =>
    rw [answer, answer, Query.compile, Query.compile,
      Index.Registry.find_eq_of_perm hperm hnodup]

/-- A refresh has looked at the indexes that are not left, each once. -/
def Accounts (input : Configuration) (left : List (String × Settings))
    (metas : List (String × Metadata)) (flaws : List Flaw) : Prop :=
  ∃ visited, (visited ++ left).Perm input.entries ∧
    metas = visited.filterMap metadataOf? ∧ flaws = visited.flatMap flawsOf

section

variable (w : World) (done : List Action) (i : Nat)

/-- No move of the task has changed the registry. -/
def Quiet : Prop := ∀ before pick, before ++ [.move i pick] <+: done →
  (w.run (before ++ [.move i pick])).registry = (w.run before).registry

/-- At one moment the task asked and the registry was one with the property. -/
def AskedOf (q : Question) (P : Registry → Prop) : Prop :=
  ∃ before pick, before ++ [.move i pick] <+: done ∧
    (w.run before).tasks[i]? = some (.asking q) ∧ P (w.run before).registry

/-- At one moment the task put what the configuration makes in the place of the registry. -/
def Stored (input : Configuration) : Prop :=
  ∃ before pick, before ++ [.move i pick] <+: done ∧
    (w.run (before ++ [.move i pick])).taken = (w.run before).taken ++ [input] ∧
    Holds (w.run (before ++ [.move i pick])).registry input

/-- What is known of the task number `i`, or of a number that is not a task yet, after the actions
that were done. -/
def Sound : Option Task → Prop
  | none => Quiet w done i
  | some (.refreshing input left metas flaws) =>
    Accounts input left metas flaws ∧ Quiet w done i
  | some (.refused input flaws) =>
    flaws ≠ [] ∧ flaws.Perm (input.entries.flatMap flawsOf) ∧ Quiet w done i
  | some (.looked r found) =>
    AskedOf w done i (.compile r) fun registry => found = registry.find r.index
  | some (.answered q a) => AskedOf w done i q fun registry => a = answer registry q
  | some (.refreshed input) => Stored w done i input
  | some (.asking _) => True

end

section

variable {w : World} {done : List Action} {i : Nat} {a : Action}

theorem AskedOf.concat {q : Question} {P : Registry → Prop} (h : AskedOf w done i q P)
    (a : Action) : AskedOf w (done ++ [a]) i q P := by
  obtain ⟨before, pick, hprefix, hasking, hp⟩ := h
  exact ⟨before, pick, hprefix.trans (List.prefix_append _ _), hasking, hp⟩

theorem Stored.concat {input : Configuration} (h : Stored w done i input) (a : Action) :
    Stored w (done ++ [a]) i input := by
  obtain ⟨before, pick, hprefix, htaken, hholds⟩ := h
  exact ⟨before, pick, hprefix.trans (List.prefix_append _ _), htaken, hholds⟩

/-- A task stays quiet as long as its own moves leave the registry alone. -/
theorem Quiet.concat (h : Quiet w done i)
    (ha : ∀ pick, a = .move i pick → ((w.run done).step a).registry = (w.run done).registry) :
    Quiet w (done ++ [a]) i := by
  intro before pick hprefix
  rcases List.prefix_concat_iff.1 hprefix with he | hprefix
  · obtain ⟨rfl, hlast⟩ := List.append_inj' he rfl
    cases hlast
    rw [World.run_concat]
    exact ha pick rfl
  · exact h before pick hprefix

theorem Sound.concat {task : Option Task} (h : Sound w done i task)
    (ha : ∀ pick, a = .move i pick → ((w.run done).step a).registry = (w.run done).registry) :
    Sound w (done ++ [a]) i task := by
  match task with
  | none => exact Quiet.concat h ha
  | some (.refreshing _ _ _ _) => exact ⟨h.1, h.2.concat ha⟩
  | some (.refused _ _) => exact ⟨h.1, h.2.1, h.2.2.concat ha⟩
  | some (.looked r found) =>
    have h : AskedOf w done i (.compile r) fun registry => found = registry.find r.index := h
    exact h.concat a
  | some (.answered q out) =>
    have h : AskedOf w done i q fun registry => out = answer registry q := h
    exact h.concat a
  | some (.refreshed input) => exact Stored.concat h a
  | some (.asking _) => trivial

end

/-! ## Moves -/

theorem Accounts.visit {input : Configuration} {left : List (String × Settings)}
    {metas : List (String × Metadata)} {flaws : List Flaw} (h : Accounts input left metas flaws)
    (pick : Nat) : ∃ left' metas' flaws',
      Task.visit input left metas flaws pick = .refreshing input left' metas' flaws' ∧
        Accounts input left' metas' flaws' := by
  obtain ⟨visited, hperm, rfl, rfl⟩ := h
  unfold Task.visit
  split
  · exact ⟨_, _, _, rfl, visited, hperm, rfl, rfl⟩
  · next name settings hpick =>
    obtain ⟨hlt, hentry⟩ := List.getElem?_eq_some_iff.1 hpick
    have hleft : (visited ++ [(name, settings)] ++ left.eraseIdx pick).Perm input.entries := by
      have herase := List.getElem_cons_eraseIdx_perm hlt
      rw [hentry] at herase
      rw [List.append_assoc]
      exact (herase.append_left visited).trans hperm
    cases hmake : Metadata.make name settings with
    | ok m =>
      exact ⟨_, _, _, rfl, visited ++ [(name, settings)], hleft,
        by simp [metadataOf?, hmake], by simp [flawsOf, hmake]⟩
    | error es =>
      exact ⟨_, _, _, rfl, visited ++ [(name, settings)], hleft,
        by simp [metadataOf?, hmake], by simp [flawsOf, hmake]⟩

/-- A refresh that is through without a flaw holds what its configuration makes. -/
theorem Accounts.holds {input : Configuration} {metas : List (String × Metadata)}
    (h : Accounts input [] metas []) : Holds ⟨metas⟩ input := by
  obtain ⟨visited, hperm, rfl, hflaws⟩ := h
  rw [List.append_nil] at hperm
  refine ⟨⟨input.entries.filterMap metadataOf?⟩, Index.Registry.make_eq_ok_iff.2 ⟨?_, rfl⟩,
    hperm.filterMap _⟩
  have hnone := hperm.flatMap_right flawsOf
  rw [← hflaws] at hnone
  exact hnone.nil_eq.symm

theorem Task.move_visit (registry : Registry) (pick : Nat) (input : Configuration)
    (entry : String × Settings) (left : List (String × Settings))
    (metas : List (String × Metadata)) (flaws : List Flaw) :
    (Task.refreshing input (entry :: left) metas flaws).move registry pick =
      (visit input (entry :: left) metas flaws pick, none) := rfl

theorem World.step_move {w : World} {i pick : Nat} {task task' : Task}
    (htask : w.tasks[i]? = some task) (hmove : task.move w.registry pick = (task', none)) :
    w.step (.move i pick) = { w with tasks := w.tasks.set i task' } := by
  simp only [World.step, htask, hmove]

theorem World.step_store {w : World} {i pick : Nat} {task task' : Task} {input : Configuration}
    {registry : Registry} (htask : w.tasks[i]? = some task)
    (hmove : task.move w.registry pick = (task', some (input, registry))) :
    w.step (.move i pick) = ⟨registry, w.taken ++ [input], w.tasks.set i task'⟩ := by
  simp only [World.step, htask, hmove]

/-- The move of a task leaves the registry alone and keeps what is known of the task, or the task is
a refresh that is through and puts what its configuration makes in the place of the registry. -/
theorem Sound.move {w : World} {done : List Action} {i : Nat} {task : Task}
    (htask : (w.run done).tasks[i]? = some task) (h : Sound w done i (some task)) (pick : Nat) :
    (∃ task', task.move (w.run done).registry pick = (task', none) ∧
      Sound w (done ++ [.move i pick]) i (some task')) ∨
    ∃ input registry, task.move (w.run done).registry pick =
      (.refreshed input, some (input, registry)) ∧ Holds registry input := by
  have hquiet {task' : Task} (hmove : task.move (w.run done).registry pick = (task', none))
      (hq : Quiet w done i) : Quiet w (done ++ [.move i pick]) i :=
    hq.concat fun _ _ => by rw [World.step_move htask hmove]
  match task with
  | .refreshing input [] metas [] => exact .inr ⟨input, _, rfl, h.1.holds⟩
  | .refreshing input [] metas (flaw :: flaws) =>
    obtain ⟨⟨visited, hperm, -, hflaws⟩, hq⟩ := h
    rw [List.append_nil] at hperm
    exact .inl ⟨_, rfl, by simp, hflaws ▸ hperm.flatMap_right flawsOf, hquiet rfl hq⟩
  | .refreshing input (entry :: left) metas flaws =>
    obtain ⟨left', metas', flaws', hvisit, haccounts⟩ := h.1.visit pick
    have hmove := Task.move_visit (w.run done).registry pick input entry left metas flaws
    rw [hvisit] at hmove
    exact .inl ⟨_, hmove, haccounts, hquiet hmove h.2⟩
  | .asking (.find _) => exact .inl ⟨_, rfl, done, pick, List.prefix_rfl, htask, rfl⟩
  | .asking .names => exact .inl ⟨_, rfl, done, pick, List.prefix_rfl, htask, rfl⟩
  | .asking (.compile _) => exact .inl ⟨_, rfl, done, pick, List.prefix_rfl, htask, rfl⟩
  | .looked r found =>
    have h : AskedOf w done i (.compile r) fun registry => found = registry.find r.index := h
    obtain ⟨before, pick', hprefix, hasking, hfound⟩ := h.concat (.move i pick)
    exact .inl ⟨_, rfl, before, pick', hprefix, hasking, by rw [hfound]; rfl⟩
  | .refreshed input => exact .inl ⟨_, rfl, Stored.concat h _⟩
  | .refused input flaws => exact .inl ⟨_, rfl, h.1, h.2.1, hquiet rfl h.2.2⟩
  | .answered q a =>
    have h : AskedOf w done i q fun registry => a = answer registry q := h
    exact .inl ⟨_, rfl, h.concat _⟩

/-! ## Calls alone -/

/-- A call that is task number `i` begins and makes `moves` moves with no other call between
them. -/
def alone (i : Nat) (first : Action) (moves : Nat) : List Action :=
  first :: List.replicate moves (.move i 0)

/-- The flaws that a refresh reports in the end. -/
def reported : Option Task → List Flaw
  | some (.refused _ flaws) => flaws
  | _ => []

/-- A call that reads the registry and runs alone answers by the registry. -/
theorem World.run_ask (w : World) (q : Question) :
    w.run (alone w.tasks.length (.ask q) 2) =
      { w with tasks := w.tasks ++ [.answered q (answer w.registry q)] } := by
  rw [alone, List.replicate_succ, List.replicate_one]
  cases q <;> simp [World.run, World.step, Task.move, answer, Query.compile]

/-- A refresh that runs alone looks at one index after the other. -/
theorem World.run_visits (w : World) (tasks : List Task) (input : Configuration)
    (left : List (String × Settings)) (metas : List (String × Metadata)) (flaws : List Flaw) :
    World.run { w with tasks := tasks ++ [.refreshing input left metas flaws] }
        (List.replicate left.length (.move tasks.length 0)) =
      { w with tasks := tasks ++ [.refreshing input [] (metas ++ left.filterMap metadataOf?)
        (flaws ++ left.flatMap flawsOf)] } := by
  induction left generalizing metas flaws with
  | nil => simp [World.run]
  | cons entry left ih =>
    have hvisit : ∃ metas' flaws', Task.visit input (entry :: left) metas flaws 0 =
          .refreshing input left metas' flaws' ∧
        metas' ++ left.filterMap metadataOf? = metas ++ (entry :: left).filterMap metadataOf? ∧
        flaws' ++ left.flatMap flawsOf = flaws ++ (entry :: left).flatMap flawsOf := by
      cases hmake : Metadata.make entry.1 entry.2 with
      | ok m => exact ⟨metas ++ [(entry.1, m)], flaws, by simp [Task.visit, hmake],
          by simp [metadataOf?, hmake], by simp [flawsOf, hmake]⟩
      | error es => exact ⟨metas, flaws ++ es, by simp [Task.visit, hmake],
          by simp [metadataOf?, hmake], by simp [flawsOf, hmake]⟩
    obtain ⟨metas', flaws', hvisit, hmetas, hflaws⟩ := hvisit
    have hmove := Task.move_visit w.registry 0 input entry left metas flaws
    rw [hvisit] at hmove
    have hstep : World.step { w with tasks := tasks ++ [.refreshing input (entry :: left) metas
        flaws] } (.move tasks.length 0) =
        { w with tasks := tasks ++ [.refreshing input left metas' flaws'] } := by
      refine Eq.trans (World.step_move List.getElem?_concat_length hmove) ?_
      simp
    rw [List.length_cons, List.replicate_succ, ← hmetas, ← hflaws, ← ih metas' flaws', ← hstep]
    rfl

/-- A refresh that runs alone does what the refresh of a registry does. -/
theorem World.run_refresh (w : World) (input : Configuration) :
    let w' := w.run (alone w.tasks.length (.refresh input) (input.entries.length + 1))
    (w'.registry, reported w'.tasks[w.tasks.length]?) = w.registry.refresh input.entries := by
  intro w'
  have hw' : w' = World.step { w with tasks := w.tasks ++ [.refreshing input []
      (input.entries.filterMap metadataOf?) (input.entries.flatMap flawsOf)] }
      (.move w.tasks.length 0) := by
    have hvisits := w.run_visits w.tasks input input.entries [] []
    rw [List.nil_append, List.nil_append] at hvisits
    rw [← hvisits, ← run_concat, ← List.replicate_succ']
    rfl
  rw [hw', Registry.refresh, Registry.make, Registry.build_eq]
  cases hflaws : input.entries.flatMap flawsOf with
  | nil =>
    rw [World.step_store List.getElem?_concat_length rfl]
    simp [reported]
  | cons flaw flaws =>
    rw [World.step_move List.getElem?_concat_length rfl]
    simp [reported]

/-! ## Schedules -/

/-- What holds at every moment. -/
structure Steady (w : World) (done : List Action) : Prop where
  holds : ∃ last, (w.run done).taken.getLast? = some last ∧ Holds (w.run done).registry last
  sound : ∀ i, Sound w done i (w.run done).tasks[i]?

section

variable {w : World} {done : List Action}

/-- A call begins. -/
theorem Steady.begin (h : Steady w done) {a : Action} {task : Task}
    (hstep : (w.run done).step a = { w.run done with tasks := (w.run done).tasks ++ [task] })
    (ha : ∀ i pick, a ≠ .move i pick)
    (htask : Quiet w done (w.run done).tasks.length →
      Sound w done (w.run done).tasks.length (some task)) : Steady w (done ++ [a]) := by
  have hrun : w.run (done ++ [a]) = _ := (w.run_concat done a).trans hstep
  refine ⟨by rw [hrun]; exact h.holds, fun i => ?_⟩
  rw [hrun]
  refine Sound.concat ?_ fun pick he => absurd he (ha i pick)
  dsimp only
  rcases Nat.lt_trichotomy i (w.run done).tasks.length with hi | rfl | hi
  · rw [List.getElem?_append_left hi]
    exact h.sound i
  · rw [List.getElem?_concat_length]
    have hnone := h.sound (w.run done).tasks.length
    rw [List.getElem?_eq_none (Nat.le_refl _)] at hnone
    exact htask hnone
  · have hnone := h.sound i
    rw [List.getElem?_eq_none (Nat.le_of_lt hi)] at hnone
    rwa [List.getElem?_eq_none (by rw [List.length_append]; exact hi)]

theorem Steady.concat (h : Steady w done) (a : Action) : Steady w (done ++ [a]) := by
  cases a with
  | refresh input =>
    refine h.begin rfl (fun _ _ he => by cases he) fun hquiet => ⟨⟨[], ?_⟩, hquiet⟩
    simp
  | ask q => exact h.begin rfl (fun _ _ he => by cases he) fun _ => trivial
  | move i pick =>
    have hrun := w.run_concat done (.move i pick)
    cases htask : (w.run done).tasks[i]? with
    | none =>
      have hstep : (w.run done).step (.move i pick) = w.run done := by
        simp only [World.step, htask]
      rw [hstep] at hrun
      refine ⟨by rw [hrun]; exact h.holds, fun j => ?_⟩
      rw [hrun]
      exact (h.sound j).concat fun _ _ => by rw [hstep]
    | some task =>
      have hi : i < (w.run done).tasks.length := (List.getElem?_eq_some_iff.1 htask).1
      have hother {j : Nat} (hne : j ≠ i) (task' : Task) :
          Sound w (done ++ [.move i pick]) j ((w.run done).tasks.set i task')[j]? := by
        rw [List.getElem?_set_ne (Ne.symm hne)]
        exact (h.sound j).concat fun pick' he => by
          injection he with he
          exact absurd he.symm hne
      rcases Sound.move htask (htask ▸ h.sound i) pick with
        ⟨task', hmove, hsound⟩ | ⟨input, registry, hmove, hholds⟩
      · rw [World.step_move htask hmove] at hrun
        refine ⟨by rw [hrun]; exact h.holds, fun j => ?_⟩
        rw [hrun]
        by_cases hj : j = i
        · subst hj
          rwa [List.getElem?_set_self hi]
        · exact hother hj task'
      · rw [World.step_store htask hmove] at hrun
        refine ⟨⟨input, by rw [hrun]; simp, by rw [hrun]; exact hholds⟩, fun j => ?_⟩
        rw [hrun]
        by_cases hj : j = i
        · subst hj
          rw [List.getElem?_set_self hi]
          exact ⟨done, pick, List.prefix_rfl, by rw [hrun], by rw [hrun]; exact hholds⟩
        · exact hother hj _

end

theorem steady_run {input : Configuration} {registry : Registry}
    (h : Registry.make input.entries = .ok registry) (actions : List Action) :
    Steady (.start input registry) actions := by
  induction actions using List.reverseRecOn with
  | nil =>
    refine ⟨⟨input, rfl, registry, h, .refl _⟩, fun i before pick hprefix => ?_⟩
    simp at hprefix
  | append_singleton actions a ih => exact ih.concat a

/-- The calls of a schedule act on the registry as if each did so at one moment. -/
structure Atomic (w : World) (actions : List Action) : Prop where
  /-- The registry is what the configuration taken over last makes. -/
  holds : ∃ last, (w.run actions).taken.getLast? = some last ∧ Holds (w.run actions).registry last
  /-- A refresh that succeeded has taken its configuration over at one of its moves. -/
  refreshed : ∀ i input, (w.run actions).tasks[i]? = some (.refreshed input) →
    Stored w actions i input
  /-- A refresh that failed has changed nothing, and it reports the flaws of all indexes. -/
  refused : ∀ i input flaws, (w.run actions).tasks[i]? = some (.refused input flaws) →
    flaws ≠ [] ∧ flaws.Perm (input.entries.flatMap flawsOf) ∧ Quiet w actions i
  /-- A call that reads the registry answers as it would for the registry that was made from the
  configuration taken over last when the call looked. -/
  answered : ∀ i q a, (w.run actions).tasks[i]? = some (.answered q a) →
    ∃ before pick, before ++ [.move i pick] <+: actions ∧
      (w.run before).tasks[i]? = some (.asking q) ∧
      ∃ last made, (w.run before).taken.getLast? = some last ∧
        Registry.make last.entries = .ok made ∧ a = answer made q
  /-- A call that reads the registry, begins after the schedule and has no other between its moves
  answers by the registry and changes nothing. -/
  asked_alone : ∀ q, let w' := w.run actions
    w.run (actions ++ alone w'.tasks.length (.ask q) 2) =
      { w' with tasks := w'.tasks ++ [.answered q (answer w'.registry q)] }
  /-- A refresh that begins after the schedule and has no other call between its moves does what the
  refresh of the registry does. -/
  refreshed_alone : ∀ input : Configuration, let w' := w.run actions
    let w'' := w.run (actions ++
      alone w'.tasks.length (.refresh input) (input.entries.length + 1))
    (w''.registry, reported w''.tasks[w'.tasks.length]?) = w'.registry.refresh input.entries

/-- Whatever the schedule, a registry that was made from a configuration is only ever replaced as a
whole. -/
theorem run_atomic {input : Configuration} {registry : Registry}
    (h : Registry.make input.entries = .ok registry) (actions : List Action) :
    Atomic (.start input registry) actions where
  holds := (steady_run h actions).holds
  refreshed := by
    intro i input' htask
    have hsound := (steady_run h actions).sound i
    rw [htask] at hsound
    exact hsound
  refused := by
    intro i input' flaws htask
    have hsound := (steady_run h actions).sound i
    rw [htask] at hsound
    exact hsound
  answered := by
    intro i q a htask
    have hsound := (steady_run h actions).sound i
    rw [htask] at hsound
    obtain ⟨before, pick, hprefix, hasking, hanswer⟩ := hsound
    obtain ⟨last, hlast, hholds⟩ := (steady_run h before).holds
    obtain ⟨made, hmade, hsame⟩ := hholds.exists_answer_eq
    exact ⟨before, pick, hprefix, hasking, last, made, hlast, hmade, by rw [hanswer, hsame]⟩
  asked_alone := by
    intro q w'
    rw [World.run_append]
    exact World.run_ask _ q
  refreshed_alone := by
    intro input' w'
    rw [World.run_append]
    exact World.run_refresh _ input'

def oneIndex : Configuration := ⟨[("products", {})], by decide⟩

def twoIndexes : Configuration := ⟨[("products", { shards := 3 }), ("offers", {})], by decide⟩

def flawedIndexes : Configuration := ⟨[("offers", { shards := -1 }), ("", {})], by decide⟩

/-- Two calls and two refreshes. The compilation looks its index up before the first refresh is
through, and the other call after it. -/
def mixedSchedule : List Action :=
  [.ask (.compile { index := "products" }), .refresh twoIndexes, .refresh flawedIndexes,
    .ask .names, .move 1 1, .move 0 0, .move 2 1, .move 1 0, .move 1 0, .move 3 0, .move 2 0,
    .move 2 0, .move 0 0]

/-- One refresh takes its configuration over and the other is refused; the compilation answers by
the registry of before, the other call by the one that was stored. -/
theorem run_atomic_sample :
    ∃ registry flaws, Registry.make oneIndex.entries = .ok registry ∧
      Atomic (.start oneIndex registry) mixedSchedule ∧
      let w := World.run (.start oneIndex registry) mixedSchedule
      w.taken = [oneIndex, twoIndexes] ∧
        w.tasks = [.answered (.compile { index := "products" })
            (answer registry (.compile { index := "products" })),
          .refreshed twoIndexes, .refused flawedIndexes flaws,
          .answered .names (.names ["offers", "products"])] ∧
        flaws.length = 2 :=
  ⟨_, _, rfl, run_atomic rfl _, rfl, rfl, rfl⟩

end SearchGateway.Sharing
