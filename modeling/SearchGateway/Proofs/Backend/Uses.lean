import SearchGateway.Proofs.Backend.Scroll

/-!
# Uses of a scroll

A caller asks a scroll for pages, asks what went wrong and closes it, in any order and as often as
it likes. An `Event` is one such use as the caller and the backend see it, and `Reader.history`
lists the events of a sequence of uses. `Step` says all that can come of one use; `step_event` is
the only place where the uses are opened.

What a use comes to depends on the past alone, and `Agrees` says how: a scroll has stopped if some
use was refused a page or released it, it holds a fault if the use that stopped it failed, and it
holds the last id among the replies to the requests for pages, until it is released. Each step keeps
this (`Agrees.step`), so it holds after every history (`agrees_history`), and what a caller can rely
on follows from it for each event (`orderly_history`).
-/

namespace SearchGateway.Backend

namespace Wire.Passed

variable {w w' : Wire} {sent : List Call} {received : List Reply}

theorem drop_calls (h : w.Passed w' sent received) : w'.calls.drop w.calls.length = sent := by
  rw [h.calls, List.drop_left]

theorem take_replies (h : w.Passed w' sent received) :
    w.replies.take (w.replies.length - w'.replies.length) = received := by
  rw [h.replies, List.length_append, Nat.add_sub_cancel, List.take_left]

end Wire.Passed

namespace Scroll

/-! ## Histories -/

/-- What a caller does with a scroll. Pages are asked for, and the scroll is closed, in a context
that is cancelled or not. -/
inductive Use
  | next (cancel : Bool)
  | err
  | close (cancel : Bool)

def Use.isNext : Use → Bool
  | next _ => true
  | _ => false

inductive Answer
  /-- Whether there was a page. -/
  | more (found : Bool)
  | fault (f : Option Fault)
  | closed (result : Except Fault Unit)

/-- A use as it is seen from outside. -/
structure Event where
  use : Use
  answer : Answer
  /-- The list that pages are read into, before the use. -/
  had : List Hit
  /-- The same list after the use. -/
  target : List Hit
  sent : List Call
  received : List Reply

/-- A scroll in use, and the list its pages are read into. -/
structure Reader where
  scroll : Scroll
  wire : Wire
  target : List Hit

namespace Reader

def use (base : String) (c : Reader) : Use → Answer × Reader
  | .next cancel =>
    let (hits, s, w) := c.scroll.next base cancel c.wire
    (.more hits.isSome, ⟨s, w, hits.getD c.target⟩)
  | .err => (.fault c.scroll.fault, c)
  | .close cancel =>
    let (result, s, w) := c.scroll.close base cancel c.wire
    (.closed result, ⟨s, w, c.target⟩)

def event (base : String) (c : Reader) (u : Use) : Event :=
  let (answer, c') := c.use base u
  { use := u
    answer
    had := c.target
    target := c'.target
    sent := c'.wire.calls.drop c.wire.calls.length
    received := c.wire.replies.take (c.wire.replies.length - c'.wire.replies.length) }

def history (base : String) (c : Reader) : List Use → List Event
  | [] => []
  | u :: us => c.event base u :: history base (c.use base u).2 us

end Reader

namespace Event

/-- A request for a page that got none. -/
def refused (e : Event) : Bool :=
  match e.answer with
  | .more found => !found
  | _ => false

/-- A closing that had something to release: it called the backend, or failed to. -/
def releases (e : Event) : Bool :=
  match e.answer with
  | .closed (.ok _) => !e.sent.isEmpty
  | .closed (.error _) => true
  | _ => false

def stops (e : Event) : Bool := e.refused || e.releases

/-- A request for a page that got none, and no reply that is a page. -/
def fails (e : Event) : Bool := e.refused && e.received.all (·.page?.isNone)

def delivered? (e : Event) : Option (List Hit) :=
  match e.answer with
  | .more true => some e.target
  | _ => none

/-- The replies to a request for a page. -/
def pageReplies (e : Event) : List Reply := if e.use.isNext then e.received else []

end Event

def deliveries (events : List Event) : List (List Hit) := events.filterMap Event.delivered?

def pageReplies (events : List Event) : List Reply := events.flatMap Event.pageReplies

/-- The use that stopped the scroll failed. -/
def stopFails (events : List Event) : Bool := (events.find? Event.stops).any Event.fails

/-! ## Steps -/

/-- What comes of a use, and the scroll after it. -/
inductive Step (base : String) (s : Scroll) : Event → Scroll → Prop where
  | next {cancel : Bool} {had : List Hit} {hits : Option (List Hit)} {s' : Scroll}
      {sent : List Call} {received : List Reply} : Turn base s hits s' sent received →
      Step base s ⟨.next cancel, .more hits.isSome, had, hits.getD had, sent, received⟩ s'
  | err {had : List Hit} : Step base s ⟨.err, .fault s.fault, had, had, [], []⟩ s
  | idle {cancel : Bool} {had : List Hit} : s.id = "" →
      Step base s ⟨.close cancel, .closed (.ok ()), had, had, [], []⟩ s
  | release {cancel : Bool} {had : List Hit} {result : Except Fault Unit} {sent : List Call}
      {received : List Reply} : s.id ≠ "" → sent ≠ [] ∨ (∃ f, result = .error f) →
      Step base s ⟨.close cancel, .closed result, had, had, sent, received⟩
        { s with id := "", done := true }

/-- Closing a scroll that has an id calls the backend or fails. -/
theorem passed_close_of_id {s : Scroll} (h : s.id ≠ "") (base : String) (cancel : Bool) (w : Wire) :
    ∃ result w' sent received,
      s.close base cancel w = (result, { s with id := "", done := true }, w') ∧
      w.Passed w' sent received ∧ (sent ≠ [] ∨ ∃ f, result = .error f) := by
  rw [close, if_neg h]
  have hsends := w.sends_send base cancel s.releaseCommand
  generalize w.send base cancel s.releaseCommand = out at hsends ⊢
  obtain ⟨r, w'⟩ := out
  cases hsends with
  | @unsent f _ => exact ⟨_, _, [], [], rfl, .refl _, .inr ⟨f, rfl⟩⟩
  | @unanswered call f _ _ _ => exact ⟨_, _, [call], [], rfl, ⟨rfl, rfl⟩, .inl (by simp)⟩
  | @answered call reply rest out _ _ hreplies _ =>
    exact ⟨_, _, [call], [reply], rfl, ⟨rfl, hreplies⟩, .inl (by simp)⟩

theorem step_event (base : String) (c : Reader) (u : Use) :
    Step base c.scroll (c.event base u) (c.use base u).2.scroll := by
  have hnone := Wire.Passed.refl c.wire
  cases u with
  | next cancel =>
    obtain ⟨sent, received, hpassed, hturn⟩ := c.scroll.turn_next base cancel c.wire
    simp only [Reader.event, Reader.use]
    rw [hpassed.drop_calls, hpassed.take_replies]
    exact .next hturn
  | err =>
    simp only [Reader.event, Reader.use]
    rw [hnone.drop_calls, hnone.take_replies]
    exact .err
  | close cancel =>
    simp only [Reader.event, Reader.use]
    by_cases hid : c.scroll.id = ""
    · rw [close_of_no_id hid]
      dsimp only
      rw [hnone.drop_calls, hnone.take_replies]
      exact .idle hid
    · obtain ⟨result, w', sent, received, hclose, hpassed, hcalled⟩ :=
        passed_close_of_id hid base cancel c.wire
      rw [hclose]
      dsimp only
      rw [hpassed.drop_calls, hpassed.take_replies]
      exact .release hid hcalled

/-! ## The past and the state -/

@[simp] theorem pageReplies_concat (past : List Event) (e : Event) :
    pageReplies (past ++ [e]) = pageReplies past ++ e.pageReplies := by
  simp [pageReplies]

@[simp] theorem deliveries_concat (past : List Event) (e : Event) :
    deliveries (past ++ [e]) = deliveries past ++ e.delivered?.toList := by
  simp only [deliveries, List.filterMap_append, List.filterMap_cons, List.filterMap_nil]
  cases e.delivered? <;> rfl

theorem stopFails_concat_of_stopped {past : List Event} (h : past.any Event.stops = true)
    (e : Event) : stopFails (past ++ [e]) = stopFails past := by
  obtain ⟨stop, hstop⟩ := Option.isSome_iff_exists.1 (List.find?_isSome.2 (List.any_eq_true.1 h))
  simp [stopFails, List.find?_append, hstop]

theorem stopFails_concat_of_running {past : List Event} (h : past.any Event.stops = false)
    (e : Event) : stopFails (past ++ [e]) = (e.stops && e.fails) := by
  have hnone : past.find? Event.stops = none :=
    List.find?_eq_none.2 fun x hx => by simpa using List.any_eq_false.1 h x hx
  cases hstops : e.stops <;> simp [stopFails, List.find?_append, hnone, hstops]

/-- How the state of a scroll for a request follows from what was done with it. -/
structure Agrees (r : Request) (past : List Event) (s : Scroll) : Prop where
  request_eq : s.request = { r with start := 0 }
  isStopped_eq : s.isStopped = past.any Event.stops
  isSome_fault : s.fault.isSome = stopFails past
  id_eq : s.id = if past.any Event.releases then "" else lastId "" (pageReplies past)
  /-- Until the scroll stops each reply delivers documents. -/
  isSome_batch? : past.any Event.stops = false →
    ∀ reply ∈ pageReplies past, reply.batch?.isSome = true
  deliveries_eq : deliveries past =
    ((pageReplies past).takeWhile (·.batch?.isSome)).filterMap Reply.batch?

/-- A scroll that has not stopped holds no fault. -/
theorem fault_eq_none {s : Scroll} (h : s.isStopped = false) : s.fault = none := by
  rw [isStopped, Bool.or_eq_false_iff] at h
  simpa using h.2

section turn

variable {base : String} {s s' : Scroll} {hits : Option (List Hit)} {sent : List Call}
  {received : List Reply}

theorem Turn.isStopped_eq (h : Turn base s hits s' sent received) (hgo : s.isStopped = false) :
    s'.isStopped = hits.isNone := by
  have hdone : s.done = false := (Bool.or_eq_false_iff.1 hgo).1
  cases h with
  | idle hstop => rw [hgo] at hstop; cases hstop
  | unsent | unanswered | failed | last => simp [isStopped]
  | page => simp [isStopped, hdone, fault_eq_none hgo]

theorem Turn.isSome_fault (h : Turn base s hits s' sent received) (hgo : s.isStopped = false) :
    s'.fault.isSome = (hits.isNone && received.all (·.page?.isNone)) := by
  cases h with
  | idle hstop => rw [hgo] at hstop; cases hstop
  | unsent | unanswered => rfl
  | failed _ _ hpage => simp [hpage]
  | last _ _ hpage _ => simp [hpage, fault_eq_none hgo]
  | page _ _ hpage _ => simp [hpage, fault_eq_none hgo]

theorem Turn.ne_nil {batch : List Hit} (h : Turn base s (some batch) s' sent received) :
    batch ≠ [] := by
  cases h with
  | page _ _ _ hne => exact hne

/-- A turn of a scroll that has stopped gets no page and calls nothing. -/
theorem Turn.of_isStopped (h : Turn base s hits s' sent received) (hstop : s.isStopped = true) :
    hits = none ∧ s' = s ∧ sent = [] ∧ received = [] := by
  cases h with
  | idle _ => exact ⟨rfl, rfl, rfl, rfl⟩
  | unsent hgo | unanswered hgo _ | failed hgo _ _ | last hgo _ _ _ | page hgo _ _ _ =>
    rw [hgo] at hstop
    cases hstop

theorem Turn.isSome_batch? (h : Turn base s hits s' sent received) (hhits : hits.isSome = true) :
    ∀ reply ∈ received, reply.batch?.isSome = true := by
  cases h with
  | idle | unsent | unanswered | failed | last => cases hhits
  | page _ _ hpage hne => simp [Reply.batch?, hpage, hne]

theorem Turn.takeWhile_batch? (h : Turn base s hits s' sent received) :
    (received.takeWhile (·.batch?.isSome)).filterMap Reply.batch? = hits.toList := by
  cases h with
  | idle | unsent | unanswered => rfl
  | failed _ _ hpage => simp [Reply.batch?, hpage]
  | last _ _ hpage hhits => simp [Reply.batch?, hpage, hhits]
  | page _ _ hpage hhits => simp [Reply.batch?, hpage, hhits]

end turn

section agrees

variable {base : String} {r : Request} {past : List Event} {s s' : Scroll} {e : Event}

theorem agrees_start (r : Request) : Agrees r [] (start r) where
  request_eq := rfl
  isStopped_eq := rfl
  isSome_fault := rfl
  id_eq := rfl
  isSome_batch? := by simp [pageReplies]
  deliveries_eq := rfl

theorem any_releases_eq_false (h : past.any Event.stops = false) :
    past.any Event.releases = false := by
  rw [List.any_eq_false] at h ⊢
  intro x hx
  have hx := h x hx
  simp only [Event.stops, Bool.or_eq_true, not_or] at hx
  exact hx.2

/-- A use that leaves the scroll as it is and brings nothing new. -/
theorem Agrees.stay (h : Agrees r past s) (hreplies : e.pageReplies = [])
    (hdelivered : e.delivered? = none) (hreleases : e.releases = false)
    (hstops : e.stops = true → s.isStopped = true) : Agrees r (past ++ [e]) s where
  request_eq := h.request_eq
  isStopped_eq := by
    rw [List.any_append, ← h.isStopped_eq]
    cases hstop : e.stops with
    | false => simp [hstop]
    | true => simp [hstops hstop]
  isSome_fault := by
    rw [h.isSome_fault]
    cases hpast : past.any Event.stops with
    | true => rw [stopFails_concat_of_stopped hpast]
    | false =>
      have hstop : e.stops = false := by
        by_contra hne
        have hstopped := hstops (by simpa using hne)
        rw [h.isStopped_eq, hpast] at hstopped
        cases hstopped
      rw [stopFails_concat_of_running hpast, hstop, Bool.false_and, ← h.isSome_fault,
        fault_eq_none (h.isStopped_eq.trans hpast), Option.isSome_none]
  id_eq := by simp [h.id_eq, hreplies, hreleases]
  isSome_batch? := by
    intro hstop
    rw [List.any_append, Bool.or_eq_false_iff] at hstop
    simpa [hreplies] using h.isSome_batch? hstop.1
  deliveries_eq := by simp [h.deliveries_eq, hreplies, hdelivered]

/-- A request for a page from a scroll that has not stopped. -/
theorem Agrees.turn {cancel : Bool} {had : List Hit} {hits : Option (List Hit)} {sent : List Call}
    {received : List Reply} (h : Agrees r past s) (hgo : s.isStopped = false)
    (hturn : Turn base s hits s' sent received) :
    Agrees r (past ++ [⟨.next cancel, .more hits.isSome, had, hits.getD had, sent, received⟩])
      s' := by
  have hpast : past.any Event.stops = false := h.isStopped_eq.symm.trans hgo
  constructor
  · exact hturn.request_eq.trans h.request_eq
  · rw [hturn.isStopped_eq hgo, List.any_append, hpast]
    cases hits <;> rfl
  · rw [hturn.isSome_fault hgo, stopFails_concat_of_running hpast]
    cases hits <;> rfl
  · rw [hturn.id_eq, h.id_eq, any_releases_eq_false hpast, List.any_append,
      any_releases_eq_false hpast, pageReplies_concat]
    exact (lastId_append _ _ _).symm
  · intro hstop reply hreply
    rw [pageReplies_concat, List.mem_append] at hreply
    rcases hreply with hreply | hreply
    · exact h.isSome_batch? hpast reply hreply
    · cases hits with
      | none => simp [Event.stops, Event.refused] at hstop
      | some batch => exact hturn.isSome_batch? rfl reply hreply
  · have hdelivered : Option.toList (Event.delivered? ⟨.next cancel, .more hits.isSome, had,
        hits.getD had, sent, received⟩) = hits.toList := by cases hits <;> rfl
    have hall := h.isSome_batch? hpast
    rw [deliveries_concat, pageReplies_concat, h.deliveries_eq, hdelivered,
      ← hturn.takeWhile_batch?, ← List.filterMap_append, List.takeWhile_append_of_pos hall,
      List.takeWhile_eq_self_iff.2 hall]
    rfl

/-- Closing a scroll that has an id. -/
theorem Agrees.released (h : Agrees r past s) (hreplies : e.pageReplies = [])
    (hdelivered : e.delivered? = none) (hreleases : e.releases = true)
    (hrefused : e.refused = false) :
    Agrees r (past ++ [e]) { s with id := "", done := true } where
  request_eq := h.request_eq
  isStopped_eq := by simp [isStopped, Event.stops, hreleases]
  isSome_fault := by
    dsimp only
    cases hpast : past.any Event.stops with
    | true => rw [stopFails_concat_of_stopped hpast, h.isSome_fault]
    | false =>
      rw [stopFails_concat_of_running hpast, Event.fails, hrefused, Bool.false_and, Bool.and_false,
        fault_eq_none (h.isStopped_eq.trans hpast), Option.isSome_none]
  id_eq := by simp [hreleases]
  isSome_batch? := by
    intro hstop
    simp [Event.stops, hreleases] at hstop
  deliveries_eq := by simp [h.deliveries_eq, hreplies, hdelivered]

/-- What was done with a scroll and its state go on agreeing. -/
theorem Agrees.step (h : Agrees r past s) (hstep : Step base s e s') :
    Agrees r (past ++ [e]) s' := by
  cases hstep with
  | @next cancel had hits s' sent received hturn =>
    cases hstop : s.isStopped with
    | false => exact h.turn hstop hturn
    | true =>
      obtain ⟨rfl, rfl, rfl, rfl⟩ := hturn.of_isStopped hstop
      exact h.stay rfl rfl rfl fun _ => hstop
  | err => exact h.stay rfl rfl rfl fun hstops => by cases hstops
  | idle _ => exact h.stay rfl rfl rfl fun hstops => by cases hstops
  | @release cancel had result sent received _ hcalled =>
    refine h.released rfl rfl ?_ rfl
    rcases hcalled with hsent | ⟨f, rfl⟩
    · cases result with
      | error f => rfl
      | ok u => simpa [Event.releases] using hsent
    · rfl

theorem agrees_history (base : String) (c : Reader) (uses : List Use)
    (h : Agrees r past c.scroll) : ∃ s, Agrees r (past ++ c.history base uses) s := by
  induction uses generalizing past c with
  | nil => exact ⟨c.scroll, by simpa [Reader.history] using h⟩
  | cons u us ih =>
    obtain ⟨s, hs⟩ := ih (c.use base u).2 (h.step (step_event base c u))
    exact ⟨s, by simpa [Reader.history] using hs⟩

/-- Before each event of a history the scroll agrees with the events before it. -/
theorem exists_step_of_prefix (base : String) (c : Reader) (uses : List Use)
    (h : Agrees r past c.scroll) {more : List Event} (he : more ++ [e] <+: c.history base uses) :
    ∃ s s', Agrees r (past ++ more) s ∧ Step base s e s' := by
  induction uses generalizing past c more with
  | nil => simp [Reader.history] at he
  | cons u us ih =>
    have hstep := step_event base c u
    cases more with
    | nil =>
      obtain rfl : e = c.event base u := by simpa [Reader.history] using he
      exact ⟨_, _, by simpa using h, hstep⟩
    | cons first more =>
      obtain ⟨rfl, hmore⟩ : first = c.event base u ∧
          more ++ [e] <+: (c.use base u).2.history base us := by
        simpa [Reader.history, List.cons_prefix_cons] using he
      obtain ⟨s, s', hs, hstep'⟩ := ih (c.use base u).2 (h.step hstep) hmore
      exact ⟨s, s', by simpa using hs, hstep'⟩

end agrees

/-! ## What a caller can rely on -/

/-- What an event can be, by the events before it. -/
structure Orderly (base : String) (r : Request) (past : List Event) (e : Event) : Prop where
  /-- A page that is delivered holds documents. -/
  ne_nil_of_delivered : ∀ batch, e.delivered? = some batch → batch ≠ []
  /-- A request that is refused leaves the list for pages as it was. -/
  target_eq : e.refused = true → e.target = e.had
  /-- Once refused, a page is refused for ever, and the backend is not called for it. -/
  refused_again : past.any Event.refused = true → e.use.isNext = true →
    e.refused = true ∧ e.sent = []
  /-- There is a fault to report exactly if the scroll was stopped by a failure. -/
  fault_iff : e.use = .err → ∃ f, e.answer = .fault f ∧ (f.isSome = true ↔ stopFails past = true)
  /-- After it was released nothing is sent any more. -/
  sent_eq_nil : past.any Event.releases = true → e.sent = []
  /-- A page is asked for under the last id that a page before came with, and the scroll is opened
  if there was none. -/
  call_eq : e.use.isNext = true → ∀ call ∈ e.sent,
    (commandFor { r with start := 0 } (lastId "" (pageReplies past))).call? base = some call

theorem Agrees.orderly {base : String} {r : Request} {past : List Event} {s s' : Scroll} {e : Event}
    (h : Agrees r past s) (hstep : Step base s e s') : Orderly base r past e where
  ne_nil_of_delivered := by
    intro batch hbatch
    cases hstep with
    | @next cancel had hits s' sent received hturn =>
      cases hits with
      | none => cases hbatch
      | some hits => cases hbatch; exact hturn.ne_nil
    | err | idle | release => cases hbatch
  target_eq := by
    intro hrefused
    cases hstep with
    | @next cancel had hits s' sent received hturn =>
      cases hits with
      | none => rfl
      | some hits => cases hrefused
    | err | idle | release => rfl
  refused_again := by
    intro hpast hnext
    have hstop : s.isStopped = true := by
      obtain ⟨x, hx, hrefused⟩ := List.any_eq_true.1 hpast
      rw [h.isStopped_eq, List.any_eq_true]
      exact ⟨x, hx, by rw [Event.stops, hrefused, Bool.true_or]⟩
    cases hstep with
    | next hturn =>
      obtain ⟨rfl, rfl, rfl, rfl⟩ := hturn.of_isStopped hstop
      exact ⟨rfl, rfl⟩
    | err | idle | release => cases hnext
  fault_iff := by
    intro huse
    cases hstep with
    | err => exact ⟨s.fault, rfl, by rw [h.isSome_fault]⟩
    | next | idle | release => cases huse
  sent_eq_nil := by
    intro hpast
    have hid : s.id = "" := by rw [h.id_eq, hpast]; rfl
    cases hstep with
    | next hturn =>
      have hstop : s.isStopped = true := by
        by_contra hne
        have hgo := h.isStopped_eq.symm.trans (Bool.eq_false_iff.2 hne)
        rw [any_releases_eq_false hgo] at hpast
        cases hpast
      exact (hturn.of_isStopped hstop).2.2.1
    | err | idle => rfl
    | release hne _ => exact absurd hid hne
  call_eq := by
    intro hnext call hcall
    cases hstep with
    | next hturn =>
      have hgo : s.isStopped = false := by
        by_contra hne
        rw [(hturn.of_isStopped (by simpa using hne)).2.2.1] at hcall
        cases hcall
      have hid : s.id = lastId "" (pageReplies past) := by
        rw [h.id_eq, any_releases_eq_false (h.isStopped_eq.symm.trans hgo)]
        rfl
      rw [← h.request_eq, ← hid, ← pageCommand_eq]
      rcases hturn.cases_sent with ⟨rfl, -, -⟩ | ⟨call', rfl, hsent, -⟩
      · cases hcall
      · rwa [List.mem_singleton.1 hcall]
    | err | idle | release => cases hnext

/-- Whatever the backend replies and whatever is done with a scroll, it delivers the pages it was
sent, in order, up to the first reply that is no page of documents, and each event is one that the
events before it allow. -/
theorem orderly_history (r : Request) (base : String) (w : Wire) (target : List Hit)
    (uses : List Use) :
    let events := Reader.history base ⟨start r, w, target⟩ uses
    deliveries events =
        ((pageReplies events).takeWhile (·.batch?.isSome)).filterMap Reply.batch? ∧
      ∀ past e, past ++ [e] <+: events → Orderly base r past e := by
  intro events
  have hstart : Agrees r [] (Reader.mk (start r) w target).scroll := agrees_start r
  constructor
  · obtain ⟨s, hs⟩ := agrees_history base _ uses hstart
    exact hs.deliveries_eq
  · intro past e hprefix
    obtain ⟨s, s', hs, hstep⟩ := exists_step_of_prefix base _ uses hstart hprefix
    exact hs.orderly hstep

/-- Two pages come before a reply is lost, and the loss is then what went wrong. The scroll is
opened once; the page without an id is followed by a call under the id of the page before. -/
theorem orderly_history_lossy :
    let wire : Wire := { replies := [named, bare, .loss "EOF"] }
    let events := Reader.history local9200 ⟨start products, wire, []⟩
      [.next false, .next false, .next false, .err]
    deliveries events = [[{ id := "1" }], [{ id := "1" }]] ∧
      events.map (·.sent.map some) = [[(openCommand products).call? local9200],
        [(continueCommand "c2Ny").call? local9200], [(continueCommand "c2Ny").call? local9200],
        []] ∧
      ∃ past e, past ++ [e] <+: events ∧ e.use = .err ∧ stopFails past = true ∧
        Orderly local9200 products past e := by
  intro wire events
  obtain ⟨hdeliveries, horderly⟩ := orderly_history products local9200 wire []
    [.next false, .next false, .next false, .err]
  refine ⟨hdeliveries.trans (by decide +kernel), by decide +kernel, [_, _, _], _, ⟨[], rfl⟩, rfl,
    by decide +kernel, horderly _ _ ⟨[], rfl⟩⟩

end Scroll

end SearchGateway.Backend
