import SearchGateway.Backend.Scroll
import SearchGateway.Proofs.Json.Lookup

/-!
# The turns of a scroll

A turn is one request for the next page. `Turn` says all that can come of it, by the reply it meets:
the state after it, the calls that were made and the replies that were used up. `turn_next` is the
only place where `Scroll.next` is opened.

A walk is a sequence of turns (`Walk`). It remembers the last id that a page came with
(`Walk.id_eq`), delivers the documents of the pages it was sent (`Walk.batches_eq`), and makes no
call once it has stopped.
-/

namespace SearchGateway.Backend

open SearchGateway.Json

/-! ## Commands on the wire -/

/-- The call a command is sent as, if its body can be written and its address be read. -/
def Command.call? (c : Command) (base : String) : Option Call :=
  match c.body.mapM fun b => b.write false, Address.read (base ++ c.target) with
  | .ok body, .ok address => some ⟨c.method, address.text, body⟩
  | _, _ => none

theorem Command.call?_eq_some_iff {c : Command} {base : String} {call : Call} :
    c.call? base = some call ↔ ∃ body address, (c.body.mapM fun b => b.write false) = .ok body ∧
      Address.read (base ++ c.target) = .ok address ∧ call = ⟨c.method, address.text, body⟩ := by
  unfold call?
  constructor
  · intro h
    split at h
    · exact ⟨_, _, ‹_›, ‹_›, (Option.some.inj h).symm⟩
    · cases h
  · rintro ⟨body, address, hbody, hread, rfl⟩
    rw [hbody, hread]

namespace Wire

/-- Between two states of a wire the calls `sent` were made and the replies `received` used up. -/
structure Passed (w w' : Wire) (sent : List Call) (received : List Reply) : Prop where
  calls : w'.calls = w.calls ++ sent
  replies : w.replies = received ++ w'.replies

theorem Passed.refl (w : Wire) : Passed w w [] [] := ⟨(List.append_nil _).symm, rfl⟩

theorem Passed.trans {w w' w'' : Wire} {sent sent' : List Call} {received received' : List Reply}
    (h : Passed w w' sent received) (h' : Passed w' w'' sent' received') :
    Passed w w'' (sent ++ sent') (received ++ received') := by
  constructor
  · rw [h'.calls, h.calls, List.append_assoc]
  · rw [h.replies, h'.replies, List.append_assoc]

/-- What comes of sending a command. -/
inductive Sends (w : Wire) (base : String) (cancel : Bool) (c : Command) :
    Except Fault (List Char) → Wire → Prop where
  | unsent {f : Fault} : cancel = true ∨ c.call? base = none → Sends w base cancel c (.error f) w
  | unanswered {call : Call} {f : Fault} : cancel = false → c.call? base = some call →
      w.replies = [] → Sends w base cancel c (.error f) { w with calls := w.calls ++ [call] }
  | answered {call : Call} {reply : Reply} {rest : List Reply} {out : Except Fault (List Char)} :
      cancel = false → c.call? base = some call → w.replies = reply :: rest →
      reply.outcome call = out →
      Sends w base cancel c out { w with replies := rest, calls := w.calls ++ [call] }

theorem sends_send (w : Wire) (base : String) (cancel : Bool) (c : Command) :
    w.Sends base cancel c (w.send base cancel c).1 (w.send base cancel c).2 := by
  unfold send
  cases hbody : c.body.mapM fun b => b.write false with
  | error x => exact .unsent (.inr (by rw [Command.call?, hbody]))
  | ok body =>
    cases hread : Address.read (base ++ c.target) with
    | error e => exact .unsent (.inr (by rw [Command.call?, hbody, hread]))
    | ok address =>
      have hcall : c.call? base = some ⟨c.method, address.text, body⟩ := by
        rw [Command.call?, hbody, hread]
      cases cancel with
      | true => exact .unsent (.inl rfl)
      | false =>
        dsimp only
        rw [if_neg Bool.false_ne_true]
        unfold exchange
        split
        · exact .unanswered rfl hcall ‹_›
        · exact .answered rfl hcall ‹_› rfl

end Wire

/-! ## Replies -/

namespace Reply

/-- The body of a success. -/
def body? : Reply → Option (List Char)
  | answer status body => if status < 300 then some body else none
  | cut _ _ _ => none
  | loss _ => none

theorem outcome_eq_ok_iff {reply : Reply} {call : Call} {body : List Char} :
    reply.outcome call = .ok body ↔ reply.body? = some body := by
  cases reply with
  | answer status body' => by_cases h : status < 300 <;> simp [outcome, body?, h]
  | cut status body' message => simp [outcome, body?]
  | loss message => simp [outcome, body?]

/-- The page of a success that is understood. -/
def page? (reply : Reply) : Option Page :=
  reply.body?.bind fun body => (Page.decode body).toOption

/-- The id a success carries, unless it is empty. -/
def carriedId? (reply : Reply) : Option String :=
  reply.body?.bind fun body => if scrollIdOf body = "" then none else some (scrollIdOf body)

/-- The id of a success is the string under `_scroll_id` in the document it was sent as. -/
theorem carriedId?_text {status : Int} (hstatus : status < 300) {d : Document} (hd : d.Distinct)
    (before after : Blank) (hresolved : ∀ v ∈ d.member? "_scroll_id", v.isResolved = true) :
    (answer status (before.1 ++ (d.text ++ after.1))).carriedId? =
      ((d.member? "_scroll_id").bind Document.string?).filter (· ≠ "") := by
  have hplain : Plain ["_scroll_id"] := by simp [Plain]
  have hget := get_text hplain (by simp) hd before after
  rw [Document.at?_singleton] at hget
  rw [carriedId?, body?, if_pos hstatus, Option.bind_some, scrollIdOf,
    toOption_getString hget hresolved]
  cases (d.member? "_scroll_id").bind Document.string? with
  | none => rfl
  | some id => by_cases h : id = "" <;> simp [h, Option.filter]

/-- The id a page came with. -/
def recordedId? (reply : Reply) : Option String := reply.page?.bind fun _ => reply.carriedId?

theorem ne_of_recordedId? {reply : Reply} {id : String} (h : reply.recordedId? = some id) :
    id ≠ "" := by
  obtain ⟨_, -, hcarried⟩ := Option.bind_eq_some_iff.1 h
  obtain ⟨body, -, hid⟩ := Option.bind_eq_some_iff.1 hcarried
  split at hid
  · cases hid
  · rwa [← Option.some.inj hid]

/-- The documents of a page that has any. -/
def batch? (reply : Reply) : Option (List Hit) :=
  reply.page?.bind fun page => if page.hits = [] then none else some page.hits

/-- A page of documents that came without an id. -/
def isBare (reply : Reply) : Bool := reply.batch?.isSome && reply.recordedId?.isNone

end Reply

/-- The last id among the pages of the replies, or the one known before. -/
def lastId (id : String) (received : List Reply) : String :=
  (received.filterMap Reply.recordedId?).getLast?.getD id

theorem lastId_append (id : String) (received received' : List Reply) :
    lastId id (received ++ received') = lastId (lastId id received) received' := by
  simp only [lastId, List.filterMap_append, List.getLast?_append]
  cases (received'.filterMap Reply.recordedId?).getLast? <;> simp

namespace Scroll

/-! ## Turns -/

/-- Opens a scroll. -/
def openCommand (r : Request) : Command where
  method := .post
  path := searchPath r.index
  params := [("scroll", keepAlive)]
  body := some r.json

/-- Asks for more under the id of an open scroll. -/
def continueCommand (id : String) : Command where
  method := .post
  path := "/_search/scroll"
  body := some (.object [("scroll", .string keepAlive), ("scroll_id", .string id)])

/-- An empty id stands for a scroll that is not open. -/
def commandFor (r : Request) (id : String) : Command :=
  if id = "" then openCommand r else continueCommand id

theorem method_commandFor (r : Request) (id : String) : (commandFor r id).method = .post := by
  unfold commandFor
  split <;> rfl

theorem pageCommand_eq (s : Scroll) : s.pageCommand = commandFor s.request s.id := rfl

/-- What comes of a request for the next page: the documents, the state after it, the calls made
and the replies used up. -/
inductive Turn (base : String) (s : Scroll) :
    Option (List Hit) → Scroll → List Call → List Reply → Prop where
  | idle : s.isStopped = true → Turn base s none s [] []
  | unsent {f : Fault} : s.isStopped = false → Turn base s none { s with fault := some f } [] []
  | unanswered {call : Call} {f : Fault} : s.isStopped = false →
      s.pageCommand.call? base = some call →
      Turn base s none { s with fault := some f } [call] []
  | failed {call : Call} {reply : Reply} {f : Fault} : s.isStopped = false →
      s.pageCommand.call? base = some call → reply.page? = none →
      Turn base s none { s with fault := some f } [call] [reply]
  | last {call : Call} {reply : Reply} {page : Page} : s.isStopped = false →
      s.pageCommand.call? base = some call → reply.page? = some page → page.hits = [] →
      Turn base s none { s with id := lastId s.id [reply], done := true } [call] [reply]
  | page {call : Call} {reply : Reply} {page : Page} : s.isStopped = false →
      s.pageCommand.call? base = some call → reply.page? = some page → page.hits ≠ [] →
      Turn base s (some page.hits) { s with id := lastId s.id [reply] } [call] [reply]

section receive

variable {s : Scroll} {reply : Reply} {call : Call} {out : Except Fault (List Char)}

theorem receive_of_page {page : Page} (hout : reply.outcome call = out)
    (h : reply.page? = some page) : s.receive out =
      if page.hits = [] then (none, { s with id := lastId s.id [reply], done := true })
      else (some page.hits, { s with id := lastId s.id [reply] }) := by
  obtain ⟨body, hbody, hpage⟩ := Option.bind_eq_some_iff.1 h
  have hdecode : Page.decode body = .ok page := by
    cases hd : Page.decode body with
    | error e => rw [hd] at hpage; cases hpage
    | ok page' => rw [hd] at hpage; cases hpage; rfl
  have hid : lastId s.id [reply] =
      if scrollIdOf body = "" then s.id else scrollIdOf body := by
    by_cases he : scrollIdOf body = "" <;>
      simp [lastId, Reply.recordedId?, Reply.carriedId?, h, hbody, he]
  rw [← hout, Reply.outcome_eq_ok_iff.2 hbody, hid]
  by_cases he : scrollIdOf body = "" <;> by_cases hh : page.hits = [] <;>
    simp [receive, hdecode, he, hh]

theorem receive_of_no_page (hout : reply.outcome call = out) (h : reply.page? = none) :
    ∃ f, s.receive out = (none, { s with fault := some f }) := by
  cases out with
  | error f => exact ⟨f, rfl⟩
  | ok body =>
    rw [Reply.page?, Reply.outcome_eq_ok_iff.1 hout, Option.bind_some] at h
    cases hdecode : Page.decode body with
    | error e => exact ⟨_, by rw [receive, hdecode]⟩
    | ok page => rw [hdecode] at h; cases h

end receive

theorem turn_next (s : Scroll) (base : String) (cancel : Bool) (w : Wire) :
    ∃ sent received, w.Passed (s.next base cancel w).2.2 sent received ∧
      Turn base s (s.next base cancel w).1 (s.next base cancel w).2.1 sent received := by
  unfold next
  by_cases hstop : s.isStopped = true
  · rw [if_pos hstop]
    exact ⟨[], [], .refl w, .idle hstop⟩
  · rw [if_neg hstop]
    have hgo : s.isStopped = false := Bool.eq_false_iff.2 hstop
    have hsends := w.sends_send base cancel s.pageCommand
    generalize w.send base cancel s.pageCommand = out at hsends ⊢
    obtain ⟨r, w'⟩ := out
    cases hsends with
    | unsent _ => exact ⟨[], [], .refl _, .unsent hgo⟩
    | unanswered _ hcall _ => exact ⟨_, [], ⟨rfl, rfl⟩, .unanswered hgo hcall⟩
    | @answered call reply rest out _ hcall hreplies hout =>
      refine ⟨[call], [reply], ⟨rfl, hreplies⟩, ?_⟩
      dsimp only
      cases hpage : reply.page? with
      | none =>
        obtain ⟨f, hreceive⟩ := receive_of_no_page (s := s) hout hpage
        rw [hreceive]
        exact .failed hgo hcall hpage
      | some page =>
        rw [receive_of_page hout hpage]
        split
        · exact .last hgo hcall hpage ‹_›
        · exact .page hgo hcall hpage ‹_›

section turn

variable {base : String} {s s' : Scroll} {hits : Option (List Hit)} {sent : List Call}
  {received : List Reply}

theorem Turn.request_eq (h : Turn base s hits s' sent received) : s'.request = s.request := by
  cases h <;> rfl

theorem Turn.id_eq (h : Turn base s hits s' sent received) : s'.id = lastId s.id received := by
  cases h with
  | idle | unsent | unanswered | last | page => rfl
  | failed _ _ hpage => simp [lastId, Reply.recordedId?, hpage]

theorem Turn.hits_eq (h : Turn base s hits s' sent received) :
    hits.toList = received.filterMap Reply.batch? := by
  cases h with
  | idle | unsent | unanswered => rfl
  | failed _ _ hpage => simp [Reply.batch?, hpage]
  | last _ _ hpage hhits => simp [Reply.batch?, hpage, hhits]
  | page _ _ hpage hhits => simp [Reply.batch?, hpage, hhits]

/-- A turn that calls the backend either stops the scroll or delivers the documents of a reply. -/
theorem Turn.cases_sent (h : Turn base s hits s' sent received) :
    (sent = [] ∧ received = [] ∧ s'.isStopped = true) ∨
      ∃ call, sent = [call] ∧ s.pageCommand.call? base = some call ∧
        (s'.isStopped = true ∨ ∃ reply, received = [reply] ∧ reply.batch?.isSome) := by
  cases h with
  | idle hstop => exact .inl ⟨rfl, rfl, hstop⟩
  | unsent _ => exact .inl ⟨rfl, rfl, by simp [isStopped]⟩
  | unanswered _ hcall => exact .inr ⟨_, rfl, hcall, .inl (by simp [isStopped])⟩
  | failed _ hcall _ => exact .inr ⟨_, rfl, hcall, .inl (by simp [isStopped])⟩
  | last _ hcall _ _ => exact .inr ⟨_, rfl, hcall, .inl (by simp [isStopped])⟩
  | page _ hcall hpage hhits =>
    exact .inr ⟨_, rfl, hcall, .inr ⟨_, rfl, by simp [Reply.batch?, hpage, hhits]⟩⟩

theorem Turn.length_received_le (h : Turn base s hits s' sent received) :
    received.length ≤ sent.length := by
  cases h <;> simp

theorem Turn.eq_nil_of_isStopped (h : Turn base s hits s' sent received)
    (hstop : s.isStopped = true) : sent = [] ∧ received = [] ∧ s'.isStopped = true := by
  cases h with
  | idle _ => exact ⟨rfl, rfl, hstop⟩
  | unsent hgo | unanswered hgo _ | failed hgo _ _ | last hgo _ _ _ | page hgo _ _ _ =>
    rw [hgo] at hstop
    cases hstop

end turn

/-! ## Walks -/

/-- Turns in sequence: the documents delivered, the state after them, the calls made and the
replies used up. -/
inductive Walk (base : String) :
    Scroll → List (List Hit) → Scroll → List Call → List Reply → Prop where
  | nil (s : Scroll) : Walk base s [] s [] []
  | cons {s s' s'' : Scroll} {hits : Option (List Hit)} {batches : List (List Hit)}
      {sent sent' : List Call} {received received' : List Reply} :
      Turn base s hits s' sent received → Walk base s' batches s'' sent' received' →
      Walk base s (hits.toList ++ batches) s'' (sent ++ sent') (received ++ received')

/-- Asks for one page after another, each time with the context given, cancelled or not. -/
def advance (s : Scroll) (base : String) (w : Wire) : List Bool → List (List Hit) × Scroll × Wire
  | [] => ([], s, w)
  | cancel :: cancels =>
    let (hits, s, w) := s.next base cancel w
    let (batches, s, w) := s.advance base w cancels
    (hits.toList ++ batches, s, w)

theorem walk_advance (s : Scroll) (base : String) (w : Wire) (cancels : List Bool) :
    ∃ sent received, w.Passed (s.advance base w cancels).2.2 sent received ∧
      Walk base s (s.advance base w cancels).1 (s.advance base w cancels).2.1 sent received := by
  induction cancels generalizing s w with
  | nil => exact ⟨[], [], .refl w, .nil s⟩
  | cons cancel cancels ih =>
    obtain ⟨sent, received, hpassed, hturn⟩ := s.turn_next base cancel w
    obtain ⟨sent', received', hpassed', hwalk⟩ :=
      ih (s.next base cancel w).2.1 (s.next base cancel w).2.2
    exact ⟨_, _, hpassed.trans hpassed', .cons hturn hwalk⟩

section walk

variable {base : String} {s s' : Scroll} {batches : List (List Hit)} {sent : List Call}
  {received : List Reply}

theorem Walk.id_eq (h : Walk base s batches s' sent received) : s'.id = lastId s.id received := by
  induction h with
  | nil s => rfl
  | cons hturn _ ih => rw [ih, hturn.id_eq, lastId_append]

theorem Walk.batches_eq (h : Walk base s batches s' sent received) :
    batches = received.filterMap Reply.batch? := by
  induction h with
  | nil s => rfl
  | cons hturn _ ih => rw [List.filterMap_append, ← hturn.hits_eq, ih]

theorem Walk.eq_nil_of_isStopped (h : Walk base s batches s' sent received)
    (hstop : s.isStopped = true) : sent = [] ∧ received = [] := by
  induction h with
  | nil s => exact ⟨rfl, rfl⟩
  | cons hturn _ ih =>
    obtain ⟨rfl, rfl, hstop'⟩ := hturn.eq_nil_of_isStopped hstop
    exact ih hstop'

theorem Walk.length_received_le (h : Walk base s batches s' sent received) :
    received.length ≤ sent.length := by
  induction h with
  | nil s => exact Nat.le_refl 0
  | cons hturn _ ih =>
    rw [List.length_append, List.length_append]
    exact Nat.add_le_add hturn.length_received_le ih

/-- The call number `i` of a walk asks for a page under the last id among the `i` replies before
it, and each of those delivered documents. -/
theorem Walk.call_eq (h : Walk base s batches s' sent received) {i : Nat} {call : Call}
    (hi : sent[i]? = some call) :
    (commandFor s.request (lastId s.id (received.take i))).call? base = some call ∧
      i ≤ received.length ∧ ∀ reply ∈ received.take i, reply.batch?.isSome := by
  induction h generalizing i with
  | nil s => simp at hi
  | @cons s s' s'' hits batches sent sent' received received' hturn hwalk ih =>
    rcases hturn.cases_sent with ⟨rfl, rfl, hstop⟩ | ⟨call', rfl, hcall, hafter⟩
    · rw [(hwalk.eq_nil_of_isStopped hstop).1] at hi
      simp at hi
    · cases i with
      | zero =>
        obtain rfl : call' = call := by simpa using hi
        rw [pageCommand_eq] at hcall
        exact ⟨hcall, Nat.zero_le _, by simp⟩
      | succ j =>
        have hj : sent'[j]? = some call := by simpa using hi
        rcases hafter with hstop | ⟨reply, rfl, hbatch⟩
        · rw [(hwalk.eq_nil_of_isStopped hstop).1] at hj
          simp at hj
        · obtain ⟨hpage, hle, hbatches⟩ := ih hj
          refine ⟨?_, by simpa using hle, ?_⟩
          · rw [hturn.id_eq, hturn.request_eq, ← lastId_append] at hpage
            exact hpage
          · simpa [hbatch] using hbatches

theorem Walk.method_eq (h : Walk base s batches s' sent received) :
    ∀ call ∈ sent, call.method = .post := by
  intro call hmem
  obtain ⟨i, hi⟩ := List.mem_iff_getElem?.1 hmem
  obtain ⟨_, _, -, -, rfl⟩ := Command.call?_eq_some_iff.1 (h.call_eq hi).1
  exact method_commandFor _ _

end walk

end Scroll

end SearchGateway.Backend
