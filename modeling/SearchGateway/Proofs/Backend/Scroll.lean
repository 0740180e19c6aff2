import SearchGateway.Proofs.Backend.Address
import SearchGateway.Proofs.Backend.Turns

/-!
# Opening and releasing a scroll

The backend keeps a scroll open under the id it gave last. Two statements about whole uses of a
scroll, over all replies of the backend:

* closing makes one call, which releases the last id that a page came with, and none if there was
  no such page (`calls_closeAll`). The id of a reply that is no page is lost
  (`calls_closeAll_garbled`).
* the scroll is opened once, and again after every page of documents without an id that nothing
  else came before (`calls_advance`). The documents of such a page are delivered again
  (`calls_advance_bare`).
-/

namespace SearchGateway.Backend.Scroll

/-! ## Closing -/

/-- Releases an id. -/
def releaseOf (id : String) : Command where
  method := .delete
  path := "/_search/scroll"
  body := some (.object [("scroll_id", Json.strings [id])])

/-- Closes again and again, each time with the context given, cancelled or not. -/
def closeAll (s : Scroll) (base : String) (w : Wire) : List Bool → Scroll × Wire
  | [] => (s, w)
  | cancel :: cancels =>
    let (_, s, w) := s.close base cancel w
    s.closeAll base w cancels

section close

variable {s : Scroll}

theorem close_of_no_id (h : s.id = "") (base : String) (cancel : Bool) (w : Wire) :
    s.close base cancel w = (.ok (), s, w) := if_pos h

theorem closeAll_of_no_id (h : s.id = "") (base : String) (w : Wire) (cancels : List Bool) :
    s.closeAll base w cancels = (s, w) := by
  induction cancels with
  | nil => rfl
  | cons cancel cancels ih =>
    unfold closeAll
    rw [close_of_no_id h]
    exact ih

theorem id_close (s : Scroll) (base : String) (cancel : Bool) (w : Wire) :
    (s.close base cancel w).2.1.id = "" := by
  by_cases h : s.id = ""
  · rw [close_of_no_id h]
    exact h
  · rw [close, if_neg h]

theorem passed_close (h : s.id ≠ "") (base : String) (cancel : Bool) (w : Wire) :
    ∃ received, w.Passed (s.close base cancel w).2.2
      (if cancel then [] else ((releaseOf s.id).call? base).toList) received := by
  rw [close, if_neg h]
  have hsends := w.sends_send base cancel s.releaseCommand
  generalize w.send base cancel s.releaseCommand = out at hsends ⊢
  obtain ⟨r, w'⟩ := out
  have hrelease : s.releaseCommand = releaseOf s.id := rfl
  rw [hrelease] at hsends
  cases hsends with
  | unsent hwhy =>
    have hnone : (if cancel then [] else ((releaseOf s.id).call? base).toList) = [] := by
      rcases hwhy with rfl | hcall
      · rfl
      · rw [hcall]
        cases cancel <;> rfl
    exact ⟨[], by rw [hnone]; exact .refl _⟩
  | unanswered hcancel hcall _ =>
    exact ⟨[], by rw [hcancel, hcall]; exact ⟨rfl, rfl⟩⟩
  | answered hcancel hcall hreplies _ =>
    exact ⟨[_], by rw [hcancel, hcall]; exact ⟨rfl, hreplies⟩⟩

/-- Only the first closing can make a call. -/
theorem closeAll_cons (s : Scroll) (base : String) (w : Wire) (cancel : Bool)
    (cancels : List Bool) :
    (s.closeAll base w (cancel :: cancels)).2 = (s.close base cancel w).2.2 := by
  unfold closeAll
  exact congrArg Prod.snd (closeAll_of_no_id (s.id_close base cancel w) base _ cancels)

end close

/-- Where a scroll can be opened it can be released. -/
theorem exists_call_releaseOf {host : String} {port : Int} {base : String} {r : Request}
    {call : Call} (hbase : address host port = .ok base)
    (hcall : (openCommand r).call? base = some call) (id : String) :
    ∃ call, (releaseOf id).call? base = some call := by
  obtain ⟨_, opened, -, hread, -⟩ := Command.call?_eq_some_iff.1 hcall
  obtain ⟨hs, ps, hport, htext⟩ := fullText_of_address hbase
  obtain ⟨path, hpath⟩ : ∃ path, (openCommand r).target.toList = '/' :: path :=
    ⟨_, by simp [openCommand, Command.target, searchPath]; rfl⟩
  have htarget : (releaseOf id).target.toList = '/' :: "_search/scroll".toList := by
    simp [releaseOf, Command.target]
  have hplain : ∀ c ∈ "_search/scroll".toList,
      Address.isControl c = false ∧ c ≠ '%' ∧ c ≠ '#' := by
    simp [Address.isControl]
  obtain ⟨released, hreleased⟩ := Address.exists_read_of_read (htext _ _ hpath)
    (htext _ _ htarget) hport hplain ⟨opened, hread⟩
  exact ⟨_, Command.call?_eq_some_iff.2 ⟨_, released, rfl, hreleased, rfl⟩⟩

/-- A scroll that was sent an id has one in the end, and where it was opened that id can be
released. -/
theorem Walk.releasable {host : String} {port : Int} {base : String} {r : Request} {s : Scroll}
    {batches : List (List Hit)} {sent : List Call} {received : List Reply}
    (hbase : address host port = .ok base) (hwalk : Walk base (start r) batches s sent received)
    {id : String} (hid : (received.filterMap Reply.recordedId?).getLast? = some id) :
    s.id = id ∧ id ≠ "" ∧ ∃ call, (releaseOf id).call? base = some call := by
  obtain ⟨reply, hreply, hrecorded⟩ := List.mem_filterMap.1 (List.mem_of_getLast? hid)
  have hopened : ∃ call, sent[0]? = some call := by
    cases sent with
    | nil =>
      have hnone := List.length_eq_zero_iff.1 (Nat.le_zero.1 hwalk.length_received_le)
      rw [hnone] at hreply
      cases hreply
    | cons call sent => exact ⟨call, rfl⟩
  obtain ⟨call, hcall⟩ := hopened
  refine ⟨?_, Reply.ne_of_recordedId? hrecorded,
    exists_call_releaseOf hbase (hwalk.call_eq hcall).1 id⟩
  rw [hwalk.id_eq, lastId, hid, Option.getD_some]

/-- Closing a scroll, once or more often, releases the last id that a page came with, unless the
first closing is cancelled. -/
theorem calls_closeAll {host : String} {port : Int} {base : String}
    (hbase : address host port = .ok base) (r : Request) (w : Wire) (nexts : List Bool)
    (cancel : Bool) (closes : List Bool) :
    let walked := (start r).advance base w nexts
    let closed := walked.2.1.closeAll base walked.2.2 (cancel :: closes)
    ∃ sent received released received', w.Passed walked.2.2 sent received ∧
      walked.2.2.Passed closed.2 released received' ∧ (∀ call ∈ sent, call.method = .post) ∧
      released.map some = if cancel then [] else
        (received.filterMap Reply.recordedId?).getLast?.toList.map fun id =>
          (releaseOf id).call? base := by
  intro walked closed
  obtain ⟨sent, received, hpassed, hwalk⟩ := walk_advance (start r) base w nexts
  have hclosed : closed.2 = (walked.2.1.close base cancel walked.2.2).2.2 :=
    closeAll_cons _ _ _ _ _
  rw [hclosed]
  cases hlast : (received.filterMap Reply.recordedId?).getLast? with
  | none =>
    have hid : walked.2.1.id = "" := by
      rw [hwalk.id_eq, lastId, hlast]
      rfl
    rw [close_of_no_id hid]
    exact ⟨sent, received, [], [], hpassed, .refl _, hwalk.method_eq, by simp [hlast]⟩
  | some id =>
    obtain ⟨hid, hne, call, hcall⟩ := hwalk.releasable hbase hlast
    obtain ⟨received', hreleased⟩ := passed_close (hid ▸ hne) base cancel walked.2.2
    rw [hid, hcall] at hreleased
    refine ⟨sent, received, _, received', hpassed, hreleased, hwalk.method_eq, ?_⟩
    rw [hlast]
    cases cancel <;> simp [hcall]

/-- A page with an id. -/
def named : Reply := .answer 200
  "\x7b\"_scroll_id\":\"c2Ny\",\"hits\":\x7b\"hits\":[\x7b\"_id\":\"1\"\x7d]\x7d\x7d".toList

/-- A page without an id. -/
def bare : Reply := .answer 200 "\x7b\"hits\":\x7b\"hits\":[\x7b\"_id\":\"1\"\x7d]\x7d\x7d".toList

/-- A success with an id that is no page, since its document has no id of its own. -/
def garbled : Reply := .answer 200
  "\x7b\"_scroll_id\":\"c2Ny\",\"hits\":\x7b\"hits\":[\x7b\x7d]\x7d\x7d".toList

def products : Request where
  index := "products"
  size := 2

def local9200 : String := "http://localhost:9200"

theorem address_local : address "localhost" 9200 = .ok local9200 := rfl

theorem calls_closeAll_named : address "localhost" 9200 = .ok local9200 ∧
    let wire : Wire := { replies := [named, bare, .loss "EOF"] }
    let walked := (start products).advance local9200 wire [false, false, false, false]
    let closed := walked.2.1.closeAll local9200 walked.2.2 [false, true, false]
    ∃ sent received released received', wire.Passed walked.2.2 sent received ∧
      walked.2.2.Passed closed.2 released received' ∧ (∀ call ∈ sent, call.method = .post) ∧
      released.map some = (if false then [] else
        (received.filterMap Reply.recordedId?).getLast?.toList.map fun id =>
          (releaseOf id).call? local9200) ∧
      (received.filterMap Reply.recordedId?).getLast? = some "c2Ny" ∧
      released = [⟨.delete, "http://localhost:9200/_search/scroll",
        some "\x7b\"scroll_id\":[\"c2Ny\"]\x7d"⟩] := by
  refine ⟨address_local, ?_⟩
  intro wire walked closed
  obtain ⟨sent, received, released, received', hwalked, hclosed, hposts, hreleased⟩ :=
    calls_closeAll address_local products wire [false, false, false, false] false [true, false]
  have hcalls : closed.2.calls = walked.2.2.calls ++ [⟨.delete,
      "http://localhost:9200/_search/scroll", some "\x7b\"scroll_id\":[\"c2Ny\"]\x7d"⟩] := by
    decide +kernel
  have hreplies : wire.replies = [named, bare, .loss "EOF"] ++ walked.2.2.replies := by
    decide +kernel
  have hlast : ([named, bare, .loss "EOF"].filterMap Reply.recordedId?).getLast? =
      some "c2Ny" := by
    decide +kernel
  rw [hwalked.replies, List.append_left_inj] at hreplies
  rw [hclosed.calls, List.append_right_inj] at hcalls
  rw [← hreplies] at hlast
  exact ⟨sent, received, released, received', hwalked, hclosed, hposts, hreleased, hlast, hcalls⟩

/-- The id of a success that is no page is not released. -/
theorem calls_closeAll_garbled :
    let wire : Wire := { replies := [garbled, .answer 200 []] }
    let walked := (start products).advance local9200 wire [false]
    let closed := walked.2.1.closeAll local9200 walked.2.2 [false]
    garbled.carriedId? = some "c2Ny" ∧ closed.2.replies = [.answer 200 []] ∧
      closed.2.calls.map (·.method) = [.post] := by
  decide +kernel

/-! ## Opening -/

section opening

variable {base : String} {r : Request} {s : Scroll} {batches : List (List Hit)} {sent : List Call}
  {bares rest : List Reply} {call : Call} {i : Nat}

/-- As long as all pages came without an id the scroll is opened again. -/
theorem Walk.call_of_bare (h : Walk base (start r) batches s sent (bares ++ rest))
    (hbares : ∀ reply ∈ bares, reply.isBare = true) (hi : sent[i]? = some call)
    (hle : i ≤ bares.length) : (openCommand { r with start := 0 }).call? base = some call := by
  have hnone : (bares.take i).filterMap Reply.recordedId? = [] := by
    rw [List.filterMap_eq_nil_iff]
    intro reply hreply
    have hbare := hbares reply (List.mem_of_mem_take hreply)
    rw [Reply.isBare, Bool.and_eq_true, Option.isNone_iff_eq_none] at hbare
    exact hbare.2
  have hcall := (h.call_eq hi).1
  rw [List.take_append_of_le_length hle, lastId, hnone] at hcall
  exact hcall

/-- A reply that stops the bare pages and is followed by a call came with an id. -/
theorem Walk.call_of_not_bare {reply : Reply}
    (h : Walk base (start r) batches s sent (bares ++ reply :: rest))
    (hreply : reply.isBare = false) (hi : sent[i]? = some call) (hlt : bares.length < i) :
    ∃ id ∈ (bares ++ reply :: rest).filterMap Reply.recordedId?,
      (continueCommand id).call? base = some call := by
  obtain ⟨hcall, -, hbatches⟩ := h.call_eq hi
  have hmem : reply ∈ (bares ++ reply :: rest).take i := by
    obtain ⟨d, rfl⟩ := Nat.exists_eq_add_of_lt hlt
    rw [Nat.add_assoc, List.take_length_add_append, List.take_succ_cons]
    exact List.mem_append_right _ List.mem_cons_self
  have hrecorded : ∃ id, reply.recordedId? = some id := by
    rw [Reply.isBare, hbatches reply hmem, Bool.true_and] at hreply
    cases hid : reply.recordedId? with
    | none => rw [hid] at hreply; cases hreply
    | some id => exact ⟨id, rfl⟩
  obtain ⟨id', hid'⟩ := hrecorded
  cases hlast : (((bares ++ reply :: rest).take i).filterMap Reply.recordedId?).getLast? with
  | none =>
    rw [List.getLast?_eq_none_iff, List.filterMap_eq_nil_iff] at hlast
    rw [hlast reply hmem] at hid'
    cases hid'
  | some id =>
    obtain ⟨last, hmem', hid⟩ := List.mem_filterMap.1 (List.mem_of_getLast? hlast)
    rw [lastId, hlast, Option.getD_some, commandFor,
      if_neg (Reply.ne_of_recordedId? hid)] at hcall
    exact ⟨id, List.mem_filterMap.2 ⟨last, List.mem_of_mem_take hmem', hid⟩, hcall⟩

end opening

/-- A scroll is opened by its first call and again after every page of documents that came without
an id before any other reply; all later calls continue under an id that a page came with. Each page
is delivered once for each time it was sent. -/
theorem calls_advance (r : Request) (base : String) (w : Wire) (nexts : List Bool) :
    let walked := (start r).advance base w nexts
    ∃ sent received, w.Passed walked.2.2 sent received ∧
      walked.1 = received.filterMap Reply.batch? ∧
      (∀ call ∈ sent.take ((received.takeWhile Reply.isBare).length + 1),
        (openCommand { r with start := 0 }).call? base = some call) ∧
      ∀ call ∈ sent.drop ((received.takeWhile Reply.isBare).length + 1),
        ∃ id ∈ received.filterMap Reply.recordedId?,
          (continueCommand id).call? base = some call := by
  intro walked
  obtain ⟨sent, received, hpassed, hwalk⟩ := walk_advance (start r) base w nexts
  refine ⟨sent, received, hpassed, hwalk.batches_eq, ?_, ?_⟩
  · intro call hmem
    obtain ⟨i, hi⟩ := List.mem_iff_getElem?.1 hmem
    rw [List.getElem?_take] at hi
    split at hi
    · next hlt =>
      rw [← List.takeWhile_append_dropWhile (p := Reply.isBare) (l := received)] at hwalk
      exact hwalk.call_of_bare (fun _ => List.mem_takeWhile_imp) hi (Nat.le_of_lt_succ hlt)
    · cases hi
  · intro call hmem
    obtain ⟨i, hi⟩ := List.mem_iff_getElem?.1 hmem
    rw [List.getElem?_drop] at hi
    have hall := List.takeWhile_append_dropWhile (p := Reply.isBare) (l := received)
    cases hrest : received.dropWhile Reply.isBare with
    | nil =>
      have hle := (hwalk.call_eq hi).2.1
      rw [hrest, List.append_nil] at hall
      rw [hall] at hle
      omega
    | cons reply rest =>
      rw [hrest] at hall
      have hreply : reply.isBare = false := by
        have hhead := List.head?_dropWhile_not Reply.isBare received
        rwa [hrest] at hhead
      rw [← hall] at hwalk
      have hcontinue := hwalk.call_of_not_bare hreply hi (by omega)
      rwa [hall] at hcontinue

/-- A page without an id is asked for and delivered a second time. -/
theorem calls_advance_bare :
    let walked := (start products).advance local9200 { replies := [bare, bare] } [false, false]
    let opening := (openCommand products).call? local9200
    opening.isSome = true ∧ walked.2.2.calls.map some = [opening, opening] ∧
      walked.1 = [[{ id := "1" }], [{ id := "1" }]] := by
  decide +kernel

end SearchGateway.Backend.Scroll
