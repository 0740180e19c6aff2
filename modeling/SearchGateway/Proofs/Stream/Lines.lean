import SearchGateway.Proofs.Stream.Accounting
import SearchGateway.Proofs.Text.Items

/-!
# Lines of a stream

The text of a document is copied as the backend sent it. A stream that ends without a fault has
written, for each document in turn, the lines of that text (`splitChars_accepted`). A document is
one line exactly if its text has no line feed; one that the backend sent on several lines is not
(`splitChars_accepted_indented`).
-/

namespace SearchGateway.Stream

open SearchGateway.Backend (Hit Page)
open SearchGateway.Text

/-- Behind the last line feed there is nothing. -/
theorem splitChars_lines (hits : List Hit) :
    splitChars '\n' (lines hits) = (hits.map document).flatMap (splitChars '\n') ++ [[]] := by
  induction hits with
  | nil => rfl
  | cons h hits ih =>
    rw [lines_cons, splitChars_append_sep, ih, List.map_cons, List.flatMap_cons, List.append_assoc]

theorem flatMap_splitChars_eq_self_iff {sep : Char} {texts : List (List Char)} :
    texts.flatMap (splitChars sep) = texts ↔ ∀ text ∈ texts, sep ∉ text := by
  constructor
  · intro h text htext
    rw [← h] at htext
    obtain ⟨_, -, hpart⟩ := List.mem_flatMap.1 htext
    exact not_mem_of_mem_splitChars hpart
  · intro h
    rw [List.flatMap_congr fun t ht => splitChars_of_not_mem (h t ht), List.flatMap_singleton']

variable {σ ω : Type}

/-- Without a fault everything was written. -/
theorem feed_of_no_fault {b : Batches σ} {k : Sink ω} {s : σ} {w : ω}
    (h : (writeTo b k s w).1.fault = none) : (k.feed (b.drain s).1 w).1 = (b.drain s).1 := by
  rw [writeTo_eq] at h
  obtain ⟨hrefused, -⟩ := Option.or_eq_none_iff.1 h
  rcases hfed : k.feed (b.drain s).1 w with ⟨written, refused, w'⟩
  rw [hfed] at hrefused
  obtain rfl := Option.map_eq_none_iff.1 hrefused
  exact (Sink.eq_append_of_feed hfed).symm

/-- A stream that ends without a fault has written the lines of every document in turn, and nothing
else. There is one line for each document exactly if no document has a line feed. -/
theorem splitChars_accepted {b : Batches σ} {k : Sink ω} {s : σ} {w : ω}
    (h : (writeTo b k s w).1.fault = none) :
    let documents := (b.drain s).1.flatten.map document
    let output := accepted (writeTo b k.logged s (w, [])).2.2.2
    splitChars '\n' output = documents.flatMap (splitChars '\n') ++ [[]] ∧
      (splitChars '\n' output = documents ++ [[]] ↔ ∀ d ∈ documents, '\n' ∉ d) := by
  intro documents output
  have hlines : splitChars '\n' output = documents.flatMap (splitChars '\n') ++ [[]] := by
    show splitChars '\n' (accepted _) = _
    rw [accepted_logged, feed_of_no_fault h, splitChars_lines]
  refine ⟨hlines, ?_⟩
  rw [hlines, List.append_left_inj]
  exact flatMap_splitChars_eq_self_iff

/-- Two pages, with a document that has no source and one on two lines. -/
theorem splitChars_accepted_pages :
    let pages : List (List Hit) := [[{ id := "1", source := some "\x7b\"a\":1\x7d".toList },
      { id := "2" }], [{ id := "3", source := some "\x7b\n\x7d".toList }]]
    let b := Batches.ofList none
    let sink := Tape.sink (fun _ => none) true
    (writeTo b sink pages {}).1.fault = none ∧
      splitChars '\n' (accepted (writeTo b sink.logged pages ({}, [])).2.2.2) =
        ["\x7b\"a\":1\x7d".toList, "\x7b\x7d".toList, ['\x7b'], ['\x7d'], []] := by
  intro pages b sink
  have h : (writeTo b sink pages {}).1.fault = none := by decide +kernel
  exact ⟨h, (splitChars_accepted h).1.trans (by decide +kernel)⟩

/-- A page of the backend with one document on two lines. -/
def indentedPage : List Char :=
  "\x7b\"hits\":\x7b\"hits\":[\x7b\"_id\":\"1\",\"_source\":\x7b\n\"a\":1\x7d\x7d]\x7d\x7d".toList

/-- An indented document is written without a fault and is two lines. -/
theorem splitChars_accepted_indented :
    let hit : Hit := { id := "1", source := some "\x7b\n\"a\":1\x7d".toList }
    let b := Batches.ofList none
    let sink := Tape.sink (fun _ => none) true
    (Page.decode indentedPage).toOption = some { hits := [hit] } ∧
      (writeTo b sink [[hit]] {}).1 = ⟨1, none⟩ ∧
      splitChars '\n' (accepted (writeTo b sink.logged [[hit]] ({}, [])).2.2.2) =
        ["\x7b".toList, "\"a\":1\x7d".toList, []] := by
  decide +kernel

end SearchGateway.Stream
