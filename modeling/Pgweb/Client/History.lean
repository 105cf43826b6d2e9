import Mathlib.Data.List.Nodup
import Pgweb.Client.Session

/-!
# The query history

`Query` runs `query` and, when it returned no error, appends a record of the query to
`client.History` unless `hasHistoryRecord` finds one with the same text. The `history`
package is not in the source: a record is its `Query` field and its other fields (`Info`),
and `history.NewRecord` is the parameter `newRecord`. What the code relies on of it is that
the record it makes carries its query.

`recordQuery` is what one call does to the history, given whether it succeeded, and
`runQueries` a sequence of calls with any texts and outcomes. `runQuery` runs `Query` call
after call, each on any client and pool: its history is `runQueries` over the outcomes the
calls meet (`runQuery_history`). Main result: `runQuery_historyOk`, that the history keeps
one record per text and gains exactly the texts of successful calls.
-/

namespace Pgweb

/-- A `history.Record`: the `Query` that `hasHistoryRecord` reads, and the other fields. -/
structure Record (Info : Type) where
  query : String
  info : Info
  deriving DecidableEq, Repr

namespace Client

variable {Info : Type}

/-- `hasHistoryRecord(query)`: the loop over `History`, which stops at the first record with
the same text. -/
def hasHistoryRecord : List (Record Info) → String → Bool
  | [], _ => false
  | record :: rest, query => if record.query = query then true else hasHistoryRecord rest query

/-- The history after `Query(query)`, whose call of `query(query)` returned no error iff
`ok`. -/
def recordQuery (newRecord : String → Record Info) (history : List (Record Info))
    (query : String) (ok : Bool) : List (Record Info) :=
  if ok && !hasHistoryRecord history query then history ++ [newRecord query] else history

/-- `Query(query)`: `query(query)` on the pool, then the history update. -/
def Query (newRecord : String → Record Info) (opts : Options) (client : Client)
    (pick : Nat → Nat) (query : String) :
    StateM (Pool × List (Record Info)) (Except String (Option Session)) := fun s =>
  let r := (client.query opts pick query).run s.1
  (r.1, (r.2, recordQuery newRecord s.2 query r.1.toBool))

/-- The history after calls of `Query`, oldest first, each a text and whether its call of
`query` succeeded. -/
def runQueries (newRecord : String → Record Info) (history : List (Record Info))
    (calls : List (String × Bool)) : List (Record Info) :=
  calls.foldl (fun h call => recordQuery newRecord h call.1 call.2) history

/-- Calls of `Query` one after another, each on its own client with its own options and
pool choice. -/
def runQuery (newRecord : String → Record Info) :
    List (Options × Client × (Nat → Nat) × String) → Pool × List (Record Info) →
      Pool × List (Record Info)
  | [], s => s
  | (opts, client, pick, query) :: calls, s =>
    runQuery newRecord calls ((Query newRecord opts client pick query).run s).2

/-- The texts of such calls and whether their `query` succeeded, as the run meets them. -/
def queryOutcomes (newRecord : String → Record Info) :
    List (Options × Client × (Nat → Nat) × String) → Pool × List (Record Info) →
      List (String × Bool)
  | [], _ => []
  | (opts, client, pick, query) :: calls, s =>
    (query, ((client.query opts pick query).run s.1).1.toBool) ::
      queryOutcomes newRecord calls ((Query newRecord opts client pick query).run s).2

/-- What the history promises after the calls `calls` from `history`: no text twice, each
text of a successful call exactly once, and nothing but records of successful calls
appended. -/
structure HistoryOk (newRecord : String → Record Info) (history : List (Record Info))
    (calls : List (String × Bool)) (history' : List (Record Info)) : Prop where
  nodup : (history'.map Record.query).Nodup
  once : ∀ q, (q, true) ∈ calls → (history'.map Record.query).count q = 1
  grows : ∃ new, history' = history ++ new ∧ ∀ r ∈ new, ∃ q, (q, true) ∈ calls ∧ r = newRecord q

theorem hasHistoryRecord_iff {history : List (Record Info)} {query : String} :
    hasHistoryRecord history query = true ↔ query ∈ history.map Record.query := by
  induction history with
  | nil => simp [hasHistoryRecord]
  | cons record rest ih =>
    by_cases h : record.query = query
    · simp [hasHistoryRecord, h]
    · simp [hasHistoryRecord, h, ih, Ne.symm h]

/-- One call appends at most the new record of its text, and only when it succeeded. -/
theorem recordQuery_append (newRecord : String → Record Info) (history : List (Record Info))
    (query : String) (ok : Bool) :
    ∃ new, recordQuery newRecord history query ok = history ++ new ∧
      ∀ r ∈ new, ok = true ∧ r = newRecord query := by
  unfold recordQuery
  split
  · rename_i h
    exact ⟨[newRecord query], rfl, fun r hr => ⟨by simp_all, List.mem_singleton.1 hr⟩⟩
  · exact ⟨[], (List.append_nil _).symm, fun r hr => absurd hr (List.not_mem_nil r)⟩

/-- A run only appends, and only records of successful calls. -/
theorem runQueries_append (newRecord : String → Record Info) :
    ∀ (history : List (Record Info)) (calls : List (String × Bool)),
      ∃ new, runQueries newRecord history calls = history ++ new ∧
        ∀ r ∈ new, ∃ q, (q, true) ∈ calls ∧ r = newRecord q
  | history, [] => ⟨[], (List.append_nil _).symm, fun r hr => absurd hr (List.not_mem_nil r)⟩
  | history, (q, ok) :: calls => by
    obtain ⟨n1, h1, hn1⟩ := recordQuery_append newRecord history q ok
    obtain ⟨n2, h2, hn2⟩ := runQueries_append newRecord (recordQuery newRecord history q ok) calls
    refine ⟨n1 ++ n2, by rw [← List.append_assoc, ← h1, ← h2]; rfl, fun r hr => ?_⟩
    rcases List.mem_append.1 hr with hr | hr
    · obtain ⟨rfl, rfl⟩ := hn1 r hr
      exact ⟨q, List.mem_cons_self _ _, rfl⟩
    · obtain ⟨q', hq', rfl⟩ := hn2 r hr
      exact ⟨q', List.mem_cons_of_mem _ hq', rfl⟩

/-- A run of `Query` is a run of its history update over the outcomes it meets. -/
theorem runQuery_history (newRecord : String → Record Info) :
    ∀ (calls : List (Options × Client × (Nat → Nat) × String)) (s : Pool × List (Record Info)),
      (runQuery newRecord calls s).2 = runQueries newRecord s.2 (queryOutcomes newRecord calls s)
  | [], _ => rfl
  | _ :: calls, _ => runQuery_history newRecord calls _

section NewRecord

variable {newRecord : String → Record Info} (hnew : ∀ q, (newRecord q).query = q)
include hnew

theorem nodup_recordQuery {history : List (Record Info)}
    (hnd : (history.map Record.query).Nodup) (query : String) (ok : Bool) :
    ((recordQuery newRecord history query ok).map Record.query).Nodup := by
  unfold recordQuery
  split
  · rename_i h
    have habs : query ∉ history.map Record.query := by
      rw [← hasHistoryRecord_iff]; simp_all
    rw [List.map_append, List.map_singleton, hnew]
    exact hnd.append (List.nodup_singleton _) fun x hx hy =>
      habs ((List.mem_singleton.1 hy) ▸ hx)
  · exact hnd

theorem mem_recordQuery (history : List (Record Info)) (query : String) :
    query ∈ (recordQuery newRecord history query true).map Record.query := by
  unfold recordQuery
  split
  · simp [hnew]
  · rename_i h
    exact hasHistoryRecord_iff.1 (by simpa using h)

theorem nodup_runQueries {history : List (Record Info)} (hnd : (history.map Record.query).Nodup)
    (calls : List (String × Bool)) :
    ((runQueries newRecord history calls).map Record.query).Nodup := by
  induction calls generalizing history with
  | nil => exact hnd
  | cons call calls ih => exact ih (nodup_recordQuery hnew hnd call.1 call.2)

/-- Every text of a successful call is recorded at the end of the run. -/
theorem mem_runQueries {history : List (Record Info)} {q : String} (calls : List (String × Bool))
    (hq : (q, true) ∈ calls) : q ∈ (runQueries newRecord history calls).map Record.query := by
  induction calls generalizing history with
  | nil => cases hq
  | cons call calls ih =>
    rcases List.mem_cons.1 hq with rfl | hq
    · obtain ⟨new, h, -⟩ := runQueries_append newRecord (recordQuery newRecord history q true) calls
      show q ∈ (runQueries newRecord (recordQuery newRecord history q true) calls).map Record.query
      rw [h, List.map_append]
      exact List.mem_append_left _ (mem_recordQuery hnew history q)
    · exact ih hq

end NewRecord

theorem historyOk_runQueries (newRecord : String → Record Info)
    (hnew : ∀ q, (newRecord q).query = q) (history : List (Record Info))
    (hnd : (history.map Record.query).Nodup) (calls : List (String × Bool)) :
    HistoryOk newRecord history calls (runQueries newRecord history calls) :=
  ⟨nodup_runQueries hnew hnd calls,
    fun _ hq => List.count_eq_one_of_mem (nodup_runQueries hnew hnd calls)
      (mem_runQueries hnew calls hq),
    runQueries_append newRecord history calls⟩

/-- Calls of `Query` keep the history free of repeats, record each successful text once, and
append nothing else. -/
theorem runQuery_historyOk (newRecord : String → Record Info)
    (hnew : ∀ q, (newRecord q).query = q) (calls : List (Options × Client × (Nat → Nat) × String))
    (s : Pool × List (Record Info)) (hnd : (s.2.map Record.query).Nodup) :
    HistoryOk newRecord s.2 (queryOutcomes newRecord calls s) (runQuery newRecord calls s).2 := by
  rw [runQuery_history]
  exact historyOk_runQueries newRecord hnew s.2 hnd _

theorem runQuery_historyOk_repeat :
    HistoryOk (fun q => (⟨q, ()⟩ : Record Unit)) [⟨"x", ()⟩]
      (queryOutcomes (fun q => ⟨q, ()⟩)
        [(⟨false, fun _ => false⟩, ⟨true, "", false⟩, id, "a"),
          (⟨false, fun _ => false⟩, ⟨true, "", false⟩, id, "b"),
          (⟨false, fun _ => false⟩, ⟨true, "", false⟩, id, "a")]
        (⟨fun _ => ⟨"postgres", false⟩, 0, [], fun _ st => if st = .run "b" then some "error" else none⟩,
          [⟨"x", ()⟩]))
      (runQuery (fun q => ⟨q, ()⟩)
        [(⟨false, fun _ => false⟩, ⟨true, "", false⟩, id, "a"),
          (⟨false, fun _ => false⟩, ⟨true, "", false⟩, id, "b"),
          (⟨false, fun _ => false⟩, ⟨true, "", false⟩, id, "a")]
        (⟨fun _ => ⟨"postgres", false⟩, 0, [], fun _ st => if st = .run "b" then some "error" else none⟩,
          [⟨"x", ()⟩])).2 :=
  runQuery_historyOk _ (fun _ => rfl) _
    (⟨fun _ => ⟨"postgres", false⟩, 0, [], fun _ st => if st = .run "b" then some "error" else none⟩,
      [⟨"x", ()⟩]) (by decide)

end Client

end Pgweb
