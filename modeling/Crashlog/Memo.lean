import Mathlib.Logic.Function.Basic
import Mathlib.Data.List.Basic

/-!
# Answering from a cache

A cache remembers the first successful answer under the key of a query.
Queries that differ may share a key. All answers are what the cache was meant
to repeat exactly when, among queries with one key, a success is followed only
by queries with the same answer.
-/

namespace Crashlog

/-- A source of answers with a cache in front. Queries without a key are not cached. -/
structure Memo (α κ ν ε : Type*) where
  key : α → Option κ
  fetch : α → Except ε ν

namespace Memo

variable {α κ ν ε : Type*} [DecidableEq κ] (memo : Memo α κ ν ε)

abbrev Table (κ ν : Type*) := κ → Option ν

def ask (table : Table κ ν) (query : α) : Except ε ν × Table κ ν :=
  match memo.key query with
  | none => (memo.fetch query, table)
  | some key =>
      match table key with
      | some value => (.ok value, table)
      | none =>
          match memo.fetch query with
          | .ok value => (.ok value, Function.update table key (some value))
          | .error error => (.error error, table)

def askAll (table : Table κ ν) : List α → List (Except ε ν)
  | [] => []
  | query :: rest =>
      let (answer, table) := memo.ask table query
      answer :: askAll table rest

/-- After a success the later query with the same key has the same answer. -/
def Repeats (earlier later : α) : Prop :=
  ∀ key value, memo.key earlier = some key → memo.key later = some key →
    memo.fetch earlier = .ok value → memo.fetch later = .ok value

/-- What the table holds for a query is its answer. -/
def Holds (table : Table κ ν) (query : α) : Prop :=
  ∀ key value, memo.key query = some key → table key = some value → memo.fetch query = .ok value

variable {memo}

theorem ask_unkeyed {table : Table κ ν} {query : α} (unkeyed : memo.key query = none) :
    memo.ask table query = (memo.fetch query, table) := by
  simp only [ask, unkeyed]

theorem ask_stored {table : Table κ ν} {query : α} {key : κ} {value : ν}
    (keyed : memo.key query = some key) (stored : table key = some value) :
    memo.ask table query = (.ok value, table) := by
  simp only [ask, keyed, stored]

theorem ask_fetched {table : Table κ ν} {query : α} {key : κ} {value : ν}
    (keyed : memo.key query = some key) (missing : table key = none)
    (fetched : memo.fetch query = .ok value) :
    memo.ask table query = (.ok value, Function.update table key (some value)) := by
  simp only [ask, keyed, missing, fetched]

theorem ask_failed {table : Table κ ν} {query : α} {key : κ} {error : ε}
    (keyed : memo.key query = some key) (missing : table key = none)
    (failed : memo.fetch query = .error error) :
    memo.ask table query = (.error error, table) := by
  simp only [ask, keyed, missing, failed]

/-- A query adds its own answer to the table and nothing else. -/
theorem stored_after_ask {table : Table κ ν} {query : α} {key : κ} {value : ν}
    (stored : (memo.ask table query).2 key = some value) :
    table key = some value ∨ memo.key query = some key ∧ memo.fetch query = .ok value := by
  cases keyed : memo.key query with
  | none =>
      rw [ask_unkeyed keyed] at stored
      exact .inl stored
  | some own =>
      cases held : table own with
      | some old =>
          rw [ask_stored keyed held] at stored
          exact .inl stored
      | none =>
          cases fetched : memo.fetch query with
          | error error =>
              rw [ask_failed keyed held fetched] at stored
              exact .inl stored
          | ok answer =>
              rw [ask_fetched keyed held fetched] at stored
              dsimp only at stored
              by_cases same : key = own
              · subst same
                rw [Function.update_self, Option.some.injEq] at stored
                exact .inr ⟨rfl, congrArg Except.ok stored⟩
              · rw [Function.update_of_ne same] at stored
                exact .inl stored

omit [DecidableEq κ] in
theorem holds_of_unkeyed {table : Table κ ν} {query : α} (unkeyed : memo.key query = none) :
    memo.Holds table query := by
  intro key value keyed
  rw [unkeyed] at keyed
  cases keyed

omit [DecidableEq κ] in
theorem holds_iff_of_key {table : Table κ ν} {query : α} {key : κ} (keyed : memo.key query = some key) :
    memo.Holds table query ↔ ∀ value, table key = some value → memo.fetch query = .ok value := by
  constructor
  · exact fun holds value => holds key value keyed
  · intro holds other value again
    rw [keyed] at again
    cases again
    exact holds value

theorem ask_eq_fetch_iff {table : Table κ ν} {query : α} :
    (memo.ask table query).1 = memo.fetch query ↔ memo.Holds table query := by
  cases keyed : memo.key query with
  | none => simp [ask_unkeyed keyed, holds_of_unkeyed keyed]
  | some key =>
      rw [holds_iff_of_key keyed]
      cases stored : table key with
      | none =>
          cases fetched : memo.fetch query with
          | ok value => simp [ask_fetched keyed stored fetched]
          | error error => simp [ask_failed keyed stored fetched]
      | some value => simp [ask_stored keyed stored, eq_comm]

/-- A success under a fresh key adds one obligation for the queries that share the key. -/
theorem holds_update_iff {table : Table κ ν} {query later : α} {key : κ} {value : ν}
    (keyed : memo.key query = some key) (missing : table key = none)
    (fetched : memo.fetch query = .ok value) :
    memo.Holds (Function.update table key (some value)) later ↔
      memo.Holds table later ∧ memo.Repeats query later := by
  constructor
  · intro holds
    constructor
    · intro other again laterKey found
      have apart : other ≠ key := by
        rintro rfl
        rw [missing] at found
        cases found
      apply holds other again laterKey
      rwa [Function.update_of_ne apart]
    · intro other again same laterKey answer
      rw [keyed] at same
      rw [fetched] at answer
      cases same
      cases answer
      exact holds key value laterKey (Function.update_self _ _ _)
  · rintro ⟨holds, repeated⟩ other again laterKey found
    by_cases same : other = key
    · subst same
      rw [Function.update_self, Option.some.injEq] at found
      subst found
      exact repeated other value keyed laterKey fetched
    · rw [Function.update_of_ne same] at found
      exact holds other again laterKey found

/-- What one query does to a later one, where the table was right for the query. -/
theorem holds_after_ask {table : Table κ ν} {query later : α} (right : memo.Holds table query) :
    memo.Holds (memo.ask table query).2 later ↔
      memo.Holds table later ∧ memo.Repeats query later := by
  cases keyed : memo.key query with
  | none =>
      have repeats : memo.Repeats query later := by
        intro key value again
        rw [keyed] at again
        cases again
      simp [ask_unkeyed keyed, repeats]
  | some key =>
      cases stored : table key with
      | some value =>
          have answer : memo.fetch query = .ok value := right key value keyed stored
          rw [ask_stored keyed stored, iff_self_and]
          intro holds other again same laterKey fetched
          rw [keyed] at same
          rw [answer] at fetched
          cases same
          cases fetched
          exact holds key value laterKey stored
      | none =>
          cases fetched : memo.fetch query with
          | error error =>
              have repeats : memo.Repeats query later := by
                intro other value _ _ answer
                rw [fetched] at answer
                cases answer
              simp [ask_failed keyed stored fetched, repeats]
          | ok value =>
              rw [ask_fetched keyed stored fetched]
              exact holds_update_iff keyed stored fetched

theorem ask_all_eq_map_iff {table : Table κ ν} {queries : List α} :
    memo.askAll table queries = queries.map memo.fetch ↔
      (∀ query ∈ queries, memo.Holds table query) ∧ queries.Pairwise memo.Repeats := by
  induction queries generalizing table with
  | nil => simp [askAll]
  | cons query rest ih =>
      simp only [askAll, List.map_cons, List.cons.injEq, ask_eq_fetch_iff, ih, List.pairwise_cons,
        List.forall_mem_cons]
      constructor
      · rintro ⟨right, after, ordered⟩
        have parts := fun later member => (holds_after_ask right).mp (after later member)
        exact ⟨⟨right, fun later member => (parts later member).1⟩,
          fun later member => (parts later member).2, ordered⟩
      · rintro ⟨⟨right, holds⟩, repeated, ordered⟩
        exact ⟨right, fun later member => (holds_after_ask right).mpr
          ⟨holds later member, repeated later member⟩, ordered⟩

/-- A cache that starts empty is transparent exactly when its keys are honest. -/
theorem ask_all_empty_iff {queries : List α} :
    memo.askAll (fun _ => none) queries = queries.map memo.fetch ↔ queries.Pairwise memo.Repeats := by
  rw [ask_all_eq_map_iff]
  simp [Holds]

end Memo

end Crashlog
