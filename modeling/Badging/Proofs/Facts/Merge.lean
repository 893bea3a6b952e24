import Badging.Facts.Snapshot
import Mathlib.Data.List.Induction

/-!
# The last statement wins

Recording an entry drops the entries with its key and appends it. After any number of entries were
recorded, in any order of keys, a lookup finds the last of them with its key, though it takes the
first match: that there is only one is part of what is carried along. Entries with other keys, among
which there may be several with one key, stay as they are and in their order.
-/

namespace Badging

/-- What a list has become after entries were recorded in it one after the other. -/
structure LastWins {α κ : Type} [DecidableEq κ] (key : α → κ) (before recorded after : List α) :
    Prop where
  lookup : ∀ k, after.find? (fun e => key e = k) =
    (recorded.reverse.find? fun e => key e = k).or (before.find? fun e => key e = k)
  single : ∀ x ∈ recorded, ∃ e, after.filter (fun e => key e = key x) = [e]
  kept : after.filter (fun e => key e ∉ recorded.map key) =
    before.filter fun e => key e ∉ recorded.map key

section

variable {α κ : Type} [DecidableEq κ] {key : α → κ}

/-- Drops the entries with the key of an entry and appends it. -/
def recordBy (key : α → κ) (es : List α) (x : α) : List α :=
  Snapshot.replaceLast (fun e => decide (key e = key x)) x es

/-- Of the entries with a key there is only the new one if it has the key, and otherwise there are
those that there were. -/
theorem filter_recordBy (es : List α) (x : α) (k : κ) :
    (recordBy key es x).filter (fun e => key e = k) =
      if key x = k then [x] else es.filter fun e => key e = k := by
  rw [recordBy, Snapshot.replaceLast, List.filter_append, List.filter_filter]
  by_cases hk : key x = k
  · subst hk
    simp
  · have hothers : (fun e => decide (key e = k) && !decide (key e = key x)) =
        fun e => decide (key e = k) := by
      funext e
      by_cases he : key e = k
      · simp [he, Ne.symm hk]
      · simp [he]
    rw [if_neg hk, hothers, List.filter_cons_of_neg (by simpa using hk), List.filter_nil,
      List.append_nil]

theorem find?_recordBy (es : List α) (x : α) (k : κ) :
    (recordBy key es x).find? (fun e => key e = k) =
      if key x = k then some x else es.find? fun e => key e = k := by
  rw [← List.head?_filter, filter_recordBy]
  split
  · rfl
  · rw [List.head?_filter]

end

namespace LastWins

variable {α κ : Type} [DecidableEq κ] {key : α → κ} {before recorded after : List α}

theorem nil (key : α → κ) (es : List α) : LastWins key es [] es :=
  ⟨fun _ => rfl, fun _ h => absurd h List.not_mem_nil, rfl⟩

theorem concat (h : LastWins key before recorded after) (x : α) :
    LastWins key before (recorded ++ [x]) (recordBy key after x) := by
  refine ⟨fun k => ?_, fun y hy => ?_, ?_⟩
  · rw [find?_recordBy, List.reverse_append, List.reverse_singleton, List.singleton_append,
      h.lookup, List.find?_cons]
    by_cases hk : key x = k <;> simp [hk]
  · rw [filter_recordBy]
    by_cases hyx : key x = key y
    · exact ⟨x, if_pos hyx⟩
    · rw [if_neg hyx]
      exact h.single y ((List.mem_append.1 hy).resolve_right fun hy' =>
        hyx (by rw [List.mem_singleton.1 hy']))
  · have hsplit : ∀ es : List α, es.filter (fun e => key e ∉ (recorded ++ [x]).map key) =
        (es.filter fun e => key e ∉ recorded.map key).filter fun e => key e ≠ key x := fun es => by
      rw [List.filter_filter]
      refine List.filter_congr fun e _ => ?_
      rw [Bool.and_comm, ← Bool.decide_and, decide_eq_decide, List.map_append, List.mem_append,
        List.map_singleton, List.mem_singleton, not_or]
    rw [hsplit before, ← h.kept, ← hsplit, recordBy, Snapshot.replaceLast, List.filter_append,
      List.filter_filter]
    simp

theorem foldl (key : α → κ) (es xs : List α) : LastWins key es xs (xs.foldl (recordBy key) es) := by
  induction xs using List.reverseRecOn with
  | nil => exact nil key es
  | append_singleton xs x ih =>
    rw [List.foldl_append]
    exact ih.concat x

end LastWins

end Badging
