import Mathlib.Data.Finset.Card
import Mathlib.Data.Finset.Dedup
import Mathlib.Data.Finset.Filter

/-!
# Bounded tables of what was met first

A table of at most `n` entries takes up each element it does not hold while it has room, and never
drops one. After a list of elements it holds the first `n` different ones,
`l.eraseDups.take n`: another element changes that as it changes the table
(`take_eraseDups_append_singleton`), and the number of entries is the number of different elements
up to `n` (`length_take_eraseDups`).
-/

namespace FirstMet

variable {α : Type*} [DecidableEq α]

/-- Another element in a bounded table of those met first. -/
theorem take_eraseDups_append_singleton (n : Nat) (l : List α) (x : α) :
    (l ++ [x]).eraseDups.take n =
      if x ∈ l.eraseDups.take n ∨ n ≤ (l.eraseDups.take n).length then l.eraseDups.take n
      else l.eraseDups.take n ++ [x] := by
  rw [List.eraseDups_append]
  by_cases hmem : x ∈ l
  · -- one that is not in the table was met after the table had filled up
    have hnone : [x].removeAll l = [] := by simp [List.removeAll, hmem]
    rw [hnone, List.eraseDups_nil, List.append_nil, eq_comm, ite_eq_left_iff, List.length_take]
    intro hout
    rw [not_or, not_le] at hout
    have hshort : l.eraseDups.length < n := by omega
    rw [List.take_of_length_le hshort.le] at hout
    exact absurd (List.mem_eraseDups.2 hmem) hout.1
  · have hone : [x].removeAll l = [x] := by simp [List.removeAll, hmem]
    have hout : x ∉ l.eraseDups.take n := fun h => hmem (List.mem_eraseDups.1 (List.mem_of_mem_take h))
    have hself : [x].eraseDups = [x] := rfl
    rw [hone, hself, List.length_take]
    split
    · next h =>
      have hfull : n ≤ l.eraseDups.length := by
        rcases h with h | h
        · exact absurd h hout
        · omega
      rw [List.take_append_of_le_length hfull]
    · next h =>
      have hroom : l.eraseDups.length < n := by
        rw [not_or] at h
        omega
      rw [List.take_of_length_le hroom.le, List.take_of_length_le (by rw [List.length_append, List.length_singleton]; omega)]

theorem nodup_eraseDups (l : List α) : l.eraseDups.Nodup := by
  induction l using List.reverseRecOn with
  | nil => exact List.nodup_nil
  | append_singleton l x ih =>
    rw [List.eraseDups_append]
    by_cases hmem : x ∈ l
    · have hnone : [x].removeAll l = [] := by simp [List.removeAll, hmem]
      rw [hnone, List.eraseDups_nil, List.append_nil]
      exact ih
    · have hone : [x].removeAll l = [x] := by simp [List.removeAll, hmem]
      have hself : [x].eraseDups = [x] := rfl
      rw [hone, hself, List.nodup_append]
      refine ⟨ih, List.nodup_singleton x, ?_⟩
      rintro y hy z hz rfl
      rw [List.mem_singleton.1 hz] at hy
      exact hmem (List.mem_eraseDups.1 hy)

/-- The number of entries is the number of different elements up to the bound. -/
theorem length_take_eraseDups (n : Nat) (l : List α) :
    (l.eraseDups.take n).length = min n l.toFinset.card := by
  have hsame : l.eraseDups.toFinset = l.toFinset := by
    ext x
    rw [List.mem_toFinset, List.mem_toFinset, List.mem_eraseDups]
  rw [List.length_take, ← hsame, List.toFinset_card_of_nodup (nodup_eraseDups l)]

end FirstMet
