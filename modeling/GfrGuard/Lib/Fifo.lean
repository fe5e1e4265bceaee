import Mathlib.Data.List.Nodup

/-!
# Bounded queues

A first-in-first-out queue of limited capacity, as a list with the oldest entry in front:
when it is full, an entry that comes makes the oldest leave (`push`). A queue that is offered
entries takes those it accepts and does not hold (`offer`); it then has no duplicates, holds
only what it accepts, and gives up only the oldest entry of a full queue (`left_of_offer`).
-/

namespace Fifo

variable {α : Type*} {cap : Nat} {accepts : α → Bool} {q : List α} {x y : α}

/-- The queue after one more entry. -/
def push (cap : Nat) (q : List α) (x : α) : List α := (if q.length < cap then q else q.tail) ++ [x]

theorem mem_of_mem_push (h : y ∈ push cap q x) : y ∈ q ∨ y = x := by
  unfold push at h
  rcases List.mem_append.1 h with h | h
  · split at h
    · exact .inl h
    · exact .inl (List.mem_of_mem_tail h)
  · exact .inr (List.mem_singleton.1 h)

theorem length_push_le (hcap : 0 < cap) (h : q.length ≤ cap) : (push cap q x).length ≤ cap := by
  unfold push
  split <;> simp <;> omega

theorem nodup_concat_of_sublist {q' : List α} (hq : q.Nodup) (hx : x ∉ q) (hsub : q'.Sublist q) :
    (q' ++ [x]).Nodup :=
  List.nodup_append.2 ⟨hq.sublist hsub, List.nodup_singleton x, fun a ha b hb heq =>
    hx (by rw [← List.mem_singleton.1 hb, ← heq]; exact hsub.subset ha)⟩

theorem nodup_push (hq : q.Nodup) (hx : x ∉ q) : (push cap q x).Nodup := by
  unfold push
  split
  · exact nodup_concat_of_sublist hq hx (List.Sublist.refl q)
  · exact nodup_concat_of_sublist hq hx (List.tail_sublist q)

/-- What leaves is the oldest entry of a full queue. -/
theorem left_of_push (hy : y ∈ q) (hleft : y ∉ push cap q x) : cap ≤ q.length ∧ q.head? = some y := by
  unfold push at hleft
  split at hleft
  · exact absurd (List.mem_append_left _ hy) hleft
  · next hfull =>
    refine ⟨Nat.not_lt.1 hfull, ?_⟩
    cases q with
    | nil => cases hy
    | cons a q =>
      rcases List.mem_cons.1 hy with rfl | hy
      · rfl
      · exact absurd (List.mem_append_left _ hy) hleft

/-- What a queue of offered entries keeps. -/
structure Wf (cap : Nat) (accepts : α → Bool) (q : List α) : Prop where
  length_le : q.length ≤ cap
  accepted : ∀ x ∈ q, accepts x = true
  nodup : q.Nodup

theorem wf_nil : Wf cap accepts ([] : List α) :=
  ⟨Nat.zero_le cap, fun _ h => absurd h List.not_mem_nil, List.nodup_nil⟩

variable [DecidableEq α]

/-- The queue after an entry is offered to it. -/
def offer (cap : Nat) (accepts : α → Bool) (q : List α) (x : α) : List α :=
  if accepts x = true ∧ x ∉ q then push cap q x else q

theorem left_of_offer (hy : y ∈ q) (hleft : y ∉ offer cap accepts q x) :
    cap ≤ q.length ∧ q.head? = some y := by
  unfold offer at hleft
  split at hleft
  · exact left_of_push hy hleft
  · exact absurd hy hleft

theorem Wf.offer (hcap : 0 < cap) (h : Wf cap accepts q) : Wf cap accepts (offer cap accepts q x) := by
  unfold Fifo.offer
  split
  · next hnew =>
    refine ⟨length_push_le hcap h.length_le, fun y hy => ?_, nodup_push h.nodup hnew.2⟩
    rcases mem_of_mem_push hy with hy | rfl
    · exact h.accepted y hy
    · exact hnew.1
  · exact h

end Fifo
