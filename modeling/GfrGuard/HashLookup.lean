import Mathlib.Data.List.Sort
import GfrGuard.Hash

/-!
# Lookups in a hash-sorted list

`SORT_BY_HASH` sorts a list by the hash of its entries (`sortByHash`). The binary search over
such a list finds exactly its entries (`hashLookup_iff`): it closes in on the key's hash, and
entries with one hash are neighbours.
-/

namespace GfrGuard

/-- `SORT_BY_HASH`: an insertion sort that keeps the order of rows with one hash. -/
def sortByHash {n : Nat} (rows : List (CBuf n)) : List (CBuf n) :=
  rows.insertionSort (fnv1a64 ·.str ≤ fnv1a64 ·.str)

/-- The hashes of the list ascend. -/
def HashSorted (strings : List CStr) : Prop := strings.Pairwise (fnv1a64 · ≤ fnv1a64 ·)

instance (strings : List CStr) : Decidable (HashSorted strings) :=
  inferInstanceAs (Decidable (List.Pairwise _ _))

section
variable {key s : CStr} {strings : List CStr}

theorem sortByHash_perm {n : Nat} (rows : List (CBuf n)) : (sortByHash rows).Perm rows :=
  List.perm_insertionSort _ rows

theorem hashSorted_sortByHash {n : Nat} (rows : List (CBuf n)) :
    HashSorted ((sortByHash rows).map CBuf.str) := by
  have : Std.Total (fun a b : CBuf n => fnv1a64 a.str ≤ fnv1a64 b.str) :=
    ⟨fun _ _ => UInt64.le_total _ _⟩
  have : IsTrans (CBuf n) (fnv1a64 ·.str ≤ fnv1a64 ·.str) := ⟨fun _ _ _ => UInt64.le_trans⟩
  exact List.pairwise_map.2 (List.pairwise_insertionSort _ rows)

/-- Along entries in order, all up to one with the hash of the first have it. -/
theorem mem_takeWhile_hash {r : UInt64 → UInt64 → Prop} (hanti : ∀ a b, r a b → r b a → a = b)
    (h : (s :: strings).Pairwise fun a b => r (fnv1a64 a) (fnv1a64 b)) (hmem : key ∈ strings)
    (hash : fnv1a64 key = fnv1a64 s) :
    key ∈ strings.takeWhile (fnv1a64 · = fnv1a64 key) := by
  induction strings with
  | nil => cases hmem
  | cons e strings ih =>
    obtain ⟨hfirst, hrest⟩ := List.pairwise_cons.1 h
    obtain ⟨hhead, htail⟩ := List.pairwise_cons.1 hrest
    have he : fnv1a64 e = fnv1a64 key := by
      rcases List.mem_cons.1 hmem with rfl | hmem
      · rfl
      · have hle := hhead key hmem
        rw [hash] at hle ⊢
        exact hanti _ _ hle (hfirst e List.mem_cons_self)
    rw [List.takeWhile_cons, if_pos (decide_eq_true he)]
    rcases List.mem_cons.1 hmem with rfl | hmem
    · exact List.mem_cons_self
    · refine List.mem_cons_of_mem e (ih ?_ hmem)
      exact List.pairwise_cons.2 ⟨fun a ha => hfirst a (List.mem_cons_of_mem e ha), htail⟩

/-- The search from an entry with the hash of the key over its neighbours finds the key. -/
theorem hash_hit_iff (h : HashSorted strings) {mid : Nat} (hs : strings[mid]? = some s)
    (hash : fnv1a64 key = fnv1a64 s) :
    (key = s ||
      ((strings.take mid).reverse.takeWhile (fnv1a64 · = fnv1a64 key)).any (key = ·) ||
      ((strings.drop (mid + 1)).takeWhile (fnv1a64 · = fnv1a64 key)).any (key = ·)) = true ↔
      key ∈ strings := by
  obtain ⟨hlt, hget⟩ := List.getElem?_eq_some_iff.1 hs
  have hsplit : strings = strings.take mid ++ s :: strings.drop (mid + 1) := by
    rw [← hget, List.getElem_cons_drop, List.take_append_drop]
  have hmem : key ∈ strings ↔ key ∈ strings.take mid ∨ key = s ∨ key ∈ strings.drop (mid + 1) := by
    rw [← List.mem_cons, ← List.mem_append, ← hsplit]
  unfold HashSorted at h
  rw [hsplit, List.pairwise_append] at h
  obtain ⟨hleft, hright, hbetween⟩ := h
  simp only [Bool.or_eq_true, decide_eq_true_eq, List.any_eq_true, exists_eq_right', hmem]
  constructor
  · rintro ((hkey | hkey) | hkey)
    · exact .inr (.inl hkey)
    · exact .inl (List.mem_reverse.1 ((List.takeWhile_subset _) hkey))
    · exact .inr (.inr ((List.takeWhile_subset _) hkey))
  · rintro (hkey | hkey | hkey)
    · refine .inl (.inr (mem_takeWhile_hash (r := fun a b => b ≤ a) (s := s)
        (fun _ _ hab hba => UInt64.le_antisymm hba hab) ?_ (List.mem_reverse.2 hkey) hash))
      rw [List.pairwise_cons, List.pairwise_reverse]
      exact ⟨fun e he => hbetween e (List.mem_reverse.1 he) s List.mem_cons_self, hleft⟩
    · exact .inl (.inl hkey)
    · exact .inr (mem_takeWhile_hash (fun _ _ => UInt64.le_antisymm) hright hkey hash)

/-- The search loop finds the key when it is nowhere but between the bounds. -/
theorem hashLookupFrom_iff (h : HashSorted strings) :
    ∀ fuel lo n, n ≤ fuel → lo + n ≤ strings.length → key ∉ strings.take lo →
      key ∉ strings.drop (lo + n) →
      (hashLookupFrom key strings fuel lo n = true ↔ key ∈ strings) := by
  have hnone : ∀ lo, key ∉ strings.take lo → key ∉ strings.drop lo → key ∉ strings :=
    fun lo htake hdrop hmem => by
      rw [← List.take_append_drop lo strings, List.mem_append] at hmem
      exact hmem.elim htake hdrop
  intro fuel
  induction fuel with
  | zero =>
    intro lo n hn _ htake hdrop
    obtain rfl : n = 0 := Nat.le_zero.1 hn
    exact iff_of_false Bool.false_ne_true (hnone lo htake hdrop)
  | succ fuel ih =>
    intro lo n hn hlen htake hdrop
    unfold hashLookupFrom
    by_cases hzero : n = 0
    · subst hzero
      rw [if_pos rfl]
      exact iff_of_false Bool.false_ne_true (hnone lo htake hdrop)
    rw [if_neg hzero]
    dsimp only
    generalize hmid : lo + (n - 1) / 2 = mid
    have hlt : mid < strings.length := by omega
    have hs : strings[mid]? = some strings[mid] := List.getElem?_eq_getElem hlt
    generalize strings[mid] = s at hs
    rw [hs]
    dsimp only
    obtain ⟨_, hget⟩ := List.getElem?_eq_some_iff.1 hs
    have hsplit : strings.take mid ++ s :: strings.drop (mid + 1) = strings := by
      rw [← hget, List.getElem_cons_drop, List.take_append_drop]
    have hpair : HashSorted (strings.take mid ++ s :: strings.drop (mid + 1)) := by
      rw [hsplit]
      exact h
    obtain ⟨-, hright, hleft⟩ := List.pairwise_append.1 hpair
    split
    · -- the middle entry and all before it have smaller hashes
      next hless =>
      refine ih (mid + 1) (lo + n - (mid + 1)) (by omega) (by omega) (fun hmem => ?_) ?_
      · rw [List.take_add_one, hs, Option.toList_some, List.mem_append, List.mem_singleton] at hmem
        rcases hmem with hmem | rfl
        · exact UInt64.not_le.2 hless (hleft key hmem s List.mem_cons_self)
        · exact UInt64.lt_irrefl _ hless
      · rwa [show mid + 1 + (lo + n - (mid + 1)) = lo + n by omega]
    · split
      · next hless =>
        refine ih lo (mid - lo) (by omega) (by omega) htake (fun hmem => ?_)
        rw [show lo + (mid - lo) = mid by omega, List.drop_eq_getElem_cons hlt, hget] at hmem
        rcases List.mem_cons.1 hmem with rfl | hmem
        · exact UInt64.lt_irrefl _ hless
        · exact UInt64.not_le.2 hless ((List.pairwise_cons.1 hright).1 key hmem)
      · next hge hle =>
        exact hash_hit_iff h hs (UInt64.le_antisymm (UInt64.not_lt.1 hge) (UInt64.not_lt.1 hle))

/-- A lookup in a sorted list finds exactly its entries. -/
theorem hashLookup_iff (h : HashSorted strings) :
    hashLookup key strings = true ↔ key ≠ [] ∧ key ∈ strings := by
  unfold hashLookup
  rw [Bool.and_eq_true, decide_eq_true_eq]
  refine and_congr_right fun _ => hashLookupFrom_iff h _ 0 _ (Nat.le_refl _) ?_ ?_ ?_
  · rw [Nat.zero_add]
  · exact List.not_mem_nil
  · rw [Nat.zero_add, List.drop_length]
    exact List.not_mem_nil

end

end GfrGuard
