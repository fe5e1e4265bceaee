import Mathlib.Data.List.Induction
import Mathlib.Data.List.Sort

/-!
# Rows with an array of their keys

A table kept as two parallel arrays, the rows and the key of each, in the order of the keys.
`sort` is the in-place insertion sort that moves both arrays in step: it gives the stable
sort of the pairs (`sort_ofPairs`). `search` is the binary search for a row with a given key
that a test picks out, with a walk over the neighbours of equal key on both sides: over a
sorted table it reads inside the arrays, ends, and finds exactly the rows there are
(`search_eq`).
-/

/-- Rows and, in a parallel array, their keys. -/
structure KeyedRows (κ ρ : Type*) where
  keys : List κ
  rows : List ρ
deriving DecidableEq

namespace KeyedRows

variable {κ ρ : Type*}

/-- The two arrays of a list of pairs. -/
def ofPairs (l : List (κ × ρ)) : KeyedRows κ ρ := ⟨l.map Prod.fst, l.map Prod.snd⟩

/-- What the arrays hold at a place. -/
def get? (t : KeyedRows κ ρ) (i : Nat) : Option (κ × ρ) :=
  t.keys[i]?.bind fun k => t.rows[i]?.map fun row => (k, row)

/-- Both arrays with one place written. -/
def set (t : KeyedRows κ ρ) (i : Nat) (k : κ) (row : ρ) : KeyedRows κ ρ :=
  ⟨t.keys.set i k, t.rows.set i row⟩

@[simp] theorem get?_ofPairs (l : List (κ × ρ)) (i : Nat) : (ofPairs l).get? i = l[i]? := by
  unfold get? ofPairs
  rw [List.getElem?_map, List.getElem?_map]
  cases l[i]? <;> rfl

@[simp] theorem set_ofPairs (l : List (κ × ρ)) (i : Nat) (k : κ) (row : ρ) :
    (ofPairs l).set i k row = ofPairs (l.set i (k, row)) := by
  unfold set ofPairs
  rw [List.map_set, List.map_set]

section sort
variable [LT κ] [DecidableLT κ]

/-- Moves the places below `j` with a larger key up by one, from the right on, and returns the
place this leaves free. -/
def sift (h : κ) : (j : Nat) → KeyedRows κ ρ → Nat × KeyedRows κ ρ
  | 0, t => (0, t)
  | j + 1, t =>
    match t.get? j with
    | none => (j + 1, t)
    | some (k, row) => if h < k then sift h j (t.set (j + 1) k row) else (j + 1, t)

/-- Inserts place `i` into the places before it. -/
def insertAt (t : KeyedRows κ ρ) (i : Nat) : KeyedRows κ ρ :=
  match t.get? i with
  | none => t
  | some (h, row) => (sift h i t).2.set (sift h i t).1 h row

/-- The insertion sort of both arrays. -/
def sort (t : KeyedRows κ ρ) : KeyedRows κ ρ :=
  (List.range' 1 (t.rows.length - 1)).foldl insertAt t

end sort

section search
variable [LT κ] [DecidableLT κ] [DecidableEq κ]

/-- The walk down from below place `l`, while the key is `h`. -/
def scanDown (t : KeyedRows κ ρ) (h : κ) (test : ρ → Bool) : (l : Nat) → Bool
  | 0 => false
  | l + 1 =>
    match t.get? l with
    | none => false
    | some (k, row) => if k = h then test row || scanDown t h test l else false

/-- The walk up over the `n` places from `r` on, while the key is `h`. -/
def scanUp (t : KeyedRows κ ρ) (h : κ) (test : ρ → Bool) : (n r : Nat) → Bool
  | 0, _ => false
  | n + 1, r =>
    match t.get? r with
    | none => false
    | some (k, row) => if k = h then test row || scanUp t h test n (r + 1) else false

/-- The binary search between two places, both included. There is no answer when it reads
outside the arrays or runs out of fuel. -/
def search (t : KeyedRows κ ρ) (h : κ) (test : ρ → Bool) : (fuel : Nat) → (lo hi : Int) → Option Bool
  | 0, _, _ => none
  | fuel + 1, lo, hi =>
    if lo ≤ hi then
      let mid := lo + (hi - lo) / 2
      match t.get? mid.toNat with
      | none => none
      | some (k, row) =>
        if k < h then search t h test fuel (mid + 1) hi
        else if h < k then search t h test fuel lo (mid - 1)
        else some (test row || t.scanDown h test mid.toNat ||
          t.scanUp h test (t.rows.length - (mid.toNat + 1)) (mid.toNat + 1))
    else some false

end search

/-! ## Stable sorts -/

/-- An insertion sort keeps the order of entries that are related both ways. -/
theorem filter_insertionSort {α : Type*} {r : α → α → Prop} [DecidableRel r] {p : α → Bool}
    (h : ∀ a b, p a = true → p b = true → r a b) (l : List α) :
    (l.insertionSort r).filter p = l.filter p := by
  have hpair : (l.filter p).Pairwise r :=
    List.pairwise_of_forall_mem_list fun a ha b hb =>
      h a b (List.mem_filter.1 ha).2 (List.mem_filter.1 hb).2
  have hsub := (List.sublist_insertionSort hpair List.filter_sublist).filter p
  rw [List.filter_filter, List.filter_congr fun a _ => Bool.and_self (p a)] at hsub
  exact (hsub.eq_of_length ((List.perm_insertionSort r l).filter p).length_eq.symm).symm

/-- Lists that have the same entries of each key have the same entries. -/
theorem mem_iff_of_filter [DecidableEq κ] {l₁ l₂ : List (κ × ρ)}
    (h : ∀ k, l₁.filter (fun e => decide (e.1 = k)) = l₂.filter fun e => decide (e.1 = k))
    (e : κ × ρ) : e ∈ l₁ ↔ e ∈ l₂ := by
  have hkey : ∀ l : List (κ × ρ), e ∈ l.filter (fun a => decide (a.1 = e.1)) ↔ e ∈ l := by simp
  rw [← hkey l₁, h e.1, hkey]

/-- Lists in the order of their keys are the same when each key has the same entries in the
same order. -/
theorem eq_of_stable [LE κ] [Std.IsLinearOrder κ] [DecidableEq κ] {l₁ l₂ : List (κ × ρ)} (h₁ : l₁.Pairwise (·.1 ≤ ·.1))
    (h₂ : l₂.Pairwise (·.1 ≤ ·.1))
    (h : ∀ k, l₁.filter (fun e => decide (e.1 = k)) = l₂.filter fun e => decide (e.1 = k)) :
    l₁ = l₂ := by
  have hmem := mem_iff_of_filter h
  induction l₁ generalizing l₂ with
  | nil => exact (List.eq_nil_iff_forall_not_mem.2 fun e he => List.not_mem_nil ((hmem e).2 he)).symm
  | cons a l₁ ih =>
    cases l₂ with
    | nil => exact absurd ((hmem a).1 List.mem_cons_self) List.not_mem_nil
    | cons b l₂ =>
      obtain ⟨ha, hrest₁⟩ := List.pairwise_cons.1 h₁
      obtain ⟨hb, hrest₂⟩ := List.pairwise_cons.1 h₂
      have hle : a.1 ≤ b.1 := by
        rcases List.mem_cons.1 ((hmem b).2 List.mem_cons_self) with rfl | hmem
        · exact Std.le_refl _
        · exact ha b hmem
      have hge : b.1 ≤ a.1 := by
        rcases List.mem_cons.1 ((hmem a).1 List.mem_cons_self) with rfl | hmem
        · exact Std.le_refl _
        · exact hb a hmem
      have hkey : b.1 = a.1 := Std.le_antisymm hge hle
      have hfirst := h a.1
      rw [List.filter_cons_of_pos (by simp), List.filter_cons_of_pos (by simp [hkey])] at hfirst
      obtain ⟨rfl, -⟩ := List.cons.inj hfirst
      have hrest : ∀ k, l₁.filter (fun e => decide (e.1 = k)) = l₂.filter fun e => decide (e.1 = k) := by
        intro k
        have hk := h k
        rw [List.filter_cons, List.filter_cons] at hk
        split at hk
        · exact (List.cons.inj hk).2
        · exact hk
      rw [ih hrest₁ hrest₂ hrest (mem_iff_of_filter hrest)]

section
variable [LE κ] [DecidableLE κ]

/-- The pairs in the order of their keys; pairs of one key keep their order. -/
def sortPairs (l : List (κ × ρ)) : List (κ × ρ) := l.insertionSort (·.1 ≤ ·.1)

/-- A pair inserted from the right behind the pairs with a key that is not larger. -/
def insertBack (e : κ × ρ) (l : List (κ × ρ)) : List (κ × ρ) :=
  (l.reverse.orderedInsert (fun a b => b.1 ≤ a.1) e).reverse

/-- The sort that inserts one pair after the other from the right. -/
def sortBack (l : List (κ × ρ)) : List (κ × ρ) :=
  (l.reverse.insertionSort fun a b => b.1 ≤ a.1).reverse

theorem sortPairs_perm (l : List (κ × ρ)) : (sortPairs l).Perm l := List.perm_insertionSort _ l

theorem sortBack_concat (e : κ × ρ) (l : List (κ × ρ)) :
    sortBack (l ++ [e]) = insertBack e (sortBack l) := by
  unfold sortBack insertBack
  rw [List.reverse_concat, List.insertionSort_cons, List.reverse_reverse]

theorem insertBack_nil (e : κ × ρ) : insertBack e [] = [e] := rfl

theorem insertBack_concat (e a : κ × ρ) (l : List (κ × ρ)) :
    insertBack e (l ++ [a]) = if a.1 ≤ e.1 then l ++ [a, e] else insertBack e l ++ [a] := by
  unfold insertBack
  rw [List.reverse_concat, List.orderedInsert_cons]
  split
  · rw [List.reverse_cons, List.reverse_cons, List.reverse_reverse, List.append_assoc]
    rfl
  · rw [List.reverse_cons]

theorem length_sortBack (l : List (κ × ρ)) : (sortBack l).length = l.length := by
  unfold sortBack
  rw [List.length_reverse, List.length_insertionSort, List.length_reverse]

variable [Std.IsLinearOrder κ]

theorem pairwise_sortPairs (l : List (κ × ρ)) : (sortPairs l).Pairwise (·.1 ≤ ·.1) := by
  have : Std.Total fun a b : κ × ρ => a.1 ≤ b.1 := ⟨fun _ _ => Std.le_total⟩
  have : IsTrans (κ × ρ) fun a b => a.1 ≤ b.1 := ⟨fun _ _ _ => Std.le_trans⟩
  exact List.pairwise_insertionSort _ l

theorem pairwise_sortBack (l : List (κ × ρ)) : (sortBack l).Pairwise (·.1 ≤ ·.1) := by
  have : Std.Total fun a b : κ × ρ => b.1 ≤ a.1 := ⟨fun _ _ => Std.le_total⟩
  have : IsTrans (κ × ρ) fun a b => b.1 ≤ a.1 := ⟨fun _ _ _ hab hbc => Std.le_trans hbc hab⟩
  exact List.pairwise_reverse.2 (List.pairwise_insertionSort _ l.reverse)

/-- Both sorts give the same list. -/
theorem sortBack_eq [DecidableEq κ] (l : List (κ × ρ)) : sortBack l = sortPairs l := by
  refine eq_of_stable (pairwise_sortBack l) (pairwise_sortPairs l) fun k => ?_
  have hkey : ∀ a b : κ × ρ, decide (a.1 = k) = true → decide (b.1 = k) = true → a.1 ≤ b.1 :=
    fun a b ha hb => Std.le_of_eq ((of_decide_eq_true ha).trans (of_decide_eq_true hb).symm)
  unfold sortBack sortPairs
  rw [List.filter_reverse, filter_insertionSort (fun a b ha hb => hkey b a hb ha),
    filter_insertionSort hkey, List.filter_reverse, List.reverse_reverse]

end

/-! ## The sort of the arrays -/

section
variable [LE κ] [LT κ] [Std.IsLinearOrder κ] [Std.LawfulOrderLT κ] [DecidableLE κ] [DecidableLT κ]

/-- Writing a pair to the place that the shift leaves free inserts it. -/
theorem set_sift (e x : κ × ρ) (l₁ l₂ : List (κ × ρ)) :
    (sift e.1 l₁.length (ofPairs (l₁ ++ x :: l₂))).2.set
        (sift e.1 l₁.length (ofPairs (l₁ ++ x :: l₂))).1 e.1 e.2 =
      ofPairs (insertBack e l₁ ++ l₂) := by
  induction l₁ using List.reverseRecOn generalizing x l₂ with
  | nil => rw [List.length_nil, sift, set_ofPairs, insertBack_nil]; rfl
  | append_singleton l₁ a ih =>
    have hget : (ofPairs (l₁ ++ a :: x :: l₂)).get? l₁.length = some a := by simp
    rw [List.length_append, List.length_singleton, List.append_assoc, List.singleton_append, sift,
      hget, insertBack_concat]
    dsimp only
    by_cases h : e.1 < a.1
    · -- the entry moves up, and the shift goes on below it
      rw [if_pos h, if_neg (Std.not_le_of_gt h), set_ofPairs]
      have hset : (l₁ ++ a :: x :: l₂).set (l₁.length + 1) (a.1, a.2) = l₁ ++ a :: a :: l₂ := by simp
      rw [hset, ih a (a :: l₂), List.append_assoc, List.singleton_append]
    · rw [if_neg h, if_pos (Std.not_lt.1 h), set_ofPairs]
      simp

/-- The arrays are sorted in step, as the stable sort of their pairs. -/
theorem sort_ofPairs [DecidableEq κ] (l : List (κ × ρ)) :
    (ofPairs l).sort = ofPairs (sortPairs l) := by
  have hloop : ∀ n, n < l.length → (List.range' 1 n).foldl insertAt (ofPairs l) =
      ofPairs (sortBack (l.take (n + 1)) ++ l.drop (n + 1)) := by
    intro n hn
    induction n with
    | zero =>
      obtain ⟨a, l, rfl⟩ := List.exists_cons_of_length_pos hn
      rfl
    | succ n ih =>
      have hsplit : l.drop (n + 1) = l[n + 1] :: l.drop (n + 2) := List.drop_eq_getElem_cons hn
      have hlen : (sortBack (l.take (n + 1))).length = n + 1 := by
        rw [length_sortBack, List.length_take]
        omega
      have hget : (ofPairs (sortBack (l.take (n + 1)) ++ l[n + 1] :: l.drop (n + 2))).get? (1 + n) =
          some l[n + 1] := by
        rw [get?_ofPairs, List.getElem?_append_right (by omega), show 1 + n - _ = 0 by omega,
          List.getElem?_cons_zero]
      rw [List.range'_1_concat, List.foldl_concat, ih (by omega), hsplit, insertAt, hget]
      dsimp only
      rw [show 1 + n = (sortBack (l.take (n + 1))).length by omega, set_sift, ← sortBack_concat,
        List.take_append_getElem hn]
  unfold sort
  cases l with
  | nil => rfl
  | cons a l =>
    rw [show (ofPairs (a :: l)).rows.length - 1 = l.length by simp [ofPairs],
      hloop l.length (by simp), ← sortBack_eq]
    simp

end

/-! ## The search -/

/-- No row is the one looked for where all keys are other ones. -/
theorem any_eq_false {h : κ} {test : ρ → Bool} {l : List (κ × ρ)}
    (hkey : ∀ e ∈ l, test e.2 = true → e.1 = h) (hne : ∀ e ∈ l, e.1 ≠ h) :
    l.any (test ·.2) = false :=
  List.any_eq_false.2 fun e he htest => hne e he (hkey e he htest)

section
variable [LE κ] [LT κ] [Std.IsLinearOrder κ] [Std.LawfulOrderLT κ] [DecidableEq κ]
  {h : κ} {test : ρ → Bool} {l : List (κ × ρ)}

/-- The walk down finds the rows before a place with the key. -/
theorem scanDown_eq (hsorted : l.Pairwise (·.1 ≤ ·.1))
    (hkey : ∀ e ∈ l, test e.2 = true → e.1 = h) {m : Nat} (hm : m ≤ l.length)
    (hle : ∀ e ∈ l.take m, e.1 ≤ h) :
    scanDown (ofPairs l) h test m = (l.take m).any (test ·.2) := by
  induction m with
  | zero => rfl
  | succ m ih =>
    have hlt : m < l.length := hm
    have hget : (ofPairs l).get? m = some l[m] := by
      rw [get?_ofPairs, List.getElem?_eq_getElem hlt]
    have hsplit : l.take (m + 1) = l.take m ++ [l[m]] := (List.take_append_getElem hlt).symm
    have hmem : ∀ e ∈ l.take m, e ∈ l.take (m + 1) := fun e he => by
      rw [hsplit]
      exact List.mem_append_left _ he
    rw [scanDown, hget]
    dsimp only
    by_cases heq : l[m].1 = h
    · rw [if_pos heq, ih (Nat.le_of_lt hlt) fun e he => hle e (hmem e he), hsplit, List.any_append,
        List.any_cons, List.any_nil, Bool.or_false, Bool.or_comm]
    · -- the key at the place is smaller, and so are all before it
      rw [if_neg heq]
      have hless : l[m].1 < h :=
        Std.lt_of_le_of_ne (hle _ (by rw [hsplit]; exact List.mem_append_right _ List.mem_cons_self)) heq
      refine (any_eq_false (fun e he => hkey e (List.mem_of_mem_take he)) fun e he => ?_).symm
      have hpair : (l.take m ++ [l[m]]).Pairwise (·.1 ≤ ·.1) := by
        rw [← hsplit]
        exact hsorted.sublist (List.take_sublist _ _)
      rw [hsplit] at he
      rcases List.mem_append.1 he with he | he
      · exact Std.ne_of_lt (Std.lt_of_le_of_lt
          ((List.pairwise_append.1 hpair).2.2 e he _ List.mem_cons_self) hless)
      · rw [List.mem_singleton.1 he]
        exact heq

/-- The walk up finds the rows after a place with the key. -/
theorem scanUp_eq (hsorted : l.Pairwise (·.1 ≤ ·.1))
    (hkey : ∀ e ∈ l, test e.2 = true → e.1 = h) {n r : Nat} (hn : n = l.length - r)
    (hle : ∀ e ∈ l.drop r, h ≤ e.1) :
    scanUp (ofPairs l) h test n r = (l.drop r).any (test ·.2) := by
  induction n generalizing r with
  | zero =>
    rw [List.drop_eq_nil_of_le (by omega)]
    rfl
  | succ n ih =>
    have hlt : r < l.length := by omega
    have hget : (ofPairs l).get? r = some l[r] := by
      rw [get?_ofPairs, List.getElem?_eq_getElem hlt]
    have hsplit : l.drop r = l[r] :: l.drop (r + 1) := List.drop_eq_getElem_cons hlt
    rw [hsplit, List.forall_mem_cons] at hle
    rw [scanUp, hget]
    dsimp only
    by_cases heq : l[r].1 = h
    · rw [if_pos heq, ih (by omega) hle.2, hsplit, List.any_cons]
    · -- the key at the place is larger, and so are all after it
      rw [if_neg heq]
      have hmore : h < l[r].1 := Std.lt_of_le_of_ne hle.1 (Ne.symm heq)
      refine (any_eq_false (fun e he => hkey e (List.mem_of_mem_drop he)) fun e he => ?_).symm
      have hpair : (l[r] :: l.drop (r + 1)).Pairwise (·.1 ≤ ·.1) := by
        rw [← hsplit]
        exact hsorted.sublist (List.drop_sublist _ _)
      rw [hsplit] at he
      rcases List.mem_cons.1 he with rfl | he
      · exact heq
      · exact (Std.ne_of_lt (Std.lt_of_lt_of_le hmore ((List.pairwise_cons.1 hpair).1 e he))).symm

/-- The search over a sorted table, when the rows looked for are nowhere but between the
bounds. -/
theorem search_between [DecidableLT κ] (hsorted : l.Pairwise (·.1 ≤ ·.1))
    (hkey : ∀ e ∈ l, test e.2 = true → e.1 = h) {fuel : Nat} (lo n : Nat) (hfuel : n < fuel)
    (hn : lo + n ≤ l.length) (hbelow : ∀ e ∈ l.take lo, e.1 ≠ h)
    (habove : ∀ e ∈ l.drop (lo + n), e.1 ≠ h) :
    search (ofPairs l) h test fuel lo (lo + n - 1) = some (l.any (test ·.2)) := by
  induction fuel generalizing lo n with
  | zero => exact absurd hfuel (Nat.not_lt_zero n)
  | succ fuel ih =>
    rw [search]
    cases n with
    | zero =>
      rw [if_neg (by omega), any_eq_false hkey fun e he => ?_]
      rw [← List.take_append_drop lo l, List.mem_append] at he
      exact he.elim (hbelow e) (habove e)
    | succ n =>
      rw [if_pos (by omega)]
      dsimp only
      obtain ⟨m, hm⟩ : ∃ m, m = lo + n / 2 := ⟨_, rfl⟩
      have hmid : (lo : Int) + (lo + (n + 1 : Nat) - 1 - lo) / 2 = m := by omega
      have hlt : m < l.length := by omega
      rw [hmid, Int.toNat_natCast, get?_ofPairs, List.getElem?_eq_getElem hlt]
      dsimp only
      have htake : l.take (m + 1) = l.take m ++ [l[m]] := (List.take_append_getElem hlt).symm
      have hdrop : l.drop m = l[m] :: l.drop (m + 1) := List.drop_eq_getElem_cons hlt
      have hpair : (l.take m ++ l[m] :: l.drop (m + 1)).Pairwise (·.1 ≤ ·.1) := by
        rw [← hdrop, List.take_append_drop]
        exact hsorted
      obtain ⟨-, hright, hleft⟩ := List.pairwise_append.1 hpair
      have hfirst : ∀ e ∈ l.take m, e.1 ≤ l[m].1 := fun e he => hleft e he _ List.mem_cons_self
      have hlast : ∀ e ∈ l.drop (m + 1), l[m].1 ≤ e.1 := (List.pairwise_cons.1 hright).1
      by_cases hless : l[m].1 < h
      · rw [if_pos hless]
        have hbounds := ih (m + 1) (lo + n - m) (by omega) (by omega) (fun e he => ?_)
          (by rwa [show m + 1 + (lo + n - m) = lo + (n + 1) by omega])
        · rw [← hbounds]
          congr 1
          omega
        · rw [htake, List.mem_append, List.mem_singleton] at he
          rcases he with he | rfl
          · exact Std.ne_of_lt (Std.lt_of_le_of_lt (hfirst e he) hless)
          · exact Std.ne_of_lt hless
      · rw [if_neg hless]
        by_cases hmore : h < l[m].1
        · rw [if_pos hmore]
          have hbounds := ih lo (m - lo) (by omega) (by omega) hbelow fun e he => ?_
          · rw [← hbounds]
            congr 1
            omega
          · rw [show lo + (m - lo) = m by omega, hdrop] at he
            rcases List.mem_cons.1 he with rfl | he
            · exact (Std.ne_of_lt hmore).symm
            · exact (Std.ne_of_lt (Std.lt_of_lt_of_le hmore (hlast e he))).symm
        · rw [if_neg hmore]
          have heq : l[m].1 = h := Std.le_antisymm (Std.not_lt.1 hmore) (Std.not_lt.1 hless)
          rw [scanDown_eq hsorted hkey (Nat.le_of_lt hlt) (by rwa [heq] at hfirst),
            scanUp_eq hsorted hkey (by simp [ofPairs]) (by rwa [heq] at hlast)]
          have hall : l.any (test ·.2) = (l.take m ++ l[m] :: l.drop (m + 1)).any (test ·.2) := by
            rw [← hdrop, List.take_append_drop]
          rw [hall, List.any_append, List.any_cons, ← Bool.or_assoc, Bool.or_comm (test l[m].2)]

/-- A search over a sorted table ends inside the arrays and finds what a search over all rows
finds. -/
theorem search_eq [DecidableLT κ] (hsorted : l.Pairwise (·.1 ≤ ·.1))
    (hkey : ∀ e ∈ l, test e.2 = true → e.1 = h) {fuel : Nat} (hfuel : l.length < fuel) :
    search (ofPairs l) h test fuel 0 (l.length - 1) = some (l.any (test ·.2)) := by
  have hwhole := search_between hsorted hkey 0 l.length hfuel (by omega)
    (by simp) (by simp)
  rw [← hwhole]
  congr 1
  omega

end

end KeyedRows
