import GfrGuard.Lib.KeyedRows
import GfrGuard.ConfigLoad

/-!
# The hashed lists in their arrays

`config_load` keeps an exact-match list as two parallel arrays, the rows and their FNV-1a
hashes, and sorts both in step. A row is a `char` array or a struct that starts with one
(`HashRow`). The lookups search the hashes and compare strings on a hit. After the sort they
answer as a search over all rows would (`hash_lookup_linear`), also where rows share a hash,
and so the list model of the rest of the development is the content of the arrays
(`rguardHashLookup_eq`).
-/

namespace GfrGuard

open KeyedRows (ofPairs sortPairs)

/-- A row of a hashed list, with the string at its first byte. -/
class HashRow (ρ : Type) where
  text : ρ → CStr

export HashRow (text)

instance CBuf.hashRow {n : Nat} : HashRow (CBuf n) := ⟨CBuf.str⟩

/-- `struct rguard_bl_ip`. -/
structure RguardBlIp where
  ip : CBuf 48
  autoAdd : Bool
deriving DecidableEq

instance RguardBlIp.hashRow : HashRow RguardBlIp := ⟨fun row => row.ip.str⟩

/-- The array of the rows and the array of their hashes. -/
abbrev HashTable (ρ : Type) := KeyedRows UInt64 ρ

section
variable {ρ : Type} [HashRow ρ]

/-- The loop of `config_load` over the rows: the hash of each. -/
def rowHashes (rows : List ρ) : HashTable ρ := ⟨rows.map fun row => fnv1a64 (text row), rows⟩

/-- `SORT_BY_HASH`. -/
def HashTable.sortByHash (t : HashTable ρ) : HashTable ρ := t.sort

/-- A list as `config_load` leaves it. -/
def loadHashed (rows : List ρ) : HashTable ρ := HashTable.sortByHash (rowHashes rows)

/-- `rguard_hash_lookup`. -/
def rguardHashLookup (key : CStr) (t : HashTable ρ) : Option Bool :=
  if t.rows.length = 0 ∨ key = [] then some false
  else t.search (fnv1a64 key) (fun row => key = text row) (t.rows.length + 1) 0 (t.rows.length - 1)

/-- `rguard_hash_lookup_len`: the length is compared before the bytes. -/
def rguardHashLookupLen (key : CStr) (keylen : Nat) (t : HashTable ρ) : Option Bool :=
  if t.rows.length = 0 ∨ keylen = 0 then some false
  else t.search (fnv1a64 (key.take keylen))
    (fun row => (text row).length = keylen && (text row).take keylen = key.take keylen)
    (t.rows.length + 1) 0 (t.rows.length - 1)

/-- The pairs that `SORT_BY_HASH` leaves in the arrays. -/
def sortedPairs (rows : List ρ) : List (UInt64 × ρ) :=
  sortPairs (rows.map fun row => (fnv1a64 (text row), row))

theorem loadHashed_eq (rows : List ρ) : loadHashed rows = ofPairs (sortedPairs rows) := by
  have hpairs : rowHashes rows = ofPairs (rows.map fun row => (fnv1a64 (text row), row)) := by
    unfold rowHashes ofPairs
    rw [List.map_map, List.map_map]
    exact congrArg _ (List.map_id rows).symm
  unfold loadHashed HashTable.sortByHash
  rw [hpairs, KeyedRows.sort_ofPairs]
  rfl

theorem sortedPairs_rows (rows : List ρ) : ((sortedPairs rows).map Prod.snd).Perm rows := by
  have hperm := (KeyedRows.sortPairs_perm (rows.map fun row => (fnv1a64 (text row), row))).map Prod.snd
  rw [List.map_map] at hperm
  exact hperm.trans (List.Perm.of_eq (List.map_id rows))

/-- Each hash stays with its row. -/
theorem hash_of_mem_sortedPairs {rows : List ρ} {e : UInt64 × ρ} (he : e ∈ sortedPairs rows) :
    e.1 = fnv1a64 (text e.2) := by
  obtain ⟨row, -, rfl⟩ := List.mem_map.1 ((KeyedRows.sortPairs_perm _).mem_iff.1 he)
  rfl

/-- A search of a loaded list for rows of one text is a search over all rows. -/
theorem loadHashed_search (rows : List ρ) (key : CStr) {test : ρ → Bool}
    (htest : ∀ row, test row = true ↔ text row = key) :
    (loadHashed rows).search (fnv1a64 key) test ((loadHashed rows).rows.length + 1) 0
        ((loadHashed rows).rows.length - 1) =
      some (decide (∃ row ∈ rows, text row = key)) := by
  have hlen : (loadHashed rows).rows.length = (sortedPairs rows).length := by
    rw [loadHashed_eq]
    exact List.length_map _
  have hsorted : (sortedPairs rows).Pairwise (·.1 ≤ ·.1) := KeyedRows.pairwise_sortPairs _
  rw [hlen, loadHashed_eq, KeyedRows.search_eq hsorted ?_ (Nat.lt_succ_self _)]
  · congr 1
    rw [Bool.eq_iff_iff, List.any_eq_true, decide_eq_true_iff]
    simp only [htest, ← (sortedPairs_rows rows).mem_iff, List.mem_map]
    constructor
    · rintro ⟨e, he, hkey⟩
      exact ⟨e.2, ⟨e, he, rfl⟩, hkey⟩
    · rintro ⟨_, ⟨e, he, rfl⟩, hkey⟩
      exact ⟨e, he, hkey⟩
  · intro e he hkey
    rw [hash_of_mem_sortedPairs he, (htest e.2).1 hkey]

theorem length_loadHashed (rows : List ρ) : (loadHashed rows).rows.length = rows.length := by
  rw [loadHashed_eq]
  exact (sortedPairs_rows rows).length_eq

theorem rguardHashLookup_loadHashed (rows : List ρ) (key : CStr) :
    rguardHashLookup key (loadHashed rows) =
      some (decide (key ≠ [] ∧ ∃ row ∈ rows, text row = key)) := by
  unfold rguardHashLookup
  split
  · next h =>
    rw [length_loadHashed, List.length_eq_zero_iff] at h
    congr 1
    rcases h with rfl | rfl <;> simp
  · next h =>
    rw [loadHashed_search rows key (by simp [eq_comm])]
    simp [(not_or.1 h).2]

theorem rguardHashLookupLen_loadHashed (rows : List ρ) {key : CStr} {n : Nat} (hn : n ≤ key.length) :
    rguardHashLookupLen key n (loadHashed rows) =
      some (decide (0 < n ∧ ∃ row ∈ rows, text row = key.take n)) := by
  unfold rguardHashLookupLen
  split
  · next h =>
    rw [length_loadHashed, List.length_eq_zero_iff] at h
    congr 1
    rcases h with rfl | rfl <;> simp
  · next h =>
    rw [loadHashed_search rows (key.take n) ?_]
    · simp [Nat.pos_of_ne_zero (not_or.1 h).2]
    · intro row
      rw [Bool.and_eq_true, decide_eq_true_iff, decide_eq_true_iff]
      constructor
      · rintro ⟨hlen, htake⟩
        rwa [List.take_of_length_le (Nat.le_of_eq hlen)] at htake
      · intro htext
        have hlen : (text row).length = n := by rw [htext, List.length_take, Nat.min_eq_left hn]
        exact ⟨hlen, by rw [List.take_of_length_le (Nat.le_of_eq hlen), htext]⟩

/-- A loaded list keeps its rows, each with its hash, in the order of the hashes, and a lookup
is a search over all rows. -/
theorem hash_lookup_linear (rows : List ρ) :
    (loadHashed rows).rows.Perm rows ∧
      (loadHashed rows).keys = (loadHashed rows).rows.map (fun row => fnv1a64 (text row)) ∧
      (loadHashed rows).keys.Pairwise (· ≤ ·) ∧
      (∀ key, key ≠ [] →
        rguardHashLookup key (loadHashed rows) = some (decide (∃ row ∈ rows, text row = key))) ∧
      ∀ key n, 0 < n → n ≤ key.length →
        rguardHashLookupLen key n (loadHashed rows) =
          some (decide (∃ row ∈ rows, text row = key.take n)) := by
  refine ⟨?_, ?_, ?_, fun key hkey => ?_, fun key n hpos hn => ?_⟩
  · rw [loadHashed_eq]
    exact sortedPairs_rows rows
  · rw [loadHashed_eq]
    unfold ofPairs
    rw [List.map_map]
    exact List.map_congr_left fun e he => hash_of_mem_sortedPairs he
  · rw [loadHashed_eq]
    exact List.pairwise_map.2 (KeyedRows.pairwise_sortPairs _)
  · rw [rguardHashLookup_loadHashed]
    simp [hkey]
  · rw [rguardHashLookupLen_loadHashed rows hn]
    simp [hpos]

end

/-- Two rows of a list. -/
def sampleUsers : List (CBuf 48) := [.ofStr 48 (lit "alice"), .ofStr 48 (lit "bob")]

theorem hash_lookup_linear_sample :
    rguardHashLookup (lit "bob") (loadHashed sampleUsers) = some true ∧
      rguardHashLookupLen (lit "bob/x") 3 (loadHashed (sampleUsers.map fun u => ⟨u, true⟩ : List RguardBlIp)) =
        some true := by
  have hrow := (hash_lookup_linear sampleUsers).2.2.2.1 (lit "bob") (by decide)
  have hip := (hash_lookup_linear (sampleUsers.map fun u => ⟨u, true⟩ : List RguardBlIp)).2.2.2.2
    (lit "bob/x") 3 (by decide) (by decide)
  rw [hrow, hip]
  decide

/-! ## The list model -/

section
variable {ρ : Type} [HashRow ρ]

/-- The rows of a loaded list, read as strings, are the sorted list of the strings. -/
theorem loadHashed_texts {n : Nat} (rows : List ρ) {f : ρ → CBuf n} (hf : ∀ row, (f row).str = text row) :
    (loadHashed rows).rows.map f = sortByHash (rows.map f) := by
  rw [loadHashed_eq]
  unfold ofPairs sortedPairs sortPairs sortByHash
  have hsnd := List.map_insertionSort (r := fun a b : UInt64 × ρ => a.1 ≤ b.1)
    (s := fun a b : CBuf n => fnv1a64 a.str ≤ fnv1a64 b.str) (fun e => f e.2)
    (rows.map fun row => (fnv1a64 (text row), row)) ?_
  · rw [List.map_map] at hsnd
    rw [List.map_map]
    exact hsnd
  · intro a ha b hb
    obtain ⟨_, -, rfl⟩ := List.mem_map.1 ha
    obtain ⟨_, -, rfl⟩ := List.mem_map.1 hb
    rw [hf, hf]

/-- The list that `config_load` sorts is the rows of its array. -/
theorem loadHashed_entries {cap n : Nat} (l : StrList cap n) :
    (loadHashed l.entries).rows = l.sorted.entries := by
  have h := loadHashed_texts l.entries (f := id) fun _ => rfl
  rwa [List.map_id, List.map_id] at h

/-- The lookup in the arrays is the lookup in the sorted list. -/
theorem rguardHashLookup_eq {cap n : Nat} (l : StrList cap n) (key : CStr) :
    rguardHashLookup key (loadHashed l.entries) = some (hashLookup key l.sorted.strs) := by
  rw [rguardHashLookup_loadHashed]
  congr 1
  rw [Bool.eq_iff_iff, decide_eq_true_iff, hashLookup_iff l.hashSorted_sorted, l.mem_sorted]
  exact and_congr_right fun _ => List.mem_map.symm

theorem rguardHashLookupLen_eq {cap n : Nat} (l : StrList cap n) {key : CStr} {keylen : Nat}
    (h : keylen ≤ key.length) :
    rguardHashLookupLen key keylen (loadHashed l.entries) =
      some (hashLookupLen key keylen l.sorted.strs) := by
  rw [rguardHashLookupLen_loadHashed l.entries h]
  congr 1
  unfold hashLookupLen
  rw [Bool.eq_iff_iff, decide_eq_true_iff, hashLookup_iff l.hashSorted_sorted, l.mem_sorted]
  refine and_congr ?_ List.mem_map.symm
  rw [Nat.pos_iff_ne_zero, Ne, Ne, List.take_eq_nil_iff]
  constructor
  · rintro hne (rfl | rfl)
    · exact hne rfl
    · exact hne (Nat.le_zero.1 h)
  · exact fun hne hzero => hne (.inl hzero)

end

end GfrGuard
