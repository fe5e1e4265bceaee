import GfrGuard.Lib.FirstMet
import GfrGuard.Counting

/-!
# The directories a session touched

The session holds the hashes of its directories in an array with a count and a test that walks over
it, and counts them once more in `touched_dirs`, which the score reads. `DirArray` is the array as
it is in memory, `DirSet` what it stands for. A run of calls on a session, with the hashes passed
since the long window last restarted, keeps the three the same (`DirRun.Inv`): both counts are the
number of different directories of the window, up to the size of the array
(`dir_counting_exact`).
-/

namespace GfrGuard

/-! ## The array -/

/-- `DIR_SET_MAX`. -/
abbrev dirSetMax : Nat := 256

/-- `dir_set_hashes` and `dir_set_count`. -/
structure DirArray where
  hashes : Vector UInt64 dirSetMax
  count : Nat
  count_le : count ≤ dirSetMax

namespace DirArray

/-- The array after a `memset`. -/
def zero : DirArray := ⟨Vector.replicate dirSetMax 0, 0, Nat.zero_le _⟩

/-- The entries in use. -/
def entries (a : DirArray) : List UInt64 := a.hashes.toList.take a.count

/-- `dir_seen`. -/
def seen (a : DirArray) (hash : UInt64) : Bool := a.entries.any (· == hash)

/-- `dir_add`, less the count of touched directories. -/
def add (a : DirArray) (hash : UInt64) : DirArray :=
  if h : a.count < dirSetMax then ⟨a.hashes.set a.count hash h, a.count + 1, h⟩ else a

/-- What `session_update` does with a hash. -/
def record (a : DirArray) (hash : UInt64) : DirArray :=
  if hash ≠ 0 && !a.seen hash then a.add hash else a

end DirArray

/-! ## Calls -/

/-- A call on a session. -/
inductive SessionCall where
  | checkWindow (now windowShort windowLong : Int)
  | update (opType : UInt8) (flags : UInt16) (dirHash : UInt64)

/-- A session with its array, and the hashes passed to `session_update` since the long window last
restarted. -/
structure DirRun where
  session : SessionState
  dirs : DirArray
  passed : List UInt64

/-- A fresh session. -/
def DirRun.fresh (key : CBuf 128) (now : Int) : DirRun := ⟨.fresh key now, .zero, []⟩

/-- One call. -/
def dirStep (s : DirRun) : SessionCall → DirRun
  | .checkWindow now windowShort windowLong =>
    let session := sessionCheckWindow s.session now windowShort windowLong
    if s.session.longExpired now windowLong then ⟨session, .zero, []⟩ else { s with session := session }
  | .update opType flags dirHash =>
    ⟨sessionUpdate s.session opType flags dirHash, s.dirs.record dirHash, s.passed ++ [dirHash]⟩

/-- The array and both counts hold the different directories passed since the long window last
restarted, up to the size of the array. -/
structure DirRun.Exact (s : DirRun) : Prop where
  touched : s.session.touchedDirs.toNat = s.dirs.count
  nodup : s.dirs.entries.Nodup
  nonzero : ∀ hash ∈ s.dirs.entries, hash ≠ 0
  count : s.dirs.count = min dirSetMax {hash ∈ s.passed.toFinset | hash ≠ 0}.card

/-- The array stands for the set of the session, which holds the directories met first. -/
structure DirRun.Inv (s : DirRun) : Prop where
  counted : s.session.DirsCounted
  entries : s.dirs.entries = s.session.dirSet.hashes
  first : s.session.dirSet.hashes = (s.passed.filter (· ≠ 0)).eraseDups.take dirSetMax

section
variable {a : DirArray} {s : DirRun} {hash : UInt64}

namespace DirArray

@[simp] theorem entries_zero : zero.entries = [] := rfl

@[simp] theorem length_entries (a : DirArray) : a.entries.length = a.count := by
  have hle := a.count_le
  simp only [entries, List.length_take, Vector.length_toList]
  omega

theorem seen_iff : a.seen hash = true ↔ hash ∈ a.entries := by simp [seen]

/-- The slot after the entries in use is written while there is one. -/
theorem entries_add (a : DirArray) (hash : UInt64) :
    (a.add hash).entries = if a.count < dirSetMax then a.entries ++ [hash] else a.entries := by
  unfold add
  split
  · next h =>
    have hlen : (a.hashes.toList.take a.count).length = a.count := length_entries a
    simp only [entries, Vector.toList_set]
    rw [List.set_eq_take_append_cons_drop, if_pos (by simpa using h), List.take_append, hlen,
      Nat.add_sub_cancel_left]
    simp
  · rfl

theorem entries_record (a : DirArray) (hash : UInt64) : (a.record hash).entries =
    if hash ≠ 0 ∧ hash ∉ a.entries ∧ a.entries.length < dirSetMax then a.entries ++ [hash]
    else a.entries := by
  have hnew : (hash ≠ 0 && !a.seen hash) = true ↔ hash ≠ 0 ∧ hash ∉ a.entries := by
    simp [← seen_iff]
  rw [length_entries]
  unfold record
  split
  · next h =>
    obtain ⟨hne, hout⟩ := hnew.1 h
    simp [entries_add, hne, hout]
  · next h => rw [if_neg fun hall => h (hnew.2 ⟨hall.1, hall.2.1⟩)]

end DirArray

/-! ## Runs -/

theorem DirRun.inv_fresh (key : CBuf 128) (now : Int) : (DirRun.fresh key now).Inv := ⟨rfl, rfl, rfl⟩

/-- The hashes but 0 with another one. -/
theorem filter_append_singleton_ne_zero (l : List UInt64) (hash : UInt64) :
    (l ++ [hash]).filter (· ≠ 0) =
      if hash = 0 then l.filter (· ≠ 0) else l.filter (· ≠ 0) ++ [hash] := by
  rw [List.filter_append]
  split
  · next h => simp [h]
  · next h => simp [h]

/-- Every call keeps the array, the set and the counts the same. -/
theorem DirRun.Inv.step (h : s.Inv) (c : SessionCall) : (dirStep s c).Inv := by
  cases c with
  | checkWindow now windowShort windowLong =>
    obtain ⟨hset, htouched⟩ := sessionCheckWindow_dirs s.session now windowShort windowLong
    unfold dirStep
    dsimp only
    split
    · next hlong =>
      rw [if_pos hlong] at hset htouched
      refine ⟨?_, ?_, ?_⟩
      · unfold SessionState.DirsCounted
        rw [hset, htouched]
        rfl
      · rw [hset]
        rfl
      · rw [hset]
        rfl
    · next hlong =>
      rw [if_neg hlong] at hset htouched
      refine ⟨?_, ?_, ?_⟩
      · unfold SessionState.DirsCounted
        rw [hset, htouched]
        exact h.counted
      · rw [hset]
        exact h.entries
      · rw [hset]
        exact h.first
  | update opType flags dirHash =>
    obtain ⟨hcounted, hhashes⟩ := sessionUpdate_dirs s.session opType flags dirHash h.counted
    refine ⟨hcounted, ?_, ?_⟩
    · show (s.dirs.record dirHash).entries = (sessionUpdate s.session opType flags dirHash).dirSet.hashes
      rw [DirArray.entries_record, h.entries, hhashes]
    · show (sessionUpdate s.session opType flags dirHash).dirSet.hashes =
        ((s.passed ++ [dirHash]).filter (· ≠ 0)).eraseDups.take dirSetMax
      rw [hhashes, filter_append_singleton_ne_zero]
      have hfirst := h.first
      generalize s.session.dirSet.hashes = hashes at hfirst
      split
      · next hnew =>
        rw [if_neg hnew.1, FirstMet.take_eraseDups_append_singleton, ← hfirst, if_neg]
        rintro (hmem | hfull)
        · exact hnew.2.1 hmem
        · exact absurd hnew.2.2 (Nat.not_lt.2 hfull)
      · next hold =>
        split
        · exact hfirst
        · next hne =>
          rw [FirstMet.take_eraseDups_append_singleton, ← hfirst, if_pos]
          by_contra hnot
          rw [not_or, not_le] at hnot
          exact hold ⟨hne, hnot.1, hnot.2⟩

/-- What the invariant says of the array and the counts. -/
theorem DirRun.Inv.exact (h : s.Inv) : s.Exact := by
  have hentries : s.dirs.entries = (s.passed.filter (· ≠ 0)).eraseDups.take dirSetMax :=
    h.entries.trans h.first
  refine ⟨?_, ?_, fun hash hmem => ?_, ?_⟩
  · rw [← DirArray.length_entries, h.entries]
    exact h.counted
  · rw [hentries]
    exact (FirstMet.nodup_eraseDups _).sublist (List.take_sublist _ _)
  · rw [hentries] at hmem
    have hpassed := List.mem_eraseDups.1 (List.mem_of_mem_take hmem)
    simpa using (List.mem_filter.1 hpassed).2
  · have hfinset : (s.passed.filter (· ≠ 0)).toFinset = {hash ∈ s.passed.toFinset | hash ≠ 0} := by
      rw [List.toFinset_filter]
      simp
    rw [← DirArray.length_entries, hentries, FirstMet.length_take_eraseDups, hfinset]

/-- After every sequence of calls on a fresh session the array holds different directories, and both
counts are the number of those passed since the long window last restarted, up to the size of the
array. -/
theorem dir_counting_exact (key : CBuf 128) (now : Int) (calls : List SessionCall) :
    (Runs.run dirStep (DirRun.fresh key now) calls).Exact :=
  (Runs.run_invariant DirRun.Inv (fun _ c h => h.step c) (DirRun.inv_fresh key now) calls).exact

end

/-- The same directory twice, another one, none, and one after the long window has run out. -/
example : (Runs.run dirStep (DirRun.fresh (.empty 128) 0)
    [.checkWindow 5 10 30, .update opWrite 0 7, .update opWrite 0 7, .update opWrite 0 9, .update opWrite 0 0,
      .checkWindow 40 10 30, .update opWrite 0 7]).dirs.entries = [7] := by decide

end GfrGuard
