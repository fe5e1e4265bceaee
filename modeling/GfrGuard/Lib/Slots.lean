import Mathlib.Data.List.Basic
import Mathlib.Logic.Function.Basic

/-!
# A file and its temporary file

Two names in a directory and the inodes they stand for. A file that is opened is written through
its inode, in pieces, whatever becomes of the name; a rename gives the inode of the temporary
name to the other. What is read does not change while another inode is written (`read_openTmp`,
`read_write`), and what has been written whole is read once it is renamed (`read_rename`).
-/

/-- How a file operation ends; a write takes `k` bytes more than one, or what is left. -/
inductive FileIo where
  | ok (k : Nat)
  | fail

/-- Two names, what their inodes hold, and the first inode that was never used. -/
structure Slots (β : Type*) where
  main : Option Nat
  tmp : Option Nat
  text : Nat → List β
  next : Nat

namespace Slots

variable {β : Type*}

/-- What the file holds, if it is there. -/
def read (s : Slots β) : Option (List β) := s.main.map s.text

/-- Open the temporary file for writing: it is truncated, or made. -/
def openTmp (s : Slots β) : Nat × Slots β :=
  match s.tmp with
  | some n => (n, { s with text := Function.update s.text n [] })
  | none => (s.next,
      { s with tmp := some s.next, text := Function.update s.text s.next [], next := s.next + 1 })

/-- Open the file itself for writing. -/
def openMain (s : Slots β) : Nat × Slots β :=
  match s.main with
  | some n => (n, { s with text := Function.update s.text n [] })
  | none => (s.next,
      { s with main := some s.next, text := Function.update s.text s.next [], next := s.next + 1 })

/-- A text after bytes were written at an offset; a gap before it is filled. -/
def overwrite [Inhabited β] (old : List β) (off : Nat) (bytes : List β) : List β :=
  (old ++ List.replicate (off - old.length) default).take off ++ bytes ++ old.drop (off + bytes.length)

/-- The bytes the next write takes of an output: `k` more than one, or what is left. -/
def chunk (out : List β) (off k : Nat) : List β := (out.drop off).take (k + 1)

/-- Write through an inode. -/
def write [Inhabited β] (s : Slots β) (n off : Nat) (bytes : List β) : Slots β :=
  { s with text := Function.update s.text n (overwrite (s.text n) off bytes) }

/-- Give the inode of the temporary name to the file. -/
def rename (s : Slots β) : Slots β :=
  match s.tmp with
  | some n => { s with main := some n, tmp := none }
  | none => s

/-- Remove the temporary name. -/
def unlinkTmp (s : Slots β) : Slots β := { s with tmp := none }

/-- The names stand for inodes in use, and not for one and the same. -/
structure Wf (s : Slots β) : Prop where
  main_lt : ∀ n, s.main = some n → n < s.next
  tmp_lt : ∀ n, s.tmp = some n → n < s.next
  apart : ∀ n, s.main = some n → s.tmp ≠ some n

/-- The first bytes of an output have been written through an inode. -/
structure Written (s : Slots β) (n off : Nat) (out : List β) : Prop where
  le : off ≤ out.length
  text : s.text n = out.take off

section
variable {s : Slots β} {n m off k : Nat} {out : List β}

/-! ## Opening -/

theorem Wf.openTmp (h : s.Wf) : s.openTmp.2.Wf := by
  obtain ⟨main, tmp, text, next⟩ := s
  cases tmp with
  | some n => exact ⟨h.main_lt, h.tmp_lt, h.apart⟩
  | none =>
    refine ⟨fun m hm => Nat.lt_succ_of_lt (h.main_lt m hm), fun m hm => ?_, fun m hm heq => ?_⟩
    · cases hm
      exact Nat.lt_succ_self _
    · cases heq
      exact absurd (h.main_lt next hm) (Nat.lt_irrefl _)

theorem openTmp_written (s : Slots β) (out : List β) :
    s.openTmp.2.tmp = some s.openTmp.1 ∧ s.openTmp.2.Written s.openTmp.1 0 out := by
  obtain ⟨main, tmp, text, next⟩ := s
  cases tmp <;> exact ⟨rfl, Nat.zero_le _, Function.update_self ..⟩

/-- Opening the temporary file leaves the file. -/
theorem read_openTmp (h : s.Wf) : s.openTmp.2.read = s.read := by
  obtain ⟨main, tmp, text, next⟩ := s
  cases main with
  | none => cases tmp <;> rfl
  | some m =>
    cases tmp with
    | some n =>
      have hne : m ≠ n := fun heq => h.apart m rfl (heq ▸ rfl)
      exact congrArg some (Function.update_of_ne hne ..)
    | none =>
      have hne : m ≠ next := Nat.ne_of_lt (h.main_lt m rfl)
      exact congrArg some (Function.update_of_ne hne ..)

theorem Wf.openMain (h : s.Wf) : s.openMain.2.Wf := by
  obtain ⟨main, tmp, text, next⟩ := s
  cases main with
  | some n => exact ⟨h.main_lt, h.tmp_lt, h.apart⟩
  | none =>
    refine ⟨fun m hm => ?_, fun m hm => Nat.lt_succ_of_lt (h.tmp_lt m hm), fun m hm heq => ?_⟩
    · cases hm
      exact Nat.lt_succ_self _
    · cases hm
      exact absurd (h.tmp_lt next heq) (Nat.lt_irrefl _)

theorem openMain_written (s : Slots β) (out : List β) :
    s.openMain.2.main = some s.openMain.1 ∧ s.openMain.2.Written s.openMain.1 0 out := by
  obtain ⟨main, tmp, text, next⟩ := s
  cases main <;> exact ⟨rfl, Nat.zero_le _, Function.update_self ..⟩

/-! ## Writing -/

theorem Wf.write [Inhabited β] (h : s.Wf) (n off : Nat) (bytes : List β) : (s.write n off bytes).Wf :=
  ⟨h.main_lt, h.tmp_lt, h.apart⟩

theorem length_chunk (out : List β) (off k : Nat) :
    (chunk out off k).length = min (k + 1) (out.length - off) := by
  unfold chunk
  rw [List.length_take, List.length_drop]

/-- The next write goes on where the last one ended. -/
theorem Written.write [Inhabited β] (h : s.Written n off out) (k : Nat) :
    (s.write n off (chunk out off k)).Written n (off + (chunk out off k).length) out := by
  have hlen : (out.take off).length = off := by rw [List.length_take, Nat.min_eq_left h.le]
  refine ⟨?_, ?_⟩
  · have := h.le
    rw [length_chunk]
    omega
  · show Function.update s.text n _ n = _
    rw [Function.update_self, h.text]
    unfold overwrite
    rw [hlen, Nat.sub_self, List.replicate_zero, List.append_nil,
      List.take_of_length_le (Nat.le_of_eq hlen), List.drop_of_length_le (by omega),
      List.append_nil, List.take_add]
    congr 1
    unfold chunk
    rw [List.length_take, List.length_drop]
    rcases Nat.le_total (k + 1) (out.length - off) with hk | hk
    · rw [Nat.min_eq_left hk]
    · rw [Nat.min_eq_right hk, List.take_of_length_le (by rw [List.length_drop]; omega),
        List.take_of_length_le (Nat.le_of_eq List.length_drop)]

/-- Writing through the inode of the temporary file leaves the file. -/
theorem read_write [Inhabited β] (h : s.Wf) (htmp : s.tmp = some n) (off : Nat) (bytes : List β) :
    (s.write n off bytes).read = s.read := by
  obtain ⟨main, tmp, text, next⟩ := s
  cases main with
  | none => rfl
  | some m =>
    have hne : m ≠ n := fun heq => h.apart m rfl (heq ▸ htmp)
    exact congrArg some (Function.update_of_ne hne ..)

/-- An output that is written is whole once the offset is not before its end. -/
theorem Written.whole (h : s.Written n off out) (hend : ¬ off < out.length) : s.text n = out := by
  rw [h.text, List.take_of_length_le (Nat.not_lt.1 hend)]

/-! ## Renaming -/

theorem Wf.rename (h : s.Wf) : s.rename.Wf := by
  obtain ⟨main, tmp, text, next⟩ := s
  cases tmp with
  | some n => exact ⟨h.tmp_lt, nofun, nofun⟩
  | none => exact h

theorem Wf.unlinkTmp (h : s.Wf) : s.unlinkTmp.Wf := ⟨h.main_lt, nofun, nofun⟩

/-- What was written whole through the inode of the temporary file is read once it is
renamed. -/
theorem read_rename (htmp : s.tmp = some n) (h : s.Written n off out) (hend : ¬ off < out.length) :
    s.rename.read = some out := by
  obtain ⟨main, tmp, text, next⟩ := s
  cases htmp
  exact congrArg some (h.whole hend)

end

end Slots
