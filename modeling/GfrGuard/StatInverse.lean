import GfrGuard.HostIdentity

/-!
# A process name read back

`fan_proc_stat` looks for the last `)` of one line, so that parentheses and blanks in the name of a
process do not mislead it. The name may hold a newline too, which ends the line that `fgets` reads.
What the kernel writes is read back for all other names, and for those with a newline only where a
buffer is shorter than the part that is read (`stat_inverted_iff`).
-/

namespace GfrGuard

/-- `fan_proc_stat` gives back the name, cut to the buffer, and the start time. -/
def StatInverted (clen : Nat) (p : ProcInstance) (comm : Comm) (fs : StatFields) : Prop :=
  fanProcStatTo clen (some (statText p comm fs)) = some (snprintf clen comm.str, p.start)

instance (clen : Nat) (p : ProcInstance) (comm : Comm) (fs : StatFields) :
    Decidable (StatInverted clen p comm fs) := inferInstanceAs (Decidable (_ = _))

/-- The first line of a name does for all of it: what stands before its last `)` fills the buffer, and
the number that is looked for behind that is the start time. -/
def FirstLineDoes (clen start : Nat) (comm : CStr) : Prop :=
  ∃ name tail, comm.takeWhile (· ≠ newline) = name ++ rparen :: tail ∧ rparen ∉ tail ∧
    clen ≤ name.length + 1 ∧ startField (rparen :: (tail ++ [newline])) = start

section
variable {clen : Nat} {p : ProcInstance} {comm : Comm} {fs : StatFields}

/-- A buffer that holds every name is not filled by a part of one. -/
theorem not_firstLineDoes {start : Nat} (hclen : 15 < clen) : ¬ FirstLineDoes clen start comm.str := by
  rintro ⟨name, tail, hline, -, hfills, -⟩
  have hle := (List.takeWhile_prefix (fun b => decide (b ≠ newline)) (l := comm.str)).length_le
  have hcomm := comm.length_le
  rw [hline, List.length_append, List.length_cons] at hle
  omega

theorem statInverted_plain (hstart : 0 < p.start) (hnl : newline ∉ comm.str) : StatInverted clen p comm fs := by
  unfold StatInverted fanProcStatTo
  rw [Option.bind_some, span_plain p comm fs hnl, if_neg hstart.ne', Option.map_some]

/-- A name with a newline is read back exactly when its first line does for it. -/
theorem statInverted_cut (hclen : 0 < clen) (hstart : 0 < p.start) (hnl : newline ∈ comm.str) :
    StatInverted clen p comm fs ↔ FirstLineDoes clen p.start comm.str := by
  obtain ⟨rest, hrest⟩ := exists_rest_of_newline hnl
  unfold StatInverted fanProcStatTo FirstLineDoes
  rw [Option.bind_some, span_cut p comm fs hnl, cutSpan]
  generalize comm.str.takeWhile (· ≠ newline) = shown at hrest ⊢
  cases hrp : strrchr shown rparen with
  | none =>
    refine iff_of_false (fun h => by cases h) ?_
    rintro ⟨name, tail, rfl, -⟩
    exact ListSearch.lastAt_eq_none_iff.1 hrp (by simp)
  | some rp =>
    obtain ⟨name, tail, rfl, rfl, htail⟩ := ListSearch.lastAt_eq_some hrp
    have hname : (name ++ rparen :: tail).take ((name ++ rparen :: tail).length - (rparen :: tail).length) =
        name := by simp
    -- the part before the last `)` is shorter than the name
    have hcut : snprintf clen name = snprintf clen comm.str ↔ clen ≤ name.length + 1 := by
      unfold snprintf
      rw [hrest, List.append_assoc]
      constructor
      · intro h
        have hlen := congrArg List.length h
        simp only [List.length_take, List.length_append, List.length_cons] at hlen
        omega
      · intro h
        exact (List.take_append_of_le_length (by omega)).symm
    have hiff : (∃ name' tail', name ++ rparen :: tail = name' ++ rparen :: tail' ∧ rparen ∉ tail' ∧
        clen ≤ name'.length + 1 ∧ startField (rparen :: (tail' ++ [newline])) = p.start) ↔
        clen ≤ name.length + 1 ∧ startField (rparen :: (tail ++ [newline])) = p.start := by
      constructor
      · rintro ⟨name', tail', heq, htail', h⟩
        have hlast := strrchr_append name' htail'
        rw [← heq, hrp, Option.some.injEq, List.cons.injEq] at hlast
        obtain ⟨-, rfl⟩ := hlast
        rwa [List.append_cancel_right heq]
      · exact fun h => ⟨name, tail, rfl, htail, h⟩
    dsimp only
    rw [hname, hiff, List.cons_append]
    split_ifs with hzero
    · refine iff_of_false (fun h => by cases h) fun h => ?_
      rw [hzero] at h
      omega
    · rw [Option.map_some, Option.some.injEq, Prod.mk.injEq, hcut]

end

/-- What the kernel writes of a process is read back exactly when its name has no newline, or one but
a first line that does for all of it. The buffers of the channels, of 64 bytes, are too long for
the second. -/
theorem stat_inverted_iff {clen : Nat} (hclen : 0 < clen) (p : ProcInstance) (hstart : 0 < p.start)
    (comm : Comm) (fs : StatFields) :
    (StatInverted clen p comm fs ↔ newline ∉ comm.str ∨ FirstLineDoes clen p.start comm.str) ∧
      (15 < clen → ¬ FirstLineDoes clen p.start comm.str) := by
  refine ⟨?_, not_firstLineDoes⟩
  by_cases hnl : newline ∈ comm.str
  · rw [statInverted_cut hclen hstart hnl, or_iff_right (not_not.2 hnl)]
  · exact iff_of_true (statInverted_plain hstart hnl) (.inl hnl)

/-- A process named `c) d` in a buffer of 64 bytes. -/
def oddName : Comm := ⟨lit "c) d", by decide, by decide⟩

theorem stat_inverted_odd :
    (StatInverted 64 sampleProc oddName (sampleSighting oddName).fields ↔
      newline ∉ oddName.str ∨ FirstLineDoes 64 100 oddName.str) ∧ (15 < 64 → ¬ FirstLineDoes 64 100 oddName.str) :=
  stat_inverted_iff (by decide) sampleProc (by decide) oddName _

/-- Of a name of two lines neither the name nor the start time is read. -/
theorem stat_not_inverted : ¬ ∀ (clen : Nat) (p : ProcInstance) (comm : Comm) (fs : StatFields), 0 < clen →
    0 < p.start → comm.str ≠ [] → (statText p comm fs).length < 1024 → StatInverted clen p comm fs := by
  intro h
  let twoLines : Comm := ⟨lit "a\nb", by decide, by decide⟩
  have hread := h 64 sampleProc twoLines (sampleSighting twoLines).fields (by decide) (by decide) (by decide)
    (by decide)
  revert hread
  decide

end GfrGuard
