import GfrGuard.Concurrent

/-!
# Copying between descriptors

`rguard_copy_fd`, one system call a step, with the outcome passed in and the offsets and the positions
of the descriptors as the calls move them. The source may grow under the copy. A copy that returns 0
holds the first `size` bytes of the source and nothing more exactly where no step takes more than
`size` (`copyFd_exact_iff`): only `copy_file_range` is capped. A source that is `size` long all the
time is copied whole (`copyFd_whole`).
-/

namespace GfrGuard

/-- How a system call comes back: with a count, interrupted by a signal, or with another error. -/
inductive SysOutcome where
  | count (n : Nat)
  | interrupted
  | failed

/-- One system call of a copy, after what has been appended to the source meanwhile. -/
structure CopyEvent where
  grown : Content
  outcome : SysOutcome

/-- Where a copy is: the system call it makes next. -/
inductive CopyPhase where
  /-- `ioctl(FICLONE)`. -/
  | reflink
  | copyRange
  | seekSrc
  | seekDst
  | read
  /-- `write` of what was read, from a position in it. -/
  | write (buf : Content) (w : Nat)
  | returned (rc : Int)
deriving DecidableEq

/-- A copy: the files, the offsets of `copy_file_range` and the positions of the descriptors. -/
structure CopyFd where
  src : Content
  dst : Content
  total : Nat
  offIn : Nat
  offOut : Nat
  srcPos : Nat
  dstPos : Nat
  phase : CopyPhase
deriving DecidableEq

namespace CopyFd

/-- The copy when it is called: the destination is empty, the positions are anywhere. -/
def start (src : Content) (srcPos dstPos : Nat) : CopyFd where
  src := src
  dst := []
  total := 0
  offIn := 0
  offOut := 0
  srcPos := srcPos
  dstPos := dstPos
  phase := .reflink

variable (size : Nat) (s : CopyFd)

/-- The end: whether the full size was copied. -/
def finish : CopyFd := { s with phase := .returned (if size ≤ s.total then 0 else -1) }

/-- The head of a loop on `total < size`. -/
def whileShort (phase : CopyPhase) : CopyFd :=
  if s.total < size then { s with phase := phase } else s.finish size

/-- `ioctl(dst_fd, FICLONE, src_fd)`. -/
def reflinkStep : SysOutcome → CopyFd
  | .count _ => { s with dst := s.src, phase := .returned 0 }
  | .interrupted | .failed => s.whileShort size .copyRange

/-- `copy_file_range`, capped at the remaining size. -/
def copyRangeStep : SysOutcome → CopyFd
  | .count n =>
    let want := min (size - s.total) (1024 * 1024)
    let data := (s.src.drop s.offIn).take (min n want)
    if data = [] then { s with phase := .seekSrc }
    else
      { s with
        dst := Concurrent.Shared.writeAt s.dst s.offOut data
        total := s.total + data.length
        offIn := s.offIn + data.length
        offOut := s.offOut + data.length }.whileShort size .copyRange
  | .interrupted => s
  | .failed => { s with phase := .seekSrc }

/-- `lseek(src_fd, total, SEEK_SET)`. -/
def seekSrcStep : SysOutcome → CopyFd
  | .count _ => { s with srcPos := s.total, phase := .seekDst }
  | .interrupted | .failed => { s with phase := .returned (-1) }

/-- `lseek(dst_fd, total, SEEK_SET)`. -/
def seekDstStep : SysOutcome → CopyFd
  | .count _ => { s with dstPos := s.total, phase := .read }
  | .interrupted | .failed => { s with phase := .returned (-1) }

/-- `read` into the buffer, whatever the remaining size. -/
def readStep : SysOutcome → CopyFd
  | .count n =>
    let data := (s.src.drop s.srcPos).take (min n (64 * 1024))
    if data = [] then s.finish size
    else { s with srcPos := s.srcPos + data.length, phase := .write data 0 }
  | .interrupted => s
  | .failed => s.finish size

/-- `write` of the rest of the buffer. -/
def writeStep (buf : Content) (w : Nat) : SysOutcome → CopyFd
  | .count n =>
    let data := (buf.drop w).take n
    if data = [] then { s with phase := .returned (-1) }
    else
      let s := { s with
        dst := Concurrent.Shared.writeAt s.dst s.dstPos data
        dstPos := s.dstPos + data.length
        phase := .write buf (w + data.length) }
      if w + data.length < buf.length then s
      else { s with total := s.total + buf.length }.whileShort size .read
  | .interrupted | .failed => { s with phase := .returned (-1) }

/-- One step of `rguard_copy_fd`. -/
def step (s : CopyFd) (e : CopyEvent) : CopyFd :=
  let s := { s with src := s.src ++ e.grown }
  match s.phase with
  | .reflink => s.reflinkStep size e.outcome
  | .copyRange => s.copyRangeStep size e.outcome
  | .seekSrc => s.seekSrcStep e.outcome
  | .seekDst => s.seekDstStep e.outcome
  | .read => s.readStep size e.outcome
  | .write buf w => s.writeStep size buf w e.outcome
  | .returned _ => s

/-- A step takes no more than the size: a clone is of a source of that size, and a read takes no
more than what remains. -/
def Capped (s : CopyFd) (e : CopyEvent) : Prop :=
  match s.phase, e.outcome with
  | .reflink, .count _ => (s.src ++ e.grown).length = size
  | .read, .count n =>
    min n (min (64 * 1024) ((s.src ++ e.grown).length - s.srcPos)) ≤ size - s.total
  | _, _ => True

/-! ## The invariant -/

/-- How long the destination gets with what has been read. -/
def reach : Nat :=
  match s.phase with
  | .write buf _ => s.total + buf.length
  | .returned _ => s.dst.length
  | _ => s.total

/-- The destination holds the beginning of the source. -/
structure Begun (src dst : Content) (n : Nat) : Prop where
  eq : dst = src.take n
  le : n ≤ src.length

/-- What holds of a copy before the system call of a phase. -/
def Before : CopyPhase → Prop
  | .reflink => Begun s.src s.dst s.total ∧ s.total = 0 ∧ s.offIn = 0 ∧ s.offOut = 0
  | .copyRange => Begun s.src s.dst s.total ∧ s.total < size ∧ s.offIn = s.total ∧ s.offOut = s.total
  | .seekSrc => Begun s.src s.dst s.total ∧ s.total < size
  | .seekDst => Begun s.src s.dst s.total ∧ s.total < size ∧ s.srcPos = s.total
  | .read => Begun s.src s.dst s.total ∧ s.total < size ∧ s.srcPos = s.total ∧ s.dstPos = s.total
  | .write buf w => Begun s.src s.dst (s.total + w) ∧ w < buf.length ∧ s.srcPos = s.total + buf.length ∧
      s.dstPos = s.total + w ∧ buf <+: s.src.drop s.total
  | .returned rc => ∃ n, Begun s.src s.dst n ∧ (rc = 0 → size ≤ n)

/-- What holds between the steps of a copy of a source that is long enough. -/
structure Inv : Prop where
  size_le : size ≤ s.src.length
  before : s.Before size s.phase

variable {size s} {n : Nat} {o : SysOutcome} {o : SysOutcome} {e : CopyEvent} {src dst buf data : Content} {w : Nat}
  {phase : CopyPhase}

theorem Begun.length (h : Begun src dst n) : dst.length = n := by
  rw [h.eq, List.length_take, Nat.min_eq_left h.le]

/-- What is appended to the source leaves what has been copied its beginning. -/
theorem Begun.grow (h : Begun src dst n) (grown : Content) : Begun (src ++ grown) dst n :=
  ⟨h.eq.trans (List.take_append_of_le_length h.le).symm,
    h.le.trans (by rw [List.length_append]; exact Nat.le_add_right _ _)⟩

/-- Writing what follows in the source. -/
theorem Begun.write (h : Begun src dst n) (hdata : data <+: src.drop n) :
    Begun src (Concurrent.Shared.writeAt dst n data) (n + data.length) := by
  have hle := hdata.length_le
  rw [List.length_drop] at hle
  have hn := h.le
  refine ⟨?_, by omega⟩
  rw [h.eq, Concurrent.Shared.writeAt_take hn hdata]

theorem Inv.grow (h : Inv size s) (grown : Content) : Inv size { s with src := s.src ++ grown } := by
  obtain ⟨hsize, hbefore⟩ := h
  refine ⟨hsize.trans (by rw [List.length_append]; exact Nat.le_add_right _ _), ?_⟩
  dsimp only
  cases hphase : s.phase <;> rw [hphase] at hbefore
  case write buf w =>
    obtain ⟨hbegun, hw, hsrc, hdst, hbuf⟩ := hbefore
    exact ⟨hbegun.grow grown, hw, hsrc, hdst,
      hbuf.trans (by rw [List.drop_append]; exact List.prefix_append _ _)⟩
  case returned rc =>
    obtain ⟨n, hbegun, hn⟩ := hbefore
    exact ⟨n, hbegun.grow grown, hn⟩
  all_goals exact ⟨hbefore.1.grow grown, hbefore.2⟩

/-- Leaving a loop. -/
theorem Inv.finish (hsize : size ≤ s.src.length) (hbegun : Begun s.src s.dst s.total) :
    Inv size (s.finish size) := by
  refine ⟨hsize, s.total, hbegun, fun hrc => ?_⟩
  by_contra hshort
  rw [if_neg hshort] at hrc
  cases hrc

/-- A copy that failed. -/
theorem Inv.fail (hsize : size ≤ s.src.length) (hbegun : Begun s.src s.dst n) :
    Inv size { s with phase := .returned (-1) } :=
  ⟨hsize, n, hbegun, fun h => by cases h⟩

/-- The head of a loop. -/
theorem Inv.whileShort (hsize : size ≤ s.src.length) (hbegun : Begun s.src s.dst s.total)
    (hbefore : s.total < size → Before size { s with phase := phase } phase) :
    Inv size (s.whileShort size phase) := by
  unfold CopyFd.whileShort
  split
  · next hshort => exact ⟨hsize, hbefore hshort⟩
  · exact .finish hsize hbegun

theorem Inv.reflinkStep (hsize : size ≤ s.src.length) (h : Before size s .reflink) :
    Inv size (s.reflinkStep size o) := by
  obtain ⟨hbegun, hzero, hin, hout⟩ := h
  cases o with
  | count n => exact ⟨hsize, s.src.length, ⟨(List.take_length).symm, Nat.le_refl _⟩, fun _ => hsize⟩
  | interrupted | failed =>
    exact .whileShort hsize hbegun fun hshort =>
      ⟨hbegun, hshort, hin.trans hzero.symm, hout.trans hzero.symm⟩

theorem Inv.copyRangeStep (hsize : size ≤ s.src.length) (hphase : s.phase = .copyRange)
    (h : Before size s .copyRange) : Inv size (s.copyRangeStep size o) := by
  obtain ⟨hbegun, hshort, hin, hout⟩ := id h
  cases o with
  | count n =>
    unfold CopyFd.copyRangeStep
    dsimp only
    generalize hdata : (s.src.drop s.offIn).take (min n (min (size - s.total) (1024 * 1024))) = data
    have hpre : data <+: s.src.drop s.total := hdata ▸ hin ▸ List.take_prefix _ _
    split
    · exact ⟨hsize, hbegun, hshort⟩
    · have hmore := hbegun.write hpre
      rw [hout]
      exact .whileShort hsize hmore fun h => ⟨hmore, h, by dsimp only; rw [hin], rfl⟩
  | interrupted => exact ⟨hsize, by rw [CopyFd.copyRangeStep, hphase]; exact h⟩
  | failed => exact ⟨hsize, hbegun, hshort⟩

theorem Inv.seekSrcStep (hsize : size ≤ s.src.length) (h : Before size s .seekSrc) :
    Inv size (s.seekSrcStep o) := by
  obtain ⟨hbegun, hshort⟩ := h
  cases o with
  | count n => exact ⟨hsize, hbegun, hshort, rfl⟩
  | interrupted | failed => exact .fail hsize hbegun

theorem Inv.seekDstStep (hsize : size ≤ s.src.length) (h : Before size s .seekDst) :
    Inv size (s.seekDstStep o) := by
  obtain ⟨hbegun, hshort, hsrc⟩ := h
  cases o with
  | count n => exact ⟨hsize, hbegun, hshort, hsrc, rfl⟩
  | interrupted | failed => exact .fail hsize hbegun

theorem Inv.readStep (hsize : size ≤ s.src.length) (hphase : s.phase = .read)
    (h : Before size s .read) : Inv size (s.readStep size o) := by
  obtain ⟨hbegun, hshort, hsrc, hdst⟩ := id h
  cases o with
  | count n =>
    unfold CopyFd.readStep
    dsimp only
    generalize hdata : (s.src.drop s.srcPos).take (min n (64 * 1024)) = data
    have hpre : data <+: s.src.drop s.total := hdata ▸ hsrc ▸ List.take_prefix _ _
    split
    · exact .finish hsize hbegun
    · next hne =>
      exact ⟨hsize, hbegun, List.length_pos_of_ne_nil hne, by dsimp only; rw [hsrc], hdst, hpre⟩
  | interrupted => exact ⟨hsize, by rw [CopyFd.readStep, hphase]; exact h⟩
  | failed => exact .finish hsize hbegun

theorem Inv.writeStep (hsize : size ≤ s.src.length) (h : Before size s (.write buf w)) :
    Inv size (s.writeStep size buf w o) := by
  obtain ⟨hbegun, hw, hsrc, hdst, hbuf⟩ := h
  cases o with
  | count n =>
    unfold CopyFd.writeStep
    dsimp only
    generalize hdata : (buf.drop w).take n = data
    have hrest : data <+: buf.drop w := hdata ▸ List.take_prefix _ _
    have hpre : data <+: s.src.drop (s.total + w) := by
      rw [← List.drop_drop]
      exact hrest.trans (hbuf.drop w)
    have hlen := hrest.length_le
    rw [List.length_drop] at hlen
    split
    · exact .fail hsize hbegun
    · have hmore := hbegun.write hpre
      rw [hdst, Nat.add_assoc] at *
      split
      · next hpart => exact ⟨hsize, hmore, hpart, hsrc, rfl, hbuf⟩
      · next hwhole =>
        -- the buffer is written: the position of the source is the total again
        have hall : w + data.length = buf.length := by omega
        rw [hall] at hmore ⊢
        exact .whileShort hsize hmore fun h => ⟨hmore, h, hsrc, rfl⟩
  | interrupted | failed => exact .fail hsize hbegun

/-- Every step keeps the invariant. -/
theorem Inv.step (h : Inv size s) (e : CopyEvent) : Inv size (s.step size e) := by
  obtain ⟨hsize, hbefore⟩ := h.grow e.grown
  unfold CopyFd.step
  generalize ({ s with src := s.src ++ e.grown } : CopyFd) = s at hsize hbefore
  dsimp only
  cases hphase : s.phase <;> rw [hphase] at hbefore
  case reflink => exact .reflinkStep hsize hbefore
  case copyRange => exact .copyRangeStep hsize hphase hbefore
  case seekSrc => exact .seekSrcStep hsize hbefore
  case seekDst => exact .seekDstStep hsize hbefore
  case read => exact .readStep hsize hphase hbefore
  case write buf w => exact .writeStep hsize hbefore
  case returned rc =>
    change Inv size s
    exact ⟨hsize, by rw [hphase]; exact hbefore⟩

theorem inv_start {srcPos dstPos : Nat} (hsize : size ≤ src.length) :
    Inv size (start src srcPos dstPos) :=
  ⟨hsize, ⟨rfl, Nat.zero_le _⟩, rfl, rfl, rfl⟩

/-- What has been copied when a copy returns 0. -/
theorem Inv.returned (h : Inv size s) (hret : s.phase = .returned 0) :
    size ≤ s.dst.length ∧ s.dst = s.src.take s.dst.length := by
  obtain ⟨-, hbefore⟩ := h
  rw [hret] at hbefore
  obtain ⟨n, hbegun, hn⟩ := hbefore
  rw [hbegun.length]
  exact ⟨hn rfl, hbegun.eq⟩

/-! ## Taking no more than the size -/

/-- What the copy takes is settled: it has been read, or copied. -/
def Settled (s : CopyFd) : Prop :=
  match s.phase with
  | .write _ _ | .returned _ => True
  | _ => False

/-- The copy failed, or takes more than the size. -/
def Doomed (size : Nat) (s : CopyFd) : Prop := s.phase = .returned (-1) ∨ size < s.reach

theorem reach_of_returned {rc : Int} (h : s.phase = .returned rc) : s.reach = s.dst.length := by
  rw [reach, h]

/-- Leaving a loop or going on, a copy reaches what it has copied. -/
theorem reach_whileShort (hbegun : Begun s.src s.dst s.total)
    (hphase : phase = .copyRange ∨ phase = .read) : (s.whileShort size phase).reach = s.total := by
  unfold CopyFd.whileShort
  split
  · rcases hphase with rfl | rfl <;> rfl
  · exact hbegun.length

theorem reach_copyRangeStep (h : Before size s .copyRange) (hphase : s.phase = .copyRange) :
    (s.copyRangeStep size o).reach ≤ size := by
  obtain ⟨hbegun, hshort, hin, hout⟩ := h
  cases o with
  | count n =>
    unfold CopyFd.copyRangeStep
    dsimp only
    generalize hdata : (s.src.drop s.offIn).take (min n (min (size - s.total) (1024 * 1024))) = data
    have hpre : data <+: s.src.drop s.total := hdata ▸ hin ▸ List.take_prefix _ _
    have hlen : data.length ≤ size - s.total := by
      rw [← hdata, List.length_take]
      omega
    split
    · exact Nat.le_of_lt hshort
    · rw [hout, reach_whileShort (hbegun.write hpre) (.inl rfl)]
      dsimp only
      omega
  | interrupted =>
    change s.reach ≤ size
    rw [reach, hphase]
    exact Nat.le_of_lt hshort
  | failed => exact Nat.le_of_lt hshort

theorem reach_readStep (h : Before size s .read) :
    (s.readStep size (.count n)).reach ≤ size ↔
      min n (min (64 * 1024) (s.src.length - s.srcPos)) ≤ size - s.total := by
  obtain ⟨hbegun, hshort, hsrc, hdst⟩ := h
  unfold CopyFd.readStep
  dsimp only
  generalize hdata : (s.src.drop s.srcPos).take (min n (64 * 1024)) = data
  have hlen : min n (min (64 * 1024) (s.src.length - s.srcPos)) = data.length := by
    rw [← hdata, List.length_take, List.length_drop, min_assoc]
  rw [hlen]
  split
  · next hnil =>
    have hfinish : (s.finish size).reach = s.total := hbegun.length
    rw [hfinish, hnil]
    exact iff_of_true (Nat.le_of_lt hshort) (Nat.zero_le _)
  · change s.total + data.length ≤ size ↔ _
    omega

/-- A step that takes from the source takes no more than the size exactly where it is capped. -/
theorem capped_iff (h : Inv size s) (hsettled : ¬ s.Settled) :
    s.Capped size e ↔ (s.step size e).reach ≤ size := by
  obtain ⟨hsize, hbefore⟩ := h.grow e.grown
  unfold Settled at hsettled
  unfold Capped CopyFd.step
  dsimp only at hbefore ⊢
  cases hphase : s.phase <;> rw [hphase] at hbefore hsettled
  case reflink =>
    obtain ⟨hbegun, hzero, -, -⟩ := hbefore
    cases e.outcome with
    | count n =>
      change _ ↔ (s.src ++ e.grown).length ≤ size
      exact ⟨Nat.le_of_eq, fun hle => Nat.le_antisymm hle hsize⟩
    | interrupted | failed =>
      refine iff_of_true trivial ?_
      change (CopyFd.whileShort size _ _).reach ≤ size
      rw [reach_whileShort hbegun (.inl rfl)]
      exact hzero ▸ Nat.zero_le _
  case copyRange => exact iff_of_true trivial (reach_copyRangeStep hbefore rfl)
  case seekSrc =>
    obtain ⟨hbegun, hshort⟩ := hbefore
    cases e.outcome with
    | count n => exact iff_of_true trivial (Nat.le_of_lt hshort)
    | interrupted | failed => exact iff_of_true trivial ((Nat.le_of_eq hbegun.length).trans (Nat.le_of_lt hshort))
  case seekDst =>
    obtain ⟨hbegun, hshort, -⟩ := hbefore
    cases e.outcome with
    | count n => exact iff_of_true trivial (Nat.le_of_lt hshort)
    | interrupted | failed => exact iff_of_true trivial ((Nat.le_of_eq hbegun.length).trans (Nat.le_of_lt hshort))
  case read =>
    have hle := Nat.le_of_lt hbefore.2.1
    cases e.outcome with
    | count n => exact (reach_readStep hbefore).symm
    | interrupted => exact iff_of_true trivial hle
    | failed => exact iff_of_true trivial ((Nat.le_of_eq hbefore.1.length).trans hle)
  case write => exact absurd trivial hsettled
  case returned => exact absurd trivial hsettled

/-- Before anything is taken, a copy reaches no more than the size. -/
theorem Inv.reach_le (h : Inv size s) (hsettled : ¬ s.Settled) : s.reach ≤ size := by
  obtain ⟨hsize, hbefore⟩ := h
  unfold Settled at hsettled
  unfold reach
  cases hphase : s.phase <;> rw [hphase] at hbefore hsettled
  case reflink => exact hbefore.2.1 ▸ Nat.zero_le _
  case write => exact absurd trivial hsettled
  case returned => exact absurd trivial hsettled
  case seekSrc => exact Nat.le_of_lt hbefore.2
  all_goals exact Nat.le_of_lt hbefore.2.1

theorem reach_writeStep (h : Before size s (.write buf w)) :
    (s.writeStep size buf w o).reach = s.total + buf.length ∨
      (s.writeStep size buf w o).phase = .returned (-1) ∧
        (s.writeStep size buf w o).reach ≤ s.total + buf.length := by
  obtain ⟨hbegun, hw, hsrc, hdst, hbuf⟩ := h
  have hfail : s.dst.length ≤ s.total + buf.length := by
    rw [hbegun.length]
    omega
  cases o with
  | count n =>
    unfold CopyFd.writeStep
    dsimp only
    generalize hdata : (buf.drop w).take n = data
    have hrest : data <+: buf.drop w := hdata ▸ List.take_prefix _ _
    have hpre : data <+: s.src.drop (s.total + w) := by
      rw [← List.drop_drop]
      exact hrest.trans (hbuf.drop w)
    have hlen := hrest.length_le
    rw [List.length_drop] at hlen
    split
    · exact .inr ⟨rfl, hfail⟩
    · split
      · exact .inl rfl
      · have hall : w + data.length = buf.length := by omega
        have hmore := hbegun.write hpre
        rw [Nat.add_assoc, hall] at hmore
        rw [hdst]
        exact .inl (reach_whileShort hmore (.inr rfl))
  | interrupted | failed => exact .inr ⟨rfl, hfail⟩

/-- What has been read is written, or the copy fails. -/
theorem reach_step_of_settled (h : Inv size s) (hsettled : s.Settled) :
    (s.step size e).reach = s.reach ∨
      (s.step size e).phase = .returned (-1) ∧ (s.step size e).reach ≤ s.reach := by
  obtain ⟨hsize, hbefore⟩ := h.grow e.grown
  unfold Settled at hsettled
  unfold CopyFd.step
  dsimp only at hbefore ⊢
  cases hphase : s.phase <;> rw [hphase] at hbefore hsettled
  case write buf w =>
    have hreach : s.reach = s.total + buf.length := by rw [reach, hphase]
    rw [hreach]
    exact reach_writeStep hbefore
  case returned rc => exact .inl (by simp only [reach, hphase])
  all_goals exact hsettled.elim

/-- A capped step reaches no more than the size. -/
theorem reach_step_le (h : Inv size s) (hreach : s.reach ≤ size) (hcapped : s.Capped size e) :
    (s.step size e).reach ≤ size := by
  by_cases hsettled : s.Settled
  · rcases reach_step_of_settled h hsettled with heq | ⟨-, hle⟩
    · exact heq ▸ hreach
    · exact hle.trans hreach
  · exact (capped_iff h hsettled).1 hcapped

/-- A doomed copy stays doomed. -/
theorem Doomed.step (h : Inv size s) (hdoomed : Doomed size s) : Doomed size (s.step size e) := by
  have hsettled : s.Settled := by
    rcases hdoomed with hfailed | hover
    · simp only [Settled, hfailed]
    · exact Classical.byContradiction fun hnot => absurd (h.reach_le hnot) (Nat.not_le.2 hover)
  rcases hdoomed with hfailed | hover
  · left
    rw [CopyFd.step]
    dsimp only
    rw [hfailed]
  · rcases reach_step_of_settled h hsettled with heq | ⟨hfailed, -⟩
    · exact .inr (heq ▸ hover)
    · exact .inl hfailed

/-- A step that is not capped dooms the copy. -/
theorem doomed_of_not_capped (h : Inv size s) (hnot : ¬ s.Capped size e) :
    Doomed size (s.step size e) := by
  have hsettled : ¬ s.Settled := by
    intro hsettled
    unfold Settled at hsettled
    unfold Capped at hnot
    cases hphase : s.phase <;> rw [hphase] at hsettled hnot
    case write => exact hnot trivial
    case returned => exact hnot trivial
    all_goals exact hsettled
  exact .inr (Nat.lt_of_not_le fun hle => hnot ((capped_iff h hsettled).2 hle))

/-- A step only appends to the source. -/
theorem src_step : (s.step size e).src = s.src ++ e.grown := by
  unfold CopyFd.step reflinkStep copyRangeStep seekSrcStep seekDstStep readStep writeStep whileShort
    CopyFd.finish
  dsimp only
  repeat' split
  all_goals rfl

variable {es : List CopyEvent} {srcPos dstPos : Nat}

/-- A copy that returns 0, all of whose steps are capped. -/
theorem dst_of_capped (hsize : size ≤ src.length)
    (hret : (Runs.run (CopyFd.step size) (start src srcPos dstPos) es).phase = .returned 0)
    (hall : Runs.AllSteps (CopyFd.step size) (Capped size) (start src srcPos dstPos) es) :
    (Runs.run (CopyFd.step size) (start src srcPos dstPos) es).dst = src.take size := by
  obtain ⟨hinv, hreach⟩ := Runs.run_invariant_of_allSteps (fun s => Inv size s ∧ s.reach ≤ size)
    (fun s e h hcapped => ⟨h.1.step e, reach_step_le h.1 h.2 hcapped⟩)
    ⟨inv_start hsize, Nat.zero_le _⟩ hall
  obtain ⟨grown, hgrown⟩ : src <+: (Runs.run (CopyFd.step size) (start src srcPos dstPos) es).src :=
    Runs.run_invariant (fun s : CopyFd => src <+: s.src)
      (fun s e h => h.trans (by rw [src_step]; exact List.prefix_append _ _)) List.prefix_rfl es
  obtain ⟨hlong, hdst⟩ := hinv.returned hret
  rw [reach_of_returned hret] at hreach
  rw [hdst, Nat.le_antisymm hreach hlong, ← hgrown, List.take_append_of_le_length hsize]

/-- A copy that returns 0 with what it should hold. -/
theorem capped_of_dst (hsize : size ≤ src.length)
    (hret : (Runs.run (CopyFd.step size) (start src srcPos dstPos) es).phase = .returned 0)
    (hdst : (Runs.run (CopyFd.step size) (start src srcPos dstPos) es).dst = src.take size) :
    Runs.AllSteps (CopyFd.step size) (Capped size) (start src srcPos dstPos) es := by
  refine Runs.allSteps_of_not_bad_of_invariant (Inv size) (Doomed size) (fun s e h => h.step e)
    (fun s e h => Doomed.step h) (fun s e => doomed_of_not_capped) (inv_start hsize) ?_
  rintro (hfailed | hover)
  · rw [hret] at hfailed
    cases hfailed
  · rw [reach_of_returned hret, hdst, List.length_take] at hover
    omega

/-- A source that is as long as the size all the time caps every step. -/
theorem capped_of_length (h : Inv size s) (hlength : (s.src ++ e.grown).length = size) :
    s.Capped size e := by
  obtain ⟨-, hbefore⟩ := h
  unfold Capped
  cases hphase : s.phase <;> rw [hphase] at hbefore
  case reflink => cases e.outcome <;> first | exact hlength | trivial
  case read =>
    cases e.outcome with
    | count n =>
      dsimp only
      rw [hlength, hbefore.2.2.1]
      omega
    | interrupted | failed => trivial
  all_goals trivial

/-- A source that does not grow is copied whole. -/
theorem copyFd_whole (hgrown : ∀ e ∈ es, e.grown = [])
    (hret : (Runs.run (CopyFd.step src.length) (start src srcPos dstPos) es).phase = .returned 0) :
    (Runs.run (CopyFd.step src.length) (start src srcPos dstPos) es).dst = src := by
  have hall := Runs.allSteps_imp (P := fun _ e => e.grown = []) (Q := Capped src.length)
    (fun s => Inv src.length s ∧ s.src = src)
    (fun s e h he => capped_of_length h.1 (by rw [he, h.2, List.append_nil]))
    (fun s e h he => ⟨h.1.step e, by rw [src_step, he, h.2, List.append_nil]⟩)
    (show Inv src.length (start src srcPos dstPos) ∧ _ from ⟨inv_start (Nat.le_refl _), rfl⟩)
    (Runs.allSteps_of_forall hgrown)
  exact (dst_of_capped (Nat.le_refl _) hret hall).trans List.take_length

end CopyFd

open CopyFd in
/-- A copy that returns 0 holds the first `size` bytes of the source and nothing more exactly where
every step of it is capped. -/
theorem copyFd_exact_iff (size : Nat) (src : Content) (srcPos dstPos : Nat) (es : List CopyEvent)
    (hsize : size ≤ src.length)
    (hret : (Runs.run (CopyFd.step size) (start src srcPos dstPos) es).phase = .returned 0) :
    (Runs.run (CopyFd.step size) (start src srcPos dstPos) es).dst = src.take size ↔
      Runs.AllSteps (CopyFd.step size) (CopyFd.Capped size) (start src srcPos dstPos) es :=
  ⟨capped_of_dst hsize hret, dst_of_capped hsize hret⟩

/-- One byte of two, read in the last of the three ways. -/
def sampleCopy : List CopyEvent :=
  [⟨[], .failed⟩, ⟨[], .interrupted⟩, ⟨[], .count 0⟩, ⟨[], .count 0⟩, ⟨[3], .count 0⟩,
    ⟨[], .count 1⟩, ⟨[], .count 1⟩]

theorem copyFd_exact_sample :
    (Runs.run (CopyFd.step 1) (.start [1, 2] 0 0) sampleCopy).dst = [1] ↔
      Runs.AllSteps (CopyFd.step 1) (CopyFd.Capped 1) (.start [1, 2] 0 0) sampleCopy :=
  copyFd_exact_iff 1 [1, 2] 0 0 sampleCopy (by decide) (by decide)

/-- A reflink of a source that has grown clones all of it. -/
theorem copyFd_not_exact :
    ¬ ∀ (size : Nat) (src : Content) (srcPos dstPos : Nat) (es : List CopyEvent),
      size ≤ src.length →
      (Runs.run (CopyFd.step size) (.start src srcPos dstPos) es).phase = .returned 0 →
      (Runs.run (CopyFd.step size) (.start src srcPos dstPos) es).dst = src.take size := by
  intro h
  exact absurd (h 1 [1, 2] 0 0 [⟨[], .count 0⟩] (by decide) (by decide)) (by decide)

end GfrGuard
