import GfrGuard.Lib.Runs
import GfrGuard.Files

/-!
# Backups taken at once

Any number of calls of `do_backup` and `fanotify_do_backup` for one source file and one
backup name, as steps that interleave: one system call each, with the outcome passed in. A
call may stop at any step, and a caller whose call returned OK may change the source.
`concurrent_preimage` is what holds when no call takes an unfinished copy for a finished
one; the code does not check that.
-/

namespace GfrGuard.Concurrent

/-! ## Calls -/

/-- The file under the backup name: the call that created it, what it holds, and whether the
copy into it ended with the whole size. -/
structure Copy (W : Type*) where
  creator : W
  content : Content
  finished : Bool

/-- What the calls share: the source file, whether its name still leads to it, and the file
under the backup name. -/
structure Shared (W : Type*) where
  src : Content
  linked : Bool
  backup : Option (Copy W)

/-- Where a call is: the step it takes next. -/
inductive Pc where
  /-- `do_backup`: `stat` of the source. -/
  | statSrc
  | statBackup
  | mkdirs
  | openSrc
  | fstatSrc
  /-- `fanotify_do_backup`: `fstat` of the event's descriptor. -/
  | fstatEvent
  | eventMkdirs (size : Nat)
  /-- `open(backup, O_CREAT | O_EXCL)`. -/
  | create (size : Nat)
  /-- `rguard_copy_fd`: `FICLONE`. -/
  | reflink (size : Nat)
  /-- The loop of `copy_file_range`. -/
  | copyRange (size total : Nat)
  | seek (size total : Nat)
  /-- The loop of `read`, and of the `write`s of what was read. -/
  | read (size total : Nat)
  | write (size pos : Nat) (buf : Content)
  | closing (ok : Bool)
  | unlinking
  | returned (ok : Bool)
  | dead
deriving DecidableEq

/-- The outcome of a system call: success, and how many bytes at most. -/
structure Outcome where
  ok : Bool
  count : Nat

namespace Shared

variable {W : Type*} [DecidableEq W]

/-- The file with bytes written at a position. -/
def writeAt (content : Content) (pos : Nat) (data : Content) : Content :=
  content.take pos ++ data ++ content.drop (pos + data.length)

/-- A change to the file a call created, as far as the backup name still leads to it. -/
def update (sh : Shared W) (w : W) (f : Copy W → Copy W) : Shared W :=
  { sh with backup := sh.backup.map fun c => if c.creator = w then f c else c }

/-- A call writes into the file it created. -/
def write (sh : Shared W) (w : W) (pos : Nat) (data : Content) : Shared W :=
  sh.update w fun c => { c with content := writeAt c.content pos data }

/-- The copy of a call ended with the whole size. -/
def finish (sh : Shared W) (w : W) : Shared W := sh.update w fun c => { c with finished := true }

end Shared

section
variable {W : Type*} [DecidableEq W]

/-- One step of a call. -/
def callStep (w : W) (o : Outcome) (sh : Shared W) : Pc → Shared W × Pc
  | .statSrc => (sh, if o.ok ∧ sh.linked then .statBackup else .returned false)
  -- the first copy wins
  | .statBackup => (sh, if o.ok ∧ sh.backup.isSome then .returned true else .mkdirs)
  | .mkdirs => (sh, if o.ok then .openSrc else .returned false)
  | .openSrc => (sh, if o.ok ∧ sh.linked then .fstatSrc else .returned false)
  | .fstatSrc => (sh, if o.ok then .create sh.src.length else .returned false)
  | .fstatEvent => (sh, if o.ok then .eventMkdirs sh.src.length else .returned false)
  | .eventMkdirs size => (sh, .create size)
  | .create size =>
    match sh.backup with
    -- `EEXIST` counts as a backup
    | some _ => (sh, .returned true)
    | none =>
      if o.ok then ({ sh with backup := some ⟨w, [], false⟩ }, .reflink size)
      else (sh, .returned false)
  | .reflink size =>
    if o.ok then
      ((sh.update w fun c => { c with content := sh.src }).finish w, .closing true)
    else (sh, .copyRange size 0)
  | .copyRange size total =>
    if total < size then
      let data := (sh.src.drop total).take (min o.count (min (size - total) (1024 * 1024)))
      if o.ok ∧ data ≠ [] then (sh.write w total data, .copyRange size (total + data.length))
      else (sh, .seek size total)
    else (sh.finish w, .closing true)
  | .seek size total => (sh, if o.ok then .read size total else .closing false)
  | .read size total =>
    if total < size then
      let data := (sh.src.drop total).take (min o.count (64 * 1024))
      if o.ok ∧ data ≠ [] then (sh, .write size total data) else (sh, .closing false)
    else (sh.finish w, .closing true)
  | .write size pos buf =>
    let data := buf.take o.count
    if o.ok ∧ data ≠ [] then
      (sh.write w pos data, if buf.drop o.count = [] then .read size (pos + data.length)
        else .write size (pos + data.length) (buf.drop o.count))
    else (sh, .closing false)
  | .closing ok => (sh, if ok then .returned true else .unlinking)
  | .unlinking => (if o.ok then { sh with backup := none } else sh, .returned false)
  | .returned ok => (sh, .returned ok)
  | .dead => (sh, .dead)

/-! ## Interleavings -/

/-- The calls and what they share. -/
structure State (W : Type*) where
  shared : Shared W
  pc : W → Pc

/-- What happens next. -/
inductive Event (W : Type*) where
  /-- A call takes its next step. -/
  | advance (w : W) (o : Outcome)
  /-- A call that has not returned stops for good. -/
  | die (w : W)
  /-- A caller changes the source or takes its name away. -/
  | modify (w : W) (content : Content) (linked : Bool)

/-- A call has returned. -/
def Pc.isReturned : Pc → Bool
  | .returned _ => true
  | _ => false

/-- One event. A caller changes the source only after its call returned OK. -/
def step (s : State W) : Event W → State W
  | .advance w o =>
    let (sh, pc) := callStep w o s.shared (s.pc w)
    ⟨sh, Function.update s.pc w pc⟩
  | .die w => if (s.pc w).isReturned then s else ⟨s.shared, Function.update s.pc w .dead⟩
  | .modify w content linked =>
    if s.pc w = .returned true then
      ⟨{ s.shared with src := content, linked := linked }, s.pc⟩
    else s

/-- Before the first step: the source as it was, no backup, and every call at its start,
which is that of `do_backup` or of `fanotify_do_backup`. -/
def init (orig : Content) (fanotify : W → Bool) : State W where
  shared := ⟨orig, true, none⟩
  pc w := if fanotify w then .fstatEvent else .statSrc

/-- The step asks whether the backup name is taken, and returns OK when it is. -/
def Pc.asksForName (o : Outcome) : Pc → Bool
  | .statBackup => o.ok
  | .create _ => true
  | _ => false

/-- A call that finds the backup name taken finds a finished copy. -/
def HitsFinished (s : State W) : Event W → Prop
  | .advance w o => (s.pc w).asksForName o = true → s.shared.backup.all (·.finished) = true
  | _ => True

instance (s : State W) : ∀ e, Decidable (HitsFinished s e)
  | .advance _ _ => inferInstanceAs (Decidable (_ → _))
  | .die _ | .modify .. => .isTrue trivial

end

/-! ## The invariant -/

section
variable {W : Type*} {orig : Content} {w w' : W} {backup backup' : Option (Copy W)} {pc : Pc}
  {sh : Shared W}

/-- A finished copy stands under the backup name. -/
def Settled (backup : Option (Copy W)) : Prop := ∃ c, backup = some c ∧ c.finished = true

/-- The file under the backup name is the unfinished one of this call, and holds this. -/
def Holds (w : W) (backup : Option (Copy W)) (content : Content) : Prop :=
  backup = some ⟨w, content, false⟩

/-- What the place of a call says. The source is as it was until a copy is finished, so an
unfinished copy is a beginning of it. -/
def PcInv (orig : Content) (w : W) (backup : Option (Copy W)) : Pc → Prop
  | .eventMkdirs size | .create size => ¬ Settled backup → size = orig.length
  | .reflink size => size = orig.length ∧ Holds w backup []
  | .copyRange size total | .seek size total | .read size total =>
    size = orig.length ∧ total ≤ size ∧ Holds w backup (orig.take total)
  | .write size pos buf =>
    size = orig.length ∧ pos + buf.length ≤ size ∧ buf <+: orig.drop pos ∧
      Holds w backup (orig.take pos)
  | .closing true | .returned true => Settled backup
  | .closing false | .unlinking => ∃ content, Holds w backup content
  | _ => True

/-- What holds in every state the calls reach while `HitsFinished` does. -/
structure Inv (orig : Content) (s : State W) : Prop where
  untouched : ¬ Settled s.shared.backup → s.shared.src = orig
  finished : ∀ c, s.shared.backup = some c → c.finished = true → c.content = orig
  calls : ∀ w, PcInv orig w s.shared.backup (s.pc w)

/-- What a call does to the backup name: nothing, or it was free or led to the call's own
unfinished copy. -/
def OwnChange (w : W) (backup backup' : Option (Copy W)) : Prop :=
  backup' = backup ∨ ∀ c, backup = some c → c.creator = w ∧ c.finished = false

/-- A change of one call does not disturb another: the other holds no copy, and knows of no
finished one. -/
theorem PcInv.frame (h : PcInv orig w' backup pc) (hne : w' ≠ w)
    (hchange : OwnChange w backup backup') : PcInv orig w' backup' pc := by
  rcases hchange with rfl | hown
  · exact h
  have hsettled : ¬ Settled backup := by
    rintro ⟨c, hc, hfin⟩
    rw [(hown c hc).2] at hfin
    cases hfin
  have hholds : ∀ content, ¬ Holds w' backup content := fun content hc => hne (hown _ hc).1
  cases pc with
  | eventMkdirs size | create size => exact fun _ => h hsettled
  | reflink size => exact absurd h.2 (hholds _)
  | copyRange size total | seek size total | read size total => exact absurd h.2.2 (hholds _)
  | write size pos buf => exact absurd h.2.2.2 (hholds _)
  | closing ok =>
    cases ok with
    | true => exact absurd h hsettled
    | false => exact absurd h.choose_spec (hholds _)
  | returned ok =>
    cases ok with
    | true => exact absurd h hsettled
    | false => trivial
  | unlinking => exact absurd h.choose_spec (hholds _)
  | _ => trivial

theorem Holds.not_settled {content : Content} (h : Holds w backup content) : ¬ Settled backup := by
  rintro ⟨c, hc, hfin⟩
  cases h.symm.trans hc
  cases hfin

theorem Holds.own {content : Content} (h : Holds w backup content) :
    ∀ c, backup = some c → c.creator = w ∧ c.finished = false := by
  intro c hc
  cases h.symm.trans hc
  exact ⟨rfl, rfl⟩

/-- Nothing has been copied before the first step. -/
theorem inv_init (orig : Content) (fanotify : W → Bool) : Inv orig (init orig fanotify) where
  untouched _ := rfl
  finished c hc := by cases hc
  calls w := by
    unfold init
    dsimp only
    split <;> trivial

/-- What a step of a call keeps, and what it says of the call's new place. -/
structure CallKept (orig : Content) (w : W) (sh : Shared W) (r : Shared W × Pc) : Prop where
  src : r.1.src = sh.src
  change : OwnChange w sh.backup r.1.backup
  finished : ∀ c, r.1.backup = some c → c.finished = true → c.content = orig
  call : PcInv orig w r.1.backup r.2

/-- A step that leaves the shared state alone. -/
theorem CallKept.same (hfinished : ∀ c, sh.backup = some c → c.finished = true → c.content = orig)
    (hcall : PcInv orig w sh.backup pc) : CallKept orig w sh (sh, pc) :=
  ⟨rfl, .inl rfl, hfinished, hcall⟩

end

section
variable {W : Type*} [DecidableEq W] {orig : Content} {w : W} {pc : Pc} {s : State W}
  {sh : Shared W} {o : Outcome}

/-- Writing on behind the beginning of a file what follows there in the file. -/
theorem Shared.writeAt_take {pos : Nat} {data : Content} (hpos : pos ≤ orig.length)
    (hdata : data <+: orig.drop pos) :
    Shared.writeAt (orig.take pos) pos data = orig.take (pos + data.length) := by
  have hlen : (orig.take pos).length = pos := by rw [List.length_take]; omega
  have hdrop : (orig.take pos).drop (pos + data.length) = [] := by
    rw [List.drop_eq_nil_iff, hlen]
    omega
  rw [Shared.writeAt, List.take_take, min_self, hdrop, List.append_nil, List.take_add,
    List.prefix_iff_eq_take.1 hdata, List.length_take]
  congr 1
  exact (List.take_eq_take_iff.2 (by omega)).symm

/-- Writing on at the end of the beginning of the source. -/
theorem Holds.write {pos : Nat} {data : Content} (h : Holds w sh.backup (orig.take pos))
    (hpos : pos ≤ orig.length) (hdata : data <+: orig.drop pos) :
    Holds w (sh.write w pos data).backup (orig.take (pos + data.length)) := by
  unfold Holds at h ⊢
  rw [Shared.write, Shared.update, h]
  simp only [Option.map_some, if_true, Shared.writeAt_take hpos hdata]

/-- A copy of the whole source that is finished. -/
theorem Holds.finish {content : Content} (h : Holds w sh.backup content) :
    (sh.finish w).backup = some ⟨w, content, true⟩ := by
  rw [Shared.finish, Shared.update, h]
  simp

/-- A step that finishes the copy of the whole source. -/
theorem CallKept.finish {content : Content} (hholds : Holds w sh.backup content)
    (hwhole : content = orig) : CallKept orig w sh (sh.finish w, .closing true) := by
  refine ⟨rfl, .inr hholds.own, fun c hc _ => ?_, ⟨_, hholds.finish, rfl⟩⟩
  cases hholds.finish.symm.trans hc
  exact hwhole

/-- A step that writes on. -/
theorem CallKept.write {pos : Nat} {data : Content} (hholds : Holds w sh.backup (orig.take pos))
    (hpos : pos ≤ orig.length) (hdata : data <+: orig.drop pos)
    (hcall : Holds w (sh.write w pos data).backup (orig.take (pos + data.length)) →
      PcInv orig w (sh.write w pos data).backup pc) :
    CallKept orig w sh (sh.write w pos data, pc) := by
  have hwrite := hholds.write hpos hdata
  refine ⟨rfl, .inr hholds.own, fun c hc hfin => ?_, hcall hwrite⟩
  cases hwrite.symm.trans hc
  cases hfin

/-- What is read at a position begins what is left of the source there. -/
theorem take_drop_isPrefix (orig : Content) (pos n : Nat) :
    (orig.drop pos).take n <+: orig.drop pos ∧
      (pos ≤ orig.length → pos + ((orig.drop pos).take n).length ≤ orig.length) := by
  refine ⟨List.take_prefix _ _, fun h => ?_⟩
  simp only [List.length_take, List.length_drop]
  omega

/-- Every step of a call keeps what the others rely on, if it takes only a finished copy for
a backup. -/
theorem callStep_kept (huntouched : ¬ Settled sh.backup → sh.src = orig)
    (hfinished : ∀ c, sh.backup = some c → c.finished = true → c.content = orig)
    (hcall : PcInv orig w sh.backup pc)
    (hhit : pc.asksForName o = true → sh.backup.all (·.finished) = true) : CallKept orig w sh (callStep w o sh pc) := by
  have hsize : ¬ Settled sh.backup → sh.src.length = orig.length := fun h => by rw [huntouched h]
  cases pc with
  | statSrc | mkdirs | openSrc =>
    simp only [callStep]
    refine .same hfinished ?_
    split <;> trivial
  | statBackup =>
    simp only [callStep]
    refine .same hfinished ?_
    split
    · next h =>
      obtain ⟨c, hc⟩ := Option.isSome_iff_exists.1 h.2
      have hfin := hhit h.1
      rw [hc] at hfin
      exact ⟨c, hc, hfin⟩
    · trivial
  | fstatSrc | fstatEvent =>
    simp only [callStep]
    refine .same hfinished ?_
    split
    · exact hsize
    · trivial
  | eventMkdirs size => exact .same hfinished hcall
  | create size =>
    simp only [callStep]
    split
    · next c hc =>
      have hfin := hhit rfl
      rw [hc] at hfin
      exact .same hfinished ⟨c, hc, hfin⟩
    · next hnone =>
      split
      · refine ⟨rfl, .inr fun c hc => ?_, fun c hc hfin => ?_, hcall ?_, rfl⟩
        · rw [hnone] at hc
          cases hc
        · cases hc
          cases hfin
        · rintro ⟨c, hc, -⟩
          rw [hnone] at hc
          cases hc
      · exact .same hfinished trivial
  | reflink size =>
    obtain ⟨hlen, hholds⟩ := hcall
    simp only [callStep]
    split
    · -- the clone takes the source as it is, which is as it was
      have hclone : Holds w (sh.update w fun c => { c with content := sh.src }).backup sh.src := by
        unfold Holds at hholds ⊢
        rw [Shared.update, hholds]
        simp
      have hkept := CallKept.finish hclone (huntouched hholds.not_settled)
      exact ⟨hkept.src, .inr hholds.own, hkept.finished, hkept.call⟩
    · exact .same hfinished ⟨hlen, Nat.zero_le _, hholds⟩
  | copyRange size total =>
    obtain ⟨rfl, htotal, hholds⟩ := hcall
    obtain rfl := huntouched hholds.not_settled
    simp only [callStep]
    split
    · split
      · obtain ⟨hpre, hle⟩ := take_drop_isPrefix sh.src total
          (min o.count (min (sh.src.length - total) (1024 * 1024)))
        exact .write hholds htotal hpre fun h => ⟨rfl, hle htotal, h⟩
      · exact .same hfinished ⟨rfl, htotal, hholds⟩
    · exact .finish hholds (List.take_of_length_le (by omega))
  | seek size total =>
    simp only [callStep]
    refine .same hfinished ?_
    split
    · exact hcall
    · exact ⟨_, hcall.2.2⟩
  | read size total =>
    obtain ⟨rfl, htotal, hholds⟩ := hcall
    obtain rfl := huntouched hholds.not_settled
    simp only [callStep]
    split
    · obtain ⟨hpre, hle⟩ := take_drop_isPrefix sh.src total (min o.count (64 * 1024))
      split
      · exact .same hfinished ⟨rfl, hle htotal, hpre, hholds⟩
      · exact .same hfinished ⟨_, hholds⟩
    · exact .finish hholds (List.take_of_length_le (by omega))
  | write size pos buf =>
    obtain ⟨rfl, hbuf, hpre, hholds⟩ := hcall
    simp only [callStep]
    split
    · have hdata := (List.take_prefix o.count buf).trans hpre
      have hlen : (buf.take o.count).length + (buf.drop o.count).length = buf.length := by
        rw [← List.length_append, List.take_append_drop]
      refine .write hholds (by omega) hdata fun h => ?_
      split
      · exact ⟨rfl, by omega, h⟩
      · refine ⟨rfl, by omega, ?_, h⟩
        obtain ⟨rest, hrest⟩ := hpre
        have hsplit : buf ++ rest = buf.take o.count ++ (buf.drop o.count ++ rest) := by
          rw [← List.append_assoc, List.take_append_drop]
        exact ⟨rest, by rw [← List.drop_drop, ← hrest, hsplit, List.drop_left]⟩
    · exact .same hfinished ⟨_, hholds⟩
  | closing ok =>
    refine .same hfinished ?_
    cases ok <;> exact hcall
  | unlinking =>
    obtain ⟨content, hholds⟩ := hcall
    simp only [callStep]
    split
    · exact ⟨rfl, .inr hholds.own, (fun c hc => by cases hc), trivial⟩
    · exact .same hfinished trivial
  | returned ok => exact .same hfinished hcall
  | dead => exact .same hfinished trivial

/-! ## Runs -/

/-- Moving one call on, when the others may stay where they are. -/
theorem PcInv.update {pcs : W → Pc} {backup : Option (Copy W)} (hcall : PcInv orig w backup pc)
    (hothers : ∀ w', w' ≠ w → PcInv orig w' backup (pcs w')) :
    ∀ w', PcInv orig w' backup (Function.update pcs w pc w') := by
  intro w'
  by_cases hw : w' = w
  · subst hw
    rwa [Function.update_self]
  · rw [Function.update_of_ne hw]
    exact hothers w' hw

/-- Every event keeps the invariant, if calls take only finished copies for backups. -/
theorem Inv.step (h : Inv orig s) (e : Event W) (hhit : HitsFinished s e) :
    Inv orig (step s e) := by
  cases e with
  | advance w o =>
    have hkept := callStep_kept (o := o) h.untouched h.finished (h.calls w) hhit
    show Inv orig ⟨(callStep w o s.shared (s.pc w)).1,
      Function.update s.pc w (callStep w o s.shared (s.pc w)).2⟩
    refine ⟨fun hsettled => hkept.src.trans (h.untouched fun hs => ?_), hkept.finished,
      hkept.call.update fun w' hw => (h.calls w').frame hw hkept.change⟩
    rcases hkept.change with hsame | hown
    · exact hsettled (hsame ▸ hs)
    · obtain ⟨c, hc, hfin⟩ := hs
      rw [(hown c hc).2] at hfin
      cases hfin
  | die w =>
    simp only [Concurrent.step]
    split
    · exact h
    · exact ⟨h.untouched, h.finished, PcInv.update trivial fun w' _ => h.calls w'⟩
  | modify w content linked =>
    simp only [Concurrent.step]
    split
    · next hok =>
      -- the call that returned OK left a finished copy behind
      have hsettled : Settled s.shared.backup := by
        have := h.calls w
        rw [hok] at this
        exact this
      exact ⟨fun hs => absurd hsettled hs, h.finished, h.calls⟩
    · exact h

/-- If every call that finds the backup name taken finds a finished copy, then once any call
has returned OK the file under the backup name is complete and holds the source as it was
before any change. -/
theorem concurrent_preimage (orig : Content) (fanotify : W → Bool) (es : List (Event W)) (w : W)
    (hhits : Runs.AllSteps step HitsFinished (init orig fanotify) es)
    (hok : (Runs.run step (init orig fanotify) es).pc w = .returned true) :
    ∃ c, (Runs.run step (init orig fanotify) es).shared.backup = some c ∧ c.finished = true ∧
      c.content = orig := by
  have hinv := Runs.run_invariant_of_allSteps (Inv orig) (fun _ e h hP => h.step e hP)
    (inv_init orig fanotify) hhits
  obtain ⟨c, hc, hfin⟩ : Settled (Runs.run step (init orig fanotify) es).shared.backup := by
    have := hinv.calls w
    rw [hok] at this
    exact this
  exact ⟨c, hc, hfin, hinv.finished c hc hfin⟩

end

/-! ## Two calls -/

/-- The call's next `n` steps, each succeeding. -/
def succeed {W : Type*} (w : W) (n : Nat) : List (Event W) := .replicate n (.advance w ⟨true, 1⟩)

/-- The second call starts when the first has returned, and its caller overwrites the
file. -/
theorem concurrent_preimage_sample :
    ∃ c, (Runs.run step (init [1] fun _ => false)
        (succeed true 8 ++ succeed false 2 ++ [.modify false [9] true])).shared.backup = some c ∧
      c.finished = true ∧ c.content = [1] :=
  concurrent_preimage [1] (fun _ => false) _ false (by decide) (by decide)

/-- The second call finds the name while the first is still copying: its caller overwrites
the file, and the first copies what it wrote. -/
theorem concurrent_not_always_preimage :
    ¬ ∀ (orig : Content) (fanotify : Bool → Bool) (es : List (Event Bool)) (w : Bool),
      (∀ w', ((Runs.run step (init orig fanotify) es).pc w').isReturned = true) →
      (Runs.run step (init orig fanotify) es).pc w = .returned true →
      ∃ c, (Runs.run step (init orig fanotify) es).shared.backup = some c ∧ c.content = orig := by
  intro h
  obtain ⟨c, hc, hcontent⟩ := h [1] (fun _ => false)
    (succeed true 6 ++ succeed false 2 ++ [.modify false [9] true] ++ succeed true 2) false
    (by decide) (by decide)
  have hcopy : ((Runs.run step (init [1] fun _ => false) (succeed true 6 ++ succeed false 2 ++
      [.modify false [9] true] ++ succeed true 2)).shared.backup.map (·.content)) = some [9] := by
    decide
  rw [hc, Option.map_some, hcontent] at hcopy
  cases hcopy

end GfrGuard.Concurrent
