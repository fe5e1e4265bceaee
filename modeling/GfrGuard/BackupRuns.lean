import GfrGuard.ChannelAgreement
import GfrGuard.Concurrent

/-!
# Backups one after another

`do_backup` and `fanotify_do_backup` with every system call free to fail, also those `Backup`
takes for granted, and with the three stages of `rguard_copy_fd`. `StoreStep` is what either
can do to the tree: what is there stays, what is new is a directory or, when the call returns
OK, the whole source under the backup's name. So the first copy wins over every sequence of
calls (`first_copy_wins`).
-/

namespace GfrGuard

open Concurrent (Outcome)

/-! ## The copy -/

/-- The outcomes of the calls of `rguard_copy_fd`; interrupted ones are made again and do not
count, and one that is not there fails. -/
structure CopyCalls where
  /-- `FICLONE` clones the file. -/
  reflinkOk : Bool
  /-- The calls of `copy_file_range`. -/
  ranges : List Outcome
  /-- Both `lseek`s succeed. -/
  seekOk : Bool
  /-- The `read`s, each with the `write`s of what was read. -/
  reads : List (Outcome × List Outcome)

/-- The loop of `copy_file_range`: what has been copied when it ends. -/
def copyRanges (src : Content) (size : Nat) : List Outcome → Content → Content
  | [], dst => dst
  | o :: os, dst =>
    if dst.length < size then
      let data := (src.drop dst.length).take (min o.count (min (size - dst.length) (1024 * 1024)))
      if o.ok ∧ data ≠ [] then copyRanges src size os (dst ++ data) else dst
    else dst

/-- The loop of `write`: whether the whole buffer was written, and the file after it. -/
def writeAll : List Outcome → (buf dst : Content) → Bool × Content
  | [], buf, dst => (buf = [], dst)
  | o :: os, buf, dst =>
    if buf = [] then (true, dst)
    else if o.ok ∧ buf.take o.count ≠ [] then writeAll os (buf.drop o.count) (dst ++ buf.take o.count)
    else (false, dst)

/-- The loop of `read`, from a position on. -/
def copyReads (src : Content) (size : Nat) : List (Outcome × List Outcome) → Content → Bool × Content
  | [], dst => (size ≤ dst.length, dst)
  | (o, writes) :: os, dst =>
    if dst.length < size then
      let data := (src.drop dst.length).take (min o.count (64 * 1024))
      if o.ok ∧ data ≠ [] then
        match writeAll writes data dst with
        | (true, dst) => copyReads src size os dst
        | (false, dst) => (false, dst)
      else (false, dst)
    else (true, dst)

/-- `rguard_copy_fd` into an empty file: whether it returns 0, and the file after it. -/
def rguardCopyFd (c : CopyCalls) (src : Content) (size : Nat) : Bool × Content :=
  if c.reflinkOk then (true, src)
  else
    let dst := copyRanges src size c.ranges []
    if dst.length < size then
      if c.seekOk then copyReads src size c.reads dst else (false, dst)
    else (true, dst)

section
variable {src dst : Content} {size : Nat}

/-- What a stage copies on from the end of the copy keeps it a beginning of the source. -/
theorem append_take_drop_isPrefix (h : dst <+: src) (n : Nat) :
    dst ++ (src.drop dst.length).take n <+: src := by
  obtain ⟨rest, rfl⟩ := h
  rw [List.drop_left]
  exact (List.prefix_append_right_inj dst).2 (List.take_prefix n rest)

theorem copyRanges_isPrefix (h : dst <+: src) (os : List Outcome) :
    copyRanges src size os dst <+: src := by
  induction os generalizing dst with
  | nil => exact h
  | cons o os ih =>
    unfold copyRanges
    split
    · dsimp only
      split
      · exact ih (append_take_drop_isPrefix h _)
      · exact h
    · exact h

/-- A buffer that is written ends up behind what was there, whole or in part. -/
theorem writeAll_eq (os : List Outcome) (buf dst : Content) :
    ∃ data, data <+: buf ∧ (writeAll os buf dst).2 = dst ++ data ∧
      ((writeAll os buf dst).1 = true → data = buf) := by
  induction os generalizing buf dst with
  | nil =>
    refine ⟨[], List.nil_prefix, (List.append_nil dst).symm, fun h => ?_⟩
    exact (of_decide_eq_true h).symm
  | cons o os ih =>
    unfold writeAll
    split
    · next hnil => exact ⟨[], List.nil_prefix, (List.append_nil dst).symm, fun _ => hnil.symm⟩
    · split
      · obtain ⟨data, hpre, hdst, hwhole⟩ := ih (buf.drop o.count) (dst ++ buf.take o.count)
        refine ⟨buf.take o.count ++ data, ?_, ?_, fun h => ?_⟩
        · conv_rhs => rw [← List.take_append_drop o.count buf]
          exact (List.prefix_append_right_inj _).2 hpre
        · rw [hdst, List.append_assoc]
        · rw [hwhole h, List.take_append_drop]
      · exact ⟨[], List.nil_prefix, (List.append_nil dst).symm, fun h => by cases h⟩

/-- The loop of `read` leaves a beginning of the source, as long as asked for on success. -/
theorem copyReads_spec (h : dst <+: src) (os : List (Outcome × List Outcome)) :
    (copyReads src size os dst).2 <+: src ∧
      ((copyReads src size os dst).1 = true → size ≤ (copyReads src size os dst).2.length) := by
  induction os generalizing dst with
  | nil => exact ⟨h, fun hsize => of_decide_eq_true hsize⟩
  | cons o os ih =>
    obtain ⟨o, writes⟩ := o
    unfold copyReads
    split
    · dsimp only
      split
      · obtain ⟨data, hdata, hdst, -⟩ :=
          writeAll_eq writes ((src.drop dst.length).take (min o.count (64 * 1024))) dst
        have hnext : (writeAll writes ((src.drop dst.length).take (min o.count (64 * 1024))) dst).2 <+:
            src := by
          rw [hdst]
          exact ((List.prefix_append_right_inj dst).2 hdata).trans (append_take_drop_isPrefix h _)
        split
        · next dst' hwritten =>
          rw [hwritten] at hnext
          exact ih hnext
        · next dst' hwritten =>
          rw [hwritten] at hnext
          exact ⟨hnext, fun hok => by cases hok⟩
      · exact ⟨h, fun hok => by cases hok⟩
    · next hsize => exact ⟨h, fun _ => Nat.not_lt.1 hsize⟩

/-- A copy is a beginning of the source. -/
theorem rguardCopyFd_isPrefix (c : CopyCalls) (src : Content) (size : Nat) :
    (rguardCopyFd c src size).2 <+: src := by
  have hranges : copyRanges src size c.ranges [] <+: src :=
    copyRanges_isPrefix List.nil_prefix c.ranges
  unfold rguardCopyFd
  dsimp only
  split
  · exact List.prefix_refl src
  · split
    · split
      · exact (copyReads_spec hranges c.reads).1
      · exact hranges
    · exact hranges

/-- A copy that succeeds is the whole source. -/
theorem rguardCopyFd_ok {c : CopyCalls} (h : rguardCopyFd c src src.length = (true, dst)) :
    dst = src := by
  have hranges : copyRanges src src.length c.ranges [] <+: src :=
    copyRanges_isPrefix List.nil_prefix c.ranges
  unfold rguardCopyFd at h
  split at h
  · cases h; rfl
  · dsimp only at h
    split at h
    · split at h
      · have hreads : _ ∧ (_ → src.length ≤ _) := copyReads_spec hranges c.reads
        rw [h] at hreads
        obtain ⟨hpre, hlen⟩ := hreads
        exact hpre.eq_of_length_le (hlen rfl)
      · cases h
    · next hsize =>
      cases h
      exact hranges.eq_of_length_le (Nat.not_lt.1 hsize)

end

/-! ## The calls -/

/-- The outcomes of the system calls of one backup. -/
structure BackupCalls where
  /-- `stat` of the source. -/
  statSrcOk : Bool
  /-- `stat` of the backup. -/
  statBackupOk : Bool
  /-- A `mkdir` of a missing directory. -/
  mkdirOk : Loc → Bool
  /-- The `mkdir`s of directories that are there say so. -/
  mkdirsOk : Bool
  /-- `open` and `fstat` of the source. -/
  openSrcOk : Bool
  /-- `open` of the backup, as far as the tree lets it. -/
  createOk : Bool
  copy : CopyCalls
  /-- `unlink` of a copy that failed. -/
  unlinkOk : Bool

/-- The end of both routines: create the backup and copy into it. -/
def createAndCopy (c : BackupCalls) (backup : CStr) (content : Content) (fs : Fs) : Bool × Fs :=
  if !c.createOk then (false, fs)
  else
    match fs.createExcl backup true with
    | .failed => (false, fs)
    | .exists => (true, fs)
    | .created =>
      match rguardCopyFd c.copy content content.length with
      | (true, copied) => (true, fs.put (pathComponents backup) (.regular copied))
      | (false, copied) =>
        let fs := fs.put (pathComponents backup) (.regular copied)
        (false, if c.unlinkOk then fs.remove (pathComponents backup) else fs)

/-- `do_backup`, any of its system calls failing. -/
def doBackupWith (c : BackupCalls) (store src share rel : CStr) (fs : Fs) : Bool × Fs :=
  if !c.statSrcOk ∨ (fs.stat src).isNone then (false, fs)
  else
    match computeBackupPath store share rel with
    | none => (false, fs)
    | some backup =>
      if c.statBackupOk ∧ (fs.stat backup).isSome then (true, fs)
      else
        match fs.mkdirP (Fs.parentPath backup) c.mkdirOk with
        | (false, fs) => (false, fs)
        | (true, fs) =>
          if !c.mkdirsOk then (false, fs)
          else
            match c.openSrcOk, fs.stat src with
            | true, some (.regular content) => createAndCopy c backup content fs
            | _, _ => (false, fs)

/-- `fanotify_do_backup`, any of its system calls failing. -/
def fanotifyDoBackupWith (c : BackupCalls) (file : Option Content) (filePath store channelDir : CStr)
    (fs : Fs) : Bool × Fs :=
  match c.statSrcOk, file with
  | true, some content =>
    let bk := backupsPath store channelDir filePath
    if pathMax ≤ bk.length then (false, fs)
    else createAndCopy c bk content (fs.mkdirEach (Fs.parentPath bk) c.mkdirOk)
  | _, _ => (false, fs)

/-- What a call of either routine comes with. -/
inductive BackupCall where
  | vfs (c : BackupCalls) (src share rel : CStr)
  | fanotify (c : BackupCalls) (file : Option Content) (filePath channelDir : CStr)

namespace BackupCall

/-- The outcomes of its system calls. -/
def calls : BackupCall → BackupCalls
  | vfs c .. | fanotify c .. => c

/-- Run the call. -/
def run (store : CStr) (fs : Fs) : BackupCall → Bool × Fs
  | vfs c src share rel => doBackupWith c store src share rel fs
  | fanotify c file filePath channelDir => fanotifyDoBackupWith c file filePath store channelDir fs

/-- What the source holds during the call. -/
def source (fs : Fs) : BackupCall → Option Content
  | vfs _ src _ _ =>
    match fs.stat src with
    | some (.regular content) => some content
    | _ => none
  | fanotify _ file _ _ => file

/-- The place of the backup. -/
def place (store : CStr) : BackupCall → Loc
  | vfs _ _ share rel => pathComponents (backupsPath store share rel)
  | fanotify _ _ filePath channelDir => pathComponents (backupsPath store channelDir filePath)

end BackupCall

/-- What happens to the tree: a backup, or a change to anything else. -/
inductive StoreEvent where
  | backup (call : BackupCall)
  | edit (loc : Loc) (n : Option Node)

/-- One event, with the store at a path. -/
def storeStep (store : CStr) (fs : Fs) : StoreEvent → Fs
  | .backup call => (call.run store fs).2
  | .edit loc n => ⟨Function.update fs.node loc n⟩

/-- The directory of the backups. -/
def backupsDir (store : CStr) : Loc := pathComponents store ++ [lit "backups"]

/-- The unlink after a failed copy succeeds, and nobody else changes the backups or the way to
them. -/
def StoreEvent.KeepsStore (store : CStr) : StoreEvent → Prop
  | .backup call => call.calls.unlinkOk = true
  | .edit loc _ => ¬ backupsDir store <+: loc ∧ ¬ loc <+: backupsDir store

instance (store : CStr) (e : StoreEvent) : Decidable (e.KeepsStore store) := by
  cases e <;> unfold StoreEvent.KeepsStore <;> infer_instance

/-- What a backup does to the tree: what is there stays, and what is new is a directory, or the
whole source at the place of the backup when the call returns OK. -/
structure StoreStep (place : Loc) (source : Option Content) (fs : Fs) (r : Bool × Fs) : Prop where
  keeps : ∀ loc n, fs.node loc = some n → r.2.node loc = some n
  adds : ∀ loc n, fs.node loc = none → r.2.node loc = some n → n = .directory ∨
    r.1 = true ∧ loc = place ∧ ∃ content, source = some content ∧ n = .regular content

section
variable {c : BackupCalls} {store src share rel backup filePath channelDir : CStr}
  {content : Content} {source : Option Content} {fs fs' : Fs} {r : Bool × Fs} {place b : Loc}

/-! ## One call -/

theorem StoreStep.of_addsDirs (h : Fs.AddsDirs b fs fs') (ok : Bool) :
    StoreStep place source fs (ok, fs') := by
  refine ⟨fun loc n hn => ?_, fun loc n hnone hn => ?_⟩
  · rcases h loc with hsame | ⟨hnone, -, -⟩
    · exact hsame.trans hn
    · cases hnone.symm.trans hn
  · rcases h loc with hsame | ⟨-, -, hdir⟩
    · cases (hsame.trans hnone).symm.trans hn
    · exact .inl (Option.some.inj (hn.symm.trans hdir))

theorem StoreStep.refl (ok : Bool) (fs : Fs) : StoreStep place source fs (ok, fs) :=
  .of_addsDirs (Fs.AddsDirs.refl [] fs) ok

/-- Directories made first do not count against a call. -/
theorem StoreStep.after (hdirs : Fs.AddsDirs b fs fs') (h : StoreStep place source fs' r) :
    StoreStep place source fs r := by
  have hbefore : StoreStep place source fs (false, fs') := .of_addsDirs hdirs false
  refine ⟨fun loc n hn => h.keeps loc n (hbefore.keeps loc n hn), fun loc n hnone hn => ?_⟩
  cases hmid : fs'.node loc with
  | none => exact h.adds loc n hmid hn
  | some m =>
    have hsame : m = n := Option.some.inj ((h.keeps loc m hmid).symm.trans hn)
    rcases hbefore.adds loc m hnone hmid with hdir | ⟨hok, -⟩
    · exact .inl (hsame ▸ hdir)
    · cases hok

theorem node_of_created {ok : Bool} (h : fs.createExcl backup ok = .created) :
    fs.node (pathComponents backup) = none := by
  unfold Fs.createExcl Fs.lookup at h
  split at h
  · cases h
  · split at h
    · cases h
    · next hnone =>
      split at hnone
      · cases hnone
      · exact hnone

theorem Fs.remove_put (h : fs.node b = none) (n : Node) : (fs.put b n).remove b = fs := by
  unfold Fs.put Fs.remove
  rw [Function.update_idem, ← h, Function.update_eq_self]

/-- Creating and copying, the unlink of a failed copy succeeding. -/
theorem createAndCopy_step (hunlink : c.unlinkOk = true) :
    StoreStep (pathComponents backup) (some content) fs (createAndCopy c backup content fs) := by
  unfold createAndCopy
  split
  · exact .refl false fs
  · cases hcreate : fs.createExcl backup true with
    | failed => exact .refl false fs
    | «exists» => exact .refl true fs
    | created =>
      have hnew := node_of_created hcreate
      dsimp only
      cases hcopy : rguardCopyFd c.copy content content.length with
      | mk ok copied =>
        cases ok with
        | true =>
          obtain rfl := rguardCopyFd_ok hcopy
          refine ⟨fun loc n hn => ?_, fun loc n hnone hn => ?_⟩
          · have hne : loc ≠ pathComponents backup := by
              rintro rfl
              cases hnew.symm.trans hn
            exact (Fs.node_put_of_ne hne _).trans hn
          · by_cases hloc : loc = pathComponents backup
            · subst hloc
              refine .inr ⟨rfl, rfl, copied, rfl, ?_⟩
              exact (Option.some.inj ((Fs.node_put_self ..).symm.trans hn)).symm
            · cases ((Fs.node_put_of_ne hloc _).symm.trans hn).symm.trans hnone
        | false =>
          dsimp only
          rw [Fs.remove_put hnew]
          exact .refl false fs

theorem BackupCall.source_vfs (h : fs.stat src = some (.regular content)) :
    (vfs c src share rel).source fs = some content := by
  simp only [BackupCall.source, h]

/-- `do_backup` on the tree. -/
theorem doBackupWith_step (hunlink : c.unlinkOk = true) :
    StoreStep (pathComponents (backupsPath store share rel)) ((BackupCall.vfs c src share rel).source fs)
      fs (doBackupWith c store src share rel fs) := by
  unfold doBackupWith
  split
  · exact .refl false fs
  · next hsrc =>
    split
    · exact .refl false fs
    · next backup hpath =>
      obtain ⟨-, rfl, hfits⟩ := computeBackupPath_eq_some hpath
      split
      · exact .refl true fs
      · have hdirs := Fs.mkdirP_parentPath_addsDirs hfits c.mkdirOk fs
        have hway := hdirs.grows (pathComponents_parentPath_isPrefix _)
        generalize fs.mkdirP (Fs.parentPath (backupsPath store share rel)) c.mkdirOk = made at hdirs hway
        obtain ⟨ok, fs1⟩ := made
        cases ok with
        | false => exact .of_addsDirs hdirs false
        | true =>
          dsimp only
          split
          · exact .of_addsDirs hdirs false
          · split
            · next content _ hsrc1 =>
              -- the source is what it was before the directories were made
              obtain ⟨n, hn⟩ : ∃ n, fs.stat src = some n :=
                Option.ne_none_iff_exists'.1 fun hnone => hsrc (.inr (by rw [hnone]; rfl))
              have hsame : n = .regular content :=
                Option.some.inj ((hway.stat hn).symm.trans hsrc1)
              rw [BackupCall.source_vfs (hsame ▸ hn)]
              exact (createAndCopy_step hunlink).after hdirs
            · exact .of_addsDirs hdirs false

/-- `fanotify_do_backup` on the tree. -/
theorem fanotifyDoBackupWith_step (hunlink : c.unlinkOk = true) (file : Option Content) :
    StoreStep (pathComponents (backupsPath store channelDir filePath)) file fs
      (fanotifyDoBackupWith c file filePath store channelDir fs) := by
  have hway := pathComponents_parentPath_isPrefix (backupsPath store channelDir filePath)
  have hdirs := Fs.mkdirEach_addsDirs hway c.mkdirOk fs
  unfold fanotifyDoBackupWith
  split
  · dsimp only
    split
    · exact .refl false fs
    · exact (createAndCopy_step hunlink).after hdirs
  · exact .refl false fs

/-- Either routine on the tree. -/
theorem BackupCall.run_step (call : BackupCall) (hunlink : call.calls.unlinkOk = true) (store : CStr)
    (fs : Fs) : StoreStep (call.place store) (call.source fs) fs (call.run store fs) := by
  cases call with
  | vfs c src share rel => exact doBackupWith_step hunlink
  | fanotify c file filePath channelDir => exact fanotifyDoBackupWith_step hunlink file

/-! ## When only the modelled outcomes of `Backup` fail -/

/-- The outcomes as `Backup` sums them up. -/
def BackupCalls.io (c : BackupCalls) (content : Content) : BackupIo where
  mkdirOk := c.mkdirOk
  openOk := c.openSrcOk
  createOk := c.createOk
  copyOk := (rguardCopyFd c.copy content content.length).1
  copied := (rguardCopyFd c.copy content content.length).2.length
  unlinkOk := c.unlinkOk

/-- No call fails that `Backup` takes for granted. -/
def BackupCalls.Granted (c : BackupCalls) : Prop :=
  c.statSrcOk = true ∧ c.statBackupOk = true ∧ c.mkdirsOk = true ∧ c.createOk = true

theorem createAndCopy_eq (hcreate : c.createOk = true) : createAndCopy c backup content fs =
    match fs.createExcl backup (c.io content).createOk with
    | .failed => (false, fs)
    | .exists => (true, fs)
    | .created => copyToNew (c.io content) fs (pathComponents backup) content := by
  have hprefix := rguardCopyFd_isPrefix c.copy content content.length
  have hwhole : ∀ dst, rguardCopyFd c.copy content content.length = (true, dst) → dst = content :=
    fun _ => rguardCopyFd_ok
  unfold createAndCopy copyToNew BackupCalls.io
  dsimp only
  rw [hcreate, Bool.not_true, if_neg Bool.false_ne_true]
  cases hcreated : fs.createExcl backup true with
  | failed => rfl
  | «exists» => rfl
  | created =>
    dsimp only
    generalize rguardCopyFd c.copy content content.length = result at hprefix hwhole
    obtain ⟨ok, copied⟩ := result
    cases ok with
    | true =>
      rw [hwhole copied rfl, if_pos rfl]
    | false =>
      rw [if_neg Bool.false_ne_true]
      dsimp only at hprefix ⊢
      cases c.unlinkOk with
      | true => rw [if_pos rfl, if_pos rfl, Fs.remove_put (node_of_created hcreated)]
      | false =>
        rw [if_neg Bool.false_ne_true, if_neg Bool.false_ne_true,
          ← List.prefix_iff_eq_take.1 hprefix]

/-- `do_backup` is the function of `Backup`. -/
theorem doBackupWith_eq (hgranted : c.Granted) (hsrc : fs.stat src = some (.regular content)) :
    doBackupWith c store src share rel fs = doBackup (c.io content) store src share rel fs := by
  obtain ⟨hstat, hbackup, hmkdirs, hcreate⟩ := hgranted
  unfold doBackupWith doBackup
  rw [hsrc, hstat, if_neg (by simp)]
  dsimp only
  cases hpath : computeBackupPath store share rel with
  | none => rfl
  | some backup =>
    obtain ⟨-, rfl, hfits⟩ := computeBackupPath_eq_some hpath
    have hdirs := Fs.mkdirP_parentPath_addsDirs hfits c.mkdirOk fs
    have hway := hdirs.grows (pathComponents_parentPath_isPrefix _)
    dsimp only
    rw [hbackup, hmkdirs]
    cases fs.stat (backupsPath store share rel) with
    | some n => rfl
    | none =>
      rw [if_neg (by simp)]
      dsimp only [BackupCalls.io] at hway ⊢
      generalize fs.mkdirP (Fs.parentPath (backupsPath store share rel)) c.mkdirOk = made at hway
      obtain ⟨ok, fs1⟩ := made
      cases ok with
      | false => rfl
      | true =>
        dsimp only at hway ⊢
        rw [hway.stat hsrc, Bool.not_true, if_neg Bool.false_ne_true]
        cases c.openSrcOk with
        | false => rfl
        | true => exact createAndCopy_eq hcreate

/-- `fanotify_do_backup` is the function of `Fanotify`. -/
theorem fanotifyDoBackupWith_eq (hgranted : c.Granted) (content : Content) :
    fanotifyDoBackupWith c (some content) filePath store channelDir fs =
      fanotifyDoBackup (c.io content) (some content) filePath store channelDir fs := by
  obtain ⟨hstat, -, -, hcreate⟩ := hgranted
  unfold fanotifyDoBackupWith fanotifyDoBackup
  rw [hstat]
  dsimp only
  split
  · rfl
  · exact createAndCopy_eq hcreate

/-! ## Runs -/

theorem BackupCall.backupsDir_isPrefix (call : BackupCall) (store : CStr) :
    backupsDir store <+: call.place store := by
  unfold backupsDir
  cases call <;> simp [BackupCall.place, pathComponents_backupsPath]

/-- A file under the backups stays. -/
theorem storeStep_keeps {e : StoreEvent} {n : Node} (he : e.KeepsStore store)
    (hb : backupsDir store <+: b) (hn : fs.node b = some n) : (storeStep store fs e).node b = some n := by
  cases e with
  | backup call => exact (call.run_step he store fs).keeps b n hn
  | edit loc m =>
    have hne : b ≠ loc := by
      rintro rfl
      exact he.1 hb
    exact (Function.update_of_ne hne ..).trans hn

end

/-- Over every sequence of backups, each with any of its system calls failing but the unlink of
a failed copy, and of changes to other files: the file that a call created when it returned OK
holds what the source held during the call, and goes on to hold it; a call that returns an
error leaves no new file. -/
theorem first_copy_wins (store : CStr) (fs : Fs) (pre post : List StoreEvent) (call : BackupCall)
    (hkeeps : ∀ e ∈ pre ++ .backup call :: post, e.KeepsStore store) :
    (∀ b content, (Runs.run (storeStep store) fs pre).node b = none →
      (call.run store (Runs.run (storeStep store) fs pre)).1 = true →
      (call.run store (Runs.run (storeStep store) fs pre)).2.node b = some (.regular content) →
      call.source (Runs.run (storeStep store) fs pre) = some content ∧ b = call.place store ∧
        ∀ es, es <+: post → (Runs.run (storeStep store) fs (pre ++ .backup call :: es)).node b =
          some (.regular content)) ∧
    ((call.run store (Runs.run (storeStep store) fs pre)).1 = false →
      ∀ b content, (call.run store (Runs.run (storeStep store) fs pre)).2.node b =
        some (.regular content) →
      (Runs.run (storeStep store) fs pre).node b = some (.regular content)) := by
  have hunlink : call.calls.unlinkOk = true := hkeeps (.backup call) (by simp)
  have hstep := call.run_step hunlink store (Runs.run (storeStep store) fs pre)
  generalize hs : Runs.run (storeStep store) fs pre = s at hstep
  refine ⟨fun b content hnone hok hnode => ?_, fun hfail b content hnode => ?_⟩
  · rcases hstep.adds b _ hnone hnode with hdir | ⟨-, rfl, content', hsource, hcontent⟩
    · cases hdir
    · cases hcontent
      refine ⟨hsource, rfl, fun es hes => ?_⟩
      rw [Runs.run_append, hs, Runs.run_cons]
      have hall : ∀ e ∈ es, e.KeepsStore store := fun e he =>
        hkeeps e (List.mem_append_right _ (List.mem_cons_of_mem _ (hes.subset he)))
      exact Runs.run_invariant_of_allSteps
        (fun fs : Fs => fs.node (call.place store) = some (.regular content))
        (fun fs e hn he => storeStep_keeps he (call.backupsDir_isPrefix store) hn) hnode
        (Runs.allSteps_of_forall hall)
  · cases hold : s.node b with
    | none =>
      rcases hstep.adds b _ hold hnode with hdir | ⟨hok, -⟩
      · cases hdir
      · cases hfail.symm.trans hok
    | some n => exact (hstep.keeps b n hold).symm.trans hnode

/-- Calls that succeed, with a copy by `copy_file_range`, then `read` and `write`. -/
def sampleCalls : BackupCalls where
  statSrcOk := true
  statBackupOk := true
  mkdirOk _ := true
  mkdirsOk := true
  openSrcOk := true
  createOk := true
  copy := ⟨false, [⟨true, 1⟩], true, [(⟨true, 9⟩, [⟨true, 1⟩, ⟨true, 1⟩])]⟩
  unlinkOk := true

/-- A share with a file. -/
def sampleShareTree : Fs :=
  (Fs.empty.put [lit "h"] .directory).put [lit "h", lit "a"] (.regular [1, 2, 3])

/-- The backup of `a` on the share `home`. -/
def sampleVfsBackup : BackupCall := .vfs sampleCalls (lit "/h/a") (lit "home") (lit "a")

/-- A file that is backed up, overwritten and backed up again. -/
theorem first_copy_wins_sample :
    (Runs.run (storeStep (lit "/s")) sampleShareTree [.backup sampleVfsBackup,
        .edit [lit "h", lit "a"] (some (.regular [9])), .backup sampleVfsBackup]).node
      [lit "s", lit "backups", lit "home", lit "a"] = some (.regular [1, 2, 3]) :=
  ((first_copy_wins (lit "/s") sampleShareTree [] [.edit [lit "h", lit "a"] (some (.regular [9])),
    .backup sampleVfsBackup] sampleVfsBackup (by decide)).1 _ _ (by decide)
    (by decide) (by decide)).2.2 _ (List.prefix_refl _)

end GfrGuard
