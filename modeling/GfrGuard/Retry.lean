import Mathlib.Data.List.Nodup
import GfrGuard.Confined
import GfrGuard.Pending

/-!
# Retrying a restore

A restore marks every row it takes up: restored, or failed. The event is marked resolved whatever
became of its rows, and a row that failed is passed over from then on. So a restore can be retried
exactly where there is nothing to retry: every row of the event is pending and can be restored when
it comes, or restored already (`retryable_iff`).
-/

namespace GfrGuard

/-- What decides one restore: the outcomes of the calls made for each file, and the tree. -/
structure RestoreCall where
  created : CreatedFile → RecoverIo
  row : ProtectedFile → RecoverIo
  now : CStr
  fs : Fs

/-- The file of a row can be restored: its path is valid, its preimage is there, and the copy over
the file succeeds after what stood there was moved away. -/
def Restorable (io : RecoverIo) (fs : Fs) (pf : ProtectedFile) : Prop :=
  validRestorePath pf.originalPath = true ∧ fs.stat pf.backupPath ≠ none ∧
    (copyFile io pf.backupPath pf.originalPath
      (((quarantineCurrent io pf.eventId pf.originalPath fs).mkdirP
        (Fs.parentPath pf.originalPath) io.mkdirOk).2)).1 = true

instance (io : RecoverIo) (fs : Fs) (pf : ProtectedFile) : Decidable (Restorable io fs pf) :=
  inferInstanceAs (Decidable (_ ∧ _ ∧ _))

section
variable (call : RestoreCall) (eventId : CStr)

/-- The created files are deleted. -/
def deletedBy (db : Db) : RecoverState :=
  (db.queryCreatedByEvent eventId).foldl (fun s cf => deleteCreatedOne (call.created cf) eventId s cf)
    ⟨call.fs, db, 0, 0, 0, 0, 0⟩

/-- One row is restored, with the outcomes of its own calls. -/
def restoreRow (s : RecoverState) (pf : ProtectedFile) : RecoverState := restoreOne (call.row pf) s pf

/-- `cmd_restore`, with outcomes of every file. -/
def cmdRestoreBy (argv : List CStr) (db : Db) : Nat × Fs × Db :=
  match eventArg argv with
  | none => (1, call.fs, db)
  | some eventId =>
    let s := deletedBy call eventId db
    let s := (s.db.queryByEvent eventId).foldl (restoreRow call) s
    if s.total = 0 ∧ s.deleted = 0 then (1, s.fs, s.db)
    else
      (if 0 < s.fail then 2 else 0, s.fs,
        s.db.updateEvent eventId s.success 0 0 (some (lit "restored")) (some (lit "resolved"))
          (some call.now))

/-- All files of an event have been restored. -/
def AllRestored (db : Db) : Prop := ∀ pf ∈ db.queryByEvent eventId, pf.restoreStatus = lit "restored"

/-- The event is marked resolved. -/
def Resolved (db : Db) : Prop := ∃ ev ∈ db.events, ev.eventId = eventId ∧ ev.status = lit "resolved"

/-- A restore can be retried: the event is resolved only if all its files are restored, and when the
causes are removed a second restore restores exactly those that failed. -/
def Retryable (argv : List CStr) (db : Db) : Prop :=
  let first := (cmdRestoreBy call argv db).2.2
  (Resolved eventId first → AllRestored eventId first) ∧
    ∀ again : RestoreCall,
      (∀ pf ∈ first.queryByEvent eventId, pf.restoreStatus = lit "failed" →
        Restorable (again.row pf) again.fs pf) →
      ∀ pf ∈ first.queryByEvent eventId,
        (pf.restoreStatus ≠ lit "restored" ∧
          ∃ pf' ∈ (cmdRestoreBy again argv first).2.2.protectedFiles,
            pf'.id = pf.id ∧ pf'.restoreStatus = lit "restored") ↔
        pf.restoreStatus = lit "failed"

/-- Every row of the event is pending and can be restored when it comes, or restored already. -/
def NothingToRetry (db : Db) : Prop :=
  (∀ pf ∈ db.queryByEvent eventId,
    pf.restoreStatus = lit "pending" ∨ pf.restoreStatus = lit "restored") ∧
  Runs.AllSteps (restoreRow call)
    (fun s pf => pf.restoreStatus = lit "pending" → Restorable (call.row pf) s.fs pf)
    (deletedBy call eventId db) (db.queryByEvent eventId)

end

section
variable {call : RestoreCall} {eventId : CStr} {db : Db} {s : RecoverState} {pf row : ProtectedFile}
  {pfs : List ProtectedFile} {argv : List CStr}

/-- The restore of the recovery tool, with one outcome for all files. -/
theorem cmdRestoreBy_const (io : RecoverIo) (argv : List CStr) (fs : Fs) (db : Db) :
    cmdRestoreBy ⟨fun _ => io, fun _ => io, io.now, fs⟩ argv db = cmdRestore io argv fs db := rfl

/-! ## One row -/

/-- What becomes of the status of a row. -/
theorem restoreRow_db (call : RestoreCall) (s : RecoverState) (pf : ProtectedFile) :
    (restoreRow call s pf).db =
      if pf.restoreStatus = lit "pending" then
        s.db.updateRestoreStatus pf.id
          (if Restorable (call.row pf) s.fs pf then lit "restored" else lit "failed")
          (call.row pf).now
      else s.db := by
  unfold restoreRow restoreOne
  dsimp only
  split
  · rfl
  · next hpending =>
    rw [if_pos (not_not.1 hpending)]
    split
    · next hbad =>
      have hnot : ¬ Restorable (call.row pf) s.fs pf := fun h => by
        simp [h.1, h.2.1] at hbad
      rw [if_neg hnot]
      rfl
    · next hgood =>
      simp only [Bool.or_eq_true, Bool.not_eq_true', decide_eq_true_eq, not_or,
        Bool.not_eq_false] at hgood
      split
      · next fs hcopy =>
        have hnot : ¬ Restorable (call.row pf) s.fs pf := fun h => by
          rw [Restorable, hcopy] at h
          cases h.2.2
        rw [if_neg hnot]
        rfl
      · next fs hcopy =>
        rw [if_pos ⟨hgood.1, hgood.2, by rw [hcopy]⟩]

theorem restoreRow_total : (restoreRow call s pf).total = s.total + 1 := by
  unfold restoreRow restoreOne
  dsimp only
  split
  · rfl
  · split
    · rfl
    · split <;> rfl

/-- A restore changes neither the ids of the rows nor their events. -/
theorem restoreRow_keys : (restoreRow call s pf).db.protectedFiles.map (fun r => (r.id, r.eventId)) =
    s.db.protectedFiles.map fun r => (r.id, r.eventId) := by
  rw [restoreRow_db]
  split
  · rw [Db.updateRestoreStatus, List.map_map]
    refine List.map_congr_left fun row _ => ?_
    rw [Function.comp_apply]
    split <;> rfl
  · rfl

theorem foldl_keys : (pfs.foldl (restoreRow call) s).db.protectedFiles.map (fun r => (r.id, r.eventId)) =
    s.db.protectedFiles.map fun r => (r.id, r.eventId) := by
  induction pfs generalizing s with
  | nil => rfl
  | cons pf pfs ih => rw [List.foldl_cons, ih, restoreRow_keys]

theorem restoreRow_ids :
    (restoreRow call s pf).db.protectedFiles.map (·.id) = s.db.protectedFiles.map (·.id) := by
  have h : List.map Prod.fst _ = List.map Prod.fst _ := congrArg _ (@restoreRow_keys call s pf)
  rwa [List.map_map, List.map_map] at h

/-- The other rows stay as they are. -/
theorem mem_restoreRow_iff (hid : row.id ≠ pf.id) :
    row ∈ (restoreRow call s pf).db.protectedFiles ↔ row ∈ s.db.protectedFiles := by
  rw [restoreRow_db]
  split
  · rw [Db.updateRestoreStatus, List.mem_map]
    constructor
    · rintro ⟨old, hold, rfl⟩
      split at hid
      · next heq => exact absurd heq hid
      · next hne =>
        rw [if_neg hne]
        exact hold
    · exact fun h => ⟨row, h, if_neg hid⟩
  · exact Iff.rfl

/-- The rows with an id have a status. -/
def StatusIs (db : Db) (id : Nat) (status : CStr) : Prop :=
  ∀ row ∈ db.protectedFiles, row.id = id → row.restoreStatus = status

/-- After its turn, a row is restored exactly where it could be, or was before. -/
theorem restoreRow_restored_iff (hmem : pf ∈ s.db.protectedFiles)
    (hids : (s.db.protectedFiles.map (·.id)).Nodup) :
    StatusIs (restoreRow call s pf).db pf.id (lit "restored") ↔
      (pf.restoreStatus = lit "pending" ∨ pf.restoreStatus = lit "restored") ∧
        (pf.restoreStatus = lit "pending" → Restorable (call.row pf) s.fs pf) := by
  have hpr : lit "pending" ≠ lit "restored" := by decide
  have hfr : lit "failed" ≠ lit "restored" := by decide
  have hunique : ∀ row ∈ s.db.protectedFiles, row.id = pf.id → row = pf := fun row hrow hid =>
    List.inj_on_of_nodup_map hids hrow hmem hid
  rw [restoreRow_db]
  by_cases hpending : pf.restoreStatus = lit "pending"
  · rw [if_pos hpending]
    by_cases hrest : Restorable (call.row pf) s.fs pf
    · rw [if_pos hrest]
      refine iff_of_true (fun row hrow hid => ?_) ⟨.inl hpending, fun _ => hrest⟩
      obtain ⟨old, -, rfl⟩ := List.mem_map.1 hrow
      split
      · rfl
      · next hne =>
        rw [if_neg hne] at hid
        exact absurd hid hne
    · rw [if_neg hrest]
      refine iff_of_false (fun h => hfr ?_) fun h => hrest (h.2 hpending)
      exact h _ (List.mem_map_of_mem hmem) (by rw [if_pos rfl]) ▸ by rw [if_pos rfl]
  · rw [if_neg hpending]
    constructor
    · exact fun h => ⟨.inr (h pf hmem rfl), fun hp => absurd hp hpending⟩
    · rintro ⟨hstatus, -⟩ row hrow hid
      rw [hunique row hrow hid]
      exact hstatus.resolve_left hpending

/-! ## All rows -/

theorem statusIs_restoreRow_iff {i : Nat} {status : CStr} (hid : i ≠ pf.id) :
    StatusIs (restoreRow call s pf).db i status ↔ StatusIs s.db i status := by
  have hrow : ∀ {row : ProtectedFile}, row.id = i → (row ∈ (restoreRow call s pf).db.protectedFiles ↔
      row ∈ s.db.protectedFiles) := fun h => mem_restoreRow_iff (h ▸ hid)
  exact ⟨fun h row hmem hi => h row ((hrow hi).2 hmem) hi,
    fun h row hmem hi => h row ((hrow hi).1 hmem) hi⟩

theorem statusIs_foldl_iff {i : Nat} {status : CStr} (hid : ∀ pf ∈ pfs, i ≠ pf.id) :
    StatusIs (pfs.foldl (restoreRow call) s).db i status ↔ StatusIs s.db i status := by
  induction pfs generalizing s with
  | nil => rfl
  | cons pf pfs ih =>
    rw [List.foldl_cons, ih fun pf' hpf' => hid pf' (List.mem_cons_of_mem _ hpf'),
      statusIs_restoreRow_iff (hid pf List.mem_cons_self)]

/-- All rows are restored in the end exactly where each could be, or was before. -/
theorem foldl_restored_iff (hids : (s.db.protectedFiles.map (·.id)).Nodup)
    (hmem : ∀ pf ∈ pfs, pf ∈ s.db.protectedFiles) (hnodup : (pfs.map (·.id)).Nodup) :
    (∀ pf ∈ pfs, StatusIs (pfs.foldl (restoreRow call) s).db pf.id (lit "restored")) ↔
      (∀ pf ∈ pfs, pf.restoreStatus = lit "pending" ∨ pf.restoreStatus = lit "restored") ∧
        Runs.AllSteps (restoreRow call)
          (fun s pf => pf.restoreStatus = lit "pending" → Restorable (call.row pf) s.fs pf) s pfs := by
  induction pfs generalizing s with
  | nil => simp
  | cons pf pfs ih =>
    obtain ⟨hfirst, hrest⟩ := List.nodup_cons.1 hnodup
    have hother : ∀ pf' ∈ pfs, pf.id ≠ pf'.id := fun pf' hpf' heq =>
      hfirst (List.mem_map.2 ⟨pf', hpf', heq.symm⟩)
    have hmem' : ∀ pf' ∈ pfs, pf' ∈ (restoreRow call s pf).db.protectedFiles := fun pf' hpf' =>
      (mem_restoreRow_iff (hother pf' hpf').symm).2 (hmem pf' (List.mem_cons_of_mem _ hpf'))
    have hids' : ((restoreRow call s pf).db.protectedFiles.map (·.id)).Nodup := by
      rw [restoreRow_ids]
      exact hids
    rw [List.foldl_cons, List.forall_mem_cons, statusIs_foldl_iff hother,
      restoreRow_restored_iff (hmem pf List.mem_cons_self) hids, ih hids' hmem' hrest,
      List.forall_mem_cons, Runs.allSteps_cons]
    exact and_and_and_comm

theorem foldl_total : (pfs.foldl (restoreRow call) s).total = s.total + pfs.length := by
  induction pfs generalizing s with
  | nil => rfl
  | cons pf pfs ih =>
    rw [List.foldl_cons, ih, restoreRow_total, List.length_cons]
    omega

/-- Deleting created files leaves the database and the count of rows. -/
theorem deleteCreated_frame (cfs : List CreatedFile) (s : RecoverState) :
    let s' := cfs.foldl (fun s cf => deleteCreatedOne (call.created cf) eventId s cf) s
    s'.db = s.db ∧ s'.total = s.total := by
  induction cfs generalizing s with
  | nil => exact ⟨rfl, rfl⟩
  | cons cf cfs ih =>
    obtain ⟨hdb, htotal⟩ := ih (deleteCreatedOne (call.created cf) eventId s cf)
    refine ⟨hdb.trans (deleteCreatedOne_db _ eventId s cf), htotal.trans ?_⟩
    unfold deleteCreatedOne
    split
    · rfl
    · split
      · rfl
      · split <;> rfl
      · split <;> rfl
      · rfl

theorem deletedBy_db (call : RestoreCall) (eventId : CStr) (db : Db) :
    (deletedBy call eventId db).db = db ∧ (deletedBy call eventId db).total = 0 :=
  deleteCreated_frame _ _

/-- What the tables are after a restore of an event. -/
theorem cmdRestoreBy_tables (harg : eventArg argv = some eventId) :
    let s := (db.queryByEvent eventId).foldl (restoreRow call) (deletedBy call eventId db)
    (cmdRestoreBy call argv db).2.2.protectedFiles = s.db.protectedFiles ∧
      (db.queryByEvent eventId ≠ [] → (cmdRestoreBy call argv db).2.2.events =
        (s.db.updateEvent eventId s.success 0 0 (some (lit "restored")) (some (lit "resolved"))
          (some call.now)).events) := by
  obtain ⟨hdb, htotal⟩ := deletedBy_db call eventId db
  unfold cmdRestoreBy
  rw [harg]
  dsimp only
  rw [hdb]
  have hcount : ((db.queryByEvent eventId).foldl (restoreRow call) (deletedBy call eventId db)).total =
      (db.queryByEvent eventId).length := by
    rw [foldl_total, htotal, Nat.zero_add]
  split
  · next hnone =>
    refine ⟨rfl, fun hne => ?_⟩
    have := List.length_pos_of_ne_nil hne
    omega
  · exact ⟨rfl, fun _ => rfl⟩

theorem foldl_events : (pfs.foldl (restoreRow call) s).db.events = s.db.events := by
  induction pfs generalizing s with
  | nil => rfl
  | cons pf pfs ih =>
    rw [List.foldl_cons, ih, restoreRow_db]
    split <;> rfl

/-- A restore of an event with rows marks it resolved. -/
theorem resolved_of_rows (call : RestoreCall) (harg : eventArg argv = some eventId)
    (hevent : db.hasEvent eventId = true) (hrows : db.queryByEvent eventId ≠ []) :
    Resolved eventId (cmdRestoreBy call argv db).2.2 := by
  obtain ⟨ev, hev, hid⟩ := List.any_eq_true.1 hevent
  unfold Resolved
  rw [(cmdRestoreBy_tables harg).2 hrows, Db.updateEvent, foldl_events, (deletedBy_db call eventId db).1]
  refine ⟨_, List.mem_map_of_mem hev, ?_⟩
  rw [if_pos (of_decide_eq_true hid)]
  exact ⟨of_decide_eq_true hid, rfl⟩

/-- The rows of the event after a restore are restored exactly where they are by id. -/
theorem allRestored_iff (call : RestoreCall) (harg : eventArg argv = some eventId)
    (hids : (db.protectedFiles.map (·.id)).Nodup) :
    AllRestored eventId (cmdRestoreBy call argv db).2.2 ↔
      ∀ pf ∈ db.queryByEvent eventId, StatusIs ((db.queryByEvent eventId).foldl (restoreRow call)
        (deletedBy call eventId db)).db pf.id (lit "restored") := by
  have hkeys : List.map _ _ = List.map _ _ :=
    @foldl_keys call (deletedBy call eventId db) (db.queryByEvent eventId)
  rw [(deletedBy_db call eventId db).1] at hkeys
  unfold AllRestored StatusIs
  simp only [mem_queryByEvent_iff, (cmdRestoreBy_tables harg).1]
  generalize ((db.queryByEvent eventId).foldl (restoreRow call)
    (deletedBy call eventId db)).db.protectedFiles = rows at hkeys
  constructor
  · rintro h pf ⟨hpf, rfl⟩ row hrow hid
    obtain ⟨old, hold, heq⟩ : ∃ old ∈ db.protectedFiles, (old.id, old.eventId) = (row.id, row.eventId) :=
      List.mem_map.1 (hkeys ▸ List.mem_map_of_mem hrow)
    obtain ⟨hi, he⟩ := Prod.mk.inj heq
    obtain rfl := List.inj_on_of_nodup_map hids hold hpf (hi.trans hid)
    exact h row ⟨hrow, he.symm⟩
  · rintro h row ⟨hrow, hevent⟩
    obtain ⟨old, hold, heq⟩ : ∃ old ∈ db.protectedFiles, (old.id, old.eventId) = (row.id, row.eventId) :=
      List.mem_map.1 (hkeys ▸ List.mem_map_of_mem hrow)
    obtain ⟨hi, he⟩ := Prod.mk.inj heq
    exact h old ⟨hold, he.trans hevent⟩ row hrow hi.symm

end

/-- A restore can be retried exactly where every row of the event is pending and can be restored
when it comes, or restored already. -/
theorem retryable_iff (call : RestoreCall) (argv : List CStr) (eventId : CStr) (db : Db)
    (harg : eventArg argv = some eventId) (hevent : db.hasEvent eventId = true)
    (hids : (db.protectedFiles.map (·.id)).Nodup) :
    Retryable call eventId argv db ↔ NothingToRetry call eventId db := by
  have hdb := (deletedBy_db call eventId db).1
  have hrows : AllRestored eventId (cmdRestoreBy call argv db).2.2 ↔ NothingToRetry call eventId db :=
    (allRestored_iff call harg hids).trans (foldl_restored_iff (hdb.symm ▸ hids)
      (fun pf hpf => hdb.symm ▸ (mem_queryByEvent_iff.1 hpf).1)
      (hids.sublist (List.filter_sublist.map _)))
  unfold Retryable
  rw [← hrows]
  dsimp only
  constructor
  · rintro ⟨hresolved, -⟩
    by_cases hnone : db.queryByEvent eventId = []
    · rw [hrows, NothingToRetry, hnone]
      exact ⟨nofun, trivial⟩
    · exact hresolved (resolved_of_rows call harg hevent hnone)
  · intro hall
    refine ⟨fun _ => hall, fun again _ pf hpf => ?_⟩
    have hrestored := hall pf hpf
    refine iff_of_false (fun h => h.1 hrestored) fun hfailed => ?_
    exact absurd (hrestored.symm.trans hfailed) (by decide)

/-- An event with one file. -/
def sampleRetryDb : Db where
  events := [⟨1, lit "e", [], [], [], [], 0, [], none, 1, 1, 90, lit "blocked", lit "active"⟩]
  protectedFiles := [Linked.sampleRow (lit "e") (lit "/srv")]
  createdFiles := []
  eventSeq := 1
  protectedSeq := 1
  createdSeq := 0

/-- A restore all of whose calls succeed. -/
def sampleRestoreCall (fs : Fs) : RestoreCall where
  created _ := homeIo
  row _ := homeIo
  now := lit "t"
  fs := fs

theorem retryable_sample :
    Retryable (sampleRestoreCall sampleTree) (lit "e") [lit "--event", lit "e"] sampleRetryDb ↔
      NothingToRetry (sampleRestoreCall sampleTree) (lit "e") sampleRetryDb :=
  retryable_iff _ _ (lit "e") sampleRetryDb (by decide) (by decide)
    (by decide)

/-- The preimage of the only file is missing: the event is resolved all the same. -/
theorem not_always_retryable :
    ¬ ∀ (call : RestoreCall) (argv : List CStr) (eventId : CStr) (db : Db),
      eventArg argv = some eventId → db.hasEvent eventId = true →
      (db.protectedFiles.map (·.id)).Nodup → Retryable call eventId argv db := by
  intro h
  have hevent : sampleRetryDb.hasEvent (lit "e") = true := by decide
  have harg : eventArg [lit "--event", lit "e"] = some (lit "e") := by decide
  obtain ⟨hresolved, -⟩ := h (sampleRestoreCall Fs.empty) _ _ _ harg hevent (by decide)
  have hall := hresolved (resolved_of_rows _ harg hevent (by decide))
  exact absurd (hall _ (List.mem_singleton_self _)) (by decide)

end GfrGuard
