import GfrGuard.Lib.Lexical
import GfrGuard.PreimageRow
import GfrGuard.Run

/-!
# Backup paths and the store

The path of a preimage is put together from the store, the share and the path of a message. Neither
of the last two is looked at for `..`, so the file it names can lie outside the store. It lies in
the store exactly when the share and the recovered path, taken together, come down again by the names
they left (`recorded_in_store_iff`).
-/

namespace GfrGuard

open LexicalPath

/-- The path begins at the root. -/
def isRooted (path : CStr) : Bool := path.head? = some slash

/-- The path without `.` and `..`. -/
def lexicalPath (path : CStr) : NormalPath CStr :=
  normalize [dot] [dot, dot] (isRooted path) (pathComponents path)

/-- `<store>/backups`. -/
def backupsDirPath (store : CStr) : CStr := store ++ lit "/backups"

/-- The path lies below the backups of the store, by its components alone. -/
def InStore (store path : CStr) : Prop := (lexicalPath (backupsDirPath store)).Below (lexicalPath path)

instance (store path : CStr) : Decidable (InStore store path) :=
  inferInstanceAs (Decidable (NormalPath.Below _ _))

/-- The part of a backup path that a message decides, without `.` and `..`. -/
def messagePath (msg : EventMsg) : NormalPath CStr :=
  normalize [dot] [dot, dot] false (pathComponents msg.shareName.str ++
    pathComponents (backupRel msg.shareName.str msg.filePath.str))

/-- The rows a message inserts. -/
def insertedRows (env : CallEnv) (msg : EventMsg) (d : Daemon) : List ProtectedFile :=
  (processMsg env msg d).db.protectedFiles.drop d.db.protectedFiles.length

section
variable {env : CallEnv} {msg : EventMsg} {d : Daemon}

/-- A backup path is the backups of the store and what the message decides. -/
theorem lexicalPath_backupsPath (store share rel : CStr) :
    lexicalPath (backupsPath store share rel) =
      (lexicalPath (backupsDirPath store)).append (isRooted (backupsDirPath store))
        (normalize [dot] [dot, dot] false (pathComponents share ++ pathComponents rel)) := by
  have hrooted : isRooted (backupsPath store share rel) = isRooted (backupsDirPath store) := by
    unfold isRooted backupsPath backupsDirPath
    cases store <;> rfl
  have hdir : pathComponents (backupsDirPath store) = pathComponents store ++ [lit "backups"] := by
    have hsplit : backupsDirPath store = store ++ slash :: lit "backups" := rfl
    rw [hsplit, pathComponents_append_slash,
      pathComponents_name (a := lit "backups") (by decide) (by decide)]
  unfold lexicalPath
  rw [hrooted, pathComponents_backupsPath, hdir, ← normalize_append, List.append_assoc]
  rfl

/-- Every row a message inserts names a file in the store exactly when, if it records one, what it
decides of the path stays below the backups. -/
theorem recorded_in_store_iff (env : CallEnv) (msg : EventMsg) (d : Daemon) :
    (∀ row ∈ insertedRows env msg d, InStore d.policy.storePath.str row.backupPath) ↔
      (RecordsRow env msg d →
        NormalPath.StaysBelow (isRooted (backupsDirPath d.policy.storePath.str))
          (lexicalPath (backupsDirPath d.policy.storePath.str)) (messagePath msg)) := by
  unfold insertedRows
  rcases processMsg_protectedFiles env msg d with ⟨hnot, hrows⟩ | ⟨hrecords, path, row, hpath, hrows, hrow, -⟩
  · refine iff_of_true ?_ fun h => absurd h hnot
    rw [hrows, List.drop_length]
    rintro row ⟨⟩
  · have hformat : path = backupsPath d.policy.storePath.str msg.shareName.str
        (backupRel msg.shareName.str msg.filePath.str) := by
      unfold recordBackupPath at hpath
      dsimp only at hpath
      split at hpath
      · exact (Option.some.inj hpath).symm
      · cases hpath
    have hin : InStore d.policy.storePath.str row.backupPath ↔
        NormalPath.StaysBelow (isRooted (backupsDirPath d.policy.storePath.str))
          (lexicalPath (backupsDirPath d.policy.storePath.str)) (messagePath msg) := by
      unfold InStore
      rw [hrow, hformat, lexicalPath_backupsPath]
      exact NormalPath.below_append_iff _ _ _
    rw [hrows, List.drop_left, ← hin]
    constructor
    · exact fun h _ => h row (List.mem_singleton_self row)
    · intro h row' hrow'
      rw [List.mem_singleton.1 hrow']
      exact h hrecords

end

/-- A datagram that reports a preimage of `/etc/shadow` on a share of five steps up. -/
def escapeMsg : EventMsg :=
  { sampleMsg with
    opType := opWrite
    flags := flagRisky ||| flagBackedUp
    shareName := .ofStr 64 (lit "../../../../..")
    filePath := .ofStr 4096 (lit "/etc/shadow") }

/-- Its backup path is `/etc/shadow` itself. -/
theorem recorded_not_always_in_store :
    ¬ ∀ (env : CallEnv) (msg : EventMsg) (d : Daemon), ∀ row ∈ insertedRows env msg d,
      InStore d.policy.storePath.str row.backupPath := by
  intro h
  have hrows : ((insertedRows (sampleEnv 0) escapeMsg (Daemon.start .default .empty)).all fun row =>
      decide (InStore (lit "/var/lib/gf2000/rguard-store") row.backupPath)) = false := by
    decide
  have hall := List.all_eq_true.2 fun row hrow =>
    decide_eq_true (h (sampleEnv 0) escapeMsg (Daemon.start .default .empty) row hrow)
  have hstore : (Daemon.start .default .empty).policy.storePath.str =
      lit "/var/lib/gf2000/rguard-store" := by decide
  rw [hstore, hrows] at hall
  cases hall

end GfrGuard
