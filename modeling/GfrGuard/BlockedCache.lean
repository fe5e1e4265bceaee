import GfrGuard.Lib.Runs
import GfrGuard.NameOps

/-!
# The cache of the blocked file

A worker of the file server keeps the content of the blocked file and reads it again when `stat`
shows another modification time than the one it remembers. The file is written aside and renamed
into place, so its time is that of the last write before the rename, and `stat`, `open` and `read`
of the worker may see different files. The worker is deceived when the file has the time it
remembers, or is about to, with another list (`Deceived`). While no rename does that, it answers by
the content of the file (`blocked_cache_coherent`).
-/

namespace GfrGuard

/-! ## The file -/

/-- `struct timespec`. -/
structure Timespec where
  sec : Int
  nsec : Int
deriving DecidableEq

/-- A regular file: its content and its modification time. -/
structure FileVersion where
  content : CStr
  mtime : Timespec
deriving DecidableEq

/-- The blocked file, the file `write_atomic` writes aside, and the clock file times are taken
from. -/
structure Disk where
  file : Option FileVersion
  tmp : Option FileVersion
  clock : Timespec

/-! ## The worker -/

/-- `blocked_content` and `blocked_mtime`. -/
structure BlockedCache where
  content : Option CStr
  mtime : Timespec
deriving DecidableEq

/-- Where `refresh_blocked_cache` is, with what it has seen: the size and the time from `stat`, the
file it opened, the bytes it read. -/
inductive Refresh where
  | idle
  | statted (size : Nat) (mtime : Timespec)
  | opened (size : Nat) (mtime : Timespec) (file : FileVersion)
  | loaded (buf : CStr) (mtime : Timespec)
deriving DecidableEq

/-- The file and one worker. -/
structure CacheSystem where
  disk : Disk
  cache : BlockedCache
  refresh : Refresh

/-- A step of the clock, of a writer or of the worker. -/
inductive CacheEvent where
  | tick (now : Timespec)
  | openTmp
  | write (data : CStr)
  | rename
  | unlinkTmp
  | stat
  | open (ok : Bool)
  | read (ok : Bool)
  | store
deriving DecidableEq

/-- `stat` and the comparison: a missing file empties the cache, a time that is remembered ends the
refresh. -/
def refreshStat (s : CacheSystem) : CacheSystem :=
  match s.disk.file with
  | none => { s with cache := ⟨none, { s.cache.mtime with sec := 0 }⟩ }
  | some v =>
    if v.mtime = s.cache.mtime ∧ s.cache.content.isSome then s
    else { s with refresh := .statted v.content.length v.mtime }

/-- `open`: of the file there is by then. -/
def refreshOpen (ok : Bool) (s : CacheSystem) : CacheSystem :=
  match s.refresh with
  | .statted size mtime =>
    match ok, s.disk.file with
    | true, some v => { s with refresh := .opened size mtime v }
    | _, _ => { s with refresh := .idle }
  | _ => s

/-- `read` into a buffer of the size `stat` saw. -/
def refreshRead (ok : Bool) (s : CacheSystem) : CacheSystem :=
  match s.refresh with
  | .opened size mtime v =>
    { s with refresh := if ok then .loaded (v.content.take size) mtime else .idle }
  | _ => s

/-- The list is kept, with the time `stat` saw. -/
def refreshStore (s : CacheSystem) : CacheSystem :=
  match s.refresh with
  | .loaded buf mtime => { s with cache := ⟨some buf, mtime⟩, refresh := .idle }
  | _ => s

/-- `rename` of the file written aside. -/
def renameStep (s : CacheSystem) : CacheSystem :=
  match s.disk.tmp with
  | none => s
  | some v => { s with disk := { s.disk with file := some v, tmp := none } }

/-- One step; a step of the worker that is not its next one changes nothing. -/
def cacheStep (s : CacheSystem) : CacheEvent → CacheSystem
  | .tick now => { s with disk := { s.disk with clock := now } }
  | .openTmp => { s with disk := { s.disk with tmp := some ⟨[], s.disk.clock⟩ } }
  | .write data =>
    { s with disk := { s.disk with tmp := s.disk.tmp.map fun v => ⟨v.content ++ data, s.disk.clock⟩ } }
  | .rename => renameStep s
  | .unlinkTmp => { s with disk := { s.disk with tmp := none } }
  | .stat => if s.refresh = .idle then refreshStat s else s
  | .open ok => refreshOpen ok s
  | .read ok => refreshRead ok s
  | .store => refreshStore s

/-- A new worker. -/
def CacheSystem.start (disk : Disk) : CacheSystem := ⟨disk, ⟨none, ⟨0, 0⟩⟩, .idle⟩

/-- The state after a run. -/
def cacheRun (disk : Disk) (es : List CacheEvent) : CacheSystem :=
  Runs.run cacheStep (CacheSystem.start disk) es

/-- A refresh in which nothing fails and no writer steps. -/
def refreshed (s : CacheSystem) : CacheSystem :=
  Runs.run cacheStep s [.stat, .open true, .read true, .store]

/-- The content of the blocked file. -/
def Disk.blocked (d : Disk) : Option CStr := d.file.map (·.content)

/-- With no writer at work, a call of `is_blocked` that completes its refresh does what the content of
the file says. -/
def Coherent (s : CacheSystem) : Prop :=
  s.disk.tmp = none → s.refresh = .idle → ∀ (conn : Conn) (env : VfsEnv) (vs : VfsState),
    conn.isBlocked { env with blocked := (refreshed s).cache.content } vs =
      conn.isBlocked { env with blocked := s.disk.blocked } vs

/-! ## What the worker remembers -/

/-- The list the worker holds, with its time. -/
def BlockedCache.held (c : BlockedCache) : Option (CStr × Timespec) := c.content.map (·, c.mtime)

/-- The list a refresh under way would store were it to open `v`, with the time it would store. -/
def Refresh.held (v : FileVersion) : Refresh → Option (CStr × Timespec)
  | idle => none
  | statted size mtime => some (v.content.take size, mtime)
  | opened size mtime file => some (file.content.take size, mtime)
  | loaded buf mtime => some (buf, mtime)

/-- The worker holds another list for the time of the file, or a refresh under way would store one. -/
def Deceived (s : CacheSystem) (v : FileVersion) : Prop :=
  ∃ h, (s.cache.held = some h ∨ s.refresh.held v = some h) ∧ h.2 = v.mtime ∧ h.1 ≠ v.content

/-- The step puts no file in place that deceives the worker. -/
def Undeceiving (s : CacheSystem) (e : CacheEvent) : Prop :=
  e = .rename → ∀ v, s.disk.tmp = some v → ¬ Deceived s v

/-- The blocked file does not deceive the worker. -/
def CacheSystem.Honest (s : CacheSystem) : Prop := ∀ v, s.disk.file = some v → ¬ Deceived s v

section
variable {s : CacheSystem} {v : FileVersion} {e : CacheEvent} {disk : Disk} {es : List CacheEvent}

theorem honest_start (disk : Disk) : (CacheSystem.start disk).Honest := by
  rintro v - ⟨h, hheld | hheld, -⟩ <;> cases hheld

/-- A step that leaves the file alone keeps the worker honest, when the lists it remembers after the
step are remembered before, or are the content of the file. -/
theorem CacheSystem.Honest.of_held {s' : CacheSystem} (hs : s.Honest)
    (hfile : s'.disk.file = s.disk.file)
    (hheld : ∀ v h, s.disk.file = some v → s'.cache.held = some h ∨ s'.refresh.held v = some h →
      (s.cache.held = some h ∨ s.refresh.held v = some h) ∨ h.1 = v.content) : s'.Honest := by
  rintro v hv ⟨h, hh, htime, hlist⟩
  rw [hfile] at hv
  rcases hheld v h hv hh with hold | hcontent
  · exact hs v hv ⟨h, hold, htime, hlist⟩
  · exact hlist hcontent

theorem CacheSystem.Honest.refreshStat (hs : s.Honest) : (refreshStat s).Honest := by
  unfold GfrGuard.refreshStat
  split
  · next hnone => exact fun v hv => by rw [hnone] at hv; cases hv
  · next v hv =>
    split
    · exact hs
    · refine hs.of_held rfl fun v' h hv' hh => ?_
      obtain rfl : v = v' := Option.some.inj (hv.symm.trans hv')
      rcases hh with hh | hh
      · exact .inl (.inl hh)
      · -- the size is that of the file
        cases hh
        exact .inr List.take_length

theorem CacheSystem.Honest.refreshOpen (hs : s.Honest) (ok : Bool) : (refreshOpen ok s).Honest := by
  unfold GfrGuard.refreshOpen
  split
  · next size mtime hpc =>
    split
    · next v hv =>
      refine hs.of_held rfl fun v' h hv' hh => .inl (hh.imp_right fun hh => ?_)
      obtain rfl : v = v' := Option.some.inj (hv.symm.trans hv')
      rw [hpc]
      exact hh
    · exact hs.of_held rfl fun v h hv hh => .inl (.inl (hh.resolve_right (by simp [Refresh.held])))
  · exact hs

theorem CacheSystem.Honest.refreshRead (hs : s.Honest) (ok : Bool) : (refreshRead ok s).Honest := by
  unfold GfrGuard.refreshRead
  split
  · next size mtime v hpc =>
    refine hs.of_held rfl fun v' h hv' hh => .inl (hh.imp_right fun hh => ?_)
    rw [hpc]
    cases ok with
    | true => exact hh
    | false => cases hh
  · exact hs

theorem CacheSystem.Honest.refreshStore (hs : s.Honest) : (refreshStore s).Honest := by
  unfold GfrGuard.refreshStore
  split
  · next buf mtime hpc =>
    refine hs.of_held rfl fun v h hv hh => .inl (.inr ?_)
    rw [hpc]
    exact hh.resolve_right (by simp [Refresh.held])
  · exact hs

theorem CacheSystem.Honest.renameStep (hs : s.Honest) (he : Undeceiving s .rename) :
    (renameStep s).Honest := by
  unfold GfrGuard.renameStep
  split
  · exact hs
  · next v hv =>
    rintro v' hv'
    cases hv'
    exact he rfl v hv

/-- Each step keeps the worker honest, a rename when the new file does not deceive it. -/
theorem CacheSystem.Honest.step (hs : s.Honest) (he : Undeceiving s e) : (cacheStep s e).Honest := by
  cases e with
  | tick now => exact hs
  | openTmp => exact hs
  | write data => exact hs
  | unlinkTmp => exact hs
  | rename => exact hs.renameStep he
  | stat =>
    dsimp only [cacheStep]
    split
    · exact hs.refreshStat
    · exact hs
  | «open» ok => exact hs.refreshOpen ok
  | read ok => exact hs.refreshRead ok
  | store => exact hs.refreshStore

/-! ## A refresh at rest -/

theorem refreshed_eq (s : CacheSystem) : refreshed s =
    refreshStore (refreshRead true (refreshOpen true (cacheStep s .stat))) := rfl

/-- At rest only the list the worker holds can deceive it. -/
theorem honest_iff_of_idle (hidle : s.refresh = .idle) :
    s.Honest ↔ ∀ v c, s.disk.file = some v → s.cache.content = some c → s.cache.mtime = v.mtime →
      c = v.content := by
  constructor
  · intro hs v c hv hc htime
    by_contra hne
    exact hs v hv ⟨(c, s.cache.mtime), .inl (by rw [BlockedCache.held, hc]; rfl), htime, hne⟩
  · rintro hs v hv ⟨h, hheld | hheld, htime, hlist⟩
    · obtain ⟨c, hc, rfl⟩ := Option.map_eq_some_iff.1 hheld
      exact hlist (hs v c hv hc htime)
    · rw [hidle] at hheld
      cases hheld

/-- A worker at rest reads the content of the file exactly when the file does not deceive it. -/
theorem refreshed_content_iff (hidle : s.refresh = .idle) :
    (refreshed s).cache.content = s.disk.blocked ↔ s.Honest := by
  have hstat : cacheStep s .stat = refreshStat s := if_pos hidle
  rw [refreshed_eq, hstat, honest_iff_of_idle hidle]
  unfold refreshStat Disk.blocked
  cases hfile : s.disk.file with
  | none => simp [refreshOpen, refreshRead, refreshStore, hidle]
  | some v =>
    dsimp only
    split
    · next hhit =>
      -- the time is remembered: the list held is the answer
      obtain ⟨c, hc⟩ := Option.isSome_iff_exists.1 hhit.2
      simp [refreshOpen, refreshRead, refreshStore, hidle, hc, hhit.1]
    · next hmiss =>
      -- the file is read
      refine iff_of_true (by simp [refreshOpen, refreshRead, refreshStore, hfile]) fun v' c hv hc htime => ?_
      cases hv
      exact absurd ⟨htime.symm, by rw [hc]; rfl⟩ hmiss

/-- In every run without a deceiving rename the worker answers by the content of the file. -/
theorem blocked_cache_coherent (disk : Disk) (es : List CacheEvent)
    (h : Runs.AllSteps cacheStep Undeceiving (CacheSystem.start disk) es) :
    Coherent (cacheRun disk es) := by
  have hhonest : (cacheRun disk es).Honest :=
    Runs.run_invariant_of_allSteps _ (fun _ _ hs he => hs.step he) (honest_start disk) h
  intro _ hidle conn env vs
  rw [(refreshed_content_iff hidle).2 hhonest]

end

/-! ## Two writes in one tick -/

/-- The file lists 10.0.0.5. -/
def tickDisk : Disk := ⟨some ⟨lit "10.0.0.5\n", ⟨1, 0⟩⟩, none, ⟨1, 0⟩⟩

/-- A worker reads it, and then it is replaced. -/
def replaceRun (now : Timespec) : List CacheEvent :=
  [.stat, .open true, .read true, .store, .tick now, .openTmp, .write (lit "10.0.0.6\n"), .rename]

/-- In the next tick the worker sees it. -/
theorem blocked_cache_coherent_sample : Coherent (cacheRun tickDisk (replaceRun ⟨1, 4000000⟩)) := by
  refine blocked_cache_coherent tickDisk (replaceRun ⟨1, 4000000⟩)
    ⟨nofun, nofun, nofun, nofun, nofun, nofun, nofun, fun _ v hv => ?_, trivial⟩
  -- the list held has the time of the first file
  cases hv
  rintro ⟨h, hheld | hheld, htime, -⟩
  · cases hheld
    exact absurd htime (by decide)
  · cases hheld

/-- In the same tick it does not: who is at 10.0.0.6 is let in. -/
theorem blocked_cache_incoherent :
    ¬ ∀ (disk : Disk) (es : List CacheEvent), Coherent (cacheRun disk es) := by
  intro h
  have hsame := h tickDisk (replaceRun ⟨1, 0⟩) rfl rfl { sampleConn with ip := lit "10.0.0.6" }
    sampleVfsEnv ⟨.empty, []⟩
  have hreply := congrArg Prod.fst hsame
  revert hreply
  decide

end GfrGuard
