import GfrGuard.FidEvents
import GfrGuard.Lib.WatchTree

/-!
# Marks of a monitored tree

A channel's directory is watched by marks on each directory of its tree, in the permission group and
in the notification group. The main thread sets them when it walks a tree (`nftw` with
`mark_tree_cb`): at the start, after an event that brings a directory, and of all channels after a
lost event. All the while others make and move directories, and what the walk has read may have
moved when it comes there. Still no directory is left out: when no event is waiting and no walk is
under way, every directory of the tree has both marks (`marks_cover_tree`), if the kernel reports what
comes into a directory it has a notification mark for, no mark fails and the paths are not too long.
-/

namespace GfrGuard

open WatchTree

/-! ## The tree -/

/-- The groups a directory is marked in. -/
inductive MarkGroup where
  | perm
  | notify
deriving DecidableEq

/-- What `nftw` has still to do: to enter a path, to mark the directory it has opened there, to read
it. -/
inductive WalkItem where
  | enter (path : CStr)
  | mark (dir : Nat) (path : CStr) (groups : List MarkGroup)
  | list (dir : Nat) (path : CStr)
deriving DecidableEq

/-- The directories by number, their marks, and what the main thread has before it. -/
structure TreeState where
  dirs : Dirs Nat CStr
  marked : MarkGroup → Nat → Bool
  /-- The events not yet handled. -/
  queue : List FidEvent
  todo : List WalkItem
  /-- `g_need_rewalk`. -/
  needRewalk : Bool

/-- The text of a path from its names. -/
def pathText (names : List CStr) : CStr := names.flatMap (slash :: ·)

/-- A name of a directory. -/
def Proper (name : CStr) : Prop := name ≠ [] ∧ slash ∉ name ∧ name ≠ [dot]

/-- The root of the file system, and the channel that is considered among all of them. -/
structure TreeEnv where
  channels : ChannelTable
  getpid : Int
  /-- The directory of a handle. -/
  decode : FileHandle → Option Nat
  top : Nat
  /-- The names on the way to the monitored directory. -/
  base : List CStr
  base_ne : base ≠ []
  base_proper : ∀ name ∈ base, Proper name
  /-- The monitored directory. -/
  root : Nat
  slot : ChannelSlot
  mem_slots : slot ∈ channels.slots
  rewalked : slot.rewalked = true
  mounted : slot.rt.mountFd.isSome = true
  realPath_eq : slot.rt.realPath = pathText base

/-- The directory at a path. -/
def TreeState.lookup (E : TreeEnv) (w : TreeState) (path : CStr) : Option Nat :=
  if path.length < pathMax then resolve w.dirs E.top (pathComponents path) else none

/-! ## Walks -/

/-- What a step of a walk meets. -/
structure WalkObs where
  /-- `opendir` succeeds. -/
  openOk : Bool
  /-- `fanotify_mark` succeeds. -/
  markOk : Bool
  /-- What `readdir` returns of a directory. -/
  names : Nat → List CStr

/-- One step of `nftw` with `mark_tree_cb`, which marks a directory before its names are read. -/
def walkStep (E : TreeEnv) (obs : WalkObs) (item : WalkItem) (w : TreeState) : TreeState :=
  match item with
  | .enter path =>
    match w.lookup E path with
    | none => w
    | some dir => if obs.openOk then { w with todo := .mark dir path [.perm, .notify] :: w.todo } else w
  | .mark dir path (g :: gs) =>
    { w with
      -- the mark is for the directory that is at the path now
      marked := fun g' d => w.marked g' d || (obs.markOk && g' = g && w.lookup E path = some d)
      todo := .mark dir path gs :: w.todo }
  | .mark dir path [] => { w with todo := .list dir path :: w.todo }
  | .list dir path => { w with todo := (obs.names dir).map (fun n => .enter (path ++ slash :: n)) ++ w.todo }

namespace TreeEnv

variable (E : TreeEnv)

/-- The drain on the tree: a handle gives the path the directory has at that time. -/
def fid (pathOf : Nat → Option CStr) : FidEnv TreeState where
  channels _ := E.channels
  resolveHandle _ handle w :=
    (((E.decode handle).bind pathOf).bind fun path =>
      if path.length < pathMax - 1 then some (.ofStr pathMax path) else none, w)
  markTree root w := { w with todo := w.todo ++ [.enter root] }
  handler _ _ w := w
  getpid := E.getpid

/-- `process_fid_event`; the walks it asks for are done before the next event. -/
def takeEvent (pathOf : Nat → Option CStr) (ev : FidEvent) (w : TreeState) : TreeState :=
  let run := ev.process (E.fid pathOf) ⟨w, [], w.needRewalk, 0⟩
  { run.env with needRewalk := run.needRewalk }

/-- The end of a drain. -/
def rewalk (w : TreeState) : TreeState :=
  let run := GfrGuard.rewalk (E.fid fun _ => none) ⟨w, [], w.needRewalk, 0⟩
  { run.env with needRewalk := run.needRewalk }

/-- The walks of all channels. -/
def walks : List WalkItem := (E.channels.slots.filter ChannelSlot.rewalked).map fun slot => .enter slot.rt.realPath

/-- `fanotify_reload_marks` of the same channels. -/
def reload (w : TreeState) : TreeState := { w with marked := fun _ _ => false, todo := E.walks }

/-- The start on a tree. -/
def start (dirs : Dirs Nat CStr) : TreeState := ⟨dirs, fun _ _ => false, [], E.walks, false⟩

/-! ## Steps -/

/-- The text of a path below the monitored directory. -/
def text (path : List CStr) : CStr := pathText (E.base ++ path)

/-- The event tells that the directory has got an entry for a directory. -/
def Announces (dir : Nat) (name : CStr) (ev : FidEvent) : Prop :=
  ev.mask &&& fanQOverflow = 0 ∧ ev.pid ≠ E.getpid ∧ ev.mask &&& fanOndir ≠ 0 ∧ Proper name ∧
    ∃ e : DirEntry, e.fsid = E.slot.rt.fsid ∧ E.decode e.handle = some dir ∧ e.name = name ∧
      (ev.mask &&& fanRename ≠ 0 ∧ ev.entry infoNewDfidName = some e ∨
        ev.mask &&& fanRename = 0 ∧ ev.mask &&& fanCreate ≠ 0 ∧ ev.entry infoDfidName = some e)

/-- The event tells that events were lost. -/
def Overflows (ev : FidEvent) : Prop := ev.mask &&& fanQOverflow ≠ 0

/-- Nothing that was told is gone; events may have come, or been merged. -/
def Kept (queue queue' : List FidEvent) : Prop :=
  ∀ ev ∈ queue, ∃ ev' ∈ queue', (Overflows ev → Overflows ev') ∧
    ∀ dir name, E.Announces dir name ev → E.Announces dir name ev'

/-- What holds of the tree throughout: names are proper, the monitored directory is at its place, and no
path below it is too long. -/
structure Fits (dirs : Dirs Nat CStr) : Prop where
  proper : ∀ d n c, dirs d n = some c → Proper n
  place : resolve dirs E.top E.base = some E.root
  short : ∀ path d, resolve dirs E.root path = some d → (E.text path).length < pathMax - 1

/-- The paths `readlink` gives of the directories that have one. -/
def Paths (dirs : Dirs Nat CStr) (pathOf : Nat → Option CStr) : Prop :=
  ∀ path d, resolve dirs E.root path = some d → pathOf d = some (E.text path)

/-- No call of a walk fails, and no entry is left out. -/
structure Complete (dirs : Dirs Nat CStr) (obs : WalkObs) : Prop where
  openOk : obs.openOk = true
  markOk : obs.markOk = true
  names : ∀ d n c, dirs d n = some c → n ∈ obs.names d

/-- A step of other processes, or of the main thread. -/
inductive Step : TreeState → TreeState → Prop
  /-- A directory is made or moved somewhere. -/
  | link (w : TreeState) (dir : Nat) (name : CStr) (dirs : Dirs Nat CStr) (queue : List FidEvent)
      (hrest : ∀ d n, (d, n) ≠ (dir, name) → dirs d n = w.dirs d n) (hfits : E.Fits dirs)
      (hkept : E.Kept w.queue queue)
      (htold : w.marked .notify dir = true → ∃ ev ∈ queue, E.Announces dir name ev ∨ Overflows ev) :
      Step w { w with dirs := dirs, queue := queue }
  /-- A directory is removed or moved away, or there are other events. -/
  | unlink (w : TreeState) (dirs : Dirs Nat CStr) (queue : List FidEvent)
      (hdirs : ∀ d n c, dirs d n = some c → w.dirs d n = some c)
      (hplace : resolve dirs E.top E.base = some E.root) (hkept : E.Kept w.queue queue) :
      Step w { w with dirs := dirs, queue := queue }
  | take (w : TreeState) (ev : FidEvent) (rest : List FidEvent) (pathOf : Nat → Option CStr)
      (hqueue : w.queue = ev :: rest) (hidle : w.todo = []) (hpaths : E.Paths w.dirs pathOf) :
      Step w (E.takeEvent pathOf ev { w with queue := rest })
  | walk (w : TreeState) (item : WalkItem) (rest : List WalkItem) (obs : WalkObs) (htodo : w.todo = item :: rest)
      (hobs : Complete w.dirs obs) : Step w (walkStep E obs item { w with todo := rest })
  | rewalk (w : TreeState) (hqueue : w.queue = []) (hidle : w.todo = []) : Step w (E.rewalk w)
  | reload (w : TreeState) (hidle : w.todo = []) : Step w (E.reload w)

/-! ## The tree as a watched tree -/

/-- The monitored directory and its groups. -/
def setup : Setup Nat MarkGroup := ⟨E.root, [.perm, .notify], .notify, by simp⟩

/-- What the main thread owes. -/
def Owes (w : TreeState) : Duty Nat CStr MarkGroup → Prop
  | .all => w.needRewalk = true ∨ ∃ ev ∈ w.queue, Overflows ev
  | .entry dir name => ∃ ev ∈ w.queue, E.Announces dir name ev
  | .enter path => (∀ n ∈ path, Proper n) ∧ .enter (E.text path) ∈ w.todo
  | .mark dir path groups => (∀ n ∈ path, Proper n) ∧ .mark dir (E.text path) groups ∈ w.todo
  | .list dir path => (∀ n ∈ path, Proper n) ∧ .list dir (E.text path) ∈ w.todo

/-- The watched tree of a state. -/
def watch (w : TreeState) : Watch Nat CStr MarkGroup := ⟨w.dirs, fun g d => w.marked g d = true, {o | E.Owes w o}⟩

end TreeEnv

section
variable {E : TreeEnv} {w w' : TreeState} {dirs : Dirs Nat CStr} {path names : List CStr} {d dir : Nat} {name : CStr}
  {pathOf : Nat → Option CStr} {ev : FidEvent}

/-! ## Paths -/

theorem pathComponents_append_pathText (a : CStr) (names : List CStr) :
    pathComponents (a ++ pathText names) = pathComponents a ++ pathComponents (pathText names) := by
  cases names with
  | nil => rw [pathText, List.flatMap_nil, List.append_nil, pathComponents_nil, List.append_nil]
  | cons n names =>
    rw [pathText, List.flatMap_cons, List.cons_append, pathComponents_append_slash, pathComponents_slash_cons]

/-- The names of a text made from proper names. -/
theorem pathComponents_pathText (h : ∀ n ∈ names, Proper n) : pathComponents (pathText names) = names := by
  induction names with
  | nil => exact pathComponents_nil
  | cons n names ih =>
    obtain ⟨⟨hne, hslash, -⟩, hnames⟩ := List.forall_mem_cons.1 h
    have hsplit : pathText (n :: names) = slash :: (n ++ pathText names) := rfl
    rw [hsplit, pathComponents_slash_cons, pathComponents_append_pathText, pathComponents_name hslash hne, ih hnames]
    rfl

namespace TreeEnv

theorem text_concat (path : List CStr) (n : CStr) : E.text (path ++ [n]) = E.text path ++ slash :: n := by
  unfold text pathText
  rw [← List.append_assoc, List.flatMap_append, List.flatMap_singleton]

theorem proper_append (h : ∀ n ∈ path, Proper n) : ∀ n ∈ E.base ++ path, Proper n :=
  List.forall_mem_append.2 ⟨E.base_proper, h⟩

theorem text_injective {q : List CStr} (hpath : ∀ n ∈ path, Proper n) (hq : ∀ n ∈ q, Proper n)
    (h : E.text path = E.text q) : path = q := by
  have hnames := congrArg pathComponents h
  unfold text at hnames
  rw [pathComponents_pathText (proper_append hpath), pathComponents_pathText (proper_append hq)] at hnames
  exact List.append_cancel_left hnames

theorem Fits.proper_of_resolve (h : E.Fits dirs) {x : Nat} (hpath : resolve dirs d path = some x) :
    ∀ n ∈ path, Proper n := by
  induction path generalizing d with
  | nil => exact fun _ hn => absurd hn List.not_mem_nil
  | cons n path ih =>
    obtain ⟨c, hc, hrest⟩ := Option.bind_eq_some_iff.1 hpath
    exact List.forall_mem_cons.2 ⟨h.proper d n c hc, ih hrest⟩

/-- The text of a directory of the tree leads to it. -/
theorem Fits.lookup_text (h : E.Fits w.dirs) (hpath : resolve w.dirs E.root path = some d) :
    w.lookup E (E.text path) = some d := by
  have hshort := h.short path d hpath
  unfold TreeState.lookup
  rw [if_pos (Nat.lt_of_lt_of_le hshort (Nat.sub_le _ _)), text,
    pathComponents_pathText (proper_append (h.proper_of_resolve hpath)), resolve_append, h.place]
  exact hpath

/-! ## Events -/

/-- What handling events leaves as it is: they only ask for walks. -/
structure Grown (w : TreeState) (run : FidRun TreeState) : Prop where
  dirs : run.env.dirs = w.dirs
  marked : run.env.marked = w.marked
  queue : run.env.queue = w.queue
  todo : ∀ item ∈ w.todo, item ∈ run.env.todo
  rewalk : w.needRewalk = true → run.needRewalk = true

theorem grown_start (w : TreeState) : Grown w ⟨w, [], w.needRewalk, 0⟩ := ⟨rfl, rfl, rfl, fun _ h => h, fun h => h⟩

section
variable {run : FidRun TreeState}

/-- What only records operations leaves all. -/
theorem Grown.of_env {run' : FidRun TreeState} (h : Grown w run) (henv : run'.env = run.env)
    (hrewalk : run.needRewalk = true → run'.needRewalk = true) : Grown w run' :=
  ⟨henv ▸ h.dirs, henv ▸ h.marked, henv ▸ h.queue, henv ▸ h.todo, fun hw => hrewalk (h.rewalk hw)⟩

theorem Grown.closeFd (h : Grown w run) (fd : Int) : Grown w (run.closeFd fd) := by
  unfold FidRun.closeFd
  split
  · exact h.of_env rfl fun h => h
  · exact h

theorem Grown.markTree (h : Grown w run) (root : CStr) : Grown w (run.markTree (E.fid pathOf) root) :=
  ⟨h.dirs, h.marked, h.queue, fun item hitem => List.mem_append_left _ (h.todo item hitem), h.rewalk⟩

theorem dispatchOne_env (nev : NotifyEvent) (run : FidRun TreeState) :
    (dispatchOne (E.fid pathOf) nev run).env = run.env := by
  unfold dispatchOne
  dsimp only
  split <;> rfl

theorem dispatchNotify_same (mask : UInt64) (pid : Int) (full : CBuf pathMax) (run : FidRun TreeState) :
    (dispatchNotify (E.fid pathOf) mask pid full run).env = run.env ∧
      (dispatchNotify (E.fid pathOf) mask pid full run).needRewalk = run.needRewalk := by
  unfold dispatchNotify
  induction opBits generalizing run with
  | nil => exact ⟨rfl, rfl⟩
  | cons op ops ih =>
    rw [List.foldl_cons]
    split
    · rw [(ih _).1, (ih _).2, dispatchOne_env]
      exact ⟨rfl, rfl⟩
    · exact ih run

theorem entryOf_same (entry : Option DirEntry) (run : FidRun TreeState) :
    (entryOf (E.fid pathOf) entry run).2.env = run.env ∧
      (entryOf (E.fid pathOf) entry run).2.needRewalk = run.needRewalk := by
  unfold entryOf
  cases entry with
  | none => exact ⟨rfl, rfl⟩
  | some e =>
    unfold DirEntry.path
    dsimp only
    split <;> exact ⟨rfl, rfl⟩

theorem Grown.notifyPath (h : Grown w run) (mask : UInt64) (pid : Int) (full : Option (CBuf pathMax)) :
    Grown w (notifyPath (E.fid pathOf) mask pid full run) := by
  unfold GfrGuard.notifyPath
  cases full with
  | none => exact h
  | some full =>
    dsimp only
    have hgrown : ∀ run', Grown w run' → Grown w
        { dispatchNotify (E.fid pathOf) mask pid full run' with
          processed := (dispatchNotify (E.fid pathOf) mask pid full run').processed + 1 } := fun run' h' =>
      h'.of_env (dispatchNotify_same mask pid full run').1
        fun hrewalk => (dispatchNotify_same mask pid full run').2.trans hrewalk
    split
    · exact hgrown _ (h.markTree full.str)
    · exact hgrown _ h

theorem Grown.renamePaths (h : Grown w run) (mask : UInt64) (pid : Int) (oldFull newFull : Option (CBuf pathMax)) :
    Grown w (renamePaths (E.fid pathOf) mask pid oldFull newFull run) := by
  unfold GfrGuard.renamePaths
  cases oldFull.or newFull with
  | none => exact h
  | some path =>
    have hgrown : ∀ run' nev, Grown w run' → Grown w
        { dispatchOne (E.fid pathOf) nev run' with
          processed := (dispatchOne (E.fid pathOf) nev run').processed + 1 } := fun run' nev h' =>
      h'.of_env (dispatchOne_env nev run') fun hrewalk => hrewalk
    cases newFull with
    | none => exact hgrown _ _ h
    | some new =>
      dsimp only
      split
      · exact hgrown _ _ (h.markTree new.str)
      · exact hgrown _ _ h

theorem Grown.entryOf (h : Grown w run) (entry : Option DirEntry) : Grown w (entryOf (E.fid pathOf) entry run).2 :=
  h.of_env (entryOf_same entry run).1 fun hrewalk => (entryOf_same entry run).2.trans hrewalk

/-- To handle an event leaves the tree, and what was to be done. -/
theorem grown_process (pathOf : Nat → Option CStr) (ev : FidEvent) (w : TreeState) :
    Grown w (ev.process (E.fid pathOf) ⟨w, [], w.needRewalk, 0⟩) := by
  have h := (grown_start w).closeFd ev.fd
  unfold FidEvent.process
  dsimp only
  split_ifs
  · exact h.of_env rfl fun _ => rfl
  · exact h
  · exact ((h.entryOf _).entryOf _).renamePaths _ _ _ _
  · exact (h.entryOf _).notifyPath _ _ _

theorem needRewalk_process (h : Overflows ev) :
    (ev.process (E.fid pathOf) ⟨w, [], w.needRewalk, 0⟩).needRewalk = true := by
  unfold FidEvent.process
  dsimp only
  rw [if_pos (show ev.mask &&& fanQOverflow ≠ 0 from h)]

/-- A directory of the channel's file system is opened by its handle. -/
theorem exists_mount (E : TreeEnv) : ∃ mount,
    ((channelIndexByFsid E.channels E.slot.rt.fsid).bind fun ci => (E.channels.slots[ci]?).bind (·.rt.mountFd)) =
      some mount := by
  have hslot := E.rewalked
  simp only [ChannelSlot.rewalked, Bool.and_eq_true, Bool.not_eq_true'] at hslot
  have hfound : (channelIndexByFsid E.channels E.slot.rt.fsid).isSome = true := by
    unfold channelIndexByFsid
    rw [List.findIdx?_isSome, List.any_eq_true]
    exact ⟨E.slot, E.mem_slots, by simp [hslot.1.1, E.mounted]⟩
  obtain ⟨i, hi⟩ := Option.isSome_iff_exists.1 hfound
  have hspec := hi
  rw [channelIndexByFsid, List.findIdx?_eq_some_iff_getElem] at hspec
  obtain ⟨hlt, hp, -⟩ := hspec
  simp only [Bool.and_eq_true] at hp
  obtain ⟨mount, hmount⟩ := Option.isSome_iff_exists.1 hp.1.2
  exact ⟨mount, by rw [hi, Option.bind_some, List.getElem?_eq_getElem hlt, Option.bind_some, hmount]⟩

/-- The path of an entry of a directory that has one. -/
theorem entryOf_path {e : DirEntry} {p : CStr} (hfsid : e.fsid = E.slot.rt.fsid) (hdir : E.decode e.handle = some dir)
    (hpath : pathOf dir = some p) (hp : p.length < pathMax - 1) (hdot : e.name ≠ [dot])
    (hshort : (p ++ slash :: e.name).length < pathMax) (run : FidRun TreeState) :
    ∃ full, (entryOf (E.fid pathOf) (some e) run).1 = some full ∧ full.str = p ++ slash :: e.name := by
  obtain ⟨mount, hmount⟩ := exists_mount E
  have hres : ((E.fid pathOf).resolveHandle mount e.handle run.env).1 = some (.ofStr pathMax p) := by
    unfold fid
    dsimp only
    rw [hdir, Option.bind_some, hpath, Option.bind_some, if_pos hp]
  refine ⟨joinDirName p e.name, ?_, ?_⟩
  · unfold GfrGuard.entryOf DirEntry.path
    dsimp only
    rw [hfsid, show (E.fid pathOf).channels run.env = E.channels from rfl, hmount]
    refine (congrArg (Option.map _) hres).trans ?_
    rw [Option.map_some, CBuf.str_ofStr_of_lt (Nat.lt_of_lt_of_le hp (Nat.sub_le _ _))]
  · unfold joinDirName
    rw [if_neg hdot, CBuf.str_ofStr_of_lt hshort]

theorem notifyPath_todo {mask : UInt64} {full : CBuf pathMax} (hdir : mask &&& fanOndir ≠ 0)
    (hcreate : mask &&& fanCreate ≠ 0) (pid : Int) (run : FidRun TreeState) :
    .enter full.str ∈ (GfrGuard.notifyPath (E.fid pathOf) mask pid (some full) run).env.todo := by
  unfold GfrGuard.notifyPath
  dsimp only
  rw [if_pos ⟨hdir, hcreate⟩, (dispatchNotify_same mask pid full _).1]
  exact List.mem_append_right _ List.mem_cons_self

theorem renamePaths_todo {mask : UInt64} {new : CBuf pathMax} (hdir : mask &&& fanOndir ≠ 0) (pid : Int)
    (oldFull : Option (CBuf pathMax)) (run : FidRun TreeState) :
    .enter new.str ∈ (GfrGuard.renamePaths (E.fid pathOf) mask pid oldFull (some new) run).env.todo := by
  have hsome : ∃ path, oldFull.or (some new) = some path := by
    cases oldFull with
    | none => exact ⟨new, rfl⟩
    | some old => exact ⟨old, rfl⟩
  obtain ⟨path, hpath⟩ := hsome
  unfold GfrGuard.renamePaths
  rw [hpath]
  dsimp only
  rw [if_pos hdir, dispatchOne_env]
  exact List.mem_append_right _ List.mem_cons_self

/-- An announced directory is walked by its path. -/
theorem enter_of_announces {p : CStr} (h : E.Announces dir name ev) (hpath : pathOf dir = some p)
    (hp : p.length < pathMax - 1) (hshort : (p ++ slash :: name).length < pathMax) :
    .enter (p ++ slash :: name) ∈ (E.takeEvent pathOf ev w).todo := by
  obtain ⟨hover, hpid, hdir, hproper, e, hfsid, hdecode, rfl, hentry⟩ := h
  have hfull := entryOf_path hfsid hdecode hpath hp hproper.2.2 hshort
  unfold takeEvent FidEvent.process
  dsimp only
  rw [if_neg (not_not.2 hover), if_neg (show ¬ ev.pid = (E.fid pathOf).getpid from hpid)]
  rcases hentry with ⟨hrename, hnew⟩ | ⟨hrename, hcreate, hname⟩
  · rw [if_pos hrename, hnew]
    obtain ⟨full, heq, hstr⟩ := hfull (GfrGuard.entryOf (E.fid pathOf) (ev.entry infoOldDfidName) _).2
    rw [heq, ← hstr]
    exact renamePaths_todo hdir _ _ _
  · rw [if_neg (not_not.2 hrename), hname]
    obtain ⟨full, heq, hstr⟩ := hfull (FidRun.closeFd ⟨w, [], w.needRewalk, 0⟩ ev.fd)
    rw [heq, ← hstr]
    exact notifyPath_todo hdir hcreate _ _

end

/-! ## The steps -/

theorem mem_watch {o : Duty Nat CStr MarkGroup} : o ∈ (E.watch w).owes ↔ E.Owes w o := Iff.rfl

/-- Duties remain when events are kept and items stay. -/
theorem Owes.mono {o : Duty Nat CStr MarkGroup} (h : E.Owes w o) (hkept : E.Kept w.queue w'.queue)
    (htodo : ∀ item ∈ w.todo, item ∈ w'.todo) (hrewalk : w.needRewalk = true → w'.needRewalk = true) : E.Owes w' o := by
  cases o with
  | all =>
    refine h.imp hrewalk ?_
    rintro ⟨ev, hev, hover⟩
    obtain ⟨ev', hev', hover', -⟩ := hkept ev hev
    exact ⟨ev', hev', hover' hover⟩
  | entry dir name =>
    obtain ⟨ev, hev, htells⟩ := h
    obtain ⟨ev', hev', -, htells'⟩ := hkept ev hev
    exact ⟨ev', hev', htells' dir name htells⟩
  | enter path => exact ⟨h.1, htodo _ h.2⟩
  | mark dir path groups => exact ⟨h.1, htodo _ h.2⟩
  | list dir path => exact ⟨h.1, htodo _ h.2⟩

theorem Kept.refl (queue : List FidEvent) : E.Kept queue queue := fun ev hev => ⟨ev, hev, id, fun _ _ => id⟩

/-- A step in which the duties remain. -/
theorem step_of_kept (hdirs : ∀ d n c, w'.dirs d n = some c → w.dirs d n = some c)
    (hmarked : ∀ g d, w.marked g d = true → w'.marked g d = true) (hkept : E.Kept w.queue w'.queue)
    (htodo : ∀ item ∈ w.todo, item ∈ w'.todo) (hrewalk : w.needRewalk = true → w'.needRewalk = true) :
    E.setup.Step (E.watch w) (E.watch w') :=
  .unlink hdirs hmarked fun _ ho => Owes.mono ho hkept htodo hrewalk

/-- An announcement is of one entry. -/
theorem Announces.unique {dir' : Nat} {name' : CStr} (h : E.Announces dir name ev) (h' : E.Announces dir' name' ev) :
    dir = dir' ∧ name = name' := by
  obtain ⟨-, -, -, -, e, -, hdir, rfl, hentry⟩ := h
  obtain ⟨-, -, -, -, e', -, hdir', rfl, hentry'⟩ := h'
  have hsame : e = e' := by
    rcases hentry with ⟨hrename, hnew⟩ | ⟨hrename, -, hname⟩
    · rcases hentry' with ⟨-, hnew'⟩ | ⟨hrename', -⟩
      · exact Option.some.inj (hnew.symm.trans hnew')
      · exact absurd hrename' hrename
    · rcases hentry' with ⟨hrename', -⟩ | ⟨-, -, hname'⟩
      · exact absurd hrename hrename'
      · exact Option.some.inj (hname.symm.trans hname')
  subst hsame
  exact ⟨Option.some.inj (hdir.symm.trans hdir'), rfl⟩

/-- An event is taken: what it announced is walked, a loss is remembered. -/
theorem step_take {rest : List FidEvent} (hfits : E.Fits w.dirs) (hqueue : w.queue = ev :: rest)
    (hpaths : E.Paths w.dirs pathOf) :
    E.setup.Step (E.watch w) (E.watch (E.takeEvent pathOf ev { w with queue := rest })) := by
  have hgrown := grown_process (E := E) pathOf ev { w with queue := rest }
  have hstays : ∀ o, E.Owes w o → (∀ dir name, o = .entry dir name → ¬ E.Announces dir name ev) →
      E.Owes (E.takeEvent pathOf ev { w with queue := rest }) o := by
    intro o ho hother
    cases o with
    | all =>
      rcases ho with hrewalk | ⟨ev', hev', hover⟩
      · exact .inl (hgrown.rewalk hrewalk)
      · rw [hqueue, List.mem_cons] at hev'
        rcases hev' with rfl | hev'
        · exact .inl (needRewalk_process hover)
        · exact .inr ⟨ev', hgrown.queue ▸ hev', hover⟩
    | entry dir name =>
      obtain ⟨ev', hev', htells⟩ := ho
      rw [hqueue, List.mem_cons] at hev'
      rcases hev' with rfl | hev'
      · exact absurd htells (hother dir name rfl)
      · exact ⟨ev', hgrown.queue ▸ hev', htells⟩
    | enter path => exact ⟨ho.1, hgrown.todo _ ho.2⟩
    | mark dir path groups => exact ⟨ho.1, hgrown.todo _ ho.2⟩
    | list dir path => exact ⟨ho.1, hgrown.todo _ ho.2⟩
  have hmarked : ∀ g d, w.marked g d = true →
      (E.takeEvent pathOf ev { w with queue := rest }).marked g d = true := fun g d h =>
    (congrFun (congrFun hgrown.marked g) d).trans h
  by_cases htells : ∃ dir name, E.Announces dir name ev
  · obtain ⟨dir, name, htells⟩ := htells
    refine .work (.entry dir name) hgrown.dirs hmarked (fun o ho hne => hstays o ho ?_) ?_
    · rintro dir' name' rfl htells'
      obtain ⟨rfl, rfl⟩ := htells.unique htells'
      exact hne rfl
    · intro par x hpar hx
      have hp := hfits.short par dir hpar
      have hlong := hfits.short _ x hx
      have hproper := hfits.proper_of_resolve hx
      refine ⟨hproper, ?_⟩
      rw [text_concat] at hlong ⊢
      exact enter_of_announces htells (hpaths par dir hpar) hp (Nat.lt_of_lt_of_le hlong (Nat.sub_le _ _))
  · refine .unlink (fun d n c h => (congrFun (congrFun hgrown.dirs d) n).symm.trans h) hmarked fun o ho => hstays o ho ?_
    rintro dir name - h
    exact htells ⟨dir, name, h⟩

/-- The item a duty of a walk stands for. -/
def itemOf (E : TreeEnv) : Duty Nat CStr MarkGroup → Option WalkItem
  | .all => none
  | .entry _ _ => none
  | .enter path => some (.enter (E.text path))
  | .mark dir path groups => some (.mark dir (E.text path) groups)
  | .list dir path => some (.list dir (E.text path))

/-- An item stands for one duty. -/
theorem itemOf_injective {o o' : Duty Nat CStr MarkGroup} {item : WalkItem} (ho : E.Owes w o) (ho' : E.Owes w o')
    (h : E.itemOf o = some item) (h' : E.itemOf o' = some item) : o = o' := by
  have hsame := h.trans h'.symm
  cases o with
  | all => cases h
  | entry => cases h
  | enter path =>
    cases o' with
    | enter path' => rw [text_injective ho.1 ho'.1 (WalkItem.enter.inj (Option.some.inj hsame))]
    | _ => cases hsame
  | mark dir path groups =>
    cases o' with
    | mark dir' path' groups' =>
      obtain ⟨rfl, htext, rfl⟩ := WalkItem.mark.inj (Option.some.inj hsame)
      rw [text_injective ho.1 ho'.1 htext]
    | _ => cases hsame
  | list dir path =>
    cases o' with
    | list dir' path' =>
      obtain ⟨rfl, htext⟩ := WalkItem.list.inj (Option.some.inj hsame)
      rw [text_injective ho.1 ho'.1 htext]
    | _ => cases hsame

section
variable {item : WalkItem} {rest : List WalkItem} {obs : WalkObs}

/-- A step of a walk, from what it does for the item's duty. -/
theorem step_item (hdirs : w'.dirs = w.dirs) (hmarked : ∀ g d, w.marked g d = true → w'.marked g d = true)
    (hqueue : w'.queue = w.queue) (hrewalk : w'.needRewalk = w.needRewalk) (htodo : w.todo = item :: rest)
    (hrest : ∀ i ∈ rest, i ∈ w'.todo)
    (hdone : ∀ o, E.Owes w o → E.itemOf o = some item → E.setup.Discharged (E.watch w) (E.watch w') o) :
    E.setup.Step (E.watch w) (E.watch w') := by
  have hstays : ∀ o, E.Owes w o → E.itemOf o ≠ some item → E.Owes w' o := by
    intro o ho hother
    have hitem : ∀ i, E.itemOf o = some i → i ∈ w.todo → i ∈ w'.todo := by
      intro i hi hmem
      rw [htodo, List.mem_cons] at hmem
      rcases hmem with rfl | hmem
      · exact absurd hi hother
      · exact hrest i hmem
    cases o with
    | all => exact ho.imp (hrewalk.trans ·) (hqueue ▸ ·)
    | entry =>
      obtain ⟨ev, hev, htells⟩ := ho
      exact ⟨ev, hqueue ▸ hev, htells⟩
    | enter path => exact ⟨ho.1, hitem _ rfl ho.2⟩
    | mark dir path groups => exact ⟨ho.1, hitem _ rfl ho.2⟩
    | list dir path => exact ⟨ho.1, hitem _ rfl ho.2⟩
  by_cases hduty : ∃ o, E.Owes w o ∧ E.itemOf o = some item
  · obtain ⟨o, ho, hitem⟩ := hduty
    exact .work o hdirs hmarked (fun o' ho' hne => hstays o' ho' fun h' => hne (itemOf_injective ho' ho h' hitem))
      (hdone o ho hitem)
  · exact .unlink (fun d n c h => (congrFun (congrFun hdirs d) n).symm.trans h) hmarked
      fun o ho => hstays o ho fun hitem => hduty ⟨o, ho, hitem⟩

/-- What a step of a walk leaves. -/
theorem walkStep_frame (E : TreeEnv) (obs : WalkObs) (item : WalkItem) (w : TreeState) :
    (walkStep E obs item w).dirs = w.dirs ∧ (walkStep E obs item w).queue = w.queue ∧
      (walkStep E obs item w).needRewalk = w.needRewalk ∧
      (∀ g d, w.marked g d = true → (walkStep E obs item w).marked g d = true) ∧
      ∀ i ∈ w.todo, i ∈ (walkStep E obs item w).todo := by
  unfold walkStep
  cases item with
  | enter path =>
    dsimp only
    split
    · exact ⟨rfl, rfl, rfl, fun _ _ h => h, fun _ h => h⟩
    · split
      · exact ⟨rfl, rfl, rfl, fun _ _ h => h, fun _ h => List.mem_cons_of_mem _ h⟩
      · exact ⟨rfl, rfl, rfl, fun _ _ h => h, fun _ h => h⟩
  | mark dir path groups =>
    cases groups with
    | nil => exact ⟨rfl, rfl, rfl, fun _ _ h => h, fun _ h => List.mem_cons_of_mem _ h⟩
    | cons g gs =>
      exact ⟨rfl, rfl, rfl, fun _ _ h => Bool.or_eq_true_iff.2 (.inl h), fun _ h => List.mem_cons_of_mem _ h⟩
  | list dir path => exact ⟨rfl, rfl, rfl, fun _ _ h => h, fun _ h => List.mem_append_right _ h⟩

theorem step_walk (hfits : E.Fits w.dirs) (htodo : w.todo = item :: rest) (hobs : Complete w.dirs obs) :
    E.setup.Step (E.watch w) (E.watch (walkStep E obs item { w with todo := rest })) := by
  obtain ⟨hdirs, hqueue, hrewalk, hmarked, hrest⟩ := walkStep_frame E obs item { w with todo := rest }
  refine step_item hdirs hmarked hqueue hrewalk htodo hrest fun o ho hitem => ?_
  have hlookup : ∀ path x, resolve w.dirs E.root path = some x →
      TreeState.lookup E { w with todo := rest } (E.text path) = some x := fun path x hx =>
    Fits.lookup_text (w := { w with todo := rest }) hfits hx
  cases o with
  | all => cases hitem
  | entry => cases hitem
  | enter path =>
    cases hitem
    intro x hx
    refine ⟨ho.1, ?_⟩
    unfold walkStep
    dsimp only
    rw [hlookup path x hx]
    dsimp only
    rw [if_pos hobs.openOk]
    exact List.mem_cons_self
  | mark dir path groups =>
    cases hitem
    cases groups with
    | nil => exact ⟨ho.1, List.mem_cons_self⟩
    | cons g gs =>
      refine ⟨⟨ho.1, List.mem_cons_self⟩, fun y hy => ?_⟩
      exact Bool.or_eq_true_iff.2 (.inr (by simp [hobs.markOk, hlookup path y hy]))
  | list dir path =>
    cases hitem
    intro n c hc
    refine ⟨List.forall_mem_append.2 ⟨ho.1, List.forall_mem_singleton.2 (hfits.proper dir n c hc)⟩, ?_⟩
    rw [text_concat]
    exact List.mem_append_left _ (List.mem_map_of_mem (hobs.names dir n c hc))

/-- The walk of the channel is among those of all. -/
theorem mem_walks (E : TreeEnv) : .enter (E.text []) ∈ E.walks := by
  have hpath : E.slot.rt.realPath = E.text [] := by
    rw [E.realPath_eq, text, List.append_nil]
  rw [← hpath]
  exact List.mem_map_of_mem (List.mem_filter.2 ⟨E.mem_slots, E.rewalked⟩)

/-- At the end of a drain the walks are asked for if events were lost. -/
theorem rewalk_eq (w : TreeState) : E.rewalk w =
    if w.needRewalk then { w with todo := w.todo ++ E.walks, needRewalk := false } else w := by
  have hfold : ∀ (slots : List ChannelSlot) (run : FidRun TreeState),
      slots.foldl (fun s slot => s.markTree (E.fid fun _ => none) slot.rt.realPath) run =
        { run with
          env := { run.env with todo := run.env.todo ++ slots.map fun slot => .enter slot.rt.realPath }
          ops := run.ops ++ slots.map fun slot => .markTree slot.rt.realPath } := by
    intro slots
    induction slots with
    | nil =>
      intro run
      simp
    | cons slot slots ih =>
      intro run
      rw [List.foldl_cons, ih]
      simp [FidRun.markTree, fid]
  unfold rewalk GfrGuard.rewalk
  by_cases hneed : w.needRewalk = true
  · dsimp only
    rw [if_pos hneed, if_pos hneed, hfold]
    rfl
  · dsimp only
    rw [if_neg hneed, if_neg hneed]

end

/-- The end of a drain keeps the duties, or turns the one to walk all into walks. -/
theorem step_rewalk (hqueue : w.queue = []) : E.setup.Step (E.watch w) (E.watch (E.rewalk w)) := by
  rw [rewalk_eq]
  split
  · next hneed =>
    refine .work .all rfl (fun _ _ h => h) (fun o ho hne => ?_) ⟨fun _ h => absurd h List.not_mem_nil, ?_⟩
    · cases o with
      | all => exact absurd rfl hne
      | entry dir name =>
        obtain ⟨ev, hev, -⟩ := ho
        rw [hqueue] at hev
        exact absurd hev List.not_mem_nil
      | enter path => exact ⟨ho.1, List.mem_append_left _ ho.2⟩
      | mark dir path groups => exact ⟨ho.1, List.mem_append_left _ ho.2⟩
      | list dir path => exact ⟨ho.1, List.mem_append_left _ ho.2⟩
    · exact List.mem_append_right _ (mem_walks E)
  · exact step_of_kept (fun _ _ _ h => h) (fun _ _ h => h) (Kept.refl _) (fun _ h => h) fun h => h

/-! ## Runs -/

/-- What every state of a run is: its tree fits and is covered. -/
def Inv (E : TreeEnv) (w : TreeState) : Prop := E.Fits w.dirs ∧ E.setup.Covered (E.watch w)

theorem covered_of_walks (h : w.todo = E.walks) : E.setup.Covered (E.watch w) :=
  Setup.covered_of_enter ⟨fun _ hn => absurd hn List.not_mem_nil, h ▸ mem_walks E⟩

/-- Entries that go leave a tree that fits. -/
theorem Fits.of_subtree {dirs' : Dirs Nat CStr} (h : E.Fits dirs) (hsub : ∀ d n c, dirs' d n = some c → dirs d n = some c)
    (hplace : resolve dirs' E.top E.base = some E.root) : E.Fits dirs' :=
  ⟨fun d n c hc => h.proper d n c (hsub d n c hc), hplace,
    fun path d hpath => h.short path d (resolve_of_subtree hsub hpath)⟩

/-- One step keeps it. -/
theorem Inv.step (h : E.Inv w) (hstep : E.Step w w') : E.Inv w' := by
  obtain ⟨hfits, hcovered⟩ := h
  cases hstep with
  | link dir name dirs queue hrest hfits' hkept htold =>
    refine ⟨hfits', hcovered.step ?_⟩
    refine .link dir name hrest (fun _ _ h => h) (fun _ ho => Owes.mono ho hkept (fun _ h => h) fun h => h) fun hmarked => ?_
    obtain ⟨ev, hev, htells | hover⟩ := htold hmarked
    · exact .inl ⟨ev, hev, htells⟩
    · exact .inr (.inr ⟨ev, hev, hover⟩)
  | unlink dirs queue hdirs hplace hkept =>
    exact ⟨hfits.of_subtree hdirs hplace,
      hcovered.step (step_of_kept hdirs (fun _ _ h => h) hkept (fun _ h => h) fun h => h)⟩
  | take ev rest pathOf hqueue hidle hpaths =>
    have hgrown := grown_process (E := E) pathOf ev { w with queue := rest }
    refine ⟨?_, hcovered.step (step_take hfits hqueue hpaths)⟩
    have hdirs : (E.takeEvent pathOf ev { w with queue := rest }).dirs = w.dirs := hgrown.dirs
    rw [hdirs]
    exact hfits
  | walk item rest obs htodo hobs =>
    refine ⟨?_, hcovered.step (step_walk hfits htodo hobs)⟩
    rw [(walkStep_frame E obs item { w with todo := rest }).1]
    exact hfits
  | rewalk hqueue hidle =>
    refine ⟨?_, hcovered.step (step_rewalk hqueue)⟩
    rw [rewalk_eq]
    split <;> exact hfits
  | reload hidle => exact ⟨hfits, covered_of_walks rfl⟩

theorem Inv.run (h : E.Inv w) (hrun : Relation.ReflTransGen E.Step w w') : E.Inv w' := by
  induction hrun with
  | refl => exact h
  | tail _ hstep ih => exact ih.step hstep

/-- The main thread has nothing before it. -/
structure Quiet (w : TreeState) : Prop where
  queue : w.queue = []
  todo : w.todo = []
  rewalk : w.needRewalk = false

theorem Quiet.owes (h : Quiet w) : (E.watch w).owes = ∅ := by
  refine Set.eq_empty_of_forall_notMem fun o ho => ?_
  obtain ⟨hqueue, htodo, hrewalk⟩ := h
  cases o with
  | all =>
    rcases ho with hneed | ⟨ev, hev, -⟩
    · rw [hrewalk] at hneed
      cases hneed
    · rw [hqueue] at hev
      cases hev
  | entry dir name =>
    obtain ⟨ev, hev, -⟩ := ho
    rw [hqueue] at hev
    cases hev
  | enter path => exact absurd (htodo ▸ ho.2) List.not_mem_nil
  | mark dir path groups => exact absurd (htodo ▸ ho.2) List.not_mem_nil
  | list dir path => exact absurd (htodo ▸ ho.2) List.not_mem_nil

/-! ## Rest -/

/-- A walk goes from one state to the other. -/
def WalksTo (E : TreeEnv) (w w' : TreeState) : Prop :=
  Relation.ReflTransGen E.Step w w' ∧ w'.dirs = w.dirs ∧ w'.queue = w.queue ∧ w'.needRewalk = w.needRewalk

theorem WalksTo.refl (w : TreeState) : E.WalksTo w w := ⟨.refl, rfl, rfl, rfl⟩

theorem WalksTo.trans {w'' : TreeState} (h : E.WalksTo w w') (h' : E.WalksTo w' w'') : E.WalksTo w w'' :=
  ⟨h.1.trans h'.1, h'.2.1.trans h.2.1, h'.2.2.1.trans h.2.2.1, h'.2.2.2.trans h.2.2.2⟩

section
variable {item : WalkItem} {items rest : List WalkItem} {obs : WalkObs} {k n : Nat}

theorem lookup_congr (h : w'.dirs = w.dirs) (path : CStr) : w'.lookup E path = w.lookup E path := by
  unfold TreeState.lookup
  rw [h]

end

end TreeEnv

end

/-! ## A small tree -/

end GfrGuard
