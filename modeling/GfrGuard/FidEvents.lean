import GfrGuard.Notify
import GfrGuard.PermDrain

/-!
# Notification events by file handle

The main thread reads events that come without a descriptor. Behind the header of each stand records;
a record of a name holds the handle of a directory and the name in it, and the path is put together
from the directory the handle opens and the name. Whatever the kernel writes is read where it stands:
a drain does for each event what the event says (`drain_notify_decodes`). And whatever the bytes are,
a handler gets one operation at a time, after the marks of a directory that is new, and none of
the daemon's own (`drain_notify_contract`).
-/

namespace GfrGuard

/-! ## Bytes -/

/-- Bytes of the buffer; nothing when they go beyond its end. -/
def readBytes (ptr : List UInt8) (off w : Nat) : Option (List UInt8) :=
  if off + w ≤ ptr.length then some ((ptr.drop off).take w) else none

/-- A number of the buffer. -/
def readLe (ptr : List UInt8) (off w : Nat) : Option Nat := (readBytes ptr off w).map leNat

/-- A string of the buffer; nothing when it does not end there. -/
def readStr (ptr : List UInt8) : Option CStr :=
  if 0 ∈ ptr then some (ptr.takeWhile (· ≠ 0)) else none

/-! ## Events -/

/-- `FAN_Q_OVERFLOW`. -/
abbrev fanQOverflow : UInt64 := 0x4000
/-- `FAN_ONDIR`. -/
abbrev fanOndir : UInt64 := 0x40000000

/-- `FAN_EVENT_INFO_TYPE_DFID_NAME`. -/
abbrev infoDfidName : UInt8 := 2
/-- `FAN_EVENT_INFO_TYPE_OLD_DFID_NAME`. -/
abbrev infoOldDfidName : UInt8 := 10
/-- `FAN_EVENT_INFO_TYPE_NEW_DFID_NAME`. -/
abbrev infoNewDfidName : UInt8 := 12

/-- `struct file_handle`. -/
structure FileHandle where
  type : Nat
  bytes : List UInt8
deriving DecidableEq

/-- The operation of an event that goes to a handler. -/
inductive NotifyOp where
  | create
  | modify
  | closeWrite
  | delete
  | rename
deriving DecidableEq

/-- Its bit in a mask. -/
def NotifyOp.bit : NotifyOp → UInt64
  | .create => fanCreate
  | .modify => fanModify
  | .closeWrite => fanCloseWrite
  | .delete => fanDelete
  | .rename => fanRename

/-- The mask of one operation. -/
def NotifyOp.mask (op : NotifyOp) (ondir : Bool) : UInt64 := op.bit ||| if ondir then fanOndir else 0

/-- `op_bits`. -/
def opBits : List NotifyOp := [.create, .modify, .closeWrite, .delete]

/-- A mask is of a directory. -/
def isOndir (mask : UInt64) : Bool := mask &&& fanOndir ≠ 0

theorem NotifyOp.mask_notPerm (op : NotifyOp) (ondir : Bool) : op.mask ondir &&& fanOpenPerm = 0 := by
  cases op <;> cases ondir <;> rfl

/-- The last component of a destination. -/
def newNameOf (newPath : CStr) : CStr :=
  match strrchr newPath slash with
  | some s => s.drop 1
  | none => newPath

/-- The event of one operation, as `dispatch_one` fills it. -/
def notifyEvent (op : NotifyOp) (ondir : Bool) (pid : Int) (path : CBuf pathMax) (newPath : Option (CBuf pathMax)) :
    NotifyEvent where
  path := path
  pidKnown := 0 < pid
  pid := intText pid
  mask := op.mask ondir
  newPath := newPath.getD (.empty pathMax)
  newName := match newPath with
    | some newPath => .ofStr 256 (newNameOf newPath.str)
    | none => .empty 256
  notPerm := op.mask_notPerm ondir

/-- `join_dir_name`. -/
def joinDirName (dirpath name : CStr) : CBuf pathMax :=
  .ofStr pathMax (if name = [dot] then dirpath else dirpath ++ slash :: name)

/-- `channel_index_by_fsid`. -/
def channelIndexByFsid (t : ChannelTable) (fsid : Nat) : Option Nat :=
  t.slots.findIdx? fun slot => !slot.rt.pending && slot.rt.mountFd.isSome && slot.rt.fsid = fsid

/-! ## The drain -/

/-- What the drain does, in its order. -/
inductive FidOp where
  | close (fd : Int)
  | overflow
  /-- `fanotify_mark_tree_add`. -/
  | markTree (root : CStr)
  /-- `dispatch_one`. -/
  | dispatch (ev : NotifyEvent)

/-- What the drain finds, on a state of its own. -/
structure FidEnv (σ : Type) where
  channels : σ → ChannelTable
  /-- `open_by_handle_at` in the directory of a channel, and the path of what it opens. -/
  resolveHandle : CStr → FileHandle → σ → Option (CBuf pathMax) × σ
  markTree : CStr → σ → σ
  handler : FanotifyChannel → NotifyEvent → σ → σ
  getpid : Int

/-- Where the drain is. -/
structure FidRun (σ : Type) where
  env : σ
  ops : List FidOp
  /-- `g_need_rewalk`. -/
  needRewalk : Bool
  processed : Nat

section
variable {σ : Type} (env : FidEnv σ)

/-- A descriptor that came after all is closed. -/
def FidRun.closeFd {σ : Type} (s : FidRun σ) (fd : Int) : FidRun σ :=
  if 0 ≤ fd then { s with ops := s.ops ++ [.close fd] } else s

/-- The tree is marked. -/
def FidRun.markTree (s : FidRun σ) (root : CStr) : FidRun σ :=
  { s with env := env.markTree root s.env, ops := s.ops ++ [.markTree root] }

/-- `dispatch_one`. -/
def dispatchOne (ev : NotifyEvent) (s : FidRun σ) : FidRun σ :=
  let t := env.channels s.env
  { s with
    env := match (findChannel t ev.path.str).bind fun i => t.slots[i]? with
      | none => s.env
      | some slot => env.handler slot.channel ev s.env
    ops := s.ops ++ [.dispatch ev] }

/-- `dispatch_notify`: a mask that was merged is taken apart. -/
def dispatchNotify (mask : UInt64) (pid : Int) (full : CBuf pathMax) (s : FidRun σ) : FidRun σ :=
  opBits.foldl (fun s op => if mask &&& op.bit ≠ 0 then
    dispatchOne env (notifyEvent op (isOndir mask) pid full none) s else s) s

/-- What is done about an event other than a rename once its path is known. -/
def notifyPath (mask : UInt64) (pid : Int) (full : Option (CBuf pathMax)) (s : FidRun σ) : FidRun σ :=
  match full with
  | none => s
  | some full =>
    -- a new directory has its marks before a handler hears of it
    let s := if mask &&& fanOndir ≠ 0 ∧ mask &&& fanCreate ≠ 0 then s.markTree env full.str else s
    let s := dispatchNotify env mask pid full s
    { s with processed := s.processed + 1 }

/-- What is done about a rename once its paths are known. -/
def renamePaths (mask : UInt64) (pid : Int) (oldFull newFull : Option (CBuf pathMax)) (s : FidRun σ) : FidRun σ :=
  match oldFull.or newFull with
  | none => s
  | some path =>
    let s := match newFull with
      | some newFull => if mask &&& fanOndir ≠ 0 then s.markTree env newFull.str else s
      | none => s
    let s := dispatchOne env (notifyEvent .rename (isOndir mask) pid path newFull) s
    { s with processed := s.processed + 1 }

/-- The loop of `find_name_record`, with a bound on its rounds. -/
def findNameRecordFrom (ptr : List UInt8) (eventLen : Nat) (infoType : UInt8) : Nat → Nat → Option (List UInt8)
  | 0, _ => none
  | n + 1, off =>
    if eventLen < off + 4 then none
    else
      let hdr := ptr.drop off
      let len := leNat ((hdr.drop 2).take 2)
      if len < 4 then none
      else if hdr.head? = some infoType then some hdr
      else findNameRecordFrom ptr eventLen infoType n (off + len)

/-- `find_name_record` in the event at `ptr`: the buffer from the record on. -/
def findNameRecord (ptr : List UInt8) (infoType : UInt8) : Option (List UInt8) :=
  findNameRecordFrom ptr (metaAt ptr).eventLen infoType ((metaAt ptr).eventLen + 1) (leNat ((ptr.drop 6).take 2))

/-- `resolve_name_record`: the path of the directory, and the buffer from the name on. -/
def resolveNameRecord (fid : List UInt8) (s : FidRun σ) :
    Option (Option (CBuf pathMax × List UInt8) × FidRun σ) := do
  let fsid ← readLe fid 4 8
  let t := env.channels s.env
  match (channelIndexByFsid t fsid).bind fun ci => (t.slots[ci]?).bind (·.rt.mountFd) with
  | none => some (none, s)
  | some mount =>
    let size ← readLe fid 12 4
    let type ← readLe fid 16 4
    let bytes ← readBytes fid 20 size
    let (dirpath, e) := env.resolveHandle mount ⟨type, bytes⟩ s.env
    some (dirpath.map (·, fid.drop (20 + size)), { s with env := e })

/-- The path of the entry a record names; nothing beside it without a record. -/
def entryPath (fid : Option (List UInt8)) (s : FidRun σ) : Option (Option (CBuf pathMax) × FidRun σ) :=
  match fid with
  | none => some (none, s)
  | some fid => do
    match ← resolveNameRecord env fid s with
    | (none, s) => some (none, s)
    | (some (dirpath, name), s) => some (some (joinDirName dirpath.str (← readStr name)), s)

/-- `process_rename_event`. -/
def processRenameEvent (ptr : List UInt8) (s : FidRun σ) : Option (FidRun σ) := do
  let m := metaAt ptr
  let (oldFull, s) ← entryPath env (findNameRecord ptr infoOldDfidName) s
  let (newFull, s) ← entryPath env (findNameRecord ptr infoNewDfidName) s
  some (renamePaths env m.mask.toUInt64 m.pid oldFull newFull s)

/-- `process_fid_event`. -/
def processFidEvent (ptr : List UInt8) (s : FidRun σ) : Option (FidRun σ) :=
  let m := metaAt ptr
  let mask := m.mask.toUInt64
  let s := s.closeFd m.fd
  if mask &&& fanQOverflow ≠ 0 then some { s with ops := s.ops ++ [.overflow], needRewalk := true }
  else if m.pid = env.getpid then some s
  else if mask &&& fanRename ≠ 0 then processRenameEvent env ptr s
  else do
    let (full, s) ← entryPath env (findNameRecord ptr infoDfidName) s
    some (notifyPath env mask m.pid full s)

/-- `FAN_EVENT_OK`. -/
def fanEventOk (ptr : List UInt8) : Bool :=
  metaSize ≤ ptr.length && metaSize ≤ (metaAt ptr).eventLen && (metaAt ptr).eventLen ≤ ptr.length

/-- The loop over a buffer, with a bound on its rounds; false when it meets another version. -/
def notifyBuffer : Nat → List UInt8 → FidRun σ → Option (Bool × FidRun σ)
  | 0, _, _ => none
  | n + 1, ptr, s =>
    if fanEventOk ptr then
      if ptr[4]? ≠ some 3 then some (false, s)
      else (processFidEvent env ptr s).bind (notifyBuffer n (ptr.drop (metaAt ptr).eventLen))
    else some (true, s)

/-- The loop over what `read` returns. -/
def notifyReads : List (List UInt8) → FidRun σ → Option (Bool × FidRun σ)
  | [], s => some (true, s)
  | buf :: bufs, s =>
    if buf = [] then some (true, s)
    else do
      match ← notifyBuffer env (buf.length + 1) buf s with
      | (true, s) => notifyReads bufs s
      | (false, s) => some (false, s)

/-- The channels whose trees are marked again. -/
def ChannelSlot.rewalked (slot : ChannelSlot) : Bool :=
  !slot.rt.pending && slot.rt.isDir && slot.rt.realPath ≠ []

/-- The end of a drain: the trees are marked again after a loss. -/
def rewalk (s : FidRun σ) : FidRun σ :=
  if s.needRewalk then
    ((env.channels s.env).slots.filter ChannelSlot.rewalked).foldl (fun s slot => s.markTree env slot.rt.realPath)
      { s with needRewalk := false }
  else s

/-- `fanotify_drain_notify`, with what `read` returns; nothing when it reads beyond that. -/
def fanotifyDrainNotify (fd : Int) (bufs : List (List UInt8)) (s : FidRun σ) : Option (FidRun σ) :=
  if fd < 0 ∨ (env.channels s.env).slots = [] then some s
  else (notifyReads env bufs s).map fun (go, s) => if go then rewalk env s else s

end

/-! ## Events as the kernel writes them -/

/-- What a record of a name says: the handle of a directory in a filesystem, and a name in it. -/
structure DirEntry where
  fsid : Nat
  fsid_lt : fsid < 2 ^ 64
  handle : FileHandle
  type_lt : handle.type < 2 ^ 32
  name : CStr
  name_ok : 0 ∉ name
  /-- What aligns the record. -/
  padding : List UInt8
  len_lt : 20 + handle.bytes.length + (name.length + (1 + padding.length)) < 2 ^ 16

/-- The record behind its header. -/
def DirEntry.body (e : DirEntry) : List UInt8 :=
  leBytes 8 e.fsid ++ (leBytes 4 e.handle.bytes.length ++ (leBytes 4 e.handle.type ++
    (e.handle.bytes ++ (e.name ++ 0 :: e.padding))))

/-- A record of an event: of a name, or one that is passed over. -/
inductive InfoRecord where
  | name (infoType pad : UInt8) (entry : DirEntry)
  | other (infoType pad : UInt8) (body : List UInt8)
    (unnamed : infoType ≠ infoDfidName ∧ infoType ≠ infoOldDfidName ∧ infoType ≠ infoNewDfidName)
    (len_lt : 4 + body.length < 2 ^ 16)

/-- The bytes of a record. -/
def InfoRecord.bytes : InfoRecord → List UInt8
  | .name infoType pad e => infoType :: pad :: (leBytes 2 (4 + e.body.length) ++ e.body)
  | .other infoType pad body _ _ => infoType :: pad :: (leBytes 2 (4 + body.length) ++ body)

/-- The type of a record. -/
def InfoRecord.infoType : InfoRecord → UInt8
  | .name infoType _ _ => infoType
  | .other infoType _ _ _ _ => infoType

/-- The entry of a record of this type. -/
def InfoRecord.entry (t : UInt8) : InfoRecord → Option DirEntry
  | .name infoType _ e => if infoType = t then some e else none
  | .other .. => none

/-- An event of the notification group. -/
structure FidEvent where
  reserved : UInt8
  mask : UInt64
  fd : Int
  fd_range : -2 ^ 31 ≤ fd ∧ fd < 2 ^ 31
  pid : Int
  pid_range : -2 ^ 31 ≤ pid ∧ pid < 2 ^ 31
  records : List InfoRecord
  len_lt : metaSize + (records.flatMap InfoRecord.bytes).length < 2 ^ 32

/-- Its header, and the records behind it. -/
def FidEvent.record (ev : FidEvent) : EventRecord :=
  ⟨3, ev.reserved, metaSize, ev.mask.toNat, ev.mask.toNat_lt, ev.fd, ev.fd_range, ev.pid, ev.pid_range,
    ev.records.flatMap InfoRecord.bytes, ev.len_lt⟩

/-- Its bytes. -/
def FidEvent.bytes (ev : FidEvent) : List UInt8 := ev.record.bytes

/-- The entry of its first record of this type. -/
def FidEvent.entry (ev : FidEvent) (t : UInt8) : Option DirEntry := ev.records.findSome? (·.entry t)

section
variable {σ : Type} (env : FidEnv σ)

/-- The path of an entry: the directory its handle opens, and its name. -/
def DirEntry.path (e : DirEntry) (s : FidRun σ) : Option (CBuf pathMax) × FidRun σ :=
  let t := env.channels s.env
  match (channelIndexByFsid t e.fsid).bind fun ci => (t.slots[ci]?).bind (·.rt.mountFd) with
  | none => (none, s)
  | some mount =>
    let (dirpath, se) := env.resolveHandle mount e.handle s.env
    (dirpath.map fun dirpath => joinDirName dirpath.str e.name, { s with env := se })

/-- The path of an entry, if there is one. -/
def entryOf (e : Option DirEntry) (s : FidRun σ) : Option (CBuf pathMax) × FidRun σ :=
  match e with
  | none => (none, s)
  | some e => e.path env s

/-- What is done for an event. -/
def FidEvent.process (ev : FidEvent) (s : FidRun σ) : FidRun σ :=
  let s := s.closeFd ev.fd
  if ev.mask &&& fanQOverflow ≠ 0 then { s with ops := s.ops ++ [.overflow], needRewalk := true }
  else if ev.pid = env.getpid then s
  else if ev.mask &&& fanRename ≠ 0 then
    let (oldFull, s) := entryOf env (ev.entry infoOldDfidName) s
    let (newFull, s) := entryOf env (ev.entry infoNewDfidName) s
    renamePaths env ev.mask ev.pid oldFull newFull s
  else
    let (full, s) := entryOf env (ev.entry infoDfidName) s
    notifyPath env ev.mask ev.pid full s

end

/-- The buffer from a record of the entry on. -/
def RecordAt (fid : List UInt8) (e : DirEntry) : Prop :=
  ∃ infoType pad rest, fid = (InfoRecord.name infoType pad e).bytes ++ rest

section
variable {σ : Type} {env : FidEnv σ} {s : FidRun σ} {ptr a fid : List UInt8} {t : UInt8} {n off eventLen w : Nat}
  {r : InfoRecord} {rs : List InfoRecord} {e : DirEntry} {ev : FidEvent} {evs : List FidEvent}

/-! ## What is read -/

theorem readBytes_append {p b : List UInt8} (hoff : p.length = off) (hw : b.length = w) :
    readBytes (p ++ (b ++ a)) off w = some b := by
  unfold readBytes
  rw [if_pos (by simp only [List.length_append]; omega), List.drop_left' hoff, List.take_left' hw]

theorem readLe_append {p : List UInt8} {k : Nat} (hoff : p.length = off) (hk : k < 256 ^ w) :
    readLe (p ++ (leBytes w k ++ a)) off w = some k := by
  unfold readLe
  rw [readBytes_append hoff (length_leBytes w k), Option.map_some, leNat_leBytes hk]

theorem readStr_name (h : 0 ∉ e.name) : readStr (e.name ++ 0 :: e.padding ++ a) = some e.name := by
  unfold readStr
  rw [List.append_assoc, List.cons_append, if_pos (by simp)]
  have hname : ∀ b ∈ e.name, (decide (b ≠ 0)) = true := fun b hb => by
    rw [decide_eq_true_eq]
    rintro rfl
    exact h hb
  rw [List.takeWhile_append_of_pos hname, List.takeWhile_cons_of_neg (by simp), List.append_nil]

theorem DirEntry.length_body (e : DirEntry) :
    4 + e.body.length = 20 + e.handle.bytes.length + (e.name.length + (1 + e.padding.length)) := by
  unfold DirEntry.body
  simp only [List.length_append, List.length_cons, length_leBytes]
  omega

/-- A record is its type, a byte, its length and what is behind it. -/
theorem InfoRecord.bytes_eq (r : InfoRecord) :
    ∃ pad body, r.bytes = r.infoType :: pad :: (leBytes 2 (4 + body.length) ++ body) ∧ 4 + body.length < 2 ^ 16 := by
  cases r with
  | name infoType pad e => exact ⟨pad, e.body, rfl, e.length_body ▸ e.len_lt⟩
  | other infoType pad body _ hlen => exact ⟨pad, body, rfl, hlen⟩

theorem InfoRecord.head_bytes (r : InfoRecord) (a : List UInt8) : (r.bytes ++ a).head? = some r.infoType := by
  obtain ⟨pad, body, heq, -⟩ := r.bytes_eq
  rw [heq]
  rfl

theorem InfoRecord.length_bytes (r : InfoRecord) : 4 ≤ r.bytes.length := by
  obtain ⟨pad, body, heq, -⟩ := r.bytes_eq
  rw [heq, List.length_cons, List.length_cons, List.length_append, length_leBytes]
  omega

/-- The length in the header of a record is its own. -/
theorem InfoRecord.len_bytes (r : InfoRecord) (a : List UInt8) :
    leNat (((r.bytes ++ a).drop 2).take 2) = r.bytes.length := by
  obtain ⟨pad, body, heq, hlen⟩ := r.bytes_eq
  rw [heq, List.cons_append, List.cons_append, List.drop_succ_cons, List.drop_succ_cons, List.drop_zero,
    List.append_assoc, take_leBytes, leNat_leBytes hlen, List.length_cons, List.length_cons, List.length_append,
    length_leBytes]
  omega

/-- The search over the records of an event finds the first entry of the type. -/
theorem findNameRecordFrom_records (ht : t = infoDfidName ∨ t = infoOldDfidName ∨ t = infoNewDfidName)
    (hdrop : ptr.drop off = rs.flatMap InfoRecord.bytes ++ a)
    (hlen : eventLen = off + (rs.flatMap InfoRecord.bytes).length)
    (hn : (rs.flatMap InfoRecord.bytes).length < n) :
    Option.Rel RecordAt (findNameRecordFrom ptr eventLen t n off) (rs.findSome? (·.entry t)) := by
  induction rs generalizing n off with
  | nil =>
    cases n with
    | zero => exact .none
    | succ n =>
      rw [List.flatMap_nil, List.length_nil] at hlen
      rw [findNameRecordFrom, if_pos (by omega)]
      exact .none
  | cons r rs ih =>
    cases n with
    | zero => omega
    | succ n =>
      rw [List.flatMap_cons, List.append_assoc] at hdrop
      rw [List.flatMap_cons, List.length_append] at hlen hn
      have hr := r.length_bytes
      have hnext : Option.Rel RecordAt (findNameRecordFrom ptr eventLen t n (off + r.bytes.length))
          (rs.findSome? (·.entry t)) := by
        refine ih ?_ (by omega) (by omega)
        rw [← List.drop_drop, hdrop, List.drop_left' rfl]
      rw [findNameRecordFrom, if_neg (by omega)]
      dsimp only
      rw [hdrop, r.len_bytes, if_neg (by omega), r.head_bytes, List.findSome?_cons]
      by_cases htype : r.infoType = t
      · cases r with
        | name infoType pad e =>
          have hty : infoType = t := htype
          rw [if_pos (congrArg some htype), InfoRecord.entry, if_pos hty]
          exact .some ⟨infoType, pad, _, rfl⟩
        | other infoType pad body hother _ =>
          subst htype
          rcases ht with h | h | h
          · exact absurd h hother.1
          · exact absurd h hother.2.1
          · exact absurd h hother.2.2
      · have hentry : r.entry t = none := by
          cases r with
          | name infoType pad e => exact if_neg htype
          | other => rfl
        rw [if_neg fun h => htype (Option.some.inj h), hentry]
        exact hnext

theorem FidEvent.metaAt_bytes (ev : FidEvent) (a : List UInt8) :
    metaAt (ev.bytes ++ a) = ⟨ev.bytes.length, ev.mask.toNat, ev.fd, ev.pid⟩ := by
  unfold FidEvent.bytes
  rw [GfrGuard.metaAt_bytes, EventRecord.length_bytes]
  rfl

/-- The header of an event: its version, and the length of the header. -/
theorem FidEvent.header_bytes (ev : FidEvent) (a : List UInt8) :
    (ev.bytes ++ a)[4]? = some 3 ∧ leNat (((ev.bytes ++ a).drop 6).take 2) = metaSize ∧
      (ev.bytes ++ a).drop metaSize = ev.records.flatMap InfoRecord.bytes ++ a := by
  have hdrop : ∀ k, (ev.bytes ++ a).drop (4 + k) = ((3 : UInt8) :: ev.reserved :: (leBytes 2 metaSize ++
      (leBytes 8 ev.mask.toNat ++ (leBytes 4 (ev.fd % 2 ^ 32).toNat ++ (leBytes 4 (ev.pid % 2 ^ 32).toNat ++
        (ev.records.flatMap InfoRecord.bytes ++ a)))))).drop k := by
    intro k
    unfold FidEvent.bytes EventRecord.bytes
    simp only [List.append_assoc, List.cons_append]
    exact drop_leBytes 4 k _ _
  refine ⟨?_, ?_, ?_⟩
  · rw [← List.head?_drop]
    exact congrArg List.head? (hdrop 0)
  · rw [show 6 = 4 + 2 from rfl, hdrop, List.drop_succ_cons, List.drop_succ_cons, List.drop_zero, take_leBytes]
    exact leNat_leBytes (by decide)
  · rw [show metaSize = 4 + (2 + (2 + (8 + (4 + (4 + 0))))) from rfl, hdrop, ← List.drop_drop, List.drop_succ_cons,
      List.drop_succ_cons, List.drop_zero, drop_leBytes, drop_leBytes, drop_leBytes, drop_leBytes, List.drop_zero]

/-- The search in an event finds its entry of a type. -/
theorem findNameRecord_bytes (ev : FidEvent) (a : List UInt8)
    (ht : t = infoDfidName ∨ t = infoOldDfidName ∨ t = infoNewDfidName) :
    Option.Rel RecordAt (findNameRecord (ev.bytes ++ a) t) (ev.entry t) := by
  obtain ⟨-, hmeta, hrecords⟩ := ev.header_bytes a
  have hlen : ev.bytes.length = metaSize + (ev.records.flatMap InfoRecord.bytes).length :=
    EventRecord.length_bytes _
  unfold findNameRecord
  rw [ev.metaAt_bytes, hmeta]
  dsimp only
  exact findNameRecordFrom_records ht hrecords hlen (by omega)

/-! ## What is done -/

/-- The fields of a record, where they are read. -/
theorem RecordAt.reads (h : RecordAt fid e) :
    readLe fid 4 8 = some e.fsid ∧ readLe fid 12 4 = some e.handle.bytes.length ∧
      readLe fid 16 4 = some e.handle.type ∧ readBytes fid 20 e.handle.bytes.length = some e.handle.bytes ∧
      readStr (fid.drop (20 + e.handle.bytes.length)) = some e.name := by
  obtain ⟨infoType, pad, rest, rfl⟩ := h
  have hsize : e.handle.bytes.length < 256 ^ 4 := by
    have := e.len_lt
    omega
  set header := infoType :: pad :: leBytes 2 (4 + e.body.length) with hheader
  set name := e.name ++ 0 :: e.padding ++ rest with hname
  have hlen : header.length = 4 := by
    rw [hheader, List.length_cons, List.length_cons, length_leBytes]
  have hbytes : (InfoRecord.name infoType pad e).bytes ++ rest = header ++ (leBytes 8 e.fsid ++
      (leBytes 4 e.handle.bytes.length ++ (leBytes 4 e.handle.type ++ (e.handle.bytes ++ name)))) := by
    rw [hheader, hname]
    unfold InfoRecord.bytes DirEntry.body
    simp only [List.append_assoc, List.cons_append]
  rw [hbytes]
  refine ⟨readLe_append hlen e.fsid_lt, ?_, ?_, ?_, ?_⟩
  · rw [← List.append_assoc]
    exact readLe_append (by rw [List.length_append, hlen, length_leBytes]) hsize
  · rw [← List.append_assoc, ← List.append_assoc]
    exact readLe_append (by rw [List.length_append, List.length_append, hlen, length_leBytes, length_leBytes]) e.type_lt
  · rw [← List.append_assoc, ← List.append_assoc, ← List.append_assoc]
    refine readBytes_append ?_ rfl
    rw [List.length_append, List.length_append, List.length_append, hlen, length_leBytes, length_leBytes, length_leBytes]
  · rw [← List.append_assoc, ← List.append_assoc, ← List.append_assoc, ← List.append_assoc, List.drop_left', hname]
    · exact readStr_name e.name_ok
    · simp only [List.length_append, hlen, length_leBytes]

/-- The path of an entry is the one its record gives. -/
theorem entryPath_record {found : Option (List UInt8)} {entry : Option DirEntry} (h : Option.Rel RecordAt found entry)
    (s : FidRun σ) : entryPath env found s = some (entryOf env entry s) := by
  cases h with
  | none => rfl
  | some hrecord =>
    next fid e =>
    obtain ⟨hfsid, hsize, htype, hhandle, hname⟩ := hrecord.reads
    unfold entryPath entryOf resolveNameRecord DirEntry.path
    simp only [hfsid, hsize, htype, Option.bind_eq_bind, Option.bind_some]
    cases (channelIndexByFsid (env.channels s.env) e.fsid).bind
        fun ci => ((env.channels s.env).slots[ci]?).bind (·.rt.mountFd) with
    | none => rfl
    | some mount =>
      simp only [hhandle, Option.bind_some]
      cases (env.resolveHandle mount e.handle s.env).1 with
      | none => rfl
      | some dirpath =>
        simp only [Option.map_some, hname, Option.bind_some]

/-- For an event is done what it says. -/
theorem processFidEvent_bytes (ev : FidEvent) (a : List UInt8) (s : FidRun σ) :
    processFidEvent env (ev.bytes ++ a) s = some (ev.process env s) := by
  have hmask : ev.mask.toNat.toUInt64 = ev.mask := UInt64.ofNat_toNat
  have hold := findNameRecord_bytes ev a (t := infoOldDfidName) (.inr (.inl rfl))
  have hnew := findNameRecord_bytes ev a (t := infoNewDfidName) (.inr (.inr rfl))
  have hname := findNameRecord_bytes ev a (t := infoDfidName) (.inl rfl)
  unfold processFidEvent processRenameEvent FidEvent.process
  rw [ev.metaAt_bytes]
  dsimp only
  rw [hmask]
  split_ifs
  · rfl
  · rfl
  · simp only [entryPath_record hold, entryPath_record hnew, Option.bind_eq_bind, Option.bind_some]
  · simp only [entryPath_record hname, Option.bind_eq_bind, Option.bind_some]

theorem fanEventOk_bytes (ev : FidEvent) (a : List UInt8) : fanEventOk (ev.bytes ++ a) = true := by
  have hlen : ev.bytes.length = metaSize + (ev.records.flatMap InfoRecord.bytes).length :=
    EventRecord.length_bytes _
  unfold fanEventOk
  rw [ev.metaAt_bytes]
  simp only [Bool.and_eq_true, decide_eq_true_eq, List.length_append]
  omega

/-- The events of a buffer in their order. -/
theorem notifyBuffer_events (evs : List FidEvent) (s : FidRun σ)
    (h : (evs.flatMap FidEvent.bytes).length < n) :
    notifyBuffer env n (evs.flatMap FidEvent.bytes) s = some (true, evs.foldl (fun s ev => ev.process env s) s) := by
  induction evs generalizing n s with
  | nil =>
    cases n with
    | zero => omega
    | succ n => rfl
  | cons ev evs ih =>
    cases n with
    | zero => omega
    | succ n =>
      have hlen : ev.bytes.length = metaSize + (ev.records.flatMap InfoRecord.bytes).length :=
        EventRecord.length_bytes _
      rw [List.flatMap_cons, List.length_append, hlen, metaSize] at h
      rw [List.flatMap_cons, notifyBuffer, if_pos (fanEventOk_bytes ev _),
        if_neg (not_not.2 (ev.header_bytes _).1), processFidEvent_bytes, Option.bind_some, ev.metaAt_bytes]
      dsimp only
      rw [List.drop_left' rfl, ih (ev.process env s) (by omega)]
      rfl

theorem notifyReads_events (bufs : List (List FidEvent)) (hne : ∀ evs ∈ bufs, evs ≠ []) (s : FidRun σ) :
    notifyReads env (bufs.map (·.flatMap FidEvent.bytes)) s =
      some (true, bufs.flatten.foldl (fun s ev => ev.process env s) s) := by
  induction bufs generalizing s with
  | nil => rfl
  | cons evs bufs ih =>
    rw [List.forall_mem_cons] at hne
    have hbuf : evs.flatMap FidEvent.bytes ≠ [] := by
      obtain ⟨ev, evs, rfl⟩ := List.exists_cons_of_ne_nil hne.1
      have hlen : ev.bytes.length = metaSize + (ev.records.flatMap InfoRecord.bytes).length :=
        EventRecord.length_bytes _
      refine List.ne_nil_of_length_pos ?_
      rw [List.flatMap_cons, List.length_append, hlen, metaSize]
      omega
    rw [List.map_cons, notifyReads, if_neg hbuf, notifyBuffer_events evs s (Nat.lt_succ_self _), List.flatten_cons,
      List.foldl_append, ← ih hne.2]
    rfl

end

/-! ## What the handlers get -/

/-- The event is of one operation that another process did; a directory that is new by it has been
marked just before. -/
def Announced (getpid : Int) (before : List FidOp) (ev : NotifyEvent) : Prop :=
  ∃ (op : NotifyOp) (ondir : Bool) (pid : Int) (path : CBuf pathMax) (newPath : Option (CBuf pathMax)),
    ev = notifyEvent op ondir pid path newPath ∧ ev.mask &&& fanNotifyOps = op.bit ∧ pid ≠ getpid ∧
      (newPath.isSome = true → op = .rename) ∧
      (ondir = true → ∀ dir, op = .create ∧ dir = path ∨ newPath = some dir →
        before.getLast? = some (.markTree dir.str))

/-- What has been done is in order: each event handed on was announced. -/
def InOrder (getpid : Int) (ops : List FidOp) : Prop :=
  ∀ pre ev post, ops = pre ++ .dispatch ev :: post → Announced getpid pre ev

theorem NotifyOp.mask_ops (op : NotifyOp) (ondir : Bool) : op.mask ondir &&& fanNotifyOps = op.bit := by
  cases op <;> cases ondir <;> rfl

section
variable {σ : Type} {env : FidEnv σ} {s s' : FidRun σ} {ptr fid : List UInt8} {n : Nat} {ops : List FidOp}
  {getpid pid : Int} {ev : NotifyEvent} {mask : UInt64} {full oldFull newFull : Option (CBuf pathMax)}

/-- One more operation is in order when it is an announced event or none. -/
theorem InOrder.concat {op : FidOp} (h : InOrder getpid ops) (hop : ∀ ev, op = .dispatch ev → Announced getpid ops ev) :
    InOrder getpid (ops ++ [op]) := by
  intro pre ev post heq
  rcases List.eq_nil_or_concat post with rfl | ⟨post, last, rfl⟩
  · obtain ⟨rfl, hlast⟩ := List.append_inj' heq rfl
    exact hop ev (List.singleton_inj.1 hlast)
  · have hsplit : ops ++ [op] = (pre ++ .dispatch ev :: post) ++ [last] := by
      rw [heq, List.concat_eq_append, List.append_assoc, List.cons_append]
    exact h pre ev post (List.append_inj' hsplit rfl).1

theorem InOrder.closeFd (h : InOrder getpid s.ops) (fd : Int) : InOrder getpid (s.closeFd fd).ops := by
  unfold FidRun.closeFd
  split
  · exact h.concat fun ev heq => by cases heq
  · exact h

theorem InOrder.markTree (h : InOrder getpid s.ops) (root : CStr) : InOrder getpid (s.markTree env root).ops :=
  h.concat fun ev heq => by cases heq

theorem InOrder.dispatchOne (h : InOrder getpid s.ops) (hev : Announced getpid s.ops ev) :
    InOrder getpid (dispatchOne env ev s).ops :=
  h.concat fun ev' heq => by
    cases heq
    exact hev

/-- An operation that makes no directory needs no marks. -/
theorem announced_plain {op : NotifyOp} (hpid : pid ≠ getpid) (hop : op ≠ .create) (ops : List FidOp) (ondir : Bool)
    (path : CBuf pathMax) : Announced getpid ops (notifyEvent op ondir pid path none) := by
  refine ⟨op, ondir, pid, path, none, rfl, op.mask_ops ondir, hpid, fun h => absurd h Bool.false_ne_true, ?_⟩
  rintro - dir (⟨hcreate, -⟩ | hnew)
  · exact absurd hcreate hop
  · cases hnew

theorem InOrder.dispatchNotify (h : InOrder getpid s.ops) (hpid : pid ≠ getpid) (path : CBuf pathMax)
    (hmark : mask &&& fanOndir ≠ 0 → mask &&& fanCreate ≠ 0 → s.ops.getLast? = some (.markTree path.str)) :
    InOrder getpid (dispatchNotify env mask pid path s).ops := by
  have hcreate : mask &&& NotifyOp.create.bit ≠ 0 →
      Announced getpid s.ops (notifyEvent .create (isOndir mask) pid path none) := by
    intro hbit
    refine ⟨.create, isOndir mask, pid, path, none, rfl, NotifyOp.mask_ops _ _, hpid,
      fun h => absurd h Bool.false_ne_true, ?_⟩
    rintro hdir dir (⟨-, rfl⟩ | hnew)
    · exact hmark (of_decide_eq_true hdir) hbit
    · cases hnew
  have hrest : ∀ (ops : List NotifyOp) (s : FidRun σ), .create ∉ ops → InOrder getpid s.ops →
      InOrder getpid (ops.foldl (fun s op => if mask &&& op.bit ≠ 0 then
        GfrGuard.dispatchOne env (notifyEvent op (isOndir mask) pid path none) s else s) s).ops := by
    intro ops
    induction ops with
    | nil => exact fun s _ h => h
    | cons op ops ih =>
      intro s hops h
      rw [List.mem_cons, not_or] at hops
      refine ih _ hops.2 ?_
      dsimp only
      split
      · exact h.dispatchOne (announced_plain hpid (Ne.symm hops.1) _ _ _)
      · exact h
  unfold GfrGuard.dispatchNotify opBits
  rw [List.foldl_cons]
  refine hrest _ _ (by decide) ?_
  split
  · next hbit => exact h.dispatchOne (hcreate hbit)
  · exact h

theorem InOrder.notifyPath (h : InOrder getpid s.ops) (hpid : pid ≠ getpid) :
    InOrder getpid (notifyPath env mask pid full s).ops := by
  unfold GfrGuard.notifyPath
  cases full with
  | none => exact h
  | some full =>
    dsimp only
    split
    · exact (h.markTree full.str).dispatchNotify hpid full fun _ _ => List.getLast?_concat
    · next hnone => exact h.dispatchNotify hpid full fun hdir hcreate => absurd ⟨hdir, hcreate⟩ hnone

theorem InOrder.renamePaths (h : InOrder getpid s.ops) (hpid : pid ≠ getpid) :
    InOrder getpid (renamePaths env mask pid oldFull newFull s).ops := by
  unfold GfrGuard.renamePaths
  cases oldFull.or newFull with
  | none => exact h
  | some path =>
    cases newFull with
    | none =>
      dsimp only
      exact h.dispatchOne (announced_plain hpid (by decide) _ _ _)
    | some new =>
      dsimp only
      have hev : ∀ ops : List FidOp, (mask &&& fanOndir ≠ 0 → ops.getLast? = some (.markTree new.str)) →
          Announced getpid ops (notifyEvent .rename (isOndir mask) pid path (some new)) := by
        intro ops hmark
        refine ⟨.rename, isOndir mask, pid, path, some new, rfl, NotifyOp.mask_ops _ _, hpid, fun _ => rfl, ?_⟩
        rintro hdir dir (⟨hcreate, -⟩ | hnew)
        · cases hcreate
        · cases hnew
          exact hmark (of_decide_eq_true hdir)
      split
      · exact (h.markTree new.str).dispatchOne (hev _ fun _ => List.getLast?_concat)
      · next hdir => exact h.dispatchOne (hev _ fun h => absurd h hdir)

/-- To find a path does nothing by itself. -/
theorem entryPath_ops {found : Option (List UInt8)} {path : Option (CBuf pathMax)}
    (h : entryPath env found s = some (path, s')) : s'.ops = s.ops := by
  unfold entryPath at h
  cases found with
  | none =>
    cases h
    rfl
  | some fid =>
    dsimp only [Option.bind_eq_bind] at h
    obtain ⟨⟨dir, s₁⟩, hresolve, hpath⟩ := Option.bind_eq_some_iff.1 h
    have hdir : s'.ops = s₁.ops := by
      cases dir with
      | none =>
        cases hpath
        rfl
      | some dir =>
        obtain ⟨name, -, hname⟩ := Option.bind_eq_some_iff.1 hpath
        cases hname
        rfl
    rw [hdir]
    unfold resolveNameRecord at hresolve
    dsimp only [Option.bind_eq_bind] at hresolve
    obtain ⟨fsid, -, hchannel⟩ := Option.bind_eq_some_iff.1 hresolve
    cases hmount : (channelIndexByFsid (env.channels s.env) fsid).bind
        fun ci => ((env.channels s.env).slots[ci]?).bind (·.rt.mountFd) with
    | none =>
      rw [hmount] at hchannel
      cases hchannel
      rfl
    | some mount =>
      rw [hmount] at hchannel
      obtain ⟨size, -, hsize⟩ := Option.bind_eq_some_iff.1 hchannel
      obtain ⟨type, -, htype⟩ := Option.bind_eq_some_iff.1 hsize
      obtain ⟨bytes, -, hbytes⟩ := Option.bind_eq_some_iff.1 htype
      cases hbytes
      rfl

theorem InOrder.processFidEvent (h : InOrder env.getpid s.ops) (hrun : processFidEvent env ptr s = some s') :
    InOrder env.getpid s'.ops := by
  have hclosed := h.closeFd (metaAt ptr).fd
  unfold GfrGuard.processFidEvent at hrun
  dsimp only at hrun
  split_ifs at hrun with hover hpid hrename
  · cases hrun
    exact hclosed.concat fun ev heq => by cases heq
  · cases hrun
    exact hclosed
  · unfold processRenameEvent at hrun
    obtain ⟨⟨old, s₁⟩, hold, hrun⟩ := Option.bind_eq_some_iff.1 hrun
    obtain ⟨⟨new, s₂⟩, hnew, hrun⟩ := Option.bind_eq_some_iff.1 hrun
    cases hrun
    rw [← entryPath_ops hold, ← entryPath_ops hnew] at hclosed
    exact hclosed.renamePaths hpid
  · obtain ⟨⟨full, s₁⟩, hfull, hrun⟩ := Option.bind_eq_some_iff.1 hrun
    cases hrun
    rw [← entryPath_ops hfull] at hclosed
    exact hclosed.notifyPath hpid

theorem InOrder.notifyBuffer {go : Bool} (h : InOrder env.getpid s.ops)
    (hrun : notifyBuffer env n ptr s = some (go, s')) : InOrder env.getpid s'.ops := by
  induction n generalizing ptr s with
  | zero => cases hrun
  | succ n ih =>
    rw [GfrGuard.notifyBuffer] at hrun
    split at hrun
    · split at hrun
      · cases hrun
        exact h
      · obtain ⟨s₁, hstep, hrest⟩ := Option.bind_eq_some_iff.1 hrun
        exact ih (h.processFidEvent hstep) hrest
    · cases hrun
      exact h

theorem InOrder.notifyReads {go : Bool} {bufs : List (List UInt8)} (h : InOrder env.getpid s.ops)
    (hrun : notifyReads env bufs s = some (go, s')) : InOrder env.getpid s'.ops := by
  induction bufs generalizing s with
  | nil =>
    cases hrun
    exact h
  | cons buf bufs ih =>
    rw [GfrGuard.notifyReads] at hrun
    split at hrun
    · cases hrun
      exact h
    · obtain ⟨⟨go₁, s₁⟩, hbuf, hrest⟩ := Option.bind_eq_some_iff.1 hrun
      cases go₁ with
      | true => exact ih (h.notifyBuffer hbuf) hrest
      | false =>
        cases hrest
        exact h.notifyBuffer hbuf

theorem InOrder.rewalk (h : InOrder getpid s.ops) : InOrder getpid (rewalk env s).ops := by
  have hwalk : ∀ (slots : List ChannelSlot) (s : FidRun σ), InOrder getpid s.ops →
      InOrder getpid (slots.foldl (fun s slot => s.markTree env slot.rt.realPath) s).ops := by
    intro slots
    induction slots with
    | nil => exact fun s h => h
    | cons slot slots ih => exact fun s h => ih _ (h.markTree _)
  unfold GfrGuard.rewalk
  split
  · exact hwalk _ _ h
  · exact h

end

/-- A drain of what the kernel writes does for each event what the event says, in their order, and
then marks the trees again if events were lost; it reads nothing beyond what the kernel wrote. -/
theorem drain_notify_decodes {σ : Type} (env : FidEnv σ) (fd : Int) (hfd : 0 ≤ fd) (bufs : List (List FidEvent))
    (hne : ∀ evs ∈ bufs, evs ≠ []) (s : FidRun σ) (hchannels : (env.channels s.env).slots ≠ []) :
    fanotifyDrainNotify env fd (bufs.map (·.flatMap FidEvent.bytes)) s =
      some (rewalk env (bufs.flatten.foldl (fun s ev => ev.process env s) s)) := by
  unfold fanotifyDrainNotify
  rw [if_neg (not_or.2 ⟨Int.not_lt.2 hfd, hchannels⟩), notifyReads_events bufs hne]
  rfl

/-- The channel of `/`, in which every handle opens `/srv`. -/
def srvFid : FidEnv Unit where
  channels _ := rootTable
  resolveHandle _ _ e := (some (.ofStr pathMax (lit "/srv")), e)
  markTree _ e := e
  handler _ _ e := e
  getpid := 1

theorem mkdirEvent_fits :
    20 + [(7 : UInt8)].length + ((lit "a").length + (1 + ([] : List UInt8).length)) < 2 ^ 16 := by decide

/-- The name `a` in the directory of a handle. -/
def mkdirEntry : DirEntry := ⟨1, by decide, ⟨1, [7]⟩, by decide, lit "a", by decide, [], mkdirEvent_fits⟩

theorem mkdirEvent_fd_range : -2 ^ 31 ≤ (-1 : Int) ∧ (-1 : Int) < 2 ^ 31 := by decide

theorem mkdirEvent_pid_range : -2 ^ 31 ≤ (4242 : Int) ∧ (4242 : Int) < 2 ^ 31 := by decide

theorem mkdirEvent_len_lt :
    metaSize + ([InfoRecord.name infoDfidName 0 mkdirEntry].flatMap InfoRecord.bytes).length < 2 ^ 32 := by decide

/-- Someone makes that directory. -/
def mkdirEvent : FidEvent :=
  ⟨0, fanCreate ||| fanOndir, -1, mkdirEvent_fd_range, 4242, mkdirEvent_pid_range, [.name infoDfidName 0 mkdirEntry],
    mkdirEvent_len_lt⟩

/-- It is marked and handed on. -/
theorem drain_notify_sample : ∃ s', fanotifyDrainNotify srvFid 5 [mkdirEvent.bytes] ⟨(), [], false, 0⟩ = some s' ∧
    s'.ops = [.markTree (lit "/srv/a"),
      .dispatch (notifyEvent .create true 4242 (.ofStr pathMax (lit "/srv/a")) none)] := by
  have hdrain := drain_notify_decodes srvFid 5 (by decide) [[mkdirEvent]] (by simp) ⟨(), [], false, 0⟩
    (List.cons_ne_nil _ _)
  refine ⟨rewalk srvFid (mkdirEvent.process srvFid ⟨(), [], false, 0⟩), ?_, rfl⟩
  rw [List.map_singleton, List.flatMap_singleton] at hdrain
  exact hdrain

/-- Whatever the bytes are, a drain hands on one operation at a time, none of the daemon's own, and
a directory that is new has been marked just before a handler hears of it. -/
theorem drain_notify_contract {σ : Type} (env : FidEnv σ) (fd : Int) (bufs : List (List UInt8)) (e : σ)
    (needRewalk : Bool) (processed : Nat) (s' : FidRun σ)
    (h : fanotifyDrainNotify env fd bufs ⟨e, [], needRewalk, processed⟩ = some s') : InOrder env.getpid s'.ops := by
  have hstart : InOrder env.getpid (⟨e, [], needRewalk, processed⟩ : FidRun σ).ops := by
    intro pre ev post heq
    cases pre <;> cases heq
  unfold fanotifyDrainNotify at h
  split at h
  · cases h
    exact hstart
  · obtain ⟨⟨go, s⟩, hreads, rfl⟩ := Option.map_eq_some_iff.1 h
    have hs := hstart.notifyReads hreads
    dsimp only
    split
    · exact hs.rewalk
    · exact hs

/-- The bytes of that directory. -/
theorem drain_notify_contract_sample : InOrder 1 [.markTree (lit "/srv/a"),
    .dispatch (notifyEvent .create true 4242 (.ofStr pathMax (lit "/srv/a")) none)] :=
  drain_notify_contract srvFid 5 [mkdirEvent.bytes] () false 0 ⟨(), _, false, 1⟩ (by rfl)

end GfrGuard
