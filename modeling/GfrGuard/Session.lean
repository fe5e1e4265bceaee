import Mathlib.Data.Int.ConditionallyCompleteOrder
import Mathlib.Data.List.MinMax
import GfrGuard.Lib.Probe
import GfrGuard.Hash
import GfrGuard.Config

/-!
# The session table

One `SessionState` per session key: the counters the score is computed from, the two
sliding windows, the current event id and the block flag. The table is an open-addressing
array probed from the key's hash; a full table evicts its least recently active session
that is not blocked. `SessionTable.WellPlaced` is the invariant of every table the daemon
can reach, and `sessionFindOrCreate_spec` says once what a lookup can do.
-/

namespace GfrGuard

/-! ## One session -/

/-- `enum risk_level`. -/
inductive RiskLevel where
  | normal
  | suspicious
  | high
  | critical
deriving DecidableEq

/-- The set of directory hashes a session touched, at most `DIR_SET_MAX`. -/
structure DirSet where
  hashes : List UInt64
  count_le : hashes.length ≤ 256
deriving DecidableEq

/-- The empty set. -/
def DirSet.empty : DirSet := ⟨[], Nat.zero_le _⟩

/-- `struct session_state`. -/
structure SessionState where
  sessionKey : CBuf 128
  modifiedCount : UInt32
  renameCount : UInt32
  deleteCount : UInt32
  touchedDirs : UInt32
  extChangeCount : UInt32
  ransomExtCount : UInt32
  highEntropyCount : UInt32
  yaraMatchCount : UInt32
  contentSameCount : UInt32
  riskScore : UInt32
  riskLevel : RiskLevel
  windowStart10s : Int
  windowStart30s : Int
  isBlocked : Bool
  lastSeen : Int
  currentEventId : CBuf 32
  totalEvents : UInt64
  dirSet : DirSet
  inUse : Bool
deriving DecidableEq

/-- A zeroed slot. -/
def SessionState.zero : SessionState where
  sessionKey := .empty 128
  modifiedCount := 0
  renameCount := 0
  deleteCount := 0
  touchedDirs := 0
  extChangeCount := 0
  ransomExtCount := 0
  highEntropyCount := 0
  yaraMatchCount := 0
  contentSameCount := 0
  riskScore := 0
  riskLevel := .normal
  windowStart10s := 0
  windowStart30s := 0
  isBlocked := false
  lastSeen := 0
  currentEventId := .empty 32
  totalEvents := 0
  dirSet := .empty
  inUse := false

/-- A slot newly taken for a key. -/
def SessionState.fresh (key : CBuf 128) (now : Int) : SessionState :=
  { SessionState.zero with sessionKey := key, inUse := true, lastSeen := now }

/-- A slot looked up again. -/
def SessionState.touch (s : SessionState) (now : Int) : SessionState := { s with lastSeen := now }

/-- A counter that stops at `UINT32_MAX`. -/
def satInc (c : UInt32) : UInt32 := if c < 0xFFFFFFFF then c + 1 else c

/-! ## Windows -/

/-- The start of the long window as `session_check_window` sees it: an unset one starts now. -/
def SessionState.longStart (s : SessionState) (now : Int) : Int :=
  if s.windowStart30s = 0 then now else s.windowStart30s

/-- The start of the short window as `session_check_window` sees it. -/
def SessionState.shortStart (s : SessionState) (now : Int) : Int :=
  if s.windowStart10s = 0 then now else s.windowStart10s

/-- The long window has run out. -/
def SessionState.longExpired (s : SessionState) (now windowLong : Int) : Bool :=
  windowLong ≤ now - s.longStart now

/-- The short window has run out. -/
def SessionState.shortExpired (s : SessionState) (now windowShort : Int) : Bool :=
  windowShort ≤ now - s.shortStart now

/-- The short window rolls: the counters restart. -/
def SessionState.rollShort (s : SessionState) (now : Int) : SessionState :=
  { s with
    modifiedCount := 0, renameCount := 0, deleteCount := 0, extChangeCount := 0,
    ransomExtCount := 0, highEntropyCount := 0, yaraMatchCount := 0, contentSameCount := 0,
    windowStart10s := now }

/-- The long window rolls: the directory set, the event and the verdict restart; the block
stays. -/
def SessionState.rollLong (s : SessionState) (now : Int) : SessionState :=
  { s with
    touchedDirs := 0, dirSet := .empty, windowStart30s := now, currentEventId := .empty 32,
    riskLevel := .normal, riskScore := 0 }

/-- `session_check_window`. -/
def sessionCheckWindow (s : SessionState) (now windowShort windowLong : Int) : SessionState :=
  let s := { s with windowStart10s := s.shortStart now, windowStart30s := s.longStart now }
  let s := if windowShort ≤ now - s.windowStart10s then s.rollShort now else s
  if windowLong ≤ now - s.windowStart30s then s.rollLong now else s

/-! ## Counters -/

/-- `dir_seen` and `dir_add`: a new directory is recorded while there is room. -/
def dirAdd (s : SessionState) (hash : UInt64) : SessionState :=
  if h : hash ≠ 0 ∧ hash ∉ s.dirSet.hashes ∧ s.dirSet.hashes.length < 256 then
    { s with
      dirSet := ⟨s.dirSet.hashes ++ [hash], by simp only [List.length_append]; exact h.2.2⟩
      touchedDirs := satInc s.touchedDirs }
  else s

/-- The counters of one operation. -/
def countOp (s : SessionState) (opType : UInt8) (flags : UInt16) : SessionState :=
  if opType = opOpen ∨ opType = opWrite ∨ opType = opTruncate then
    { s with
      modifiedCount := if hasFlag flags flagRisky then satInc s.modifiedCount
        else s.modifiedCount
      -- a created file with a ransomware extension arrives as an open, not as a rename
      ransomExtCount := if hasFlag flags flagRansomExt then satInc s.ransomExtCount
        else s.ransomExtCount }
  else if opType = opRename then
    { s with
      renameCount := satInc s.renameCount
      extChangeCount := if hasFlag flags flagExtChange then satInc s.extChangeCount
        else s.extChangeCount
      ransomExtCount := if hasFlag flags flagRansomExt then satInc s.ransomExtCount
        else s.ransomExtCount }
  else if opType = opDelete then
    { s with deleteCount := satInc s.deleteCount }
  else if opType = opClose ∧ hasFlag flags flagContentSame ∧ 0 < s.modifiedCount then
    -- the file was overwritten with what it held: take back the earlier risky open
    { s with
      modifiedCount := s.modifiedCount - 1
      contentSameCount := satInc s.contentSameCount }
  else s

/-- The content signals, which can come with any operation. -/
def countContent (s : SessionState) (flags : UInt16) : SessionState :=
  { s with
    highEntropyCount := if hasFlag flags flagHighEntropy then satInc s.highEntropyCount
      else s.highEntropyCount
    yaraMatchCount := if hasFlag flags flagYaraMatch then satInc s.yaraMatchCount
      else s.yaraMatchCount }

/-- `session_update`. -/
def sessionUpdate (s : SessionState) (opType : UInt8) (flags : UInt16) (dirHash : UInt64) :
    SessionState :=
  let s := dirAdd (countContent (countOp s opType flags) flags) dirHash
  { s with totalEvents := s.totalEvents + 1 }

/-! ## The table -/

/-- The number of slots, `SESSION_BUCKETS`. -/
abbrev sessionBuckets : Nat := 1024

/-- `struct session_table`. -/
structure SessionTable where
  buckets : Fin sessionBuckets → SessionState
  count : Nat

/-- `session_table_init`. -/
def sessionTableInit : SessionTable := ⟨fun _ => .zero, 0⟩

namespace SessionTable

/-- The table with one slot replaced. -/
def set (t : SessionTable) (i : Fin sessionBuckets) (s : SessionState) : SessionTable :=
  { t with buckets := Function.update t.buckets i s }

/-- The key of a used slot. -/
def keyAt (t : SessionTable) (i : Fin sessionBuckets) : Option (CBuf 128) :=
  if (t.buckets i).inUse then some (t.buckets i).sessionKey else none

/-- The slots a key is looked for in, in order. -/
def probe (key : CBuf 128) (p : Nat) : Fin sessionBuckets :=
  ⟨((fnv1a64 key.str + UInt64.ofNat p) % 1024).toNat, by
    simp only [UInt64.toNat_mod]
    exact Nat.mod_lt _ (by decide)⟩

/-- The search loop of `session_find_or_create`. -/
def search (t : SessionTable) (key : CBuf 128) : OpenAddressing.Found (Fin sessionBuckets) :=
  OpenAddressing.search (probe key) t.keyAt key sessionBuckets 0

/-- One step of the eviction loop: the older of the candidate so far and slot `i`. -/
def olderOf (t : SessionTable) (oldest : Option (Fin sessionBuckets))
    (i : Fin sessionBuckets) : Option (Fin sessionBuckets) :=
  if !(t.buckets i).inUse || (t.buckets i).isBlocked then oldest
  else
    match oldest with
    | none => some i
    | some o => if (t.buckets i).lastSeen < (t.buckets o).lastSeen then some i else some o

/-- The eviction may take the session of a slot: it is in use and not blocked. -/
def evictable (t : SessionTable) (i : Fin sessionBuckets) : Bool :=
  (t.buckets i).inUse && !(t.buckets i).isBlocked

/-- The least recently active session that is not blocked. -/
def oldest (t : SessionTable) : Option (Fin sessionBuckets) :=
  (List.finRange sessionBuckets).foldl t.olderOf none

end SessionTable

/-- `session_find_or_create`: the slot of the key in the new table, or nothing when every
slot is taken by a blocked session. -/
def sessionFindOrCreate (t : SessionTable) (key : CBuf 128) (now : Int) :
    Option (Fin sessionBuckets × SessionTable) :=
  match t.search key with
  | .hole i => some (i, { t.set i (.fresh key now) with count := t.count + 1 })
  | .hit i => some (i, t.set i ((t.buckets i).touch now))
  | .full =>
    match t.oldest with
    | none => none
    | some i => some (i, t.set i (.fresh key now))

/-! ## What the session steps leave alone -/

/-- What identifies a session and what enforces its block: neither the windows nor the
counters touch it. -/
structure SessionState.SameSession (s s' : SessionState) : Prop where
  key : s'.sessionKey = s.sessionKey
  inUse : s'.inUse = s.inUse
  blocked : s'.isBlocked = s.isBlocked

theorem dirAdd_sameSession (s : SessionState) (hash : UInt64) : s.SameSession (dirAdd s hash) := by
  unfold dirAdd
  split <;> exact ⟨rfl, rfl, rfl⟩

theorem countOp_sameSession (s : SessionState) (opType : UInt8) (flags : UInt16) :
    s.SameSession (countOp s opType flags) := by
  unfold countOp
  split_ifs <;> exact ⟨rfl, rfl, rfl⟩

theorem SessionState.SameSession.trans {a b c : SessionState} (h : a.SameSession b)
    (h' : b.SameSession c) : a.SameSession c :=
  ⟨h'.key.trans h.key, h'.inUse.trans h.inUse, h'.blocked.trans h.blocked⟩

/-- `session_update` only counts. -/
theorem sessionUpdate_sameSession (s : SessionState) (opType : UInt8) (flags : UInt16)
    (dirHash : UInt64) : s.SameSession (sessionUpdate s opType flags dirHash) := by
  have h1 := countOp_sameSession s opType flags
  have h2 := dirAdd_sameSession (countContent (countOp s opType flags) flags) dirHash
  exact ⟨h2.key.trans h1.key, h2.inUse.trans h1.inUse, h2.blocked.trans h1.blocked⟩

theorem dirAdd_currentEventId (s : SessionState) (hash : UInt64) :
    (dirAdd s hash).currentEventId = s.currentEventId := by
  unfold dirAdd
  split <;> rfl

theorem countOp_currentEventId (s : SessionState) (opType : UInt8) (flags : UInt16) :
    (countOp s opType flags).currentEventId = s.currentEventId := by
  unfold countOp
  split_ifs <;> rfl

/-- Counting keeps the event of the session. -/
@[simp] theorem sessionUpdate_currentEventId (s : SessionState) (opType : UInt8)
    (flags : UInt16) (dirHash : UInt64) :
    (sessionUpdate s opType flags dirHash).currentEventId = s.currentEventId := by
  show (dirAdd (countContent (countOp s opType flags) flags) dirHash).currentEventId = _
  rw [dirAdd_currentEventId]
  exact countOp_currentEventId s opType flags

/-- The windows never lift a block. -/
theorem sessionCheckWindow_sameSession (s : SessionState) (now windowShort windowLong : Int) :
    s.SameSession (sessionCheckWindow s now windowShort windowLong) := by
  unfold sessionCheckWindow
  dsimp only
  split_ifs <;> exact ⟨rfl, rfl, rfl⟩

/-- The event survives `session_check_window` exactly while the long window runs. -/
theorem sessionCheckWindow_currentEventId (s : SessionState)
    (now windowShort windowLong : Int) :
    (sessionCheckWindow s now windowShort windowLong).currentEventId =
      if s.longExpired now windowLong then .empty 32 else s.currentEventId := by
  unfold sessionCheckWindow SessionState.longExpired
  dsimp only [SessionState.rollShort]
  by_cases hs : windowShort ≤ now - s.shortStart now <;>
    by_cases hl : windowLong ≤ now - s.longStart now <;>
    simp [hs, hl, SessionState.rollLong]

/-! ## What a lookup does to the table -/

namespace SessionTable

variable {t : SessionTable} {key : CBuf 128} {i : Fin sessionBuckets} {s : SessionState}

@[simp] theorem set_buckets : (t.set i s).buckets = Function.update t.buckets i s := rfl

theorem set_self (t : SessionTable) (i : Fin sessionBuckets) (s : SessionState) :
    (t.set i s).buckets i = s := by simp

theorem set_of_ne {j : Fin sessionBuckets} (h : j ≠ i) :
    (t.set i s).buckets j = t.buckets j := by simp [h]

theorem keyAt_eq_some_iff :
    t.keyAt i = some key ↔ (t.buckets i).inUse = true ∧ (t.buckets i).sessionKey = key := by
  simp [keyAt]

/-- The keys of a table with one slot replaced. -/
theorem keyAt_set : (t.set i s).keyAt =
    Function.update t.keyAt i (if s.inUse then some s.sessionKey else none) := by
  funext j
  by_cases h : j = i
  · subst h; simp [keyAt]
  · simp [keyAt, h]

/-- Changing a slot's session without changing whose it is keeps the keys. -/
theorem keyAt_set_of_sameSession (h : (t.buckets i).SameSession s) :
    (t.set i s).keyAt = t.keyAt := by
  rw [keyAt_set, h.inUse, h.key]
  exact Function.update_eq_self i t.keyAt

/-- Every probe sequence walks over the whole table. -/
theorem probe_cover (key : CBuf 128) (i : Fin sessionBuckets) :
    ∃ p < sessionBuckets, probe key p = i := by
  refine ⟨(i.val + 1024 - (fnv1a64 key.str).toNat % 1024) % 1024, Nat.mod_lt _ (by decide), ?_⟩
  apply Fin.ext
  have hi : i.val < 1024 := i.isLt
  have h64 : (fnv1a64 key.str).toNat < 2 ^ 64 := UInt64.toNat_lt _
  simp only [probe, UInt64.toNat_mod, UInt64.toNat_add, UInt64.toNat_ofNat']
  have h1024 : UInt64.toNat 1024 = 1024 := rfl
  rw [h1024]
  omega

/-- Every key of the table is found from its hash. -/
def WellPlaced (t : SessionTable) : Prop :=
  OpenAddressing.Placed probe sessionBuckets t.keyAt

theorem wellPlaced_init : sessionTableInit.WellPlaced := OpenAddressing.placed_empty

/-- The eviction loop looks for a session seen longest ago among those it may take. -/
theorem oldest_argmin (t : SessionTable) :
    (∀ i, t.oldest = some i → t.evictable i = true ∧
      ∀ j, t.evictable j = true → (t.buckets i).lastSeen ≤ (t.buckets j).lastSeen) ∧
      (t.oldest = none ↔ ∀ i, t.evictable i = false) := by
  have hargmin : t.oldest =
      ((List.finRange sessionBuckets).filter t.evictable).argmin fun i => (t.buckets i).lastSeen := by
    unfold oldest List.argmin
    rw [List.foldl_filter]
    congr 1
    funext o i
    unfold olderOf evictable
    cases (t.buckets i).inUse <;> cases (t.buckets i).isBlocked <;> cases o <;> rfl
  rw [hargmin]
  refine ⟨fun i h => ⟨(List.mem_filter.1 (List.argmin_mem h)).2, fun j hj => ?_⟩, ?_⟩
  · exact List.le_of_mem_argmin (f := fun i => (t.buckets i).lastSeen)
      (List.mem_filter.2 ⟨List.mem_finRange j, hj⟩) h
  · rw [List.argmin_eq_none, List.filter_eq_nil_iff]
    simp

/-- An eviction candidate may be evicted, and no other that may was seen before it. -/
theorem oldest_spec (h : t.oldest = some i) : t.evictable i = true ∧
    ∀ j, t.evictable j = true → (t.buckets i).lastSeen ≤ (t.buckets j).lastSeen :=
  (oldest_argmin t).1 i h

/-- There is no eviction candidate exactly when no session may be evicted. -/
theorem oldest_eq_none : t.oldest = none ↔ ∀ i, t.evictable i = false :=
  (oldest_argmin t).2

theorem evictable_iff : t.evictable i = true ↔
    (t.buckets i).inUse = true ∧ (t.buckets i).isBlocked = false := by
  simp [evictable]

end SessionTable

open SessionTable

/-- The two things a successful lookup can do to the table: touch the slot that holds the
key, or take a slot for it that is free or holds a session that is not blocked. -/
inductive FindOrCreateSpec (t : SessionTable) (key : CBuf 128) (now : Int)
    (i : Fin sessionBuckets) (t' : SessionTable) : Prop
  | found (hsearch : t.search key = .hit i) (hkey : t.keyAt i = some key)
      (hset : t'.buckets = (t.set i ((t.buckets i).touch now)).buckets)
  | created (hsearch : t.search key = .hole i ∨ t.search key = .full)
      (hfree : (t.buckets i).inUse = false ∨ (t.buckets i).isBlocked = false)
      (hset : t'.buckets = (t.set i (.fresh key now)).buckets)

/-- `session_find_or_create` meets its specification. -/
theorem sessionFindOrCreate_spec {t t' : SessionTable} {key : CBuf 128} {now : Int}
    {i : Fin sessionBuckets} (h : sessionFindOrCreate t key now = some (i, t')) :
    FindOrCreateSpec t key now i t' := by
  have hspec := OpenAddressing.searchSpec (probe key) t.keyAt key sessionBuckets
  unfold sessionFindOrCreate at h
  split at h
  · next j hs =>
    cases h
    rw [← SessionTable.search, hs] at hspec
    cases hspec with
    | hole p hp hfree hpass =>
      refine .created (.inl hs) (.inl ?_) rfl
      simpa [keyAt] using hfree
  · next j hs =>
    cases h
    rw [← SessionTable.search, hs] at hspec
    cases hspec with
    | hit p hp hkey hpass => exact .found hs hkey rfl
  · next hs =>
    split at h
    · cases h
    · next j hold =>
      cases h
      exact .created (.inr hs) (.inr (evictable_iff.1 (oldest_spec hold).1).2) rfl

/-- The slot a lookup returns belongs to the key. -/
theorem FindOrCreateSpec.slot {t t' : SessionTable} {key : CBuf 128} {now : Int}
    {i : Fin sessionBuckets} (h : FindOrCreateSpec t key now i t') :
    (t'.buckets i).inUse = true ∧ (t'.buckets i).sessionKey = key := by
  cases h with
  | found _ hkey hset => simpa [hset, SessionState.touch] using keyAt_eq_some_iff.1 hkey
  | created _ _ hset => simp [hset, SessionState.fresh]

/-- A lookup changes no other slot. -/
theorem FindOrCreateSpec.frame {t t' : SessionTable} {key : CBuf 128} {now : Int}
    {i j : Fin sessionBuckets} (h : FindOrCreateSpec t key now i t') (hj : j ≠ i) :
    t'.buckets j = t.buckets j := by
  cases h with
  | found _ _ hset => simp [hset, hj]
  | created _ _ hset => simp [hset, hj]

/-- Lookups keep every key findable. -/
theorem FindOrCreateSpec.wellPlaced {t t' : SessionTable} {key : CBuf 128} {now : Int}
    {i : Fin sessionBuckets} (h : FindOrCreateSpec t key now i t') (hw : t.WellPlaced) :
    t'.WellPlaced := by
  have hkeys : ∀ {s : SessionState}, t'.buckets = (t.set i s).buckets →
      t'.keyAt = (t.set i s).keyAt := fun hset => by funext j; simp only [keyAt, hset]
  cases h with
  | found _ _ hset =>
    unfold WellPlaced
    rw [hkeys hset, keyAt_set_of_sameSession (s := (t.buckets i).touch now) ⟨rfl, rfl, rfl⟩]
    exact hw
  | created hs _ hset =>
    unfold WellPlaced
    rw [hkeys hset, keyAt_set]
    rcases hs with hs | hs
    · exact OpenAddressing.Placed.insert hw hs
    · exact OpenAddressing.Placed.replace hw probe_cover hs

/-- In a well-placed table a lookup finds the session that holds the key. -/
theorem SessionTable.WellPlaced.sessionFindOrCreate {t : SessionTable} {key : CBuf 128}
    {i : Fin sessionBuckets} (hw : t.WellPlaced) (hk : t.keyAt i = some key) (now : Int) :
    sessionFindOrCreate t key now = some (i, t.set i ((t.buckets i).touch now)) := by
  have hs : t.search key = .hit i := OpenAddressing.Placed.search_eq_hit hw hk
  simp only [GfrGuard.sessionFindOrCreate, hs]

end GfrGuard
