import Mathlib.Data.Nat.Digits.Defs
import GfrGuard.ChannelLookup

/-!
# Draining the permission events

The permission thread reads buffers of event records from the kernel and goes over the bytes of
each from record to record by the length in its header. Each record is answered if it asks for
permission, whether its path is found or not and whatever the channel decides, and its
descriptor is closed after that (`drain_perm_answers`). The loop over a buffer ends whatever the
bytes are (`drainBuffer_isSome`).
-/

namespace GfrGuard

/-! ## Records -/

/-- The number in bytes, the low one first. -/
def leNat (bytes : List UInt8) : Nat := Nat.ofDigits 256 (bytes.map (·.toNat))

/-- A number in a count of bytes. -/
def leBytes : (w : Nat) → Nat → List UInt8
  | 0, _ => []
  | w + 1, n => (n % 256).toUInt8 :: leBytes w (n / 256)

/-- The `int` of 32 bits. -/
def toInt32 (n : Nat) : Int := if n < 2 ^ 31 then n else n - 2 ^ 32

/-- `struct fanotify_event_metadata`, as far as it is read. -/
structure EventMeta where
  eventLen : Nat
  mask : Nat
  fd : Int
  pid : Int
deriving DecidableEq

/-- The size of the structure. -/
def metaSize : Nat := 24

/-- The structure at `ptr`. -/
def metaAt (ptr : List UInt8) : EventMeta where
  eventLen := leNat (ptr.take 4)
  mask := leNat ((ptr.drop 8).take 8)
  fd := toInt32 (leNat ((ptr.drop 16).take 4))
  pid := toInt32 (leNat ((ptr.drop 20).take 4))

/-- `FAN_OPEN_PERM` is in a mask. -/
def hasOpenPerm (mask : Nat) : Bool := mask &&& 0x00010000 ≠ 0

/-- A record as the kernel writes it: the structure, and more it may have after that. -/
structure EventRecord where
  vers : UInt8
  reserved : UInt8
  metadataLen : Nat
  mask : Nat
  mask_lt : mask < 2 ^ 64
  fd : Int
  fd_range : -2 ^ 31 ≤ fd ∧ fd < 2 ^ 31
  pid : Int
  pid_range : -2 ^ 31 ≤ pid ∧ pid < 2 ^ 31
  more : List UInt8
  len_lt : metaSize + more.length < 2 ^ 32

/-- The bytes of a record. -/
def EventRecord.bytes (r : EventRecord) : List UInt8 :=
  leBytes 4 (metaSize + r.more.length) ++ (r.vers :: r.reserved :: (leBytes 2 r.metadataLen ++
    (leBytes 8 r.mask ++ (leBytes 4 (r.fd % 2 ^ 32).toNat ++ (leBytes 4 (r.pid % 2 ^ 32).toNat ++ r.more)))))

/-! ## The drain -/

/-- An event as a handler is given it. -/
structure PermEvent where
  mask : Nat
  eventFd : Int
  pid : Int
  path : CBuf pathMax

/-- What is done about a descriptor. -/
inductive PermOp where
  | respond (fd : Int) (resp : FanAction)
  | close (fd : Int)
deriving DecidableEq

/-- What the drain finds, on a state of its own: the path of a descriptor, the table and the
handlers of the channels. -/
structure PermEnv (σ : Type) where
  /-- `fanotify_resolve_path`. -/
  resolvePath : Int → σ → Option (CBuf pathMax) × σ
  channels : σ → ChannelTable
  handler : FanotifyChannel → Option (PermEvent → σ → FanAction × σ)

/-- Where the drain is. -/
structure PermRun (σ : Type) where
  env : σ
  ops : List PermOp
  processed : Nat

section
variable {σ : Type} (env : PermEnv σ)

/-- The answer to a record that asks for permission. -/
def respondOps (m : EventMeta) (resp : FanAction) : List PermOp :=
  if hasOpenPerm m.mask then [.respond m.fd resp] else []

/-- The end of a descriptor that is one. -/
def closeOps (m : EventMeta) : List PermOp := if 0 ≤ m.fd then [.close m.fd] else []

/-- What the channel of a path decides; without one the open is allowed. -/
def channelAction (m : EventMeta) (path : CBuf pathMax) (s : σ) : FanAction × σ :=
  match (findChannel (env.channels s) path.str).bind fun i => (env.channels s).slots[i]? with
  | none => (.allow, s)
  | some slot =>
    match env.handler slot.channel with
    | none => (.allow, s)
    | some handle => handle ⟨m.mask, m.fd, m.pid, path⟩ s

/-- The body of the inner loop for a record. -/
def recordStep (m : EventMeta) (s : PermRun σ) : PermRun σ :=
  match env.resolvePath m.fd s.env with
  | (none, e) => ⟨e, s.ops ++ respondOps m .allow ++ closeOps m, s.processed⟩
  | (some path, e) =>
    let (resp, e) := channelAction env m path e
    ⟨e, s.ops ++ respondOps m resp ++ closeOps m, s.processed + 1⟩

/-- One round of the inner loop; nothing when it ends. -/
def innerStep (ptr : List UInt8) (s : PermRun σ) : Option (List UInt8 × PermRun σ) :=
  if ptr = [] then none
  else
    let m := metaAt ptr
    if m.eventLen < metaSize then none
    else if ptr.length < m.eventLen then none
    else some (ptr.drop m.eventLen, recordStep env m s)

/-- The inner loop, with a bound on its rounds; nothing when it has not ended by then. -/
def drainBuffer : Nat → List UInt8 → PermRun σ → Option (PermRun σ)
  | 0, _, _ => none
  | n + 1, ptr, s =>
    match innerStep env ptr s with
    | none => some s
    | some (ptr, s) => drainBuffer n ptr s

/-- The outer loop, over what `read` returns; it ends when that is nothing. -/
def drainReads : List (List UInt8) → PermRun σ → Option (PermRun σ)
  | [], s => some s
  | buf :: bufs, s =>
    if buf = [] then some s else (drainBuffer env (buf.length + 1) buf s).bind (drainReads bufs)

/-- `fanotify_drain_perm`. -/
def fanotifyDrainPerm (fanFd : Int) (bufs : List (List UInt8)) (s : PermRun σ) : Option (PermRun σ) :=
  if fanFd < 0 then some s else drainReads env bufs s

end

/-- What is done about records in their order: each is answered once if it asks for permission, then
its descriptor is closed if it is one. -/
inductive Answered : List EventRecord → List PermOp → Prop
  | nil : Answered [] []
  | cons {r : EventRecord} {rs : List EventRecord} {ops : List PermOp} (resp : FanAction) : Answered rs ops →
    Answered (r :: rs) ((if hasOpenPerm r.mask then [.respond r.fd resp] else []) ++
      ((if 0 ≤ r.fd then [.close r.fd] else []) ++ ops))

/-- It is a response. -/
def PermOp.isRespond : PermOp → Bool
  | .respond _ _ => true
  | .close _ => false

section
variable {σ : Type} {env : PermEnv σ} {n w : Nat} {a : List UInt8} {s : PermRun σ} {r : EventRecord}
  {rs rs' : List EventRecord} {ops ops' : List PermOp}

/-! ## Bytes -/

theorem length_leBytes (w n : Nat) : (leBytes w n).length = w := by
  induction w generalizing n with
  | zero => rfl
  | succ w ih => rw [leBytes, List.length_cons, ih]

theorem leNat_leBytes (h : n < 256 ^ w) : leNat (leBytes w n) = n := by
  induction w generalizing n with
  | zero =>
    rw [Nat.pow_zero, Nat.lt_one_iff] at h
    rw [h]
    rfl
  | succ w ih =>
    have hdiv : n / 256 < 256 ^ w := Nat.div_lt_of_lt_mul (by rwa [← Nat.pow_succ'])
    have hlow : (n % 256).toUInt8.toNat = n % 256 := by
      rw [Nat.toUInt8_eq, UInt8.toNat_ofNat', Nat.mod_eq_of_lt (Nat.mod_lt n (by decide))]
    unfold leNat at ih ⊢
    rw [leBytes, List.map_cons, Nat.ofDigits_cons, ih hdiv, hlow]
    exact Nat.mod_add_div n 256

theorem toInt32_mod {k : Int} (h : -2 ^ 31 ≤ k ∧ k < 2 ^ 31) : toInt32 (k % 2 ^ 32).toNat = k := by
  unfold toInt32
  split
  all_goals omega

theorem take_leBytes (w n : Nat) (a : List UInt8) : (leBytes w n ++ a).take w = leBytes w n :=
  List.take_left' (length_leBytes w n)

theorem drop_leBytes (w k n : Nat) (a : List UInt8) : (leBytes w n ++ a).drop (w + k) = a.drop k := by
  rw [← List.drop_drop, List.drop_left' (length_leBytes w n)]

/-- The header of a record is read back. -/
theorem metaAt_bytes (r : EventRecord) (a : List UInt8) :
    metaAt (r.bytes ++ a) = ⟨metaSize + r.more.length, r.mask, r.fd, r.pid⟩ := by
  have hfd : (r.fd % 2 ^ 32).toNat < 256 ^ 4 := by omega
  have hpid : (r.pid % 2 ^ 32).toNat < 256 ^ 4 := by omega
  have hlen : metaSize + r.more.length < 256 ^ 4 := r.len_lt
  have hmask : r.mask < 256 ^ 8 := r.mask_lt
  have hskip : ∀ k, (r.bytes ++ a).drop (8 + k) =
      (leBytes 8 r.mask ++ (leBytes 4 (r.fd % 2 ^ 32).toNat ++ (leBytes 4 (r.pid % 2 ^ 32).toNat ++
        (r.more ++ a)))).drop k := by
    intro k
    unfold EventRecord.bytes
    simp only [List.append_assoc, List.cons_append]
    rw [show 8 + k = 4 + (2 + (2 + k)) by omega, drop_leBytes, ← List.drop_drop, List.drop_succ_cons,
      List.drop_succ_cons, List.drop_zero, drop_leBytes]
  have hfirst : (r.bytes ++ a).take 4 = leBytes 4 (metaSize + r.more.length) := by
    unfold EventRecord.bytes
    rw [List.append_assoc, take_leBytes]
  unfold metaAt
  rw [hfirst, hskip 0, show 16 = 8 + 8 from rfl, hskip 8, show 20 = 8 + (8 + 4) from rfl, hskip (8 + 4),
    List.drop_zero, take_leBytes, ← Nat.add_zero 8, drop_leBytes, List.drop_zero, take_leBytes,
    show 8 + 0 + 4 = 8 + 4 from rfl, drop_leBytes, ← Nat.add_zero 4, drop_leBytes, List.drop_zero, take_leBytes,
    leNat_leBytes hlen, leNat_leBytes hmask, leNat_leBytes hfd, leNat_leBytes hpid, toInt32_mod r.fd_range,
    toInt32_mod r.pid_range]

theorem EventRecord.length_bytes (r : EventRecord) : r.bytes.length = metaSize + r.more.length := by
  unfold EventRecord.bytes metaSize
  simp only [List.length_append, List.length_cons, length_leBytes]
  omega

/-! ## The inner loop -/

theorem recordStep_ops (env : PermEnv σ) (m : EventMeta) (s : PermRun σ) :
    ∃ resp, (recordStep env m s).ops = s.ops ++ respondOps m resp ++ closeOps m := by
  unfold recordStep
  split
  · exact ⟨.allow, rfl⟩
  · exact ⟨_, rfl⟩

theorem innerStep_bytes (r : EventRecord) (a : List UInt8) (s : PermRun σ) :
    innerStep env (r.bytes ++ a) s =
      some (a, recordStep env ⟨metaSize + r.more.length, r.mask, r.fd, r.pid⟩ s) := by
  have hlen := r.length_bytes
  have hne : r.bytes ++ a ≠ [] := by
    refine List.ne_nil_of_length_pos ?_
    rw [List.length_append, hlen, metaSize]
    omega
  unfold innerStep
  rw [if_neg hne, metaAt_bytes]
  dsimp only
  rw [if_neg (by omega), if_neg (by rw [List.length_append, hlen]; omega), ← hlen, List.drop_left' rfl]

/-- A round leaves fewer bytes. -/
theorem innerStep_shorter {ptr : List UInt8} {next : List UInt8 × PermRun σ} (h : innerStep env ptr s = some next) :
    next.1.length < ptr.length := by
  unfold innerStep at h
  split at h
  · cases h
  · next hne =>
    dsimp only at h
    split at h
    · cases h
    · next hlen =>
      split at h
      · cases h
      · cases h
        have hpos := List.length_pos_of_ne_nil hne
        rw [metaSize] at hlen
        dsimp only
        rw [List.length_drop]
        omega

/-- Whatever the bytes are, the loop over a buffer ends. -/
theorem drainBuffer_isSome {ptr : List UInt8} (h : ptr.length < n) : (drainBuffer env n ptr s).isSome = true := by
  induction n generalizing ptr s with
  | zero => omega
  | succ n ih =>
    rw [drainBuffer]
    split
    · rfl
    · next next s' hstep =>
      have hshorter := innerStep_shorter hstep
      exact ih (by dsimp only at hshorter; omega)

theorem Answered.append (h : Answered rs ops) (h' : Answered rs' ops') : Answered (rs ++ rs') (ops ++ ops') := by
  induction h with
  | nil => exact h'
  | cons resp _ ih =>
    rw [List.append_assoc, List.append_assoc]
    exact .cons resp ih

/-- The records of a buffer are answered in their order. -/
theorem drainBuffer_records (env : PermEnv σ) (s : PermRun σ) (rs : List EventRecord)
    (h : (rs.flatMap EventRecord.bytes).length < n) :
    ∃ s' ops, drainBuffer env n (rs.flatMap EventRecord.bytes) s = some s' ∧ s'.ops = s.ops ++ ops ∧
      Answered rs ops := by
  induction rs generalizing n s with
  | nil =>
    cases n with
    | zero => omega
    | succ n => exact ⟨s, [], rfl, (List.append_nil _).symm, .nil⟩
  | cons r rs ih =>
    cases n with
    | zero => omega
    | succ n =>
      rw [List.flatMap_cons, List.length_append, r.length_bytes, metaSize] at h
      obtain ⟨resp, hresp⟩ := recordStep_ops env ⟨metaSize + r.more.length, r.mask, r.fd, r.pid⟩ s
      obtain ⟨s', ops, hrun, hops, hanswered⟩ := ih (n := n)
        (s := recordStep env ⟨metaSize + r.more.length, r.mask, r.fd, r.pid⟩ s) (by omega)
      refine ⟨s', _, ?_, ?_, .cons resp hanswered⟩
      · rw [List.flatMap_cons, drainBuffer, innerStep_bytes]
        exact hrun
      · rw [hops, hresp, List.append_assoc, List.append_assoc]
        rfl

/-! ## The buffers -/

theorem drainReads_records (env : PermEnv σ) (bufs : List (List EventRecord)) (hne : ∀ rs ∈ bufs, rs ≠ []) (s : PermRun σ) :
    ∃ s' ops, drainReads env (bufs.map (·.flatMap EventRecord.bytes)) s = some s' ∧ s'.ops = s.ops ++ ops ∧
      Answered bufs.flatten ops := by
  induction bufs generalizing s with
  | nil => exact ⟨s, [], rfl, (List.append_nil _).symm, .nil⟩
  | cons rs bufs ih =>
    rw [List.forall_mem_cons] at hne
    obtain ⟨s₁, ops₁, hrun, hops, hanswered⟩ := drainBuffer_records env s rs (Nat.lt_succ_self _)
    obtain ⟨s₂, ops₂, hrest, hops', hanswered'⟩ := ih hne.2 s₁
    have hbuf : rs.flatMap EventRecord.bytes ≠ [] := by
      obtain ⟨r, rs, rfl⟩ := List.exists_cons_of_ne_nil hne.1
      refine List.ne_nil_of_length_pos ?_
      rw [List.flatMap_cons, List.length_append, r.length_bytes, metaSize]
      omega
    refine ⟨s₂, ops₁ ++ ops₂, ?_, ?_, ?_⟩
    · rw [List.map_cons, drainReads, if_neg hbuf, hrun, Option.bind_some]
      exact hrest
    · rw [hops', hops, List.append_assoc]
    · rw [List.flatten_cons]
      exact hanswered.append hanswered'

/-- As many responses as records that ask for permission, and as many closed descriptors as
there are. -/
theorem Answered.counts (h : Answered rs ops) :
    ops.countP PermOp.isRespond = rs.countP (fun r => hasOpenPerm r.mask) ∧
      ops.countP (fun op => !op.isRespond) = rs.countP (fun r => decide (0 ≤ r.fd)) := by
  induction h with
  | nil => exact ⟨rfl, rfl⟩
  | @cons r rs ops resp _ ih =>
    rw [List.countP_append, List.countP_append, List.countP_append, List.countP_append, ih.1, ih.2]
    by_cases hperm : hasOpenPerm r.mask = true
    · by_cases hfd : 0 ≤ r.fd
      · simp [hperm, hfd, PermOp.isRespond, Nat.add_comm]
      · simp [hperm, hfd, PermOp.isRespond, Nat.add_comm]
    · by_cases hfd : 0 ≤ r.fd
      · simp [hperm, hfd, PermOp.isRespond, Nat.add_comm]
      · simp [hperm, hfd, PermOp.isRespond]

end

/-- The drain of any buffers of records ends, and it has answered each record that asks for
permission once, before it closed its descriptor, no other record, and closed each descriptor once;
the loop over a buffer ends whatever its bytes are. -/
theorem drain_perm_answers {σ : Type} (env : PermEnv σ) (fanFd : Int) (hfd : 0 ≤ fanFd)
    (bufs : List (List EventRecord)) (hne : ∀ rs ∈ bufs, rs ≠ []) (s : PermRun σ) :
    (∃ s' ops, fanotifyDrainPerm env fanFd (bufs.map (·.flatMap EventRecord.bytes)) s = some s' ∧
        s'.ops = s.ops ++ ops ∧ Answered bufs.flatten ops ∧
        ops.countP PermOp.isRespond = bufs.flatten.countP (fun r => hasOpenPerm r.mask) ∧
        ops.countP (fun op => !op.isRespond) = bufs.flatten.countP (fun r => decide (0 ≤ r.fd))) ∧
      ∀ (buf : List UInt8) (s : PermRun σ), (drainBuffer env (buf.length + 1) buf s).isSome = true := by
  obtain ⟨s', ops, hrun, hops, hanswered⟩ := drainReads_records env bufs hne s
  refine ⟨⟨s', ops, ?_, hops, hanswered, hanswered.counts⟩, fun buf s => drainBuffer_isSome (Nat.lt_succ_self _)⟩
  unfold fanotifyDrainPerm
  rw [if_neg (Int.not_lt.2 hfd)]
  exact hrun

/-- No path is found and there is no channel. -/
def noChannels : PermEnv Unit where
  resolvePath _ e := (none, e)
  channels _ := fanotifyChannelsClear
  handler _ := none

/-- An open that asks for permission, on a descriptor. -/
def openRecord (fd : Int) (h : -2 ^ 31 ≤ fd ∧ fd < 2 ^ 31) : EventRecord :=
  ⟨3, 0, 24, 0x00010000, by decide, fd, h, 4242, by decide, [], by decide⟩

/-- One buffer with two opens, of which no path is found. -/
theorem drain_perm_sample :
    ∃ s' ops, fanotifyDrainPerm noChannels 5 [(openRecord 7 (by decide)).bytes ++ (openRecord 8 (by decide)).bytes]
        ⟨(), [], 0⟩ = some s' ∧ s'.ops = ops ∧
      Answered [openRecord 7 (by decide), openRecord 8 (by decide)] ops := by
  obtain ⟨⟨s', ops, hrun, hops, hanswered, -⟩, -⟩ := drain_perm_answers noChannels 5 (by decide)
    [[openRecord 7 (by decide), openRecord 8 (by decide)]] (by simp) ⟨(), [], 0⟩
  refine ⟨s', ops, ?_, hops, hanswered⟩
  rw [← hrun]
  simp

end GfrGuard
