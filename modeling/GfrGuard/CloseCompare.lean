import GfrGuard.OpEvents

/-!
# The comparison on close

`gf_close` reads the backup and the file in chunks and keeps two hashes. The loop says whether the
contents have one length and one hash (`compareLoop_eq`), so the close that runs it is `gfClose`
(`gfCloseRead_eq`): it marks the file the same exactly where the two hash the same
(`close_same_iff`). Identical contents do, and so do two that collide.
-/

namespace GfrGuard

/-- The chunk of a read. -/
abbrev compareChunk : Nat := 8192

/-- A hash taken on over the bytes of a chunk. -/
def hashOn (h : UInt64) (chunk : Content) : UInt64 :=
  chunk.foldl (fun h b => (h ^^^ b.toUInt64) * 1099511628211) h

/-- The loop over the chunks of the backup, from what is left of the two files and the hashes. -/
def compareLoop (bk cur : Content) (hBk hCur : UInt64) : Bool :=
  if _hend : bk = [] then
    -- the file has to be at its end too
    hBk = hCur && cur.take 1 = []
  else if (cur.take compareChunk).length ≠ (bk.take compareChunk).length then false
  else
    compareLoop (bk.drop compareChunk) (cur.drop compareChunk)
      (hashOn hBk (bk.take compareChunk)) (hashOn hCur (cur.take compareChunk))
termination_by bk.length
decreasing_by
  have hpos := List.length_pos_of_ne_nil _hend
  rw [List.length_drop]
  exact Nat.sub_lt hpos (by decide)

section
variable (conn : Conn) (env : VfsEnv)

/-- The comparison: `stat` of both, the sizes, and the loop. -/
def sameRead (fst : FileState) (fs : Fs) : Bool :=
  match fs.stat fst.backupPath.str, fs.stat (conn.absPath fst.relativePath.str) with
  | some (.regular bk), some (.regular cur) =>
    bk.length = cur.length && bk.length ≤ contentCompareMax && env.readOk &&
      compareLoop bk cur 14695981039346656037 14695981039346656037
  | _, _ => false

/-- A backup is recorded, and the path of the file is known and fits. -/
def FileState.Compared (fst : FileState) : Prop :=
  fst.backupDone = true ∧ fst.backupPath.str ≠ [] ∧ fst.relativePath.str ≠ [] ∧
    (conn.absPath fst.relativePath.str).length < pathMax

instance (fst : FileState) : Decidable (fst.Compared conn) :=
  inferInstanceAs (Decidable (_ ∧ _ ∧ _ ∧ _))

/-- The flags of the close event. -/
def closeFlagsRead (fst : FileState) (fs : Fs) : UInt16 :=
  if fst.Compared conn ∧ sameRead conn env fst fs then flagContentSame else 0

/-- `gf_close`, with the loop it runs. -/
def gfCloseRead (next : Next conn.storePath.str) (h : Handle) (s : VfsState) : Reply × VfsState :=
  match h.ext with
  | some fst =>
    if conn.protect && fst.isRisky then
      let s := conn.sendEvent opClose (closeFlagsRead conn env fst s.fs) fst.relativePath.str none
        none s
      let (r, s') := next.step s
      (.next s.fs r, s')
    else
      let (r, s') := next.step s
      (.next s.fs r, s')
  | none =>
    let (r, s') := next.step s
    (.next s.fs r, s')

end

section
variable {conn : Conn} {env : VfsEnv} {fst : FileState} {fs : Fs} {bk cur : Content}
  {hBk hCur : UInt64}

/-- A hash goes on over what follows. -/
theorem hashOn_take_drop (h : UInt64) (n : Nat) (content : Content) :
    hashOn (hashOn h (content.take n)) (content.drop n) = hashOn h content := by
  rw [hashOn, hashOn, ← List.foldl_append, List.take_append_drop]
  rfl

theorem hashOn_eq_fnv1a64 (content : Content) :
    hashOn 14695981039346656037 content = fnv1a64 content := rfl

/-- The loop compares the lengths and the hashes of the whole contents. -/
theorem compareLoop_eq (bk cur : Content) (hBk hCur : UInt64) :
    compareLoop bk cur hBk hCur =
      (bk.length = cur.length && hashOn hBk bk = hashOn hCur cur) := by
  fun_induction compareLoop bk cur hBk hCur with
  | case1 cur hBk hCur =>
    cases cur with
    | nil =>
      rw [Bool.eq_iff_iff]
      simp only [List.take_nil, decide_true, Bool.and_true, Bool.true_and]
      exact Iff.rfl
    | cons b cur => simp
  | case2 bk cur hBk hCur hend hlen =>
    have hlen' : bk.length ≠ cur.length := by
      rintro heq
      rw [List.length_take, List.length_take, heq] at hlen
      exact hlen rfl
    simp [hlen']
  | case3 bk cur hBk hCur hend hlen ih =>
    rw [ih, hashOn_take_drop, hashOn_take_drop]
    rw [List.length_take, List.length_take, ne_eq, not_not] at hlen
    have hiff : (bk.drop compareChunk).length = (cur.drop compareChunk).length ↔
        bk.length = cur.length := by
      have hpos := List.length_pos_of_ne_nil hend
      rw [List.length_drop, List.length_drop]
      unfold compareChunk at hlen ⊢
      omega
    simp only [hiff]

/-- The loop on two files says whether they have one length and one hash. -/
theorem compareLoop_iff : compareLoop bk cur 14695981039346656037 14695981039346656037 = true ↔
    bk.length = cur.length ∧ fnv1a64 bk = fnv1a64 cur := by
  rw [compareLoop_eq, hashOn_eq_fnv1a64, hashOn_eq_fnv1a64]
  simp only [Bool.and_eq_true, decide_eq_true_eq]

/-- The two files are there, small enough, and have one length and one hash. -/
def HashSame (conn : Conn) (fst : FileState) (fs : Fs) : Prop :=
  ∃ bk cur, fs.stat fst.backupPath.str = some (.regular bk) ∧
    fs.stat (conn.absPath fst.relativePath.str) = some (.regular cur) ∧
    bk.length = cur.length ∧ bk.length ≤ contentCompareMax ∧ fnv1a64 bk = fnv1a64 cur

theorem sameRead_iff : sameRead conn env fst fs = true ↔ env.readOk = true ∧ HashSame conn fst fs := by
  unfold sameRead HashSame
  split
  · next bk cur hbk hcur =>
    simp only [hbk, hcur, Option.some.injEq, Node.regular.injEq, Bool.and_eq_true,
      decide_eq_true_eq, compareLoop_iff]
    constructor
    · rintro ⟨⟨⟨-, hmax⟩, hread⟩, hlen, hhash⟩
      exact ⟨hread, bk, cur, rfl, rfl, hlen, hmax, hhash⟩
    · rintro ⟨hread, bk, cur, rfl, rfl, hlen, hmax, hhash⟩
      exact ⟨⟨⟨hlen, hmax⟩, hread⟩, hlen, hhash⟩
  · next hnot =>
    refine iff_of_false Bool.false_ne_true ?_
    rintro ⟨-, bk, cur, hbk, hcur, -⟩
    exact hnot bk cur hbk hcur

theorem contentSame_iff :
    contentSame fs fst.backupPath.str (conn.absPath fst.relativePath.str) = true ↔
      HashSame conn fst fs := by
  unfold contentSame HashSame
  split
  · next bk cur hbk hcur =>
    simp only [hbk, hcur, Option.some.injEq, Node.regular.injEq, Bool.and_eq_true,
      decide_eq_true_eq, and_assoc, exists_and_left, exists_eq_left']
  · next hnot =>
    refine iff_of_false Bool.false_ne_true ?_
    rintro ⟨bk, cur, hbk, hcur, -⟩
    exact hnot bk cur hbk hcur

/-- The loop on the two files is the comparison of their hashes. -/
theorem closeFlagsRead_eq : closeFlagsRead conn env fst fs = closeFlags conn env fst fs := by
  refine if_congr ?_ rfl rfl
  rw [sameRead_iff, ← contentSame_iff, FileState.Compared]
  simp only [and_assoc]

/-- The close that runs the loop is the one that compares the hashes. -/
theorem gfCloseRead_eq (next : Next conn.storePath.str) (h : Handle) (s : VfsState) :
    gfCloseRead conn env next h s = gfClose conn env next h s := by
  unfold gfCloseRead gfClose
  cases h.ext with
  | none => rfl
  | some fst =>
    have hflags : closeFlagsRead conn env fst s.fs = closeFlags conn env fst s.fs := closeFlagsRead_eq
    dsimp only
    generalize closeFlagsRead conn env fst s.fs = flags at hflags ⊢
    subst hflags
    rfl

/-- A close sends one event of a tracked handle. -/
theorem gfCloseRead_sent (next : Next conn.storePath.str) (h : Handle) (s : VfsState) :
    (gfCloseRead conn env next h s).2.sentSince s =
      match h.ext with
      | some fst =>
        if conn.protect && fst.isRisky && conn.sockOpen then
          [conn.eventMsg opClose (closeFlagsRead conn env fst s.fs) fst.relativePath.str none none]
        else []
      | none => [] := by
  obtain ⟨name, ext⟩ := h
  cases ext with
  | none => exact VfsState.sentSince_of_append (List.append_nil _).symm
  | some fst =>
    unfold gfCloseRead
    dsimp only
    split
    · next hrisky =>
      rw [hrisky, Bool.true_and]
      exact VfsState.sentSince_of_append (Conn.sent_send _)
    · next hrisky =>
      rw [Bool.eq_false_of_not_eq_true hrisky]
      exact VfsState.sentSince_of_append (List.append_nil _).symm

theorem hasFlag_closeFlagsRead : hasFlag (closeFlagsRead conn env fst fs) flagContentSame = true ↔
    fst.Compared conn ∧ env.readOk = true ∧ HashSame conn fst fs := by
  unfold closeFlagsRead
  rw [← sameRead_iff]
  split
  · next h => exact iff_of_true (by decide) h
  · next h => exact iff_of_false (by decide) h

end

/-- A close marks a file the same exactly where its handle is tracked and has a backup recorded, the
path of the file fits, and the backup and the file are there, small enough, can be opened and have
one length and one hash. -/
theorem close_same_iff (conn : Conn) (env : VfsEnv) (next : Next conn.storePath.str) (h : Handle)
    (s : VfsState) :
    (∃ msg ∈ (gfCloseRead conn env next h s).2.sentSince s,
      hasFlag msg.flags flagContentSame = true) ↔
    (conn.protect = true ∧ conn.sockOpen = true) ∧
      ∃ fst, h.ext = some fst ∧ fst.isRisky = true ∧ fst.Compared conn ∧ env.readOk = true ∧
        HashSame conn fst s.fs := by
  rw [gfCloseRead_sent]
  cases h.ext with
  | none => simp
  | some fst =>
    simp only [Option.some.injEq, exists_eq_left', ← hasFlag_closeFlagsRead]
    split
    · next hsent =>
      simp only [Bool.and_eq_true] at hsent
      simp only [List.mem_singleton, exists_eq_left, hsent, true_and]
      rfl
    · next hsilent =>
      refine iff_of_false (fun ⟨_, hmem, _⟩ => absurd hmem List.not_mem_nil) ?_
      rintro ⟨⟨hprotect, hopen⟩, hrisky, -⟩
      exact hsilent (by rw [hprotect, hopen, hrisky]; rfl)

/-- Two contents of one length that have one hash. -/
def collisionA : Content := [129, 58, 246, 193, 225, 135, 135, 107]

def collisionB : Content := [88, 241, 15, 233, 15, 157, 7, 80]

/-- The sample share, with a backup of `a` that its content collides with. -/
def collidingTree : Fs :=
  (sampleTree.put (backupLoc (lit "/s") (lit "h") (lit "a")) (.regular collisionA)).put
    [lit "h", lit "a"] (.regular collisionB)

theorem hashSame_colliding :
    HashSame sampleConn (backedUpState sampleConn (lit "a") true) collidingTree :=
  ⟨collisionA, collisionB, by decide, by decide, rfl, by decide,
    by decide⟩

/-- A file that was changed into one whose content has the hash of the old one is marked the same. -/
theorem close_same_not_identical :
    ¬ ∀ (conn : Conn) (env : VfsEnv) (next : Next conn.storePath.str) (h : Handle) (s : VfsState)
      (fst : FileState), conn.protect = true → conn.sockOpen = true → env.readOk = true →
      h.ext = some fst → fst.isRisky = true → fst.Compared conn →
      ((∃ msg ∈ (gfCloseRead conn env next h s).2.sentSince s,
          hasFlag msg.flags flagContentSame = true) ↔
        ∃ bk cur, s.fs.stat fst.backupPath.str = some (.regular bk) ∧
          s.fs.stat (conn.absPath fst.relativePath.str) = some (.regular cur) ∧
          bk.length = cur.length ∧ bk.length ≤ contentCompareMax ∧ bk = cur) := by
  intro hall
  have hiff := hall sampleConn sampleVfsEnv .opens
    ⟨some (lit "a"), some (backedUpState sampleConn (lit "a") true)⟩ ⟨collidingTree, []⟩ _ rfl rfl
    rfl rfl rfl (by decide)
  have hflag : hasFlag (closeFlagsRead sampleConn sampleVfsEnv
      (backedUpState sampleConn (lit "a") true) collidingTree) flagContentSame = true :=
    hasFlag_closeFlagsRead.2 ⟨by decide, rfl, hashSame_colliding⟩
  rw [gfCloseRead_sent] at hiff
  obtain ⟨bk, cur, hbk, hcur, -, -, heq⟩ := hiff.1 ⟨_, List.mem_singleton_self _, hflag⟩
  have hA : collidingTree.stat (backedUpState sampleConn (lit "a") true).backupPath.str =
      some (.regular collisionA) := by decide
  have hB : collidingTree.stat (sampleConn.absPath
      (backedUpState sampleConn (lit "a") true).relativePath.str) = some (.regular collisionB) := by
    decide
  cases hA.symm.trans hbk
  cases hB.symm.trans hcur
  exact absurd heq (by decide)

end GfrGuard
