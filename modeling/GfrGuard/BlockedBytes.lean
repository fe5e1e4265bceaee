import GfrGuard.CopyFd
import GfrGuard.Persist
import GfrGuard.ProcStat
import GfrGuard.Vfs

/-!
# The blocked file, byte by byte

`line_exists` and `is_blocked` go over the bytes of the file with `memchr` and `strncmp`, as does
the loop of `blocker_unblock`, which copies the lines it keeps; `blocker_execute` copies the
bytes and a line more. Reads may be short and interrupted, writes partial, and each call may
fail. The lines these loops see are those of `blockedLines`, the buffers they fill are large
enough, and whatever fails the calls do to the file what `blockerAppend` and `blockerUnblock`
say (`blockerExecuteRun_refines`, `blockerUnblockRun_refines`, `blocked_file_ops`).
-/

namespace GfrGuard

/-! ## The C library -/

/-- `memchr(p, c, end - p)`: the bytes from the first `c` on. -/
def memchr (p : CStr) (c : UInt8) : Option CStr := ListSearch.firstAt [c] p

/-- `strncmp(s, t, n) == 0`; past the bytes there is a zero. -/
def strncmpEq : Nat → CStr → CStr → Bool
  | 0, _, _ => true
  | n + 1, s, t => s.headD 0 = t.headD 0 && (s.headD 0 = 0 || strncmpEq n s.tail t.tail)

/-- `memcpy` behind the bytes of a buffer of a capacity; nothing when they do not fit. -/
def memcpyEnd (cap : Nat) (out data : CStr) : Option CStr :=
  if out.length + data.length ≤ cap then some (out ++ data) else none

/-! ## The loops -/

/-- The length of the line at `p`, of which `eol` is the end if it has one. -/
def lineLength (p : CStr) (eol : Option CStr) : Nat :=
  match eol with
  | some e => p.length - e.length
  | none => p.length

/-- The line at `p` is the key. -/
def lineIs (p : CStr) (eol : Option CStr) (key : CStr) : Bool :=
  lineLength p eol = key.length && strncmpEq key.length p key

theorem length_tail_memchr {p e : CStr} {c : UInt8} (h : memchr p c = some e) :
    e.tail.length < p.length := by
  obtain ⟨before, rfl, ⟨after, rfl⟩, -⟩ := ListSearch.firstAt_eq_some_iff.1 h
  simp only [List.singleton_append, List.tail_cons, List.length_append, List.length_cons]
  omega

/-- The loop of `line_exists` and of `is_blocked`, from `p` on. -/
def lineExistsFrom (key p : CStr) : Bool :=
  if p = [] then false
  else if lineIs p (memchr p newline) key then true
  else
    match _ : memchr p newline with
    | none => false
    | some e => lineExistsFrom key e.tail
termination_by p.length
decreasing_by exact length_tail_memchr (by assumption)

/-- `line_exists`. -/
def lineExistsBytes (content : Option CStr) (key : CStr) : Bool :=
  match content with
  | none => false
  | some bytes => lineExistsFrom key bytes

/-- `is_blocked`, of a session's address and the content that is cached. -/
def isBlockedBytes (content : Option CStr) (ip : CStr) : Bool :=
  match content with
  | none => false
  | some bytes => if bytes.length = 0 then false else if ip.length = 0 then false else lineExistsFrom ip bytes

/-- What is in the output buffer after the line at `p`: the same when it is dropped, else the
line and its end. Nothing when they do not fit. -/
def keepLine (cap : Nat) (ip p : CStr) (eol : Option CStr) (out : CStr) : Option CStr :=
  if lineIs p eol ip then some out
  else (memcpyEnd cap out (p.take (lineLength p eol))).bind (memcpyEnd cap · [newline])

/-- The loop of `blocker_unblock` from `p` on: what is in the output buffer and whether a line was
dropped. Nothing when a line does not fit. -/
def unblockFrom (cap : Nat) (ip p out : CStr) (found : Bool) : Option (CStr × Bool) :=
  if p = [] then some (out, found)
  else
    match keepLine cap ip p (memchr p newline) out with
    | none => none
    | some out =>
      let found := found || lineIs p (memchr p newline) ip
      match _ : memchr p newline with
      | none => some (out, found)
      | some e => unblockFrom cap ip e.tail out found
termination_by p.length
decreasing_by exact length_tail_memchr (by assumption)

/-! ## The calls -/

/-- How the file operations of a call come back. When their outcomes run out, a read and a write
take all. -/
structure BlockedIo where
  /-- `blocked_lock`: the lock file is opened, and the lock is had. -/
  lockOpened : Bool
  locked : Bool
  /-- `read_file_text`; of a missing file the failure to open it is `ENOENT`. -/
  opened : Bool
  statted : Bool
  textAllocated : Bool
  reads : List SysOutcome
  /-- The output buffer. -/
  outAllocated : Bool
  /-- `write_atomic`. -/
  tmpOpened : Bool
  writes : List SysOutcome
  synced : Bool
  closed : Bool
  renamed : Bool
  unlinked : Bool

/-- The loop of `read_file_text` with some bytes in the buffer. -/
def readFrom (file : CStr) : CStr → List SysOutcome → Option CStr
  | _, [] => some file
  | _, .failed :: _ => none
  | buf, .interrupted :: os => readFrom file buf os
  | buf, .count n :: os =>
    -- before the end at least a byte is read
    let data := (file.drop buf.length).take (max 1 n)
    if data = [] then some buf
    else if buf.length + data.length = file.length then some (buf ++ data)
    else readFrom file (buf ++ data) os

/-- `read_file_text`: nothing on a failure, else the content, if there is a file. -/
def readFileText (io : BlockedIo) (file : Option CStr) : Option (Option CStr) :=
  if !io.opened then none
  else
    match file with
    | none => some none
    | some bytes =>
      if io.statted && io.textAllocated then (readFrom bytes [] io.reads).map some else none

/-- The loop of `write_atomic`: whether all was written, and what is in the file. -/
def writeFrom : CStr → CStr → List SysOutcome → Bool × CStr
  | done, [], _ => (true, done)
  | done, data, [] => (true, done ++ data)
  | done, _ :: _, .failed :: _ => (false, done)
  | done, b :: data, .interrupted :: os => writeFrom done (b :: data) os
  | done, b :: data, .count n :: os =>
    if n = 0 then (false, done) else writeFrom (done ++ (b :: data).take n) ((b :: data).drop n) os

/-- The path of the lock file. -/
def lockPath (path : CStr) : CStr := snprintf pathMax (path ++ lit ".lock")

/-- The path of the temporary file. -/
def blockedTmp (path : CStr) : CStr := snprintf pathMax (path ++ lit ".tmp")

/-- `blocked_lock`; a lock file that is opened is made. -/
def blockedLock (io : BlockedIo) (files : FileTexts) (path : CStr) : Bool × FileTexts :=
  if io.lockOpened then
    (io.locked, files.set (lockPath path) (some ((files (lockPath path)).getD [])))
  else (false, files)

/-- `write_atomic`. -/
def writeAtomic (io : BlockedIo) (files : FileTexts) (path data : CStr) : Bool × FileTexts :=
  let tmp := blockedTmp path
  if !io.tmpOpened then (false, files)
  else
    let (ok, text) := writeFrom [] data io.writes
    let files := files.set tmp (some text)
    if ok && io.synced && io.closed && io.renamed then (true, (files.set tmp none).set path (some text))
    else (false, if io.unlinked then files.set tmp none else files)

/-- The bytes `blocker_execute` writes. Nothing when they do not fit into its buffer. -/
def appendBytes (content ip : CStr) : Option CStr :=
  let cap := content.length + ip.length + 2
  (memcpyEnd cap [] content).bind fun buf =>
    (if 0 < content.length ∧ buf.getLast? ≠ some newline then memcpyEnd cap buf [newline] else some buf).bind
      fun buf => (memcpyEnd cap buf ip).bind (memcpyEnd cap · [newline])

/-- The file part of `blocker_execute`. Nothing when it writes beyond its buffer; what follows
it does not come to a file and returns 0. -/
def blockerExecuteRun (io : BlockedIo) (files : FileTexts) (path ip : CStr) : Option (Int × FileTexts) :=
  if validClientIp ip then
    let (locked, files) := blockedLock io files path
    if !locked then some (-1, files)
    else
      match readFileText io (files path) with
      | none => some (-1, files)
      | some content =>
        if lineExistsBytes content ip then some (0, files)
        else if !io.outAllocated then some (-1, files)
        else
          (appendBytes (content.getD []) ip).map fun data =>
            let (ok, files) := writeAtomic io files path data
            (if ok then 0 else -1, files)
  else some (0, files)

/-- `blocker_unblock`. Nothing when it writes beyond its buffer. -/
def blockerUnblockRun (io : BlockedIo) (files : FileTexts) (path ip : CStr) : Option (Int × FileTexts) :=
  let (locked, files) := blockedLock io files path
  if !locked then some (-1, files)
  else
    match readFileText io (files path) with
    | none => some (-1, files)
    | some none => some (1, files)
    | some (some content) =>
      if !io.outAllocated then some (-1, files)
      else
        (unblockFrom (content.length + 1) ip content [] false).map fun (out, found) =>
          if !found then (1, files)
          else
            let (ok, files) := writeAtomic io files path out
            (if ok then 0 else -1, files)

section
variable {key ip p a b content : CStr} {io : BlockedIo} {files : FileTexts} {path : CStr}

/-! ## The C library on lines -/

theorem memchr_none (hsep : newline ∉ p) : memchr p newline = none :=
  ListSearch.firstAt_eq_none_iff.2 fun hwithin => hsep ((List.singleton_infix_iff newline p).1 hwithin)

theorem memchr_line (hsep : newline ∉ a) : memchr (a ++ newline :: b) newline = some (newline :: b) :=
  strchr_append hsep b

/-- A key holds no zero, so the bytes compared are all of it. -/
theorem strncmpEq_iff (hkey : 0 ∉ key) (hlen : key.length ≤ p.length) :
    strncmpEq key.length p key = true ↔ p.take key.length = key := by
  induction key generalizing p with
  | nil => simp [strncmpEq]
  | cons k key ih =>
    cases p with
    | nil => simp at hlen
    | cons c p =>
      rw [List.mem_cons, not_or] at hkey
      have hk : k ≠ 0 := Ne.symm hkey.1
      rw [List.length_cons, strncmpEq, List.take_succ_cons, List.cons.injEq, Bool.and_eq_true,
        Bool.or_eq_true, decide_eq_true_eq, decide_eq_true_eq, List.headD_cons, List.headD_cons,
        List.tail_cons, List.tail_cons, ih hkey.2 (Nat.le_of_succ_le_succ hlen)]
      constructor
      · rintro ⟨rfl, hzero | htail⟩
        · exact absurd hzero hk
        · exact ⟨rfl, htail⟩
      · rintro ⟨rfl, htail⟩
        exact ⟨rfl, .inr htail⟩

theorem lineIs_eq {eol : Option CStr} (hkey : 0 ∉ key) :
    lineIs p eol key = decide (p.take (lineLength p eol) = key) := by
  have hle : lineLength p eol ≤ p.length := by
    unfold lineLength
    split <;> omega
  rw [Bool.eq_iff_iff, decide_eq_true_eq, lineIs, Bool.and_eq_true, decide_eq_true_eq]
  constructor
  · rintro ⟨hlen, hcmp⟩
    rw [hlen]
    exact (strncmpEq_iff hkey (hlen ▸ hle)).1 hcmp
  · intro hline
    have hlen : lineLength p eol = key.length := by
      rw [← hline, List.length_take]
      omega
    exact ⟨hlen, (strncmpEq_iff hkey (hlen ▸ hle)).2 (hlen ▸ hline)⟩

theorem take_lineLength_last (p : CStr) : p.take (lineLength p none) = p := List.take_length

theorem take_lineLength_line (a b : CStr) :
    (a ++ newline :: b).take (lineLength (a ++ newline :: b) (some (newline :: b))) = a := by
  have hlen : lineLength (a ++ newline :: b) (some (newline :: b)) = a.length := by
    rw [lineLength, List.length_append]
    omega
  rw [hlen, List.take_left']
  rfl

/-! ## The loops -/

/-- The loop of `line_exists` and of `is_blocked` finds the lines of the file. -/
theorem lineExistsFrom_eq (hkey : 0 ∉ key) (p : CStr) :
    lineExistsFrom key p = decide (key ∈ SepText.pieces newline p) := by
  induction p using SepText.pieces_induction newline with
  | nil => rw [lineExistsFrom, if_pos rfl, SepText.pieces_nil]; rfl
  | last p hsep hne =>
    have hend := memchr_none hsep
    rw [lineExistsFrom, if_neg hne, SepText.pieces_of_not_mem hsep hne]
    split
    · next hline =>
      rw [hend, lineIs_eq hkey, take_lineLength_last, decide_eq_true_eq] at hline
      simp [hline]
    · next hline =>
      rw [hend, lineIs_eq hkey, take_lineLength_last, decide_eq_true_eq] at hline
      split
      · simp [Ne.symm hline]
      · next heol => rw [hend] at heol; cases heol
  | cons a b hsep ih =>
    have hend := memchr_line (b := b) hsep
    rw [lineExistsFrom, if_neg (by simp), SepText.pieces_append_cons hsep]
    split
    · next hline =>
      rw [hend, lineIs_eq hkey, take_lineLength_line, decide_eq_true_eq] at hline
      simp [hline]
    · next hline =>
      rw [hend, lineIs_eq hkey, take_lineLength_line, decide_eq_true_eq] at hline
      split
      · next heol => rw [hend] at heol; cases heol
      · next e heol =>
        rw [hend] at heol
        cases heol
        rw [List.tail_cons, ih]
        simp [Ne.symm hline]

theorem memcpyEnd_of_le {cap : Nat} {out data : CStr} (h : out.length + data.length ≤ cap) :
    memcpyEnd cap out data = some (out ++ data) := if_pos h

/-- A line that fits is kept unless it is the address. -/
theorem keepLine_eq {cap : Nat} {eol : Option CStr} (out : CStr) (hip : 0 ∉ ip)
    (hline : p.take (lineLength p eol) = a) (hcap : out.length + a.length + 1 ≤ cap) :
    keepLine cap ip p eol out = some (out ++ ([a].filter (· ≠ ip)).flatMap (· ++ [newline])) := by
  unfold keepLine
  rw [lineIs_eq hip, hline]
  by_cases hdrop : a = ip
  · simp [hdrop]
  · rw [if_neg (by simpa using hdrop), memcpyEnd_of_le (by omega), Option.bind_some,
      memcpyEnd_of_le (by rw [List.length_append, List.length_singleton]; omega)]
    simp [hdrop]

/-- The loop of `blocker_unblock` copies the other lines, all ended: one byte more than what
is left is enough. -/
theorem unblockFrom_eq {cap : Nat} (hip : 0 ∉ ip) (p out : CStr) (found : Bool)
    (hcap : out.length + p.length + 1 ≤ cap) :
    unblockFrom cap ip p out found =
      some (out ++ ((SepText.pieces newline p).filter (· ≠ ip)).flatMap (· ++ [newline]),
        found || decide (ip ∈ SepText.pieces newline p)) := by
  induction p using SepText.pieces_induction newline generalizing out found with
  | nil => simp [unblockFrom]
  | last p hsep hne =>
    have hend := memchr_none hsep
    have hkeep := keepLine_eq out hip (take_lineLength_last p) hcap
    have hmem : decide (p = ip) = decide (ip ∈ [p]) := by simp only [List.mem_singleton, eq_comm]
    rw [unblockFrom, if_neg hne, SepText.pieces_of_not_mem hsep hne]
    rw [← hend] at hkeep
    rw [hkeep]
    dsimp only
    split
    · rw [hend, lineIs_eq hip, take_lineLength_last, hmem]
    · next heol => rw [hend] at heol; cases heol
  | cons a b hsep ih =>
    have hend := memchr_line (b := b) hsep
    rw [List.length_append, List.length_cons] at hcap
    have hkeep := keepLine_eq out hip (take_lineLength_line a b) (Nat.le_trans (by omega) hcap)
    rw [unblockFrom, if_neg (by simp), SepText.pieces_append_cons hsep]
    rw [← hend] at hkeep
    rw [hkeep]
    dsimp only
    split
    · next heol => rw [hend] at heol; cases heol
    · next e heol =>
      rw [hend] at heol
      cases heol
      have hout : (([a].filter (· ≠ ip)).flatMap (· ++ [newline])).length ≤ a.length + 1 := by
        by_cases hdrop : a = ip
        · simp [hdrop]
        · simp [hdrop]
      have hmem : decide (ip ∈ a :: SepText.pieces newline b) =
          (decide (a = ip) || decide (ip ∈ SepText.pieces newline b)) := by
        simp only [List.mem_cons, Bool.decide_or, eq_comm]
      rw [hend, lineIs_eq hip, take_lineLength_line, List.tail_cons,
        ih _ _ (by rw [List.length_append]; omega), hmem, Bool.or_assoc, List.append_assoc,
        ← List.flatMap_append, ← List.filter_append, List.singleton_append]

/-! ## Reading and writing -/

/-- The read that comes to the end has the file. -/
theorem readFrom_eq (file : CStr) {buf : CStr} (hbuf : buf <+: file) (os : List SysOutcome) :
    readFrom file buf os = none ∨ readFrom file buf os = some file := by
  induction os generalizing buf with
  | nil => exact .inr rfl
  | cons o os ih =>
    obtain ⟨rest, rfl⟩ := hbuf
    cases o with
    | failed => exact .inl rfl
    | interrupted => exact ih (List.prefix_append buf rest)
    | count n =>
      rw [readFrom, List.drop_left]
      split
      · next hdone =>
        have hrest : rest = [] := by
          cases rest with
          | nil => rfl
          | cons c rest => simp at hdone
        exact .inr (by rw [hrest, List.append_nil])
      · split
        · next hfull =>
          refine .inr ?_
          rw [List.length_append] at hfull
          rw [List.take_of_length_le]
          rw [List.length_take] at hfull
          omega
        · exact ih (by rw [List.prefix_append_right_inj]; exact List.take_prefix _ _)

theorem writeFrom_of_ok {done data : CStr} (os : List SysOutcome) (h : (writeFrom done data os).1 = true) :
    (writeFrom done data os).2 = done ++ data := by
  induction os generalizing done data with
  | nil =>
    cases data with
    | nil => simp [writeFrom]
    | cons b data => rfl
  | cons o os ih =>
    cases data with
    | nil => simp [writeFrom]
    | cons b data =>
      cases o with
      | failed => cases h
      | interrupted => exact ih h
      | count n =>
        rw [writeFrom] at h ⊢
        split at h
        · cases h
        · next hn =>
          rw [if_neg hn, ih h, List.append_assoc, List.take_append_drop]

/-- A path to which a suffix can be added whole is another one after it. -/
theorem ne_snprintf_append {suffix : CStr} (hne : suffix ≠ []) (hpath : path.length + suffix.length < pathMax) :
    path ≠ snprintf pathMax (path ++ suffix) := by
  intro h
  rw [snprintf_of_lt (by rw [List.length_append]; exact hpath)] at h
  exact hne (List.self_eq_append_right.1 h)

theorem blockedLock_self (io : BlockedIo) (files : FileTexts) (hlock : path ≠ lockPath path) : (blockedLock io files path).2 path = files path := by
  unfold blockedLock
  split
  · exact FileTexts.set_of_ne hlock files _
  · rfl

theorem writeAtomic_ok (io : BlockedIo) (files : FileTexts) (path data : CStr)
    (h : (writeAtomic io files path data).1 = true) :
    (writeAtomic io files path data).2 path = some data := by
  unfold writeAtomic at h ⊢
  split at h
  · cases h
  · next hopen =>
    rw [if_neg hopen]
    dsimp only at h ⊢
    split at h
    · next hdone =>
      simp only [Bool.and_eq_true] at hdone
      rw [if_pos (by simp [hdone]), writeFrom_of_ok io.writes hdone.1.1.1]
      exact FileTexts.set_self _ path (some data)
    · cases h

/-- Whichever call fails, the file is as it was. -/
theorem writeAtomic_failed (io : BlockedIo) (files : FileTexts) (data : CStr) (htmp : path ≠ blockedTmp path)
    (h : (writeAtomic io files path data).1 = false) :
    (writeAtomic io files path data).2 path = files path := by
  unfold writeAtomic at h ⊢
  split at h
  · next hopen => rw [if_pos hopen]
  · next hopen =>
    rw [if_neg hopen]
    dsimp only at h ⊢
    split at h
    · cases h
    · next hfailed =>
      rw [if_neg hfailed]
      cases io.unlinked with
      | true => exact (FileTexts.set_of_ne htmp _ none).trans (FileTexts.set_of_ne htmp files _)
      | false => exact FileTexts.set_of_ne htmp files _

/-- The buffer of `blocker_execute` is large enough. -/
theorem appendBytes_eq (content ip : CStr) : appendBytes content ip = some (appendLine content ip) := by
  unfold appendBytes appendLine endLastLine
  dsimp only
  rw [memcpyEnd_of_le (by rw [List.length_nil]; omega), List.nil_append, Option.bind_some]
  by_cases hend : content ≠ [] ∧ content.getLast? ≠ some newline
  · rw [if_pos ⟨List.length_pos_iff.2 hend.1, hend.2⟩, if_pos hend,
      memcpyEnd_of_le (by rw [List.length_singleton]; omega), Option.bind_some,
      memcpyEnd_of_le (by rw [List.length_append, List.length_singleton]; omega), Option.bind_some,
      memcpyEnd_of_le (by simp only [List.length_append, List.length_singleton]; omega)]
  · rw [if_neg fun h => hend ⟨List.length_pos_iff.1 h.1, h.2⟩, if_neg hend, Option.bind_some,
      memcpyEnd_of_le (by omega), Option.bind_some,
      memcpyEnd_of_le (by simp only [List.length_append, List.length_singleton]; omega)]

/-- The lines of a file with a line more. -/
theorem blockedLines_appendLine (hip : newline ∉ ip) :
    blockedLines (some (appendLine content ip)) = blockedLines (some content) ++ [ip] := by
  have hline : SepText.pieces newline (ip ++ [newline]) = [ip] := by
    rw [SepText.pieces_append_cons hip, SepText.pieces_nil]
  unfold appendLine endLastLine blockedLines
  rw [Option.getD_some, Option.getD_some]
  split
  · next hend =>
    rw [List.append_assoc, List.append_assoc, List.singleton_append, SepText.pieces_append_terminated,
      hline, SepText.pieces_of_getLast? hend.1 hend.2]
  · next hend =>
    by_cases hnil : content = []
    · rw [hnil, List.nil_append, hline, SepText.pieces_nil, List.nil_append]
    · obtain ⟨before, rfl⟩ := List.getLast?_eq_some_iff.1 (not_not.1 fun h => hend ⟨hnil, h⟩)
      rw [List.append_assoc, List.append_assoc, List.singleton_append, SepText.pieces_append_terminated,
        hline, SepText.pieces_append_terminated, SepText.pieces_nil, List.append_nil]

/-! ## The calls -/

theorem lineExistsBytes_eq (hkey : 0 ∉ key) (content : Option CStr) :
    lineExistsBytes content key = lineExists content key := by
  cases content with
  | none => simp [lineExistsBytes, lineExists, blockedLines]
  | some bytes => exact lineExistsFrom_eq hkey bytes

/-- The module of the share sees the same lines. -/
theorem isBlockedBytes_eq (hip : 0 ∉ ip) (content : Option CStr) :
    isBlockedBytes content ip = (ip ≠ [] && lineExists content ip) := by
  cases content with
  | none => simp [isBlockedBytes, lineExists, blockedLines]
  | some bytes =>
    unfold isBlockedBytes
    dsimp only
    rw [lineExistsFrom_eq hip]
    by_cases hbytes : bytes = []
    · simp [hbytes, lineExists, blockedLines]
    · by_cases hnil : ip = []
      · simp [hnil]
      · rw [if_neg (by simpa using hbytes), if_neg (by simpa using hnil), decide_eq_true hnil, Bool.true_and]
        rfl

theorem isBlockedBytes_listed (conn : Conn) (env : VfsEnv) (hip : 0 ∉ conn.ip) :
    isBlockedBytes env.blocked conn.ip = conn.listed env := isBlockedBytes_eq hip env.blocked

/-- A text that is read is what the file holds. -/
theorem readFileText_eq (io : BlockedIo) (file : Option CStr) :
    readFileText io file = none ∨ readFileText io file = some file := by
  unfold readFileText
  split
  · exact .inl rfl
  · cases file with
    | none => exact .inr rfl
    | some bytes =>
      dsimp only
      split
      · obtain h | h := readFrom_eq bytes List.nil_prefix io.reads
        · exact .inl (by rw [h]; rfl)
        · exact .inr (by rw [h]; rfl)
      · exact .inl rfl

/-- Whatever comes of the file operations, `blocker_execute` stays in its buffer and does to the
file what `blockerAppend` says for some outcome of the read and the write. -/
theorem blockerExecuteRun_refines (io : BlockedIo) (files : FileTexts) (ip : CStr)
    (hlock : path ≠ lockPath path) (htmp : path ≠ blockedTmp path) :
    ∃ readOk writeOk rc files', blockerExecuteRun io files path ip = some (rc, files') ∧
      (rc = 0 ∧ blockerAppend (files path) ip readOk writeOk = some (files' path) ∨
        rc = -1 ∧ blockerAppend (files path) ip readOk writeOk = none ∧ files' path = files path) := by
  unfold blockerExecuteRun
  cases hip : validClientIp ip with
  | false => exact ⟨true, true, 0, files, rfl, .inl ⟨rfl, by simp [blockerAppend, hip]⟩⟩
  | true =>
    have hzero : 0 ∉ ip := not_mem_of_validClientIp hip (by decide)
    have hunread : ∀ writeOk, blockerAppend (files path) ip false writeOk = none := fun _ => by
      simp [blockerAppend, hip]
    have hself := blockedLock_self io files hlock
    rw [if_pos rfl]
    generalize blockedLock io files path = lock at hself
    obtain ⟨locked, files₁⟩ := lock
    dsimp only at hself ⊢
    cases locked with
    | false => exact ⟨false, true, -1, files₁, rfl, .inr ⟨rfl, hunread true, hself⟩⟩
    | true =>
      rw [hself, Bool.not_true, if_neg Bool.false_ne_true]
      obtain hread | hread := readFileText_eq io (files path)
      · rw [hread]
        exact ⟨false, true, -1, files₁, rfl, .inr ⟨rfl, hunread true, hself⟩⟩
      · rw [hread]
        dsimp only
        rw [lineExistsBytes_eq hzero]
        cases hline : lineExists (files path) ip with
        | true => exact ⟨true, true, 0, files₁, rfl, .inl ⟨rfl, by simp [blockerAppend, hip, hline, hself]⟩⟩
        | false =>
          have hunwritten : blockerAppend (files path) ip true false = none := by
            simp [blockerAppend, hip, hline]
          rw [if_neg Bool.false_ne_true]
          cases io.outAllocated with
          | false => exact ⟨true, false, -1, files₁, rfl, .inr ⟨rfl, hunwritten, hself⟩⟩
          | true =>
            rw [Bool.not_true, if_neg Bool.false_ne_true, appendBytes_eq, Option.map_some]
            have hok := writeAtomic_ok io files₁ path (appendLine ((files path).getD []) ip)
            have hfailed := writeAtomic_failed io files₁ (appendLine ((files path).getD []) ip) htmp
            generalize writeAtomic io files₁ path _ = write at hok hfailed
            obtain ⟨ok, files₂⟩ := write
            cases ok with
            | true =>
              exact ⟨true, true, 0, files₂, rfl, .inl ⟨rfl, by
                rw [show files₂ path = _ from hok rfl]
                simp [blockerAppend, hip, hline]⟩⟩
            | false => exact ⟨true, false, -1, files₂, rfl, .inr ⟨rfl, hunwritten, (hfailed rfl).trans hself⟩⟩

/-- Whatever comes of the file operations, `blocker_unblock` stays in its buffer, and it returns
and leaves what `blockerUnblock` says for some outcome of the read and the write. -/
theorem blockerUnblockRun_refines (io : BlockedIo) (files : FileTexts) (hip : 0 ∉ ip) (hlock : path ≠ lockPath path)
    (htmp : path ≠ blockedTmp path) :
    ∃ readOk writeOk rc files', blockerUnblockRun io files path ip = some (rc, files') ∧
      blockerUnblock (files path) ip readOk writeOk = (rc, files' path) ∧
      (rc = 1 → ∀ other, other ≠ lockPath path → files' other = files other) := by
  unfold blockerUnblockRun blockerUnblock
  have hself := blockedLock_self io files hlock
  have hothers : ∀ other, other ≠ lockPath path → (blockedLock io files path).2 other = files other := by
    intro other hother
    unfold blockedLock
    split
    · exact FileTexts.set_of_ne hother files _
    · rfl
  generalize blockedLock io files path = lock at hself hothers
  obtain ⟨locked, files₁⟩ := lock
  dsimp only at hself hothers ⊢
  have hneg : ∀ rc : Int, rc = -1 → rc = 1 → ∀ other, other ≠ lockPath path → files₁ other = files other :=
    fun _ _ _ => hothers
  cases locked with
  | false => exact ⟨false, true, -1, files₁, rfl, by rw [hself]; rfl, hneg _ rfl⟩
  | true =>
    rw [hself, Bool.not_true, if_neg Bool.false_ne_true]
    obtain hread | hread := readFileText_eq io (files path)
    · rw [hread]
      exact ⟨false, true, -1, files₁, rfl, by rw [hself]; rfl, hneg _ rfl⟩
    · rw [hread]
      cases hfile : files path with
      | none =>
        rw [hfile] at hself
        exact ⟨true, true, 1, files₁, rfl, by simp [blockedLines, hself], fun _ => hothers⟩
      | some content =>
        rw [hfile] at hself
        dsimp only
        cases io.outAllocated with
        | false => exact ⟨false, true, -1, files₁, rfl, by rw [hself]; rfl, hneg _ rfl⟩
        | true =>
          rw [Bool.not_true, if_neg Bool.false_ne_true,
            unblockFrom_eq hip content [] false (by rw [List.length_nil]; omega), Option.map_some]
          dsimp only
          rw [Bool.false_or, List.nil_append]
          by_cases hline : ip ∈ SepText.pieces newline content
          · have hmem : ¬ ip ∉ blockedLines (some content) := not_not.2 hline
            rw [decide_eq_true hline, Bool.not_true, if_neg Bool.false_ne_true]
            have hok := writeAtomic_ok io files₁ path
              (((SepText.pieces newline content).filter (· ≠ ip)).flatMap (· ++ [newline]))
            have hfailed := writeAtomic_failed io files₁
              (((SepText.pieces newline content).filter (· ≠ ip)).flatMap (· ++ [newline])) htmp
            generalize writeAtomic io files₁ path _ = write at hok hfailed
            obtain ⟨ok, files₂⟩ := write
            cases ok with
            | true =>
              refine ⟨true, true, 0, files₂, rfl, ?_, fun h => absurd h (by decide)⟩
              rw [if_neg (by decide), if_neg hmem, if_pos rfl, show files₂ path = _ from hok rfl]
              rfl
            | false =>
              refine ⟨true, false, -1, files₂, rfl, ?_, fun h => absurd h (by decide)⟩
              rw [if_neg (by decide), if_neg hmem, if_neg Bool.false_ne_true,
                show files₂ path = _ from (hfailed rfl).trans hself]
          · rw [decide_eq_false hline, Bool.not_false, if_pos rfl]
            refine ⟨true, true, 1, files₁, rfl, ?_, fun _ => hothers⟩
            rw [if_neg (by decide), if_pos (show ip ∉ blockedLines (some content) from hline), hself]

end

/-- For every content of the file and every outcome of the calls, none of the loops writes
beyond its buffer, and: `blocker_execute` with a valid address keeps the lines in order and adds
the address at the end where it was none of them, or fails and leaves the file;
`blocker_unblock` drops the lines that are its argument and no other, or finds none and changes
nothing, or fails and leaves the file; and a session is blocked when its address is a line. -/
theorem blocked_file_ops (io : BlockedIo) (files : FileTexts) (path ip : CStr)
    (hpath : path.length + 5 < pathMax) (hip : 0 ∉ ip) :
    (validClientIp ip = true → ∃ rc files', blockerExecuteRun io files path ip = some (rc, files') ∧
        (rc = 0 ∧ blockedLines (files' path) =
            blockedLines (files path) ++ (if ip ∈ blockedLines (files path) then [] else [ip]) ∨
          rc = -1 ∧ files' path = files path)) ∧
      (∃ rc files', blockerUnblockRun io files path ip = some (rc, files') ∧
        (rc = 0 ∧ ip ∈ blockedLines (files path) ∧
            blockedLines (files' path) = (blockedLines (files path)).filter (· ≠ ip) ∨
          rc = 1 ∧ ip ∉ blockedLines (files path) ∧
            (∀ other, other ≠ lockPath path → files' other = files other) ∨
          rc = -1 ∧ files' path = files path)) ∧
      (isBlockedBytes (files path) ip = true ↔ ip ≠ [] ∧ ip ∈ blockedLines (files path)) := by
  have hlock : path ≠ lockPath path := ne_snprintf_append (by decide) hpath
  have htmp : path ≠ blockedTmp path :=
    ne_snprintf_append (by decide) (Nat.lt_trans (Nat.lt_succ_self _) hpath)
  refine ⟨fun hvalid => ?_, ?_, ?_⟩
  · obtain ⟨readOk, writeOk, rc, files', hrun, ⟨rfl, hdone⟩ | ⟨rfl, -, hkept⟩⟩ :=
      blockerExecuteRun_refines io files ip hlock htmp
    · refine ⟨0, files', hrun, .inl ⟨rfl, ?_⟩⟩
      obtain ⟨hsame, hthere⟩ | ⟨hnew, -, -, hline, -⟩ := blockerAppend_eq_some_iff.1 hdone
      · have hmem : ip ∈ blockedLines (files path) := of_decide_eq_true (hthere hvalid).2
        rw [hsame, if_pos hmem, List.append_nil]
      · have hmem : ip ∉ blockedLines (files path) := of_decide_eq_false hline
        rw [hnew, if_neg hmem, blockedLines_appendLine (not_mem_of_validClientIp hvalid (by decide))]
        rfl
    · exact ⟨-1, files', hrun, .inr ⟨rfl, hkept⟩⟩
  · obtain ⟨readOk, writeOk, rc, files', hrun, hunblock, hone⟩ :=
      blockerUnblockRun_refines io files hip hlock htmp
    refine ⟨rc, files', hrun, ?_⟩
    by_cases hrc : rc = 0
    · rw [hrc] at hunblock
      exact .inl ⟨hrc, blockedLines_blockerUnblock hunblock⟩
    · have hne : (blockerUnblock (files path) ip readOk writeOk).1 ≠ 0 := by
        rw [hunblock]
        exact hrc
      have hkept := blockerUnblock_of_ne hne
      have hreturned := blockerUnblock_rc_of_ne hne
      rw [hunblock] at hkept hreturned
      obtain ⟨rfl, hmem⟩ | rfl := hreturned
      · exact .inr (.inl ⟨rfl, hmem, hone rfl⟩)
      · exact .inr (.inr ⟨rfl, hkept⟩)
  · rw [isBlockedBytes_eq hip]
    simp [lineExists]

/-- Every call comes back as it should, the reads and writes a byte at a time at first. -/
def BlockedIo.ok : BlockedIo :=
  ⟨true, true, true, true, true, [.count 1, .interrupted], true, true, [.count 1, .interrupted], true, true, true,
    true⟩

/-- A file whose last line is not ended. -/
theorem blocked_file_ops_sample :
    let files : FileTexts := fun p => if p = lit "/run/gfrguardd/blocked" then some (lit "1.1.1.1") else none
    ∃ rc files', blockerExecuteRun .ok files (lit "/run/gfrguardd/blocked") (lit "2.2.2.2") = some (rc, files') ∧
      (rc = 0 ∧ blockedLines (files' (lit "/run/gfrguardd/blocked")) = [lit "1.1.1.1", lit "2.2.2.2"] ∨
        rc = -1 ∧ files' (lit "/run/gfrguardd/blocked") = some (lit "1.1.1.1")) := by
  intro files
  have hlines : blockedLines (files (lit "/run/gfrguardd/blocked")) = [lit "1.1.1.1"] := by decide
  have hops := (blocked_file_ops .ok files (lit "/run/gfrguardd/blocked") (lit "2.2.2.2") (by decide)
    (by decide)).1 (by decide)
  rw [hlines, if_neg (by decide)] at hops
  exact hops

end GfrGuard
