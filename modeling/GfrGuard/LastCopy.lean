import GfrGuard.CopyFd
import GfrGuard.QuarantineKept

/-!
# The last good copy

`restore_one` with an outcome for every system call, the reads and writes of its two copies among
them. When it returns, the preimage is there with its content or the path holds that content, and
only then the row is marked restored, exactly where the preimage was not written into a device or a
pipe that stayed at the path (`lastCopy_kept_iff`).
-/

namespace GfrGuard

namespace Linked

open LinkTree

/-! ## Copying -/

/-- What happens to one `copy_file`: whether its ends can be opened, and how its reads and writes come
back. -/
structure Transfer where
  sourceOk : Bool
  targetOk : Bool
  calls : List SysOutcome

/-- The loops of `copy_file`, from what is left to read, what is in the buffer and what was written.
They have not returned where the outcomes end. -/
def transfer : List SysOutcome → Content → Content → Content → Option Bool × Content
  | [], _, _, written => (none, written)
  | .interrupted :: calls, unread, buf, written => transfer calls unread buf written
  | .failed :: _, _, _, written => (some false, written)
  | .count n :: calls, unread, [], written =>
    -- a read comes back empty at the end of the file only
    let data := unread.take (min (max n 1) 65536)
    if data = [] then (some true, written)
    else transfer calls (unread.drop data.length) data written
  | .count n :: calls, unread, buf, written =>
    let data := buf.take n
    if data = [] then (some false, written)
    else transfer calls unread (buf.drop data.length) (written ++ data)

-- an interrupted read is made again, a short write is carried on
example : transfer [.interrupted, .count 2, .count 1, .count 9, .count 0] (lit "ab") [] [] =
    (some true, lit "ab") := by decide

variable (io : LinkedIo)

/-- `copy_file`. A device or a pipe takes the bytes and keeps none. -/
def copyFileBy (tr : Transfer) (src dst : CStr) (s : Traced) : Option Bool × Traced :=
  match lstat io s.tree src with
  | none | some .other | some (.link ..) => (some false, s)
  | some _ =>
    if !tr.sourceOk || !tr.targetOk then (some false, s)
    else
      match find io s.tree dst false with
      | none => (some false, s)
      | some loc =>
        match s.tree.lookup loc with
        | some .dir | some (.link ..) => (some false, s)
        | some .other =>
          match lstat io s.tree src with
          | some (.file content) => ((transfer tr.calls content [] []).1, s)
          | _ => (some false, s)
        | target =>
          if target = none && endsInDots dst then (some false, s)
          else
            let s := s.change [loc] (put s.tree loc (.file []))
            match lstat io s.tree src with
            | some (.file content) =>
              ((transfer tr.calls content [] []).1,
                { s with tree := put s.tree loc (.file (transfer tr.calls content [] []).2) })
            | _ => (some false, s)

/-! ## Restoring -/

/-- The outcomes of the system calls of one `restore_one`. -/
structure RestoreIo where
  calls : LinkedIo
  /-- The second `mkdir_p`. -/
  mkdirAgain : Loc → Bool
  statOk : Bool
  lstatOk : CStr → Bool
  /-- The copy to the quarantine. -/
  moved : Transfer
  /-- The copy of the preimage. -/
  restored : Transfer

variable (io : RestoreIo)

/-- The loop of `quarantine_unique`. -/
def uniqueSlotBy (t : Links) (base : CStr) : CStr → List Nat → CStr
  | path, [] => path
  | _, i :: is =>
    let slot := base ++ dot :: dec i
    if pathMax ≤ slot.length then snprintf pathMax slot
    else if !io.lstatOk slot || (lstat io.calls t slot).isNone then slot
    else uniqueSlotBy t base slot is

/-- `quarantine_unique`. -/
def quarantineUniqueBy (t : Links) (path : CStr) : CStr :=
  if !io.lstatOk path || (lstat io.calls t path).isNone then path
  else uniqueSlotBy io t path path (List.range' 1 99)

/-- Move a file to the quarantine. -/
def moveToQuarantineBy (path qpath : CStr) (isRegular : Bool) (s : Traced) : Option Traced :=
  let s := (mkdirP io.calls s (Fs.parentPath qpath)).2
  let qpath := quarantineUniqueBy io s.tree qpath
  match rename io.calls s path qpath with
  | (true, s) => some s
  | (false, s) =>
    if isRegular then
      match copyFileBy io.calls io.moved path qpath s with
      | (none, _) => none
      | (some false, s) => some s
      | (some true, s) => some (unlink io.calls s path).2
    else some s

/-- Quarantine what stands at a path before it is overwritten. -/
def quarantineCurrentBy (eventId path : CStr) (s : Traced) : Option Traced :=
  match lstat io.calls s.tree path with
  | none => some s
  | some cur =>
    if !io.lstatOk path || pathMax ≤ (quarantineFor eventId path).length then some s
    else moveToQuarantineBy io path (quarantineFor eventId path) (isRegular cur) s

/-- What stood at a path went to the quarantine, and the directory of the path was made. -/
def clearedBy (eventId path : CStr) (s : Traced) : Option Traced :=
  (quarantineCurrentBy io eventId path s).map fun s =>
    (mkdirP { io.calls with mkdirOk := io.mkdirAgain } s (Fs.parentPath (snprintf pathMax path))).2

/-- `restore_one`, when it returns. -/
def restoreOneBy (s : LinkedState) (pf : ProtectedFile) : Option LinkedState :=
  let s := { s with total := s.total + 1 }
  if pf.restoreStatus ≠ lit "pending" then some s
  else if !validRestorePath pf.originalPath || !io.statOk || (stat io.calls s.fs.tree pf.backupPath).isNone then
    some (restoreFailed io.calls pf s)
  else
    match clearedBy io pf.eventId pf.originalPath s.fs with
    | none => none
    | some fs =>
      match copyFileBy io.calls io.restored pf.backupPath pf.originalPath fs with
      | (none, _) => none
      | (some false, fs) => some (restoreFailed io.calls pf { s with fs := fs })
      | (some true, fs) =>
        some { s with
          fs := (unlink io.calls fs pf.backupPath).2
          db := s.db.updateRestoreStatus pf.id (lit "restored") io.calls.now
          success := s.success + 1 }

/-! ## What is kept -/

/-- Where a path leads over directories alone, without a link. -/
def direct (io : LinkedIo) (t : Links) (path : CStr) : Option Loc :=
  if path = [] ∨ pathMax ≤ path.length then none
  else t.walk false 0 (if path.head? = some slash then [] else io.cwd) (walkSteps path)

/-- The tree with the directory of a row's slot in the quarantine. -/
def slotMade (s : Traced) (pf : ProtectedFile) : Links :=
  (mkdirP io.calls s (Fs.parentPath (quarantineFor pf.eventId pf.originalPath))).2.tree

/-- The row is pending and its preimage stands at `b`, apart from the path and from every name the
quarantine may give; no link is on the way to the preimage or to the path. -/
structure RestoreStart (st : LinkedState) (pf : ProtectedFile) (b : Loc) (content : Content) : Prop where
  row : pf ∈ st.db.protectedFiles
  pending : ∀ row ∈ st.db.protectedFiles, row.id = pf.id → row.restoreStatus = lit "pending"
  preimage : Leaf st.fs.tree b (.file content)
  backup : direct io.calls st.fs.tree pf.backupPath = some b
  cwd : Opens st.fs.tree io.calls.cwd
  path : NoLinks st.fs.tree (wayTo pf.originalPath)
  apart : literalLoc pf.originalPath ≠ b
  slots : ∀ new, Numbered (quarantineFor pf.eventId pf.originalPath) new →
    entry io.calls (slotMade io st.fs pf) new ≠ some b ∧ find io.calls (slotMade io st.fs pf) new false ≠ some b

/-- The preimage stands in the tree: at its place, or in the directory at the path that went to the
quarantine. -/
def PreimageThere (st : LinkedState) (pf : ProtectedFile) (b : Loc) (content : Content) (t : Links) : Prop :=
  t.lookup b = some (.file content) ∨ ∃ new dst rest,
    Numbered (quarantineFor pf.eventId pf.originalPath) new ∧
      entry io.calls (slotMade io st.fs pf) new = some dst ∧ b = literalLoc pf.originalPath ++ rest ∧
      t.lookup (dst ++ rest) = some (.file content)

/-- The preimage is there or the path holds its content, and that when the row is marked restored. -/
structure LastCopyKept (st : LinkedState) (pf : ProtectedFile) (b : Loc) (content : Content)
    (st' : LinkedState) : Prop where
  kept : PreimageThere io st pf b content st'.fs.tree ∨
    lstat io.calls st'.fs.tree pf.originalPath = some (.file content)
  marked : ∀ row ∈ st'.db.protectedFiles, row.id = pf.id → row.restoreStatus = lit "restored" →
    lstat io.calls st'.fs.tree pf.originalPath = some (.file content)

/-- The preimage is written into a device or a pipe that stays at the path. -/
structure IntoSpecial (st : LinkedState) (pf : ProtectedFile) (content : Content) : Prop where
  valid : validRestorePath pf.originalPath = true
  stat : io.statOk = true ∧ (stat io.calls st.fs.tree pf.backupPath).isSome
  special : ∃ fs, clearedBy io pf.eventId pf.originalPath st.fs = some fs ∧
    lstat io.calls fs.tree pf.originalPath = some .other ∧
    lstat io.calls fs.tree pf.backupPath = some (.file content)
  opened : io.restored.sourceOk = true ∧ io.restored.targetOk = true
  taken : (transfer io.restored.calls content [] []).1 = some true

section
variable {io : RestoreIo} {lio : LinkedIo} {t t' t'' : Links} {s s' : Traced} {path slot new source target : CStr}
  {src dst loc b : Loc} {n : LinkNode CStr Content} {content : Content} {way : List (PathStep CStr)}
  {calls : List SysOutcome} {unread buf written : Content} {tr : Transfer}

/-- A copy that succeeds wrote everything. -/
theorem transfer_whole (h : (transfer calls unread buf written).1 = some true) :
    (transfer calls unread buf written).2 = written ++ buf ++ unread := by
  fun_induction transfer calls unread buf written with
  | case1 => cases h
  | case2 _ _ _ _ ih => exact ih h
  | case3 => cases h
  | case4 n calls unread written data hdata =>
    -- the file is at its end
    have hend : unread = [] := by
      refine List.length_eq_zero_iff.1 ?_
      have hlen := congrArg List.length hdata
      simp only [data, List.length_take, List.length_nil] at hlen
      omega
    rw [hend, List.append_nil, List.append_nil]
  | case5 n calls unread written data hdata ih =>
    have hall : data ++ unread.drop data.length = unread :=
      List.prefix_iff_eq_append.1 (List.take_prefix _ _)
    rw [ih h, List.append_nil, List.append_assoc, hall]
  | case6 => cases h
  | case7 n calls unread buf written hbuf data hdata ih =>
    have hall : data ++ buf.drop data.length = buf := List.prefix_iff_eq_append.1 (List.take_prefix _ _)
    rw [ih h, List.append_assoc written, hall]

/-! ## Copies -/

/-- A copy changes nothing, or the content of its target; then it succeeds with the whole content of
its source. A copy into a device or a pipe changes nothing and may succeed. -/
theorem copyFileBy_cases (lio : LinkedIo) (tr : Transfer) (source target : CStr) (s : Traced) :
    (copyFileBy lio tr source target s).2 = s ∧ ((copyFileBy lio tr source target s).1 = some true →
        lstat lio s.tree target = some .other ∧ (tr.sourceOk = true ∧ tr.targetOk = true) ∧
          ∃ c, lstat lio s.tree source = some (.file c) ∧ (transfer tr.calls c [] []).1 = some true) ∨
      ∃ loc written, find lio s.tree target false = some loc ∧
        (s.tree.lookup loc = none ∨ ∃ c, s.tree.lookup loc = some (.file c)) ∧
        (copyFileBy lio tr source target s).2.tree = put s.tree loc (.file written) ∧
        ((copyFileBy lio tr source target s).1 = some true →
          (lstat lio s.tree source).isSome ∧
            lstat lio (put s.tree loc (.file [])) source = some (.file written)) := by
  unfold copyFileBy
  split
  · exact .inl ⟨rfl, fun h => by cases h⟩
  · exact .inl ⟨rfl, fun h => by cases h⟩
  · exact .inl ⟨rfl, fun h => by cases h⟩
  · next hsource =>
    split
    · exact .inl ⟨rfl, fun h => by cases h⟩
    · next hopened =>
      have hopen : tr.sourceOk = true ∧ tr.targetOk = true := by simpa using hopened
      split
      · exact .inl ⟨rfl, fun h => by cases h⟩
      · next loc hloc =>
        split
        · exact .inl ⟨rfl, fun h => by cases h⟩
        · exact .inl ⟨rfl, fun h => by cases h⟩
        · next hother =>
          have hspecial : lstat lio s.tree target = some .other := by
            rw [lstat, hloc, Option.bind_some, hother]
          split
          · next c hc => exact .inl ⟨rfl, fun htrue => ⟨hspecial, hopen, c, hc, htrue⟩⟩
          · exact .inl ⟨rfl, fun h => by cases h⟩
        · next hdir hlink hother =>
          have hkind := none_or_file hdir hother hlink
          dsimp only
          split
          · exact .inl ⟨rfl, fun h => by cases h⟩
          · refine .inr ⟨loc, ?_⟩
            split
            · next content hcontent =>
              refine ⟨_, hloc, hkind, put_put .., fun htrue => ⟨by rw [hsource]; rfl, ?_⟩⟩
              rw [transfer_whole htrue, List.append_nil, List.nil_append]
              exact hcontent
            · exact ⟨_, hloc, hkind, rfl, fun h => by cases h⟩

/-- A copy of a file into a device or a pipe. -/
theorem copyFileBy_special (hsource : lstat lio s.tree source = some (.file content))
    (htarget : lstat lio s.tree target = some .other) (hopen : tr.sourceOk = true ∧ tr.targetOk = true) :
    copyFileBy lio tr source target s = ((transfer tr.calls content [] []).1, s) := by
  obtain ⟨loc, hloc, hother⟩ := Option.bind_eq_some_iff.1 htarget
  unfold copyFileBy
  rw [hsource, hopen.1, hopen.2, hloc]
  dsimp only
  rw [hother]
  exact if_neg (by decide)

/-! ## Clearing the path -/

/-- The change spares the directories, the preimage and a way without links. -/
structure Spares (b : Loc) (way : List (PathStep CStr)) (t t' : Links) : Prop where
  dirs : ∀ p, t.lookup p = some .dir → t'.lookup p = some .dir
  leaf : ∀ n, Leaf t b n → Leaf t' b n
  links : NoLinks t way → NoLinks t' way

theorem Spares.refl (b : Loc) (way : List (PathStep CStr)) (t : Links) : Spares b way t t :=
  ⟨fun _ => id, fun _ => id, id⟩

theorem Spares.trans (h : Spares b way t t') (h' : Spares b way t' t'') : Spares b way t t'' :=
  ⟨fun p hp => h'.dirs p (h.dirs p hp), fun n hn => h'.leaf n (h.leaf n hn), fun hw => h'.links (h.links hw)⟩

theorem spares_put (hdir : t.lookup loc ≠ some .dir) (hne : loc ≠ b)
    (hn : ∀ absolute target, n ≠ .link absolute target) : Spares b way t (put t loc n) where
  dirs p hp := by
    rw [lookup_put_of_ne (by rintro rfl; exact hdir hp)]
    exact hp
  leaf _ hb := hb.update (hb.not_isPrefix hdir hne) _
  links h := noLinks_put h hn loc

theorem spares_remove (hdir : t.lookup loc ≠ some .dir) (hne : loc ≠ b) : Spares b way t (remove t loc) where
  dirs p hp := by
    have hp' : p ≠ loc := by
      rintro rfl
      exact hdir hp
    unfold LinkTree.lookup remove at *
    dsimp only
    rw [Function.update_of_ne hp']
    exact hp
  leaf _ hb := hb.update (hb.not_isPrefix hdir hne) _
  links h := noLinks_remove h loc

theorem copyFileBy_spares (htarget : find lio s.tree target false ≠ some b) :
    Spares b way s.tree (copyFileBy lio tr source target s).2.tree := by
  rcases copyFileBy_cases lio tr source target s with ⟨hsame, -⟩ | ⟨loc, written, hloc, hkind, htree, -⟩
  · rw [hsame]
    exact .refl ..
  · rw [htree]
    refine spares_put ?_ (by rintro rfl; exact htarget hloc) (by simp)
    rcases hkind with hnone | ⟨c, hfile⟩
    · rw [hnone]; exact nofun
    · rw [hfile]; exact nofun

theorem unlink_spares (hpath : ∀ loc, entry lio s.tree path = some loc → loc ≠ b) :
    Spares b way s.tree (unlink lio s path).2.tree := by
  rcases unlink_cases s path with hsame | ⟨loc, -, hloc, hdir, htree⟩
  · rw [hsame]
    exact .refl ..
  · rw [htree]
    exact spares_remove hdir (hpath loc hloc)

/-- The preimage stands where it stood, or its directory stood at the path and has a slot. -/
def Found (io : LinkedIo) (made : Links) (path slot : CStr) (b : Loc) (content : Content) (t : Links) : Prop :=
  Leaf t b (.file content) ∨ (∀ c, t.lookup b ≠ some (.file c)) ∧ ∃ new dst rest, Numbered slot new ∧
    entry io made new = some dst ∧ b = literalLoc path ++ rest ∧ ¬ dst <+: literalLoc path ∧
      t.lookup (dst ++ rest) = some (.file content)

/-- What is left when the path has been cleared. -/
structure Cleared (io : LinkedIo) (made : Links) (path slot : CStr) (b : Loc) (content : Content)
    (t t' : Links) : Prop where
  dirs : ∀ p, Opens t p → t'.lookup p = some .dir ∨ t'.lookup p = none
  links : NoLinks t' (wayTo path)
  found : Found io made path slot b content t'

theorem Spares.cleared {made : Links} (h : Spares b (wayTo path) t t') (hb : Leaf t b (.file content))
    (hway : NoLinks t (wayTo path)) : Cleared lio made path slot b content t t' :=
  ⟨fun p hp => .inl (h.dirs p (hp p (List.prefix_refl p))), h.links hway, .inl (h.leaf _ hb)⟩

/-- Directories that are made before. -/
theorem Cleared.of_madeDirs {made : Links} (hmade : MadeDirs t t')
    (h : Cleared lio made path slot b content t' t'') : Cleared lio made path slot b content t t'' :=
  ⟨fun p hp => h.dirs p fun p' hp' => hmade.some (hp p' hp'), h.links, h.found⟩

/-- Directories that are made after. -/
theorem Cleared.madeDirs {made : Links} (h : Cleared lio made path slot b content t t')
    (hmade : MadeDirs t' t'') : Cleared lio made path slot b content t t'' where
  dirs p hp := by
    rcases hmade p with hsame | ⟨-, hdir⟩
    · rw [hsame]
      exact h.dirs p hp
    · exact .inl hdir
  links := hmade.noLinks h.links
  found := by
    rcases h.found with hb | ⟨hgone, new, dst, rest, hnew, hdst, hrest, hout, hmoved⟩
    · exact .inl (hmade.leaf hb)
    · refine .inr ⟨fun c hc => ?_, new, dst, rest, hnew, hdst, hrest, hout, hmade.some hmoved⟩
      rcases hmade b with hsame | ⟨-, hdir⟩
      · exact hgone c (hsame ▸ hc)
      · rw [hdir] at hc
        cases hc

/-- Moving what stands at the path to its slot. -/
theorem rename_cleared (hhead : path.head? = some slash) (hup : .up ∉ walkSteps path)
    (hway : NoLinks s.tree (wayTo path)) (hb : Leaf s.tree b (.file content)) (hapart : literalLoc path ≠ b)
    (hnew : Numbered slot new) (hslot : entry lio s.tree new ≠ some b ∧ find lio s.tree new false ≠ some b) :
    Cleared lio s.tree path slot b content s.tree (rename lio s path new).2.tree := by
  rcases rename_cases s path new with hsame | ⟨src, dst, n, hmoves, hroom, hmoved⟩
  · rw [hsame]
    exact (Spares.refl b _ _).cleared hb hway
  · obtain ⟨hsrc, hn, -, htarget, houtside, habove⟩ := hmoves
    obtain rfl := entry_eq hhead hup hway hsrc
    rw [hmoved]
    have hdst : dst ≠ [] := by
      rintro rfl
      exact habove List.nil_prefix
    -- a directory the way goes through is no place to move to
    have hpass : ∀ p, Opens s.tree p → dst <+: p →
        (moveTree s.tree (literalLoc path) dst).lookup p = some .dir := by
      rintro p hp ⟨rest, rfl⟩
      have hdir : s.tree.lookup dst = some .dir := hp dst (List.prefix_append dst rest)
      rcases htarget with ⟨hndir, -⟩ | ⟨-, -, hnot⟩
      · rcases hroom hndir with hnone | ⟨-, hempty⟩
        · rw [hdir] at hnone
          cases hnone
        · cases rest with
          | nil =>
            have hne : literalLoc path ≠ [] := by
              intro h0
              exact houtside (h0 ▸ List.nil_prefix)
            rw [lookup_moveTree_below hdst, List.append_nil, ← hndir, ← hn, LinkTree.lookup, if_neg hne]
          | cons name rest =>
            have hbelow := hp _ (List.prefix_refl _)
            rw [LinkTree.lookup, if_neg (by simp), hempty] at hbelow
            cases hbelow
      · exact absurd hdir hnot
    refine ⟨fun p hp => ?_, noLinks_moveTree hway fun pre hpre hbelow => ?_, ?_⟩
    · by_cases hd : dst <+: p
      · exact .inl (hpass p hp hd)
      · by_cases hs : literalLoc path <+: p
        · by_cases hnil : p = []
          · exact .inl (by rw [hnil]; rfl)
          · exact .inr (lookup_moveTree_source hs hd hnil)
        · refine .inl ?_
          change (moveTree s.tree (literalLoc path) dst).lookup p = some .dir
          rw [lookup_moveTree_of_not_isPrefix hs hd]
          exact hp p (List.prefix_refl p)
    · exact absurd (hbelow.trans ((spelled_isPrefix hpre).trans
        (spelled_wayTo_isPrefix (slash_mem_of_head hhead)))) habove
    · by_cases hs : literalLoc path <+: b
      · -- the preimage goes along with its directory
        obtain ⟨rest, hrest⟩ := hs
        have hdir : s.tree.lookup (literalLoc path) = some .dir := hb.way _ ⟨rest, hrest⟩ hapart
        have hentry : entry lio s.tree new = some dst := by
          rcases htarget with ⟨-, hentry⟩ | ⟨hnot, -⟩
          · exact hentry
          · exact absurd (Option.some.inj (hn.symm.trans hdir)) hnot
        have hbne : b ≠ [] := by
          rintro rfl
          exact hb.not_dir (Option.some.inj hb.node).symm
        have hd : ¬ dst <+: b := fun hd => by
          rcases List.prefix_or_prefix_of_prefix hd ⟨rest, hrest⟩ with h | h
          · exact habove h
          · exact houtside h
        refine .inr ⟨fun c => ?_, new, dst, rest, hnew, hentry, hrest.symm, habove, ?_⟩
        · change (moveTree s.tree (literalLoc path) dst).lookup b ≠ _
          rw [lookup_moveTree_source ⟨rest, hrest⟩ hd hbne]
          intro h
          cases h
        · change (moveTree s.tree (literalLoc path) dst).lookup (dst ++ rest) = _
          rw [lookup_moveTree_below hdst, hrest, ← hb.node, LinkTree.lookup, if_neg hbne]
      · refine .inl (leaf_moveTree hb hs ?_)
        rcases htarget with ⟨hndir, hentry⟩ | ⟨-, hfind, hnot⟩
        · rcases hroom hndir with hnone | ⟨hdir, hempty⟩
          · exact hb.not_isPrefix_of_free hnone
          · exact hb.not_isPrefix_of_empty hdir hempty
        · refine hb.not_isPrefix hnot ?_
          rintro rfl
          exact hslot.2 hfind

theorem uniqueSlotBy_eq (io : RestoreIo) (t : Links) {base : CStr} (hbase : base.length < pathMax) {path : CStr}
    (hpath : Numbered base path) (is : List Nat) : Numbered base (uniqueSlotBy io t base path is) := by
  induction is generalizing path with
  | nil => exact hpath
  | cons i is ih =>
    have hdec : slash ∉ dot :: dec i := by
      rw [List.mem_cons, not_or]
      exact ⟨by decide, not_mem_dec (by decide)⟩
    unfold uniqueSlotBy
    dsimp only
    split
    · refine ⟨(dot :: dec i).take (pathMax - 1 - base.length),
        fun h => hdec (List.mem_of_mem_take h), ?_⟩
      unfold snprintf
      rw [List.take_append, List.take_of_length_le (by omega)]
    · split
      · exact ⟨_, hdec, rfl⟩
      · exact ih ⟨_, hdec, rfl⟩

theorem quarantineUniqueBy_eq (io : RestoreIo) (t : Links) (hslot : slot.length < pathMax) :
    Numbered slot (quarantineUniqueBy io t slot) := by
  have hplain : Numbered slot slot := ⟨[], List.not_mem_nil, (List.append_nil _).symm⟩
  unfold quarantineUniqueBy
  split
  · exact hplain
  · exact uniqueSlotBy_eq io t hslot hplain _

theorem moveToQuarantineBy_cleared {made : Links} {isRegular : Bool}
    (hmade : made = (mkdirP io.calls s (Fs.parentPath slot)).2.tree) (hhead : path.head? = some slash)
    (hup : .up ∉ walkSteps path) (hlen : slot.length < pathMax) (hway : NoLinks s.tree (wayTo path))
    (hb : Leaf s.tree b (.file content)) (hapart : literalLoc path ≠ b)
    (hslots : ∀ new, Numbered slot new → entry io.calls made new ≠ some b ∧ find io.calls made new false ≠ some b)
    (h : moveToQuarantineBy io path slot isRegular s = some s') :
    Cleared io.calls made path slot b content s.tree s'.tree := by
  have hdirs : MadeDirs s.tree (mkdirP io.calls s (Fs.parentPath slot)).2.tree := mkdirP_madeDirs _
  refine .of_madeDirs hdirs ?_
  unfold moveToQuarantineBy at h
  dsimp only at h
  have hway₁ := hdirs.noLinks hway
  have hb₁ := hdirs.leaf hb
  clear hdirs
  generalize (mkdirP io.calls s (Fs.parentPath slot)).2 = s₁ at h hmade hway₁ hb₁ ⊢
  subst hmade
  have hnew : Numbered slot (quarantineUniqueBy io s₁.tree slot) := quarantineUniqueBy_eq io s₁.tree hlen
  generalize quarantineUniqueBy io s₁.tree slot = new at h hnew
  have hslot := hslots new hnew
  have hrename := rename_cleared hhead hup hway₁ hb₁ hapart hnew hslot
  have hnothing : Cleared io.calls s₁.tree path slot b content s₁.tree s₁.tree :=
    (Spares.refl b _ _).cleared hb₁ hway₁
  split at h
  · next s₂ hmoved =>
    cases h
    rw [hmoved] at hrename
    exact hrename
  · next s₂ hfailed =>
    obtain rfl := rename_failed hfailed
    split at h
    · have hcopy : Spares b (wayTo path) s₂.tree (copyFileBy io.calls io.moved path new s₂).2.tree :=
        copyFileBy_spares hslot.2
      split at h
      · cases h
      · next s₃ hcopied =>
        cases h
        rw [hcopied] at hcopy
        exact hcopy.cleared hb₁ hway₁
      · next s₃ hcopied =>
        cases h
        rw [hcopied] at hcopy
        refine (hcopy.trans (unlink_spares fun loc hloc => ?_)).cleared hb₁ hway₁
        rw [entry_eq hhead hup (hcopy.links hway₁) hloc]
        exact hapart
    · cases h
      exact hnothing

theorem clearedBy_cleared {st : LinkedState} {pf : ProtectedFile} (h : RestoreStart io st pf b content)
    (hvalid : validRestorePath pf.originalPath = true)
    (hs : clearedBy io pf.eventId pf.originalPath st.fs = some s') :
    Cleared io.calls (slotMade io st.fs pf) pf.originalPath (quarantineFor pf.eventId pf.originalPath) b
      content st.fs.tree s'.tree := by
  obtain ⟨hhead, hdots⟩ := validRestorePath_dots hvalid
  have hup := up_not_mem_walkSteps_of_pathSteps (up_not_mem_pathSteps.2 hdots)
  obtain ⟨s₁, hs₁, rfl⟩ := Option.map_eq_some_iff.1 hs
  refine Cleared.madeDirs ?_ (mkdirP_madeDirs _)
  have hnothing : Cleared io.calls (slotMade io st.fs pf) pf.originalPath
      (quarantineFor pf.eventId pf.originalPath) b content st.fs.tree st.fs.tree :=
    (Spares.refl b _ _).cleared h.preimage h.path
  unfold quarantineCurrentBy at hs₁
  split at hs₁
  · cases hs₁
    exact hnothing
  · split at hs₁
    · cases hs₁
      exact hnothing
    · next hfits =>
      rw [Bool.or_eq_true, decide_eq_true_eq, not_or] at hfits
      exact moveToQuarantineBy_cleared rfl hhead hup (Nat.not_le.1 hfits.2) h.path h.preimage h.apart h.slots hs₁

/-! ## Copying back -/

/-- Unlinking a file changes nothing at another path. -/
theorem lstat_unlink {p q : CStr} {c : Content} (hq : lstat lio s.tree q = some (.file c))
    (hp : find lio s.tree p false = some loc) (hne : find lio s.tree q false ≠ some loc) :
    lstat lio (unlink lio s q).2.tree p = s.tree.lookup loc := by
  rcases unlink_cases s q with hsame | ⟨b, hlast, hb, -, htree⟩
  · rw [hsame, lstat, hp, Option.bind_some]
  · have hfind : find lio s.tree q false = some b := (find_eq_entry hlast).trans hb
    have hfile : s.tree.lookup b = some (.file c) := by
      rwa [lstat, hfind, Option.bind_some] at hq
    have hother : ∀ p, p ≠ b → (remove s.tree b).lookup p = s.tree.lookup p := fun p hpb => by
      unfold LinkTree.lookup remove
      dsimp only
      rw [Function.update_of_ne hpb]
    have hloc : loc ≠ b := by
      rintro rfl
      exact hne hfind
    have hfollow : find lio (remove s.tree b) p false = some loc := by
      unfold find follow at hp ⊢
      obtain ⟨hpath, hwalk⟩ := Option.ite_none_left_eq_some.1 hp
      rw [if_neg hpath]
      refine walk_avoid hother ?_ ?_ hloc hwalk
      · rw [hfile]
        intro h
        cases h
      · intro absolute way h
        rw [hfile] at h
        cases h
    rw [htree, lstat, hfollow, Option.bind_some, hother loc hloc]

/-- The preimage is found where it stood, or nothing is found. -/
theorem find_direct {made : Links} (hcwd : Opens t lio.cwd) (hb : direct lio t source = some b)
    (hc : Cleared lio made path slot b content t t') (hfind : find lio t' source false = some loc) :
    loc = b ∨ t'.lookup loc = none := by
  unfold direct at hb
  unfold find follow at hfind
  obtain ⟨hpath, hwalk⟩ := Option.ite_none_left_eq_some.1 hb
  rw [if_neg hpath] at hfind
  refine walkWith_lost hc.dirs ?_ hwalk hfind
  split
  · intro p hp
    rw [List.prefix_nil.1 hp]
    rfl
  · exact hcwd

/-- What the copy of the preimage leaves: the preimage, and when it succeeds and no device or pipe is at
the path, the content there. -/
theorem copyFileBy_restored {st : LinkedState} {pf : ProtectedFile} (h : RestoreStart io st pf b content)
    (hvalid : validRestorePath pf.originalPath = true)
    (hc : Cleared io.calls (slotMade io st.fs pf) pf.originalPath
      (quarantineFor pf.eventId pf.originalPath) b content st.fs.tree s.tree) :
    PreimageThere io st pf b content
        (copyFileBy io.calls io.restored pf.backupPath pf.originalPath s).2.tree ∧
      ((copyFileBy io.calls io.restored pf.backupPath pf.originalPath s).1 = some true →
        lstat io.calls s.tree pf.originalPath ≠ some .other →
        lstat io.calls (unlink io.calls
          (copyFileBy io.calls io.restored pf.backupPath pf.originalPath s).2 pf.backupPath).2.tree
            pf.originalPath = some (.file content)) := by
  obtain ⟨hhead, hdots⟩ := validRestorePath_dots hvalid
  have hup := up_not_mem_walkSteps_of_pathSteps (up_not_mem_pathSteps.2 hdots)
  rcases copyFileBy_cases io.calls io.restored pf.backupPath pf.originalPath s with
    ⟨hsame, hspecial⟩ | ⟨loc, written, hloc, hkind, htree, hread⟩
  · refine ⟨?_, fun htrue hnot => absurd (hspecial htrue).1 hnot⟩
    rw [hsame]
    rcases hc.found with hb | ⟨-, new, dst, rest, hnew, hdst, hrest, -, hmoved⟩
    · exact .inl hb.node
    · exact .inr ⟨new, dst, rest, hnew, hdst, hrest, hmoved⟩
  · have hplace : loc = literalLoc pf.originalPath := find_eq hhead hup hc.links hloc
    have hne : loc ≠ b := hplace ▸ h.apart
    have hnil : loc ≠ [] := by
      rintro rfl
      rcases hkind with hnone | ⟨c, hfile⟩
      · cases hnone
      · cases hfile
    constructor
    · rw [htree]
      rcases hc.found with hb | ⟨-, new, dst, rest, hnew, hdst, hrest, hout, hmoved⟩
      · exact .inl ((lookup_put_of_ne hne.symm _).trans hb.node)
      · refine .inr ⟨new, dst, rest, hnew, hdst, hrest, ?_⟩
        rw [lookup_put_of_ne _ _]
        · exact hmoved
        · intro heq
          exact hout (hplace ▸ heq ▸ List.prefix_append dst rest)
    · intro htrue _
      obtain ⟨hsome, hwritten⟩ := hread htrue
      -- what was read is the preimage
      have hfind : find io.calls s.tree pf.backupPath false = some b := by
        obtain ⟨n, hn⟩ := Option.isSome_iff_exists.1 hsome
        obtain ⟨loc', hloc', hnode⟩ := Option.bind_eq_some_iff.1 hn
        rcases find_direct h.cwd h.backup hc hloc' with rfl | hnone
        · exact hloc'
        · rw [hnode] at hnone
          cases hnone
      have hread : (put s.tree loc (.file [])).lookup b = some (.file written) := by
        rwa [lstat, find, follow_extends (extends_put hkind []) hfind, Option.bind_some] at hwritten
      rw [lookup_put_of_ne hne.symm] at hread
      have hcontent : written = content := by
        rcases hc.found with hb | ⟨hgone, -⟩
        · have hsame := hb.node.symm.trans hread
          cases hsame
          rfl
        · exact absurd hread (hgone written)
      have hafter (path : CStr) {loc' : Loc} (hpath : find io.calls s.tree path false = some loc') :
          find io.calls (put s.tree loc (.file written)) path false = some loc' :=
        follow_extends (extends_put hkind written) hpath
      rw [lstat_unlink (c := written), htree, lookup_put_self hnil, hcontent]
      · rw [htree, lstat, hafter _ hfind, Option.bind_some, lookup_put_of_ne hne.symm]
        exact hread
      · rw [htree]
        exact hafter _ hloc
      · rw [htree, hafter _ hfind]
        exact fun heq => hne (Option.some.inj heq).symm

/-! ## The row -/

theorem status_of_mem_updateRestoreStatus {db : Db} {id : Nat} {status now : CStr} {row : ProtectedFile}
    (h : row ∈ (db.updateRestoreStatus id status now).protectedFiles) (hid : row.id = id) :
    row.restoreStatus = status := by
  obtain ⟨old, -, rfl⟩ := List.mem_map.1 h
  split at hid
  · next hold => rw [if_pos hold]
  · next hold => exact absurd hid hold

/-- A restore that failed has not marked the row. -/
theorem not_marked_of_failed {st : LinkedState} {pf row : ProtectedFile}
    (h : row ∈ (restoreFailed lio pf st).db.protectedFiles) (hid : row.id = pf.id) :
    row.restoreStatus ≠ lit "restored" := by
  rw [status_of_mem_updateRestoreStatus h hid]
  decide

/-- The copy went into a device or a pipe: the row is marked restored, and the path still names that. -/
theorem intoSpecial_of_copied {st : LinkedState} {pf : ProtectedFile} (h : RestoreStart io st pf b content)
    (hvalid : validRestorePath pf.originalPath = true) (hstatOk : io.statOk = true)
    (hstat : (stat io.calls st.fs.tree pf.backupPath).isSome)
    (hcleared : clearedBy io pf.eventId pf.originalPath st.fs = some s)
    (hcopied : copyFileBy io.calls io.restored pf.backupPath pf.originalPath s = (some true, s'))
    (hspecial : lstat io.calls s.tree pf.originalPath = some .other) :
    IntoSpecial io st pf content ∧
      lstat io.calls (unlink io.calls s' pf.backupPath).2.tree pf.originalPath = some .other := by
  have hc := clearedBy_cleared h hvalid hcleared
  obtain ⟨loc, hloc, hother⟩ := Option.bind_eq_some_iff.1 hspecial
  rcases copyFileBy_cases io.calls io.restored pf.backupPath pf.originalPath s with
    ⟨hsame, htaken⟩ | ⟨loc', -, hloc', hkind, -⟩
  · rw [hcopied] at hsame htaken
    obtain rfl : s' = s := hsame
    obtain ⟨-, hopen, c, hsource, htransfer⟩ := htaken rfl
    obtain ⟨b', hb', hfile⟩ := Option.bind_eq_some_iff.1 hsource
    have hcontent : c = content := by
      rcases find_direct h.cwd h.backup hc hb' with rfl | hnone
      · rcases hc.found with hb | ⟨hgone, -⟩
        · have hsame := hb.node.symm.trans hfile
          cases hsame
          rfl
        · exact absurd hfile (hgone c)
      · rw [hfile] at hnone
        cases hnone
    subst hcontent
    refine ⟨⟨hvalid, ⟨hstatOk, hstat⟩, ⟨s', hcleared, hspecial, hsource⟩, hopen, htransfer⟩, ?_⟩
    rw [lstat_unlink hsource hloc, hother]
    rintro heq
    obtain rfl := Option.some.inj (hb'.symm.trans heq)
    rw [hfile] at hother
    cases hother
  · obtain rfl := Option.some.inj (hloc.symm.trans hloc')
    rw [hother] at hkind
    rcases hkind with hnone | ⟨c, hfile⟩
    · cases hnone
    · cases hfile

/-- When a restore returns, the preimage is there or the path holds its content, and the row is marked
restored in the second case only, exactly where the preimage was not written into a device or a pipe. -/
theorem lastCopy_kept_iff (io : RestoreIo) (st st' : LinkedState) (pf : ProtectedFile) (b : Loc)
    (content : Content) (h : RestoreStart io st pf b content) (hret : restoreOneBy io st pf = some st') :
    LastCopyKept io st pf b content st' ↔ ¬ IntoSpecial io st pf content := by
  have hpending : pf.restoreStatus = lit "pending" := h.pending pf h.row rfl
  unfold restoreOneBy at hret
  dsimp only at hret
  rw [if_neg (not_not.2 hpending)] at hret
  split at hret
  · next hbad =>
    cases hret
    refine iff_of_true ⟨.inl (.inl h.preimage.node), fun row hrow hid hmark => ?_⟩ fun hs => ?_
    · exact absurd hmark (not_marked_of_failed hrow hid)
    · rw [hs.valid, hs.stat.1] at hbad
      have hstat := hs.stat.2
      rw [Option.isSome_iff_ne_none] at hstat
      simp [hstat] at hbad
  · next hgood =>
    simp only [Bool.or_eq_true, Bool.not_eq_true', Option.isNone_iff_eq_none, not_or,
      Bool.not_eq_false] at hgood
    obtain ⟨⟨hvalid, hstatOk⟩, hstat⟩ := hgood
    split at hret
    · cases hret
    · next fs hcleared =>
      have hc := clearedBy_cleared h hvalid hcleared
      obtain ⟨hkept, hcopied⟩ := copyFileBy_restored h hvalid hc
      split at hret
      · cases hret
      · next fs' hfailed =>
        cases hret
        rw [hfailed] at hkept
        refine iff_of_true ⟨.inl hkept, fun row hrow hid hmark => ?_⟩ fun hs => ?_
        · exact absurd hmark (not_marked_of_failed hrow hid)
        · obtain ⟨-, -, ⟨fs'', hfs, hother, hsource⟩, hopen, htaken⟩ := hs
          obtain rfl := Option.some.inj (hcleared.symm.trans hfs)
          rw [copyFileBy_special hsource hother hopen, htaken] at hfailed
          cases hfailed
      · next fs' hdone =>
        cases hret
        rw [hdone] at hkept hcopied
        by_cases hspecial : lstat io.calls fs.tree pf.originalPath = some .other
        · obtain ⟨hinto, hstill⟩ := intoSpecial_of_copied h hvalid hstatOk
            (Option.isSome_iff_ne_none.2 hstat) hcleared hdone hspecial
          refine iff_of_false (fun hlast => ?_) (not_not.2 hinto)
          have hholds := hlast.marked
            { pf with restoreStatus := lit "restored", restoredAt := some io.calls.now }
            (List.mem_map.2 ⟨pf, h.row, if_pos rfl⟩) rfl rfl
          rw [hstill] at hholds
          cases hholds
        · refine iff_of_true ⟨.inr (hcopied rfl hspecial), fun _ _ _ _ => hcopied rfl hspecial⟩ fun hs => ?_
          obtain ⟨fs'', hfs, hother, -⟩ := hs.special
          obtain rfl := Option.some.inj (hcleared.symm.trans hfs)
          exact hspecial hother

/-- Where the last name of a path does not start with a dot, no name of its slots is one of the two
directories. -/
theorem Numbered.not_dots {parent name : CStr} {c : UInt8} (hc : c ≠ dot) (hname : slash ∉ c :: name)
    (h : Numbered (parent ++ slash :: c :: name) new) : endsInDots new = false := by
  obtain ⟨suffix, hsuffix, rfl⟩ := h
  have hlast : slash ∉ c :: (name ++ suffix) := by
    simp only [List.mem_cons, List.mem_append, not_or] at hname ⊢
    exact ⟨hname.1, hname.2, hsuffix⟩
  have hcomps : pathComponents (parent ++ slash :: c :: name ++ suffix) =
      pathComponents parent ++ [c :: (name ++ suffix)] := by
    rw [List.append_assoc, List.cons_append, List.cons_append, pathComponents_append_slash,
      pathComponents_name hlast (List.cons_ne_nil _ _)]
  unfold endsInDots
  rw [hcomps, List.getLast?_concat, show lit "." = [dot] by decide,
    show lit ".." = [dot, dot] by decide]
  simp [hc]

/-- A preimage outside of the quarantine is none of the slots' names, where no link is on the way there. -/
theorem slots_of_apart {made : Links} {eventId parent name : CStr} {c : UInt8}
    (hrow : PlainRow made eventId path) (hpath : path = parent ++ slash :: c :: name) (hc : c ≠ dot)
    (hname : slash ∉ c :: name) (hfits : (quarantineFor eventId path).length < pathMax)
    (hb : ¬ quarantineDir <+: b) (hnew : Numbered (quarantineFor eventId path) new) :
    entry lio made new ≠ some b ∧ find lio made new false ≠ some b := by
  have htexts := hrow.texts
  have hslot : slotBase eventId path = quarantineFor eventId path := snprintf_of_lt hfits
  rw [hslot] at htexts
  have hsplit : ∃ parent', quarantineFor eventId path = parent' ++ slash :: c :: name := by
    unfold quarantineFor
    rw [if_pos htexts.path_head, hpath]
    cases parent with
    | nil => exact ⟨quarantinePath ++ slash :: eventId, by simp⟩
    | cons d parent => exact ⟨quarantinePath ++ slash :: eventId ++ slash :: parent, by simp⟩
  obtain ⟨parent', hparent'⟩ := hsplit
  have hdots : endsInDots new = false := Numbered.not_dots hc hname (hparent' ▸ hnew)
  have hway : NoLinks made (wayTo new) := by
    rw [hnew.wayTo htexts, ← hslot]
    exact hrow.ways.slot
  have hbelow := hnew.below htexts
  constructor
  · intro hentry
    rw [← entry_eq (hnew.head htexts) (hnew.up htexts hdots) hway hentry] at hbelow
    exact hb hbelow
  · intro hfind
    rw [← find_eq (hnew.head htexts) (hnew.up htexts hdots) hway hfind] at hbelow
    exact hb hbelow

end

/-! ## A device at the path -/

/-- A tree with the preimage, and something at `/a/f`. -/
def copyLinks (n : LinkNode CStr Content) : Links where
  node loc :=
    if loc = [lit "a", lit "f"] then some n
    else if loc = [lit "bk", lit "f"] then some (.file (lit "good"))
    else if loc ∈ [[lit "a"], [lit "bk"]] then some .dir
    else none

/-- The row is pending. -/
def copyState (n : LinkNode CStr Content) : LinkedState where
  fs := ⟨copyLinks n, []⟩
  db := { Db.empty with protectedFiles := [sampleRow (lit "e") (lit "/a/f")] }
  total := 0
  success := 0
  fail := 0
  deleted := 0
  deleteFailed := 0

/-- The quarantine is on another file system, and the transfers are short or interrupted. -/
def copyIo : RestoreIo where
  calls := { sampleIo with renameOk := fun _ _ => false }
  mkdirAgain _ := true
  statOk := true
  lstatOk _ := true
  moved := ⟨true, true, [.count 2, .interrupted, .count 1, .count 1, .count 9, .count 9, .count 0]⟩
  restored := ⟨true, true, [.interrupted, .count 3, .count 2, .count 4, .count 9, .count 9, .count 0]⟩

example : direct copyIo.calls (copyLinks .other) (lit "/bk//f") = some [lit "bk", lit "f"] := by decide

theorem copyLinks_noLinks {n : LinkNode CStr Content} (hn : ∀ absolute target, n ≠ .link absolute target)
    (way : List (PathStep CStr)) : NoLinks (copyLinks n) way := by
  intro pre _ absolute target
  unfold LinkTree.lookup copyLinks
  dsimp only
  split_ifs
  · exact nofun
  · exact fun h => hn absolute target (Option.some.inj h)
  all_goals exact nofun

theorem copyStart {n : LinkNode CStr Content} (hn : ∀ absolute target, n ≠ .link absolute target)
    (hbackup : direct copyIo.calls (copyLinks n) (lit "/bk/f") = some [lit "bk", lit "f"]) :
    RestoreStart copyIo (copyState n) (sampleRow (lit "e") (lit "/a/f")) [lit "bk", lit "f"] (lit "good") where
  row := List.mem_singleton.2 rfl
  pending row hrow _ := by
    rw [List.mem_singleton.1 hrow]
    rfl
  preimage := by
    refine ⟨rfl, nofun, fun p hp hne => ?_⟩
    rcases List.prefix_cons_iff.1 hp with rfl | ⟨rest, rfl, hrest⟩
    · rfl
    · rcases List.prefix_cons_iff.1 hrest with rfl | ⟨rest', rfl, hrest'⟩
      · rfl
      · rw [List.prefix_nil.1 hrest'] at hne
        exact absurd rfl hne
  backup := hbackup
  cwd p hp := by
    rw [List.prefix_nil.1 hp]
    rfl
  path := copyLinks_noLinks hn _
  apart := by decide
  slots new hnew := by
    have hmade : MadeDirs (copyLinks n) (slotMade copyIo (copyState n).fs (sampleRow (lit "e") (lit "/a/f"))) :=
      mkdirP_madeDirs _
    have hrow : PlainRow (slotMade copyIo (copyState n).fs (sampleRow (lit "e") (lit "/a/f"))) (lit "e")
        (lit "/a/f") :=
      ⟨⟨hmade.noLinks (copyLinks_noLinks hn _), hmade.noLinks (copyLinks_noLinks hn _)⟩,
        by decide, by decide⟩
    have hpath : lit "/a/f" = lit "/a" ++ slash :: 102 :: [] := by decide
    exact slots_of_apart hrow hpath (by decide) (by decide) (by decide) (by decide) hnew

/-- A file at the path is copied to the quarantine, and the preimage back. -/
theorem lastCopy_kept_sample : ∃ st', restoreOneBy copyIo (copyState (.file (lit "new")))
      (sampleRow (lit "e") (lit "/a/f")) = some st' ∧
    LastCopyKept copyIo (copyState (.file (lit "new"))) (sampleRow (lit "e") (lit "/a/f"))
      [lit "bk", lit "f"] (lit "good") st' := by
  obtain ⟨st', hret⟩ := Option.isSome_iff_exists.1 (show (restoreOneBy copyIo
    (copyState (.file (lit "new"))) (sampleRow (lit "e") (lit "/a/f"))).isSome = true by decide +kernel)
  refine ⟨st', hret, (lastCopy_kept_iff _ _ _ _ _ _
    (copyStart (n := .file (lit "new")) nofun (by decide)) hret).2 fun hs => ?_⟩
  obtain ⟨fs, hfs, hother, -⟩ := hs.special
  have hfile : (clearedBy copyIo (lit "e") (lit "/a/f") (copyState (.file (lit "new"))).fs).any
      (fun fs => lstat copyIo.calls fs.tree (lit "/a/f") = some .other) = false := by decide +kernel
  have hany : (some fs).any (fun fs => lstat copyIo.calls fs.tree (lit "/a/f") = some .other) = true :=
    decide_eq_true hother
  rw [← show clearedBy copyIo (lit "e") (lit "/a/f") (copyState (.file (lit "new"))).fs = some fs from hfs,
    hfile] at hany
  cases hany

/-- A device at the path that cannot be moved takes the preimage. -/
theorem lastCopy_not_kept : ¬ ∀ (io : RestoreIo) (st st' : LinkedState) (pf : ProtectedFile) (b : Loc)
    (content : Content), RestoreStart io st pf b content → restoreOneBy io st pf = some st' →
      LastCopyKept io st pf b content st' := by
  intro h
  obtain ⟨st', hret⟩ := Option.isSome_iff_exists.1 (show (restoreOneBy copyIo (copyState .other)
    (sampleRow (lit "e") (lit "/a/f"))).isSome = true by decide +kernel)
  have hkept := h _ _ _ _ _ _ (copyStart (n := .other) nofun (by decide)) hret
  have hrun : (restoreOneBy copyIo (copyState .other) (sampleRow (lit "e") (lit "/a/f"))).all (fun st' =>
      (st'.db.protectedFiles.any fun row => row.id = 1 && row.restoreStatus = lit "restored") &&
        lstat copyIo.calls st'.fs.tree (lit "/a/f") ≠ some (.file (lit "good"))) = true := by decide +kernel
  rw [hret, Option.all_some, Bool.and_eq_true, List.any_eq_true] at hrun
  obtain ⟨⟨row, hrow, hmarked⟩, hpath⟩ := hrun
  simp only [Bool.and_eq_true, decide_eq_true_eq] at hmarked hpath
  exact hpath (hkept.marked row hrow hmarked.1 hmarked.2)

end Linked

end GfrGuard
