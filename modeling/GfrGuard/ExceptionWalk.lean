import GfrGuard.HashTable
import GfrGuard.Persist

/-!
# The walk over the folders of a path

`scorer_is_excepted` looks the path up in the excepted files, compares it with each as a
suffix, and then walks a cursor back over the path, looking up what lies before it at each
slash in the excepted folders. Here the walk is the loop of the source, with fuel, over the
hashed arrays. It ends for every path (`folderWalk_spec`), gives what the list model gives
(`scorerIsExceptedRun_eq`), and excepts exactly the paths that the lists name at a component
boundary (`exception_matching_iff`).
-/

namespace GfrGuard

/-- `while (cursor > file_path && *cursor != '/') cursor--`. -/
def backUp (path : CStr) : (cursor : Nat) → Nat
  | 0 => 0
  | cursor + 1 => if path[cursor + 1]? = some slash then cursor + 1 else backUp path cursor

/-- The loop over the folders of a path; it has no answer when it runs out of fuel. -/
def folderWalk (path : CStr) (folders : HashTable (CBuf 2048)) : (fuel cursor : Nat) → Option Bool
  | 0, _ => none
  | fuel + 1, cursor =>
    if cursor = 0 then some false
    else if cursor ≠ path.length ∧ path[cursor]? ≠ some slash then
      folderWalk path folders fuel (backUp path cursor)
    else
      (rguardHashLookupLen path cursor folders).bind fun found =>
        if found then some true else folderWalk path folders fuel (backUp path (cursor - 1))

/-- `scorer_is_excepted`, over the arrays of the policy. -/
def scorerIsExceptedRun (p : Policy) (path : CStr) : Option Bool :=
  if path = [] then some false
  else
    (rguardHashLookup path (rowHashes p.exceptions.files.entries)).bind fun found =>
      if found then some true
      else if p.exceptions.files.strs.any (suffixExcepted path) then some true
      else if 0 < p.exceptions.folders.entries.length then
        folderWalk path (rowHashes p.exceptions.folders.entries) (path.length + 1) path.length
      else some false

/-- A file excepts a path that it is, or that it follows a slash of. -/
def FileExcepts (f path : CStr) : Prop := f ≠ [] ∧ (f = path ∨ ∃ above, path = above ++ slash :: f)

/-- A folder excepts a path that it is, or that it comes before a slash of. -/
def FolderExcepts (f path : CStr) : Prop := f ≠ [] ∧ (f = path ∨ ∃ below, path = f ++ slash :: below)

/-- A file or a folder of the lists excepts the path. -/
def ExceptedIn (files folders : List CStr) (path : CStr) : Prop :=
  (∃ f ∈ files, FileExcepts f path) ∨ ∃ f ∈ folders, FolderExcepts f path

/-- The lists of a policy except the path. -/
def ExceptedBy (ex : Exceptions) (path : CStr) : Prop := ExceptedIn ex.files.strs ex.folders.strs path

section
variable {path : CStr}

/-! ## The cursor -/

theorem backUp_le (cursor : Nat) : backUp path cursor ≤ cursor := by
  induction cursor with
  | zero => exact Nat.le_refl 0
  | succ cursor ih =>
    rw [backUp]
    split
    · exact Nat.le_refl _
    · exact Nat.le_succ_of_le ih

/-- The cursor moves unless it is at a slash. -/
theorem backUp_lt {cursor : Nat} (hpos : 0 < cursor) (h : path[cursor]? ≠ some slash) :
    backUp path cursor < cursor := by
  cases cursor with
  | zero => exact absurd hpos (Nat.lt_irrefl 0)
  | succ cursor =>
    rw [backUp, if_neg h]
    exact Nat.lt_succ_of_le (backUp_le cursor)

/-- The cursor passes over no slash. -/
theorem backUp_passes {cursor d : Nat} (hlt : backUp path cursor < d) (hle : d ≤ cursor) :
    path[d]? ≠ some slash := by
  induction cursor with
  | zero => omega
  | succ cursor ih =>
    rw [backUp] at hlt
    split at hlt
    · omega
    · next hne =>
      rcases Nat.eq_or_lt_of_le hle with rfl | hlt'
      · exact hne
      · exact ih hlt (Nat.le_of_lt_succ hlt')

/-- Where the walk looks a folder up: at the end of the path and at its slashes. -/
def Boundary (path : CStr) (d : Nat) : Prop := 0 < d ∧ (d = path.length ∨ path[d]? = some slash)

/-- The walk ends, and finds a folder exactly when some boundary up to the cursor has one. -/
theorem folderWalk_spec {folders : HashTable (CBuf 2048)} {found : Nat → Bool}
    (hfound : ∀ d ≤ path.length, rguardHashLookupLen path d folders = some (found d))
    {fuel cursor : Nat} (hfuel : cursor < fuel) (hcursor : cursor ≤ path.length) :
    ∃ b, folderWalk path folders fuel cursor = some b ∧
      (b = true ↔ ∃ d ≤ cursor, Boundary path d ∧ found d = true) := by
  induction fuel generalizing cursor with
  | zero => exact absurd hfuel (Nat.not_lt_zero cursor)
  | succ fuel ih =>
    rw [folderWalk]
    by_cases hzero : cursor = 0
    · rw [if_pos hzero]
      refine ⟨false, rfl, iff_of_false Bool.false_ne_true ?_⟩
      rintro ⟨d, hd, hbound, -⟩
      have := hbound.1
      omega
    rw [if_neg hzero]
    by_cases hskip : cursor ≠ path.length ∧ path[cursor]? ≠ some slash
    · -- between two slashes the cursor only moves
      have hlt := backUp_lt (Nat.pos_of_ne_zero hzero) hskip.2
      obtain ⟨b, hwalk, hb⟩ := ih (by omega : backUp path cursor < fuel) (by omega)
      rw [if_pos hskip]
      refine ⟨b, hwalk, hb.trans ⟨?_, ?_⟩⟩
      · rintro ⟨d, hd, h⟩
        exact ⟨d, by omega, h⟩
      · rintro ⟨d, hd, hbound, h⟩
        refine ⟨d, Nat.not_lt.1 fun hmore => ?_, hbound, h⟩
        rcases hbound.2 with hlen | hslash
        · omega
        · exact backUp_passes hmore hd hslash
    · have hboundary : Boundary path cursor := by
        refine ⟨Nat.pos_of_ne_zero hzero, ?_⟩
        by_contra hnot
        exact hskip (not_or.1 hnot)
      rw [if_neg hskip, hfound cursor hcursor, Option.bind_some]
      cases hhit : found cursor with
      | true => exact ⟨true, rfl, iff_of_true rfl ⟨cursor, Nat.le_refl _, hboundary, hhit⟩⟩
      | false =>
        have hle : backUp path (cursor - 1) ≤ cursor - 1 := backUp_le _
        obtain ⟨b, hwalk, hb⟩ := ih (by omega : backUp path (cursor - 1) < fuel) (by omega)
        rw [if_neg Bool.false_ne_true]
        refine ⟨b, hwalk, hb.trans ⟨?_, ?_⟩⟩
        · rintro ⟨d, hd, h⟩
          exact ⟨d, by omega, h⟩
        · rintro ⟨d, hd, hbound, h⟩
          have hne : d ≠ cursor := by
            rintro rfl
            rw [hhit] at h
            exact Bool.false_ne_true h
          refine ⟨d, Nat.not_lt.1 fun hmore => ?_, hbound, h⟩
          rcases hbound.2 with hlen | hslash
          · omega
          · exact backUp_passes hmore (by omega) hslash

/-! ## The lists -/

/-- What comes before a boundary is the path, or what comes before a slash of it. -/
theorem take_boundary_iff {f : CStr} :
    (∃ d ≤ path.length, Boundary path d ∧ path.take d = f) ↔
      f ≠ [] ∧ (f = path ∨ ∃ below, path = f ++ slash :: below) := by
  constructor
  · rintro ⟨d, hd, ⟨hpos, hend | hslash⟩, rfl⟩
    · refine ⟨?_, .inl (by rw [hend, List.take_length])⟩
      rw [Ne, List.take_eq_nil_iff]
      rintro (rfl | rfl)
      · exact Nat.lt_irrefl 0 hpos
      · exact Nat.not_lt.2 hd hpos
    · obtain ⟨hlt, hget⟩ := List.getElem?_eq_some_iff.1 hslash
      refine ⟨?_, .inr ⟨path.drop (d + 1), ?_⟩⟩
      · rw [Ne, List.take_eq_nil_iff]
        rintro (rfl | rfl)
        · exact Nat.lt_irrefl 0 hpos
        · exact Nat.not_lt.2 hd hpos
      · rw [← hget, List.getElem_cons_drop, List.take_append_drop]
  · rintro ⟨hne, rfl | ⟨below, rfl⟩⟩
    · exact ⟨f.length, Nat.le_refl _, ⟨List.length_pos_of_ne_nil hne, .inl rfl⟩, List.take_length⟩
    · refine ⟨f.length, by simp, ⟨List.length_pos_of_ne_nil hne, .inr ?_⟩, List.take_left⟩
      rw [List.getElem?_append_right (Nat.le_refl _), Nat.sub_self, List.getElem?_cons_zero]

/-- A file is a suffix at a boundary when what comes before it ends in a slash. -/
theorem suffixExcepted_iff {f : CStr} :
    suffixExcepted path f = true ↔ f ≠ [] ∧ ∃ above, path = above ++ slash :: f := by
  unfold suffixExcepted
  simp only [Bool.and_eq_true, decide_eq_true_eq]
  constructor
  · rintro ⟨⟨⟨hne, hlt⟩, hlast⟩, hdrop⟩
    obtain ⟨above, habove⟩ := List.getLast?_eq_some_iff.1 hlast
    refine ⟨hne, above, ?_⟩
    rw [← List.singleton_append, ← List.append_assoc, ← habove, ← hdrop, List.length_drop]
    have : path.length - (path.length - (path.length - f.length)) = path.length - f.length := by omega
    rw [this, List.take_append_drop]
  · rintro ⟨hne, above, rfl⟩
    have hlen : (above ++ slash :: f).length - f.length = (above ++ [slash]).length := by
      simp only [List.length_append, List.length_cons, List.length_nil]
      omega
    have hsplit : above ++ slash :: f = (above ++ [slash]) ++ f := by simp
    refine ⟨⟨⟨hne, by simp; omega⟩, ?_⟩, ?_⟩
    · rw [hlen, hsplit, List.take_left, List.getLast?_concat]
    · rw [hlen, hsplit, List.drop_left]

theorem mem_ancestorLengths {d : Nat} :
    d ∈ ancestorLengths path ↔ d ≤ path.length ∧ Boundary path d := by
  unfold ancestorLengths Boundary
  rw [List.mem_filter, List.mem_range, Nat.lt_succ_iff, Bool.and_eq_true, Bool.or_eq_true,
    decide_eq_true_iff, decide_eq_true_iff, decide_eq_true_iff]

end

section
variable {p : Policy} {path : CStr}

/-- The list model excepts the paths that the lists name at a component boundary. -/
theorem scorerIsExcepted_iff (hfiles : HashSorted p.exceptions.files.strs)
    (hfolders : HashSorted p.exceptions.folders.strs) (hpath : path ≠ []) :
    scorerIsExcepted p path = true ↔ ExceptedBy p.exceptions path := by
  unfold scorerIsExcepted ExceptedBy ExceptedIn FileExcepts FolderExcepts
  simp only [Bool.and_eq_true, Bool.or_eq_true, decide_eq_true_eq, List.any_eq_true,
    hashLookup_iff hfiles, suffixExcepted_iff]
  rw [and_iff_right hpath, and_iff_right hpath]
  refine or_congr ⟨?_, ?_⟩ ⟨?_, ?_⟩
  · rintro (hmem | ⟨f, hf, hne, habove⟩)
    · exact ⟨path, hmem, hpath, .inl rfl⟩
    · exact ⟨f, hf, hne, .inr habove⟩
  · rintro ⟨f, hf, hne, rfl | habove⟩
    · exact .inl hf
    · exact .inr ⟨f, hf, hne, habove⟩
  · rintro ⟨-, d, hd, hlookup⟩
    obtain ⟨hle, hbound⟩ := mem_ancestorLengths.1 hd
    exact ⟨path.take d, ((hashLookup_iff hfolders).1 hlookup).2,
      take_boundary_iff.1 ⟨d, hle, hbound, rfl⟩⟩
  · rintro ⟨f, hf, hbelow⟩
    obtain ⟨d, hle, hbound, htake⟩ := take_boundary_iff.2 hbelow
    refine ⟨List.ne_nil_of_mem hf, d, mem_ancestorLengths.2 ⟨hle, hbound⟩, ?_⟩
    unfold hashLookupLen
    rw [htake]
    exact (hashLookup_iff hfolders).2 ⟨hbelow.1, hf⟩

/-- The arrays of a sorted list are the arrays that `config_load` leaves. -/
theorem rowHashes_sorted {cap n : Nat} (l : StrList cap n) :
    rowHashes l.sorted.entries = loadHashed l.entries := by
  obtain ⟨-, hkeys, -⟩ := hash_lookup_linear l.entries
  rw [← loadHashed_entries]
  unfold rowHashes
  rw [← hkeys]

/-- The search ends for every path, with the answer of the list model. -/
theorem scorerIsExceptedRun_eq {files folders : StrList 64 2048}
    (hfiles : p.exceptions.files = files.sorted) (hfolders : p.exceptions.folders = folders.sorted) :
    scorerIsExceptedRun p path = some (scorerIsExcepted p path) := by
  unfold scorerIsExceptedRun scorerIsExcepted
  rw [hfiles, hfolders, rowHashes_sorted, rowHashes_sorted, rguardHashLookup_eq, Option.bind_some]
  obtain ⟨b, hwalk, hb⟩ := folderWalk_spec (fun d hd => rguardHashLookupLen_eq folders hd)
    (Nat.lt_succ_self path.length) (Nat.le_refl _)
  have hany : b = (ancestorLengths path).any (hashLookupLen path · folders.sorted.strs) := by
    rw [Bool.eq_iff_iff, hb, List.any_eq_true]
    simp only [mem_ancestorLengths, and_assoc]
  have hcount : 0 < folders.sorted.entries.length ↔ folders.sorted.strs ≠ [] := by
    unfold StrList.strs
    rw [List.length_pos_iff, Ne, Ne, List.map_eq_nil_iff]
  split
  · next hnil => simp [hnil]
  · next hne =>
    rw [decide_eq_true hne, Bool.true_and]
    cases hashLookup path files.sorted.strs with
    | true => rfl
    | false =>
      cases files.sorted.strs.any (suffixExcepted path) with
      | true => rfl
      | false =>
        by_cases hnone : folders.sorted.strs = []
        · rw [if_neg Bool.false_ne_true, if_neg Bool.false_ne_true, if_neg fun h => hcount.1 h hnone]
          simp [hnone]
        · rw [if_neg Bool.false_ne_true, if_neg Bool.false_ne_true, if_pos (hcount.2 hnone), hwalk, hany]
          simp [hnone]

/-- Under a loaded policy the search ends for every path, and excepts exactly the paths that
the lists name at a component boundary. -/
theorem exception_matching_iff {env : ConfigEnv} {texts : FileTexts} {config : CStr} {s : Settings}
    (hload : configLoad env texts config = some s) (hpath : path ≠ []) :
    ∃ b, scorerIsExceptedRun s.policy path = some b ∧
      (b = true ↔ ExceptedBy s.policy.exceptions path) := by
  obtain ⟨root, -, rfl, -⟩ := configLoad_eq_some.1 hload
  refine ⟨_, scorerIsExceptedRun_eq rfl rfl, ?_⟩
  exact scorerIsExcepted_iff (StrList.hashSorted_sorted _) (StrList.hashSorted_sorted _) hpath

end

/-- A policy that excepts the folder `/a`. -/
def folderText : CStr := lit "\x7b\"exceptions\":\x7b\"folders\":[\"/a\"]\x7d\x7d"

/-- Its document. -/
def folderDoc : Json := .obj [(lit "exceptions", .obj [(lit "folders", .arr [.str (lit "/a")])])]

theorem exception_matching_sample :
    scorerIsExceptedRun (docSettings folderText folderDoc).policy (lit "/a//b") = some true := by
  have hload : configLoad (docEnv folderText folderDoc) (sampleFiles folderText) samplePath =
      some (docSettings folderText folderDoc) := configLoad_doc (by decide) (by decide)
  obtain ⟨b, hrun, hb⟩ := exception_matching_iff hload (by decide : lit "/a//b" ≠ [])
  rw [hrun, hb.2 (.inr ⟨lit "/a", by decide, by decide, .inr ⟨lit "/b", by decide⟩⟩)]

end GfrGuard
