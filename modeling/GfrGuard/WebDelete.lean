import GfrGuard.QuarantineKept
import GfrGuard.SharedBlocked
import GfrGuard.WebRestore

/-!
# Deleting from the quarantine

`delete_quarantine_files` of the web interface removes the files of a request from the quarantine of
an event, and then the directories that are left empty. It looks at the text of the event and of each
path. Where no link stands for a directory on a way to one of them, it takes away nothing but the files
of the request and empty directories, all of them in the quarantine, and its answer counts the files
(`web_delete_confined`). A link that came to the quarantine in the place of a directory is followed
(`web_delete_not_confined`).
-/

namespace GfrGuard

namespace Linked

open LinkTree

/-! ## The endpoint -/

/-- A directory that `os.walk` yields, by its place below the one it starts from, with the names of the
directories in it and of the links to directories. -/
structure WalkEntry where
  rel : Loc
  dirs : List CStr
  /-- There is something else in it. -/
  files : Bool

/-- What decides a request besides the tree. -/
structure DeleteIo extends WebIo where
  /-- `not os.listdir(path)`; none where it fails. -/
  listsNothing : Links → CStr → Option Bool

/-- The path of a file of the request, `os.path.join`. -/
def requested (eventId fpath : CStr) : CStr := eventPath eventId ++ slash :: (pyStrip fpath).dropWhile (· = slash)

/-- The tree and the counters of a request. -/
structure DeleteState where
  fs : Traced
  deleted : Nat
  failed : Nat

section
variable (io : DeleteIo)

/-- `os.path.isfile`. -/
def isFile (t : Links) (path : CStr) : Bool := (stat io.calls t path).any isRegular

/-- The body of the loop: a path of the request. -/
def deleteFile (eventId : CStr) (s : DeleteState) (fpath : CStr) : DeleteState :=
  if pyStrip fpath = [] ∨ lit ".." <:+: pyStrip fpath then { s with failed := s.failed + 1 }
  else if isFile io s.fs.tree (requested eventId fpath) then
    match unlink io.calls s.fs (requested eventId fpath) with
    | (true, fs) => { s with fs := fs, deleted := s.deleted + 1 }
    | (false, fs) => { s with fs := fs, failed := s.failed + 1 }
  else { s with failed := s.failed + 1 }

/-- `os.rmdir` of a directory that lists nothing. Here and below the flag is false after an exception. -/
def removeIfEmpty (s : Traced) (path : CStr) : Bool × Traced :=
  if isDir io.toWebIo s.tree path then
    match io.listsNothing s.tree path with
    | none => (false, s)
    | some true => rmdir io.calls s path
    | some false => (true, s)
  else (true, s)

/-- One call after the other, up to the first exception. -/
def untilFailure {α : Type} (call : Traced → α → Bool × Traced) : Traced → List α → Bool × Traced
  | s, [] => (true, s)
  | s, a :: rest =>
    match call s a with
    | (false, s) => (false, s)
    | (true, s) => untilFailure call s rest

/-- The body of the loop over the walk. -/
def cleanEntry (path : CStr) (s : Traced) (e : WalkEntry) : Bool × Traced :=
  if e.files then (true, s)
  else if e.dirs = [] then rmdir io.calls s (below path e.rel)
  else untilFailure (removeIfEmpty io) s (e.dirs.map fun d => below path (e.rel ++ [d]))

/-- `_remove_empty_dirs`, whose exceptions the request ignores. -/
def removeEmptyDirs (path : CStr) (walk : List WalkEntry) (s : Traced) : Traced :=
  if isDir io.toWebIo s.tree path then
    match untilFailure (cleanEntry io path) s walk with
    | (false, s) => s
    | (true, s) => (removeIfEmpty io s path).2
  else s

/-- `delete_quarantine_files`. -/
def deleteQuarantineFiles (eventId : CStr) (files : List CStr) (walk : List WalkEntry) (s : Traced) :
    WebReply × Traced :=
  let eventId := pyStrip eventId
  if eventId = [] ∨ files = [] ∨ slash ∈ eventId ∨ lit ".." <:+: eventId ∨ lit ";" <:+: eventId then (.badRequest, s)
  else if !isDir io.toWebIo s.tree (eventPath eventId) then (.notFound, s)
  else
    let d := files.foldl (deleteFile io eventId) ⟨s, 0, 0⟩
    (.ok d.deleted d.failed files.length, removeEmptyDirs io (eventPath eventId) walk d.fs)

end

/-- No link stands for a directory where a request leads. -/
structure PlainRequest (t : Links) (eventId : CStr) (files : List CStr) (walk : List WalkEntry) : Prop where
  event : NoLinks t (pathSteps (eventPath eventId))
  way : ∀ f ∈ files, NoLinks t (wayTo (requested eventId f))
  /-- `os.walk` follows no links. -/
  walked : ∀ e ∈ walk, NoLinks t (pathSteps (below (eventPath eventId) e.rel))
  names : ∀ e ∈ walk, ∀ name ∈ e.rel ++ e.dirs, FileName name

/-- A file of the request, or a link to one. -/
def FileOf (eventId : CStr) (files : List CStr) (x : Links × Loc) : Prop :=
  x.1.lookup x.2 ≠ some .dir ∧ ∃ f ∈ files, x.2 = literalLoc (requested eventId f)

/-- An empty directory of the event. -/
def EmptyDirOf (eventId : CStr) (x : Links × Loc) : Prop :=
  literalLoc (eventPath eventId) <+: x.2 ∧ x.1.lookup x.2 = some .dir ∧
    ∀ name rest, x.1.node (x.2 ++ name :: rest) = none

/-- Only what is allowed is taken away, and no link comes to any way. -/
structure Takes (P : Links × Loc → Prop) (s s' : Traced) (gone : List (Links × Loc)) : Prop where
  log : s'.log = s.log ++ gone
  allowed : ∀ x ∈ gone, P x
  links : ∀ way, NoLinks s.tree way → NoLinks s'.tree way
  other : ∀ loc, (∀ x ∈ gone, x.2 ≠ loc) → s'.tree.lookup loc = s.tree.lookup loc

section
variable {io : DeleteIo} {calls : LinkedIo} {P : Links × Loc → Prop} {s s' s'' : Traced} {gone gone' : List (Links × Loc)}
  {loc : Loc} {path eventId fpath : CStr} {files : List CStr} {walk : List WalkEntry} {t : Links}

/-! ## What is taken away -/

theorem Takes.refl (P : Links × Loc → Prop) (s : Traced) : Takes P s s [] :=
  ⟨(List.append_nil _).symm, fun _ hx => absurd hx List.not_mem_nil, fun _ h => h, fun _ _ => rfl⟩

theorem Takes.trans (h : Takes P s s' gone) (h' : Takes P s' s'' gone') : Takes P s s'' (gone ++ gone') where
  log := by rw [h'.log, h.log, List.append_assoc]
  allowed x hx := (List.mem_append.1 hx).elim (h.allowed x) (h'.allowed x)
  links way hway := h'.links way (h.links way hway)
  other loc hloc :=
    (h'.other loc fun x hx => hloc x (List.mem_append_right _ hx)).trans
      (h.other loc fun x hx => hloc x (List.mem_append_left _ hx))

theorem Takes.remove (h : P (s.tree, loc)) : Takes P s (s.change [loc] (remove s.tree loc)) [(s.tree, loc)] where
  log := rfl
  allowed _ hx := List.mem_singleton.1 hx ▸ h
  links _ hway := noLinks_remove hway loc
  other _ hp := lookup_remove_of_ne (hp (s.tree, loc) List.mem_cons_self).symm

/-! ## The paths -/

/-- A text without two dots in a row has no component that leads upwards. -/
theorem up_not_mem_of_dots {text : CStr} (h : ¬ lit ".." <:+: text) : .up ∉ pathSteps text := by
  refine up_not_mem_pathSteps.2 fun hmem => h ?_
  obtain ⟨a, b, htext, -⟩ := SepText.exists_of_mem_components hmem
  exact ⟨a, b, htext.symm⟩

theorem pathSteps_eventPath (eventId : CStr) : pathSteps (eventPath eventId) = pathSteps quarantinePath ++ pathSteps eventId :=
  pathSteps_append_slash _ _

theorem up_not_mem_eventPath (h : ¬ lit ".." <:+: eventId) : .up ∉ pathSteps (eventPath eventId) := by
  rw [pathSteps_eventPath, List.mem_append, not_or]
  exact ⟨by decide, up_not_mem_of_dots h⟩

theorem quarantineDir_isPrefix (eventId rest : CStr) : quarantineDir <+: literalLoc (eventPath eventId ++ slash :: rest) := by
  rw [← spelled_pathSteps, pathSteps_append_slash, pathSteps_eventPath, List.append_assoc]
  exact spelled_isPrefix (List.prefix_append _ _)

/-- The entry of a path of the request is the place it spells. -/
theorem entry_requested (heventId : ¬ lit ".." <:+: eventId) (hdots : ¬ lit ".." <:+: pyStrip fpath)
    (hway : NoLinks t (wayTo (requested eventId fpath))) (h : entry calls t (requested eventId fpath) = some loc) :
    loc = literalLoc (requested eventId fpath) := by
  refine entry_eq rfl (up_not_mem_walkSteps_of_pathSteps ?_) hway h
  rw [requested, pathSteps_append_slash, List.mem_append, not_or]
  refine ⟨up_not_mem_eventPath heventId, up_not_mem_of_dots fun hinfix => hdots ?_⟩
  exact hinfix.trans (List.dropWhile_suffix _).isInfix

theorem noLinks_wayTo (hslash : slash ∈ path) (h : NoLinks t (pathSteps path)) : NoLinks t (wayTo path) := by
  obtain ⟨step, -, -, hsame | hsame⟩ := walkSteps_eq hslash
  · rwa [hsame] at h
  · exact h.of_isPrefix (hsame ▸ List.prefix_append _ _)

/-- A path of the event that the cleaning may ask for. -/
structure OwnPath (eventId target : CStr) : Prop where
  head : target.head? = some slash
  up : .up ∉ pathSteps target
  below : literalLoc (eventPath eventId) <+: literalLoc target

theorem OwnPath.event (h : ¬ lit ".." <:+: eventId) : OwnPath eventId (eventPath eventId) :=
  ⟨rfl, up_not_mem_eventPath h, List.prefix_refl _⟩

theorem OwnPath.names (h : ¬ lit ".." <:+: eventId) {rel : Loc} (hrel : ∀ name ∈ rel, FileName name) :
    OwnPath eventId (Linked.below (eventPath eventId) rel) := by
  have hsteps : pathSteps (Linked.below (eventPath eventId) rel) = pathSteps (eventPath eventId) ++ rel.map pathStep := by
    unfold pathSteps
    rw [pathComponents_below _ hrel, List.map_append]
  refine ⟨rfl, ?_, ?_⟩
  · rw [hsteps, List.mem_append, not_or]
    refine ⟨up_not_mem_eventPath h, fun hmem => ?_⟩
    obtain ⟨name, hname, hup⟩ := List.mem_map.1 hmem
    exact (hrel name hname).up (pathStep_eq_up.1 hup)
  · rw [← spelled_pathSteps, ← spelled_pathSteps, hsteps]
    exact spelled_isPrefix (List.prefix_append _ _)

/-! ## The files -/

/-- A path of the request: its file is taken away and counted, or nothing is. -/
theorem deleteFile_takes (io : DeleteIo) {d : DeleteState} (heventId : ¬ lit ".." <:+: eventId) (hmem : fpath ∈ files)
    (hway : NoLinks d.fs.tree (wayTo (requested eventId fpath))) :
    ∃ gone, Takes (FileOf eventId files) d.fs (deleteFile io eventId d fpath).fs gone ∧
      (deleteFile io eventId d fpath).deleted = d.deleted + gone.length ∧
      (deleteFile io eventId d fpath).deleted + (deleteFile io eventId d fpath).failed = d.deleted + d.failed + 1 := by
  unfold deleteFile
  split_ifs with hdots hfile
  · exact ⟨[], .refl _ _, rfl, rfl⟩
  · rcases unlink_outcome io.calls d.fs (requested eventId fpath) with hnone | ⟨loc, -, hentry, hdir, hgone⟩
    · rw [hnone]
      exact ⟨[], .refl _ _, rfl, rfl⟩
    · rw [hgone]
      have hloc := entry_requested heventId (fun h => hdots (.inr h)) hway hentry
      exact ⟨[(d.fs.tree, loc)], .remove ⟨hdir, fpath, hmem, hloc⟩, rfl, Nat.add_right_comm _ _ _⟩
  · exact ⟨[], .refl _ _, rfl, rfl⟩

theorem deleteFiles_takes (io : DeleteIo) {l : List CStr} {d : DeleteState} (heventId : ¬ lit ".." <:+: eventId)
    (hl : l ⊆ files) (hways : ∀ f ∈ files, NoLinks d.fs.tree (wayTo (requested eventId f))) :
    ∃ gone, Takes (FileOf eventId files) d.fs (l.foldl (deleteFile io eventId) d).fs gone ∧
      (l.foldl (deleteFile io eventId) d).deleted = d.deleted + gone.length ∧
      (l.foldl (deleteFile io eventId) d).deleted + (l.foldl (deleteFile io eventId) d).failed =
        d.deleted + d.failed + l.length := by
  induction l generalizing d with
  | nil => exact ⟨[], .refl _ _, rfl, rfl⟩
  | cons f l ih =>
    have hmem := hl List.mem_cons_self
    obtain ⟨gone, htakes, hdeleted, hcounts⟩ := deleteFile_takes io heventId hmem (hways f hmem)
    obtain ⟨gone', htakes', hdeleted', hcounts'⟩ :=
      ih (d := deleteFile io eventId d f) (fun _ h => hl (List.mem_cons_of_mem _ h))
        fun f' hf' => htakes.links _ (hways f' hf')
    rw [List.foldl_cons]
    refine ⟨gone ++ gone', htakes.trans htakes', ?_, ?_⟩
    · rw [hdeleted', hdeleted, List.length_append, Nat.add_assoc]
    · rw [hcounts', hcounts, List.length_cons]
      omega

/-! ## The directories -/

theorem rmdir_takes {target : CStr} (htarget : OwnPath eventId target) (hway : NoLinks s.tree (wayTo target)) :
    ∃ gone, Takes (EmptyDirOf eventId) s (rmdir calls s target).2 gone := by
  rcases rmdir_outcome calls s target with hnone | ⟨loc, hentry, hdir, hempty, hgone⟩
  · rw [hnone]
    exact ⟨[], .refl _ _⟩
  · rw [hgone]
    have hloc := entry_eq htarget.head (up_not_mem_walkSteps_of_pathSteps htarget.up) hway hentry
    exact ⟨[(s.tree, loc)], .remove ⟨hloc ▸ htarget.below, hdir, hempty⟩⟩

theorem removeIfEmpty_takes (io : DeleteIo) {target : CStr} (htarget : OwnPath eventId target)
    (hway : NoLinks s.tree (wayTo target)) :
    ∃ gone, Takes (EmptyDirOf eventId) s (removeIfEmpty io s target).2 gone := by
  unfold removeIfEmpty
  split
  · split
    · exact ⟨[], .refl _ _⟩
    · exact rmdir_takes htarget hway
    · exact ⟨[], .refl _ _⟩
  · exact ⟨[], .refl _ _⟩

/-- What holds of each call in a state with the links of the first holds of them all. -/
theorem untilFailure_takes {α : Type} (call : Traced → α → Bool × Traced) {l : List α}
    (hcall : ∀ s', (∀ way, NoLinks s.tree way → NoLinks s'.tree way) → ∀ a ∈ l, ∃ gone, Takes P s' (call s' a).2 gone) :
    ∃ gone, Takes P s (untilFailure call s l).2 gone := by
  induction l generalizing s with
  | nil => exact ⟨[], .refl _ _⟩
  | cons a l ih =>
    obtain ⟨gone, htakes⟩ := hcall s (fun _ h => h) a List.mem_cons_self
    unfold untilFailure
    generalize call s a = r at htakes
    obtain ⟨_ | _, s₁⟩ := r
    · exact ⟨gone, htakes⟩
    · obtain ⟨gone', htakes'⟩ := ih fun s' hs' a' ha' =>
        hcall s' (fun way hway => hs' way (htakes.links way hway)) a' (List.mem_cons_of_mem _ ha')
      exact ⟨gone ++ gone', htakes.trans htakes'⟩

theorem cleanEntry_takes {e : WalkEntry} (heventId : ¬ lit ".." <:+: eventId)
    (hnames : ∀ name ∈ e.rel ++ e.dirs, FileName name)
    (hway : NoLinks s.tree (pathSteps (below (eventPath eventId) e.rel))) :
    ∃ gone, Takes (EmptyDirOf eventId) s (cleanEntry io (eventPath eventId) s e).2 gone := by
  have hrel : ∀ name ∈ e.rel, FileName name := fun name h => hnames name (List.mem_append_left _ h)
  unfold cleanEntry
  split
  · exact ⟨[], .refl _ _⟩
  · split
    · exact rmdir_takes (.names heventId hrel) (noLinks_wayTo (slash_mem_of_head rfl) hway)
    · refine untilFailure_takes _ fun s' hs' target htarget => ?_
      obtain ⟨name, hname, rfl⟩ := List.mem_map.1 htarget
      have hfile := hnames name (List.mem_append_right _ hname)
      refine removeIfEmpty_takes io (.names heventId fun c hc => ?_) ?_
      · rcases List.mem_append.1 hc with hc | hc
        · exact hrel c hc
        · exact List.mem_singleton.1 hc ▸ hfile
      · rw [wayTo, below_concat, parentPath_append _ hfile.slash]
        exact hs' _ hway

theorem removeEmptyDirs_takes (io : DeleteIo) (heventId : ¬ lit ".." <:+: eventId)
    (hplain : PlainRequest s.tree eventId files walk) :
    ∃ gone, Takes (EmptyDirOf eventId) s (removeEmptyDirs io (eventPath eventId) walk s) gone := by
  unfold removeEmptyDirs
  split
  · obtain ⟨gone, htakes⟩ := untilFailure_takes (P := EmptyDirOf eventId) (cleanEntry io (eventPath eventId))
      fun s' hs' e he => cleanEntry_takes heventId (hplain.names e he) (hs' _ (hplain.walked e he))
    generalize untilFailure (cleanEntry io (eventPath eventId)) s walk = r at htakes
    obtain ⟨_ | _, s₁⟩ := r
    · exact ⟨gone, htakes⟩
    · obtain ⟨gone', htakes'⟩ := removeIfEmpty_takes io (.event heventId)
        (noLinks_wayTo (slash_mem_of_head rfl) (htakes.links _ hplain.event))
      exact ⟨gone ++ gone', htakes.trans htakes'⟩
  · exact ⟨[], .refl _ _⟩

/-! ## The request -/

/-- A request that is answered with its counters takes away as many files as it counts, all of them its own,
then empty directories, and nothing else; all of it was in the quarantine. -/
theorem web_delete_confined (io : DeleteIo) (eventId : CStr) (files : List CStr) (walk : List WalkEntry) (s s' : Traced)
    (deleted failed total : Nat) (hplain : PlainRequest s.tree (pyStrip eventId) files walk)
    (h : deleteQuarantineFiles io eventId files walk s = (.ok deleted failed total, s')) :
    deleted + failed = total ∧ total = files.length ∧
      ∃ gone dirs, s'.log = s.log ++ gone ++ dirs ∧ gone.length = deleted ∧
        (∀ x ∈ gone, FileOf (pyStrip eventId) files x) ∧ (∀ x ∈ dirs, EmptyDirOf (pyStrip eventId) x) ∧
        (∀ x ∈ gone ++ dirs, quarantineDir <+: x.2) ∧
        ∀ loc, (∀ x ∈ gone ++ dirs, x.2 ≠ loc) → s'.tree.lookup loc = s.tree.lookup loc := by
  unfold deleteQuarantineFiles at h
  dsimp only at h
  split at h
  · cases h
  · next hid =>
    simp only [not_or] at hid
    split at h
    · cases h
    · obtain ⟨gone, htakes, hdeleted, hcounts⟩ := deleteFiles_takes io (l := files) (d := ⟨s, 0, 0⟩)
        hid.2.2.2.1 (List.Subset.refl _) hplain.way
      generalize files.foldl (deleteFile io (pyStrip eventId)) ⟨s, 0, 0⟩ = d at h htakes hdeleted hcounts
      dsimp only at hdeleted hcounts
      cases h
      have hplain' : PlainRequest d.fs.tree (pyStrip eventId) files walk :=
        ⟨htakes.links _ hplain.event, fun f hf => htakes.links _ (hplain.way f hf),
          fun e he => htakes.links _ (hplain.walked e he), hplain.names⟩
      obtain ⟨dirs, htakes'⟩ := removeEmptyDirs_takes io hid.2.2.2.1 hplain'
      refine ⟨by omega, rfl, gone, dirs, ?_, by omega, htakes.allowed, htakes'.allowed, fun x hx => ?_, fun loc hloc => ?_⟩
      · rw [htakes'.log, htakes.log]
      · rcases List.mem_append.1 hx with hx | hx
        · obtain ⟨-, f, -, hplace⟩ := htakes.allowed x hx
          rw [hplace]
          exact quarantineDir_isPrefix _ _
        · refine List.IsPrefix.trans ?_ (htakes'.allowed x hx).1
          rw [← spelled_pathSteps, pathSteps_eventPath]
          exact spelled_isPrefix (List.prefix_append _ _)
      · exact (htakes'.other loc fun x hx => hloc x (List.mem_append_right _ hx)).trans
          (htakes.other loc fun x hx => hloc x (List.mem_append_left _ hx))

end

/-! ## A link in the quarantine -/

/-- No call fails but those that remove directories. -/
def deleteIo : DeleteIo where
  calls := sampleIo
  read _ := none
  write _ := true
  statOk := true
  listsNothing _ _ := some false

/-- The quarantine of the event `e` with a file and something that was at `/home`, and the password file. -/
def keptLinks (home : LinkNode CStr Content) : Links where
  node loc :=
    if loc = quarantineLoc (lit "e") ++ [lit "home"] then some home
    else if loc = quarantineLoc (lit "e") ++ [lit "f"] then some (.file (lit "bad"))
    else if loc = [lit "etc", lit "passwd"] then some (.file (lit "root"))
    else if loc = [lit "etc"] ∨ loc <+: quarantineLoc (lit "e") then some .dir
    else none

/-- No link stands anywhere. -/
theorem keptLinks_noLinks (way : List (PathStep CStr)) : NoLinks (keptLinks .dir) way := by
  intro pre _ absolute target
  unfold LinkTree.lookup keptLinks
  dsimp only
  split_ifs <;> exact nofun

/-- A file of the event, and a path that leads out of it. -/
theorem web_delete_confined_sample : ∃ gone,
    (deleteQuarantineFiles deleteIo (lit "e") [lit "/f", lit "../f"] [] ⟨keptLinks .dir, []⟩).2.log = gone ∧
      ∀ x ∈ gone, quarantineDir <+: x.2 := by
  have hplain : PlainRequest (keptLinks .dir) (pyStrip (lit "e")) [lit "/f", lit "../f"] [] :=
    ⟨keptLinks_noLinks _, fun _ _ => keptLinks_noLinks _, fun _ h => absurd h List.not_mem_nil,
      fun _ h => absurd h List.not_mem_nil⟩
  have hreply : (deleteQuarantineFiles deleteIo (lit "e") [lit "/f", lit "../f"] [] ⟨keptLinks .dir, []⟩).1 = .ok 1 1 2 := by
    decide +kernel
  obtain ⟨-, -, gone, dirs, hlog, -, -, -, hbelow, -⟩ := web_delete_confined deleteIo (lit "e") [lit "/f", lit "../f"] []
    ⟨keptLinks .dir, []⟩ _ 1 1 2 hplain (Prod.ext hreply rfl)
  exact ⟨gone ++ dirs, hlog, hbelow⟩

/-- With a link to `/etc` in the quarantine a request takes the password file away. -/
theorem web_delete_not_confined :
    (deleteQuarantineFiles deleteIo (lit "e") [lit "home/passwd"] []
      ⟨keptLinks (.link true [.name (lit "etc")]), []⟩).2.log.map Prod.snd = [[lit "etc", lit "passwd"]] := by
  decide +kernel

end Linked

end GfrGuard
