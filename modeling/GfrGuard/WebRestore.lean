import GfrGuard.RestoreJob

/-!
# Restoring from the quarantine

`restore_quarantine` of the web interface copies every file it finds in the quarantine of an event to
the path that its place there spells, and removes it. Where the calls succeed and the places are free
or files, each file comes to its place and nothing else but directories is made (`WroteBack`).
-/

namespace GfrGuard

namespace Linked

open LinkTree

/-! ## The endpoint -/

/-- What decides a request besides the tree. -/
structure WebIo where
  calls : LinkedIo
  /-- What reading a device gives; a pipe or a socket is refused. -/
  read : Loc → Option Content
  /-- A device takes what is written. -/
  write : Loc → Bool
  /-- `copystat`. -/
  statOk : Bool

/-- The path of a file below a directory, `os.path.join`. -/
def below (dir : CStr) (rel : Loc) : CStr := dir ++ rel.flatMap (slash :: ·)

/-- `os.path.dirname` of a path without a slash after another. -/
def dirname (path : CStr) : CStr := if Fs.parentPath path = [] then [slash] else Fs.parentPath path

/-- `os.path.basename` of a path without a slash at its end. -/
def basename (path : CStr) : CStr := (pathComponents path).getLast?.getD []

/-- The directory of an event. -/
def eventPath (eventId : CStr) : CStr := quarantinePath ++ slash :: eventId

section
variable (io : WebIo)

/-- `os.path.isdir`. -/
def isDir (t : Links) (path : CStr) : Bool := stat io.calls t path = some .dir

/-- `os.makedirs` with `exist_ok`. -/
def makedirs (s : Traced) (path : CStr) : Bool × Traced :=
  match mkdirAll io.calls s (pathSteps path).inits.tail with
  | (false, s) => (false, s)
  | (true, s) => (isDir io s.tree path, s)

/-- What reading a place gives. -/
def contentAt (t : Links) (loc : Loc) : Option Content :=
  match t.lookup loc with
  | some (.file content) => some content
  | some .other => io.read loc
  | _ => none

/-- `shutil.copy2`: a copy to a directory gets the name of the source there. Links are followed at both
ends. -/
def copy2 (s : Traced) (src dst : CStr) : Bool × Traced :=
  let dst := if isDir io s.tree dst then dst ++ slash :: basename src else dst
  match find io.calls s.tree src true, find io.calls s.tree dst true with
  | some source, some target =>
    match contentAt io s.tree source with
    | none => (false, s)
    | some content =>
      if source = target then (false, s)
      else
        match s.tree.lookup target with
        | some .dir | some (.link ..) => (false, s)
        | some .other => (io.write target && io.statOk, s)
        | old =>
          if old = none && !io.calls.createOk target then (false, s)
          else if io.calls.copyOk then (io.statOk, s.change [target] (put s.tree target (.file content)))
          else (false, s.change [target] (put s.tree target (.file (content.take io.calls.copied))))
  | _, _ => (false, s)

/-- The tree and the counters of a request. -/
structure WebState where
  fs : Traced
  restored : Nat
  failed : Nat
  total : Nat

/-- The body of the loop: a file by its place below the directory of the event. -/
def restoreFile (eventId : CStr) (s : WebState) (rel : Loc) : WebState :=
  let src := below (eventPath eventId) rel
  let dst := below [] rel
  let s := { s with total := s.total + 1 }
  match makedirs io s.fs (dirname dst) with
  | (false, fs) => { s with fs := fs, failed := s.failed + 1 }
  | (true, fs) =>
    match copy2 io fs src dst with
    | (false, fs) => { s with fs := fs, failed := s.failed + 1 }
    | (true, fs) =>
      match unlink io.calls fs src with
      | (false, fs) => { s with fs := fs, failed := s.failed + 1 }
      | (true, fs) => { s with fs := fs, restored := s.restored + 1 }

/-- The answer to a request. -/
inductive WebReply where
  | badRequest
  | notFound
  | ok (restored failed total : Nat)
deriving DecidableEq

/-- `restore_quarantine` of a whole event: `files` are those `os.walk` finds, by their places below the
directory of the event. The empty directories that are removed at the end and the row of the event are
left out. -/
def restoreQuarantine (eventId : CStr) (files : List Loc) (s : Traced) : WebReply × Traced :=
  if eventId = [] ∨ slash ∈ eventId ∨ lit ".." <:+: eventId ∨ lit ";" <:+: eventId then (.badRequest, s)
  else if !isDir io s.tree (eventPath eventId) then (.notFound, s)
  else
    let s := files.foldl (restoreFile io eventId) ⟨s, 0, 0, 0⟩
    (.ok s.restored s.failed s.total, s.fs)

end

/-- The name of a file. -/
structure FileName (name : CStr) : Prop where
  ne_nil : name ≠ []
  slash : slash ∉ name
  here : name ≠ lit "."
  up : name ≠ lit ".."

/-- What `os.walk` finds below the directory of the event: each entry that is no directory and no link
to one, once. -/
structure Walked (io : WebIo) (eventId : CStr) (t : Links) (files : List Loc) : Prop where
  nodup : files.Nodup
  names : ∀ rel ∈ files, ∀ name ∈ rel, FileName name
  mem : ∀ rel, rel ∈ files ↔ ∃ n, t.lookup (quarantineLoc eventId ++ rel) = some n ∧ n ≠ .dir ∧
    ∀ absolute target, n = .link absolute target → isDir io t (below (eventPath eventId) rel) = false

/-! ## The paths -/

section
variable {io : WebIo} {eventId dir path src dst : CStr} {s : Traced} {t t₀ : Links} {rel : Loc} {content : Content}

theorem below_concat (dir : CStr) (rel : Loc) (name : CStr) :
    below dir (rel ++ [name]) = below dir rel ++ slash :: name := by
  simp [below]

theorem pathComponents_below (dir : CStr) (h : ∀ name ∈ rel, FileName name) :
    pathComponents (below dir rel) = pathComponents dir ++ rel := by
  induction rel using List.reverseRecOn with
  | nil => rw [below, List.flatMap_nil, List.append_nil, List.append_nil]
  | append_singleton rel name ih =>
    have hname := h name (by simp)
    rw [below_concat, pathComponents_append_slash, ih fun name hmem => h name (List.mem_append_left _ hmem),
      pathComponents_name hname.slash hname.ne_nil, List.append_assoc]

theorem Canonical.below (hdir : dir = [] ∨ Canonical dir) (hrel : rel ≠ []) (h : ∀ name ∈ rel, FileName name)
    (hfits : (below dir rel).length < pathMax) : Canonical (below dir rel) := by
  have hcomps := pathComponents_below dir h
  have hdots {dots : CStr} (hnot : ∀ name, FileName name → name ≠ dots) (hd : Canonical dir → dots ∉ pathComponents dir) :
      dots ∉ pathComponents (Linked.below dir rel) := by
    rw [hcomps, List.mem_append, not_or]
    refine ⟨?_, fun hmem => hnot _ (h _ hmem) rfl⟩
    rcases hdir with rfl | hdir
    · rw [pathComponents_nil]
      exact List.not_mem_nil
    · exact hd hdir
  refine ⟨?_, ?_, hdots (fun _ h => h.here) (·.here), hdots (fun _ h => h.up) (·.up), hfits⟩
  · rcases hdir with rfl | hdir
    · cases rel with
      | nil => exact absurd rfl hrel
      | cons name rel => rfl
    · rw [Linked.below, List.head?_append, hdir.head, Option.some_or]
  · induction rel using List.reverseRecOn with
    | nil => exact absurd rfl hrel
    | append_singleton rel name _ =>
      have hname := h name (by simp)
      rw [below_concat, List.getLast?_append, List.getLast?_cons, List.getLast?_eq_some_getLast hname.ne_nil,
        Option.getD_some, Option.some_or]
      intro hslash
      exact hname.slash (Option.some.inj hslash ▸ List.getLast_mem hname.ne_nil)

/-! ## The calls -/

/-- No call fails for a reason outside of the tree. -/
structure WebIo.Succeeds (io : WebIo) : Prop where
  mkdirOk : ∀ l, io.calls.mkdirOk l = true
  createOk : ∀ l, io.calls.createOk l = true
  copyOk : io.calls.copyOk = true
  unlinkOk : ∀ l, io.calls.unlinkOk l = true
  statOk : io.statOk = true

theorem isDir_eq (h : Canonical path) (hdirs : ∀ p, p <+: pathComponents path → p ≠ pathComponents path →
      t.lookup p = some .dir)
    (hlink : ∀ absolute target, t.lookup (pathComponents path) ≠ some (.link absolute target)) :
    isDir io t path = decide (t.lookup (pathComponents path) = some .dir) := by
  rw [isDir, stat, h.find_end hdirs hlink, Option.bind_some]

theorem isDir_root (io : WebIo) (t : Links) : isDir io t [slash] = true := by
  have hfind : find io.calls t [slash] true = some [] := by
    unfold find follow
    rw [if_neg (by decide)]
    rfl
  rw [isDir, stat, hfind]
  rfl

/-- The directories above a file are made. -/
theorem makedirs_dirname (hio : io.Succeeds) {name : CStr} (hnames : ∀ c ∈ rel ++ [name], FileName c)
    (hfits : (below [] (rel ++ [name])).length < pathMax)
    (hway : ∀ p, p <+: rel → s.tree.lookup p = none ∨ s.tree.lookup p = some .dir) :
    ∃ s', makedirs io s (dirname (below [] (rel ++ [name]))) = (true, s') ∧
      (∀ p, p <+: rel → s'.tree.lookup p = some .dir) ∧ MadeWay rel s.tree s'.tree := by
  have hrel : ∀ c ∈ rel, FileName c := fun c hc => hnames c (List.mem_append_left _ hc)
  have hparent : Fs.parentPath (below [] (rel ++ [name])) = below [] rel := by
    rw [below_concat, parentPath_append _ (hnames name (by simp)).slash]
  by_cases hnil : rel = []
  · subst hnil
    refine ⟨s, ?_, fun p hp => ?_, fun p => .inl rfl⟩
    · rw [dirname, hparent, if_pos (by rfl), makedirs, show pathSteps [slash] = [] by decide]
      exact congrArg (·, s) (isDir_root io s.tree)
    · rw [List.prefix_nil.1 hp]
      rfl
  · have hshort : (below [] rel).length < pathMax := by
      rw [below_concat, List.length_append] at hfits
      omega
    have hpath := Canonical.below (.inl rfl) hnil hrel hshort
    have hcomps : pathComponents (below [] rel) = rel := by
      rw [pathComponents_below [] hrel, pathComponents_nil, List.nil_append]
    obtain ⟨hmade, hdirs, hchange⟩ := mkdirAll_names hio.mkdirOk s rel hway
    refine ⟨_, ?_, hdirs, hchange⟩
    rw [dirname, hparent, if_neg hpath.ne_nil, makedirs, hpath.pathSteps_eq, hcomps]
    generalize mkdirAll io.calls s (rel.map PathStep.name).inits.tail = r at hmade hdirs hchange
    obtain ⟨made, s'⟩ := r
    obtain rfl : made = true := hmade
    dsimp only at hdirs ⊢
    have hdir := hdirs rel (List.prefix_refl _)
    rw [isDir_eq hpath, hcomps, hdir]
    · rfl
    · rw [hcomps]
      exact fun p hp _ => hdirs p hp
    · rw [hcomps, hdir]
      exact nofun

/-- A file is copied over a file or to a free place. -/
theorem Canonical.copy2 (hsrc : Canonical src) (hdst : Canonical dst) (hio : io.Succeeds) (hground : Grounded s.tree)
    (hfile : s.tree.lookup (pathComponents src) = some (.file content))
    (hdirs : ∀ p, p <+: pathComponents dst → p ≠ pathComponents dst → s.tree.lookup p = some .dir)
    (hkind : s.tree.lookup (pathComponents dst) = none ∨ ∃ c, s.tree.lookup (pathComponents dst) = some (.file c))
    (hne : pathComponents src ≠ pathComponents dst) :
    copy2 io s src dst =
      (true, s.change [pathComponents dst] (put s.tree (pathComponents dst) (.file content))) := by
  have habove : ∀ p, p <+: pathComponents src → p ≠ pathComponents src → s.tree.lookup p = some .dir :=
    fun p hp hpne => hground p _ hp hpne (by rw [hfile]; rfl)
  have hlink : ∀ absolute target, s.tree.lookup (pathComponents dst) ≠ some (.link absolute target) := by
    rcases hkind with hnone | ⟨c, hold⟩
    · rw [hnone]
      exact nofun
    · rw [hold]
      exact nofun
  have hdir : isDir io s.tree dst = false := by
    rw [isDir_eq hdst hdirs hlink, decide_eq_false_iff_not]
    rcases hkind with hnone | ⟨c, hold⟩
    · rw [hnone]
      exact nofun
    · rw [hold]
      exact nofun
  unfold Linked.copy2
  rw [hdir]
  dsimp only
  rw [if_neg Bool.false_ne_true, hsrc.find_end habove (by rw [hfile]; exact nofun), hdst.find_end hdirs hlink]
  dsimp only
  have hcontent : contentAt io s.tree (pathComponents src) = some content := by
    rw [contentAt, hfile]
  rw [hcontent]
  dsimp only
  rw [if_neg hne]
  rcases hkind with hnone | ⟨c, hold⟩
  · rw [hnone]
    simp [hio.createOk, hio.copyOk, hio.statOk]
  · rw [hold]
    simp [hio.copyOk, hio.statOk]

/-! ## One file -/

/-- A file can go back to the place its place in the quarantine spells. -/
structure CanReturn (eventId : CStr) (t : Links) (rel : Loc) : Prop where
  names : ∀ c ∈ rel, FileName c
  fits : (below (eventPath eventId) rel).length < pathMax
  outside : Apart (quarantineLoc eventId) rel
  above : ∀ p, p <+: rel → p ≠ rel → t.lookup p = none ∨ t.lookup p = some .dir
  place : t.lookup rel = none ∨ ∃ c, t.lookup rel = some (.file c)

/-- A file went back. -/
structure Returned (eventId : CStr) (rel : Loc) (content : Content) (t t' : Links) : Prop where
  grounded : Grounded t'
  file : t'.lookup rel = some (.file content)
  other : ∀ loc, loc ≠ rel → loc ≠ quarantineLoc eventId ++ rel →
    t'.lookup loc = t.lookup loc ∨ t.lookup loc = none ∧ t'.lookup loc = some .dir ∧ loc <+: rel

theorem CanReturn.restoreFile {st : WebState} (h : CanReturn eventId st.fs.tree rel) (hio : io.Succeeds)
    (hevent : Canonical (eventPath eventId)) (hground : Grounded st.fs.tree)
    (hfile : st.fs.tree.lookup (quarantineLoc eventId ++ rel) = some (.file content)) :
    Returned eventId rel content st.fs.tree (restoreFile io eventId st rel).fs.tree := by
  have hnil : rel ≠ [] := by
    rintro rfl
    exact h.outside.2 List.nil_prefix
  have hsrc := Canonical.below (.inr hevent) hnil h.names h.fits
  have hsrcComps : pathComponents (below (eventPath eventId) rel) = quarantineLoc eventId ++ rel :=
    pathComponents_below (eventPath eventId) h.names
  have hshort : (below [] rel).length < pathMax := by
    have := h.fits
    rw [below, List.length_append] at this
    rw [below, List.nil_append]
    omega
  have hdst := Canonical.below (.inl rfl) hnil h.names hshort
  have hdstComps : pathComponents (below [] rel) = rel := by
    rw [pathComponents_below [] h.names, pathComponents_nil, List.nil_append]
  have hne : quarantineLoc eventId ++ rel ≠ rel := fun heq => h.outside.1 ⟨rel, heq⟩
  -- the directories above its place are made
  obtain ⟨parent, name, hrel⟩ := List.eq_nil_or_concat rel |>.resolve_left hnil
  rw [List.concat_eq_append] at hrel
  have hparent {p : Loc} : p <+: parent ↔ p <+: rel ∧ p ≠ rel := by
    rw [hrel, List.prefix_concat_iff]
    constructor
    · refine fun hp => ⟨.inr hp, ?_⟩
      rintro rfl
      have hlen := hp.length_le
      rw [List.length_append, List.length_singleton] at hlen
      omega
    · rintro ⟨rfl | hp, hpne⟩
      · exact absurd rfl hpne
      · exact hp
  obtain ⟨s₁, hmakedirs, hdirs₁, hmade⟩ := makedirs_dirname (s := st.fs) hio (hrel ▸ h.names) (hrel ▸ hshort)
    fun p hp => h.above p (hparent.1 hp).1 (hparent.1 hp).2
  rw [← hrel] at hmakedirs
  have hground₁ := grounded_madeWay hground hmade hdirs₁
  have hfile₁ := hmade.madeDirs.some hfile
  have hplace₁ : s₁.tree.lookup rel = st.fs.tree.lookup rel := by
    rcases hmade rel with hsame | ⟨-, -, hp⟩
    · exact hsame
    · exact absurd rfl (hparent.1 hp).2
  -- it is copied there and removed
  have hcopy := hsrc.copy2 hdst hio hground₁ (by rw [hsrcComps]; exact hfile₁)
    (by rw [hdstComps]; exact fun p hp hpne => hdirs₁ p (hparent.2 ⟨hp, hpne⟩))
    (by rw [hdstComps, hplace₁]; exact h.place) (by rw [hsrcComps, hdstComps]; exact hne)
  rw [hdstComps] at hcopy
  have hground₂ : Grounded (put s₁.tree rel (.file content)) := by
    refine grounded_put hground₁ (fun p hp hpne => hdirs₁ p (hparent.2 ⟨hp, hpne⟩)) ?_ _
    rw [hplace₁]
    rcases h.place with hnone | ⟨c, hold⟩
    · rw [hnone]
      exact nofun
    · rw [hold]
      exact nofun
  have hfile₂ : (put s₁.tree rel (.file content)).lookup (quarantineLoc eventId ++ rel) = some (.file content) := by
    rw [lookup_put_of_ne hne]
    exact hfile₁
  have hunlink := hsrc.unlink (s := s₁.change [rel] (put s₁.tree rel (.file content))) (n := .file content)
    hio.unlinkOk (by rw [hsrcComps]; exact hfile₂) nofun
    (by rw [hsrcComps]; exact fun p hp hpne => hground₂ p _ hp hpne (by rw [hfile₂]; rfl))
  rw [hsrcComps] at hunlink
  unfold Linked.restoreFile
  dsimp only
  rw [hmakedirs]
  dsimp only
  rw [hcopy]
  dsimp only
  rw [hunlink]
  refine ⟨?_, ?_, fun loc hloc hsrcloc => ?_⟩
  · exact grounded_remove hground₂ (fun h0 => hnil (List.append_eq_nil_iff.1 h0).2) fun rest hrest =>
      hground₂.below (by rw [hfile₂]; exact nofun) hrest
  · dsimp only [Traced.change]
    rw [lookup_remove_of_ne hne.symm, lookup_put_self hnil]
  · dsimp only [Traced.change]
    rw [lookup_remove_of_ne hsrcloc, lookup_put_of_ne hloc]
    exact (hmade loc).imp_right fun h => ⟨h.1, h.2.1, (hparent.1 h.2.2).1⟩

/-! ## The loop -/

/-- The tree after some of the files: from the tree `t₀`. -/
structure Returning (eventId : CStr) (t₀ : Links) (done : List Loc) (t : Links) : Prop where
  grounded : Grounded t
  back : ∀ rel ∈ done, ∀ c, t₀.lookup (quarantineLoc eventId ++ rel) = some (.file c) → t.lookup rel = some (.file c)
  other : ∀ loc, loc ∉ done → (∀ rel ∈ done, loc ≠ quarantineLoc eventId ++ rel) →
    t.lookup loc = t₀.lookup loc ∨ t₀.lookup loc = none ∧ t.lookup loc = some .dir ∧ ∃ rel ∈ done, loc <+: rel

variable {done : List Loc}

/-- The files of a quarantine do not lie below one another. -/
theorem not_isPrefix_of_files (hground : Grounded t₀) {rel' : Loc} {content' : Content}
    (h : t₀.lookup (quarantineLoc eventId ++ rel) = some (.file content))
    (h' : t₀.lookup (quarantineLoc eventId ++ rel') = some (.file content')) (hne : rel ≠ rel') : ¬ rel <+: rel' := by
  intro hp
  have hdir := hground (quarantineLoc eventId ++ rel) _ ((List.prefix_append_right_inj _).2 hp)
    (fun heq => hne (List.append_cancel_left heq)) (by rw [h']; rfl)
  rw [h] at hdir
  cases hdir

/-- The next file comes back. -/
theorem Returning.step {st : WebState} (h : Returning eventId t₀ done st.fs.tree) (hio : io.Succeeds)
    (hevent : Canonical (eventPath eventId)) (hground : Grounded t₀)
    (hdone : ∀ rel ∈ done, ∃ c, t₀.lookup (quarantineLoc eventId ++ rel) = some (.file c))
    (houtside : ∀ rel ∈ done, Apart (quarantineLoc eventId) rel)
    (hfile : t₀.lookup (quarantineLoc eventId ++ rel) = some (.file content)) (hreturn : CanReturn eventId t₀ rel)
    (hnew : rel ∉ done) : Returning eventId t₀ (done ++ [rel]) (restoreFile io eventId st rel).fs.tree := by
  have hfar {rel' : Loc} (hrel' : rel' ∈ done) : ¬ rel <+: rel' ∧ ¬ rel' <+: rel := by
    obtain ⟨c, hc⟩ := hdone rel' hrel'
    exact ⟨not_isPrefix_of_files hground hfile hc (by rintro rfl; exact hnew hrel'),
      not_isPrefix_of_files hground hc hfile (by rintro rfl; exact hnew hrel')⟩
  have hslot {p rel' : Loc} (hp : p <+: rel) : p ≠ quarantineLoc eventId ++ rel' := by
    rintro rfl
    exact hreturn.outside.1 ((List.prefix_append _ _).trans hp)
  have hsame : st.fs.tree.lookup (quarantineLoc eventId ++ rel) = t₀.lookup (quarantineLoc eventId ++ rel) := by
    rcases h.other _ (fun hmem => (houtside _ hmem).1 (List.prefix_append _ _))
      (fun rel' hrel' heq => hnew ((List.append_cancel_left heq : rel = rel') ▸ hrel')) with hsame | ⟨hnone, -⟩
    · exact hsame
    · rw [hfile] at hnone
      cases hnone
  have hcan : CanReturn eventId st.fs.tree rel := by
    refine ⟨hreturn.names, hreturn.fits, hreturn.outside, fun p hp hne => ?_, ?_⟩
    · rcases h.other p (fun hmem => (hfar hmem).2 hp) (fun _ _ => hslot hp) with hsame | ⟨-, hdir, -⟩
      · rw [hsame]
        exact hreturn.above p hp hne
      · exact .inr hdir
    · rcases h.other rel hnew (fun _ _ => hslot (List.prefix_refl _)) with hsame | ⟨-, -, rel', hrel', hp⟩
      · rw [hsame]
        exact hreturn.place
      · exact absurd hp (hfar hrel').1
  obtain ⟨hground', hback, hother⟩ := hcan.restoreFile hio hevent h.grounded (hsame.trans hfile)
  refine ⟨hground', fun rel' hrel' c hc => ?_, fun loc hloc hslots => ?_⟩
  · rcases List.mem_append.1 hrel' with hrel' | hrel'
    · have hold := h.back rel' hrel' c hc
      rcases hother rel' (fun heq => hnew (heq ▸ hrel'))
        (fun heq => (houtside rel' hrel').1 ⟨rel, heq.symm⟩) with hsame' | ⟨hnone, -⟩
      · exact hsame'.trans hold
      · rw [hold] at hnone
        cases hnone
    · obtain rfl := List.mem_singleton.1 hrel'
      rw [hfile] at hc
      cases hc
      exact hback
  · have hold := h.other loc (fun hmem => hloc (List.mem_append_left _ hmem))
      fun rel' hrel' => hslots rel' (List.mem_append_left _ hrel')
    rcases hother loc (by rintro rfl; exact hloc (by simp)) (hslots rel (by simp)) with hsame' | ⟨hnone, hdir, hp⟩
    · rw [hsame']
      refine hold.imp_right (And.imp_right (And.imp_right ?_))
      rintro ⟨rel', hrel', hp⟩
      exact ⟨rel', List.mem_append_left _ hrel', hp⟩
    · rcases hold with hsame | ⟨-, hdir', -⟩
      · exact .inr ⟨hsame ▸ hnone, hdir, rel, by simp, hp⟩
      · rw [hnone] at hdir'
        cases hdir'

/-- The files come back one by one. -/
theorem restoreFiles_returning (st : WebState) {files : List Loc} (hio : io.Succeeds)
    (hevent : Canonical (eventPath eventId)) (hground : Grounded st.fs.tree) (hnodup : files.Nodup)
    (hfiles : ∀ rel ∈ files, ∃ c, st.fs.tree.lookup (quarantineLoc eventId ++ rel) = some (.file c))
    (hreturn : ∀ rel ∈ files, CanReturn eventId st.fs.tree rel) :
    Returning eventId st.fs.tree files (files.foldl (restoreFile io eventId) st).fs.tree := by
  induction files using List.reverseRecOn with
  | nil => exact ⟨hground, nofun, fun _ _ _ => .inl rfl⟩
  | append_singleton files rel ih =>
    have hsub {rel' : Loc} (h : rel' ∈ files) : rel' ∈ files ++ [rel] := List.mem_append_left _ h
    obtain ⟨hnodup, -, hdisjoint⟩ := List.nodup_append.1 hnodup
    have hprev := ih hnodup (fun rel' h => hfiles rel' (hsub h)) fun rel' h => hreturn rel' (hsub h)
    obtain ⟨c, hc⟩ := hfiles rel (by simp)
    rw [List.foldl_append, List.foldl_cons, List.foldl_nil]
    exact hprev.step hio hevent hground (fun rel' h => hfiles rel' (hsub h))
      (fun rel' h => (hreturn rel' (hsub h)).outside) hc (hreturn rel (by simp))
      fun hmem => hdisjoint rel hmem rel (List.mem_singleton_self _) rfl

end

end Linked

end GfrGuard
