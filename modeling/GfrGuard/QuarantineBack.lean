import GfrGuard.WebRestore
import GfrGuard.Lib.Runs

/-!
# To the quarantine and back

The tool moves files to the quarantine of an event, and the web interface restores them by their places
there. When every move finds the plain place of its path free, each file comes back to where it was and
nothing else is made (`web_restores_quarantined`). A path that is quarantined twice has its second file
under a numbered name, which is restored to a path that never was (`web_restores_numbered`).
-/

namespace GfrGuard

namespace Linked

open LinkTree

/-! ## Moves -/

/-- What happens before a request. -/
inductive QuarantineStep where
  /-- `restore_one` clears a path. -/
  | displace (io : LinkedIo) (path : CStr)
  /-- `delete_created_one`. -/
  | delete (io : LinkedIo) (cf : CreatedFile)
  /-- Anything else. -/
  | other (t : Links)

/-- The path a step moves. -/
def QuarantineStep.move : QuarantineStep → Option (LinkedIo × CStr)
  | .displace io path => some (io, path)
  | .delete io cf => some (io, cf.filePath)
  | .other _ => none

section
variable (eventId : CStr)

/-- The tree after a step. -/
def quarantineStep (s : Traced) : QuarantineStep → Traced
  | .displace io path => quarantineCurrent io eventId path s
  | .delete io cf => (deleteCreatedOne io eventId ⟨s, Db.empty, 0, 0, 0, 0, 0⟩ cf).fs
  | .other t => { s with tree := t }

/-- A step moved a file with this content away from a place. -/
def QuarantinedFrom (s : Traced) (steps : List QuarantineStep) (loc : Loc) (content : Content) : Prop :=
  ∃ pre step io path, pre ++ [step] <+: steps ∧ step.move = some (io, path) ∧ pathComponents path <+: loc ∧
    (Runs.run (quarantineStep eventId) s pre).tree.lookup loc = some (.file content) ∧
    (Runs.run (quarantineStep eventId) s (pre ++ [step])).tree.lookup loc = none

/-- A request gives back what was quarantined, and makes nothing else: from the tree `t`. -/
structure Inverse (s : Traced) (steps : List QuarantineStep) (t t' : Links) : Prop where
  back : ∀ loc content, QuarantinedFrom eventId s steps loc content →
    ∃ content', QuarantinedFrom eventId s steps loc content' ∧ t'.lookup loc = some (.file content')
  made : ∀ loc, t.lookup loc = none → (t'.lookup loc).isSome →
    (∃ content, QuarantinedFrom eventId s steps loc content) ∨
      t'.lookup loc = some .dir ∧ ∃ loc' content, QuarantinedFrom eventId s steps loc' content ∧ loc <+: loc'

/-- What stands at a path is moved: renamed, or a file copied to another file system and removed. -/
inductive MoveSucceeds (io : LinkedIo) (n : LinkNode CStr Content) : Prop
  | renamed (h : ∀ src dst, io.renameOk src dst = true)
  | copied (content : Content) (hfile : n = .file content) (hrename : ∀ src dst, io.renameOk src dst = false)
      (hcreate : ∀ l, io.createOk l = true) (hcopy : io.copyOk = true) (hunlink : ∀ l, io.unlinkOk l = true)

/-- A move with nothing in its way: files and directories at a canonical path outside of the quarantine,
with nothing but directories above the path and above its place in the quarantine. -/
structure FineMove (io : LinkedIo) (path : CStr) (n : LinkNode CStr Content) (t : Links) : Prop where
  mkdirOk : ∀ l, io.mkdirOk l = true
  succeeds : MoveSucceeds io n
  canonical : Canonical path
  fits : (quarantineFor eventId path).length < pathMax
  outside : Apart (quarantineLoc eventId) (pathComponents path)
  kinds : ∀ rest n, t.lookup (pathComponents path ++ rest) = some n → n = .dir ∨ ∃ content, n = .file content
  above : ∀ p, p <+: pathComponents path → p ≠ pathComponents path → t.lookup p = none ∨ t.lookup p = some .dir
  slot : ∀ p, p <+: quarantineLoc eventId ++ pathComponents path →
    p ≠ quarantineLoc eventId ++ pathComponents path → t.lookup p = none ∨ t.lookup p = some .dir

/-- A move that has nothing in its way, of a file where it deletes; anything else leaves the quarantine. -/
def FineStep (s : Traced) : QuarantineStep → Prop
  | .displace io path => ∀ n, lstat io s.tree path = some n → FineMove eventId io path n s.tree
  | .delete io cf => ∀ n, lstat io s.tree cf.filePath = some n →
      FineMove eventId io cf.filePath n s.tree ∧ ∃ content, n = .file content
  | .other t => Grounded t ∧ ∀ loc, quarantineLoc eventId <+: loc ∨ loc <+: quarantineLoc eventId →
      t.lookup loc = s.tree.lookup loc

/-- What is moved finds its plain place in the quarantine free. -/
def FindsFree (s : Traced) (step : QuarantineStep) : Prop :=
  ∀ io path, step.move = some (io, path) → (lstat io s.tree path).isSome →
    s.tree.lookup (quarantineLoc eventId ++ pathComponents path) = none

/-- Nothing is quarantined. -/
structure NothingQuarantined (t : Links) : Prop where
  grounded : Grounded t
  way : ∀ p, p <+: quarantineLoc eventId → t.lookup p = none ∨ t.lookup p = some .dir
  empty : ∀ rel, rel ≠ [] → t.lookup (quarantineLoc eventId ++ rel) = none

/-- A request that is accepted, and whose files can come to their places. -/
structure FineRequest (io : WebIo) (t : Links) (files : List Loc) : Prop where
  calls : io.Succeeds
  event : Canonical (eventPath eventId)
  accepted : ¬ (eventId = [] ∨ slash ∈ eventId ∨ lit ".." <:+: eventId ∨ lit ";" <:+: eventId)
  fits : ∀ rel ∈ files, (below (eventPath eventId) rel).length < pathMax
  above : ∀ rel ∈ files, ∀ p, p <+: rel → p ≠ rel → t.lookup p = none ∨ t.lookup p = some .dir
  place : ∀ rel ∈ files, t.lookup rel = none ∨ ∃ content, t.lookup rel = some (.file content)

end

section
variable {io : LinkedIo} {eventId path old new : CStr} {s : Traced} {t t' : Links} {n : LinkNode CStr Content}
  {content : Content} {loc rel : Loc} {step : QuarantineStep} {steps : List QuarantineStep}

/-! ## One move -/

/-- A rename across file systems fails. -/
theorem Canonical.rename_across (hold : Canonical old) (hnew : Canonical new)
    (hno : ∀ src dst, io.renameOk src dst = false) (hn : s.tree.lookup (pathComponents old) = some n)
    (hdirs : ∀ p, p <+: pathComponents old → p ≠ pathComponents old → s.tree.lookup p = some .dir)
    (hdirs' : ∀ p, p <+: pathComponents new → p ≠ pathComponents new → s.tree.lookup p = some .dir)
    (hne : pathComponents old ≠ pathComponents new) : Linked.rename io s old new = (false, s) := by
  unfold Linked.rename
  rw [hold.entry hdirs]
  dsimp only
  rw [hn]
  dsimp only
  rw [hold.endsInDots, hnew.endsInDots, if_neg (by simp [hold.last]), hnew.entry hdirs', hnew.find hdirs', ite_self]
  dsimp only
  rw [if_neg hne, if_pos (.inr (.inr (hno _ _)))]

/-- A file is copied to its slot and removed. -/
theorem Ready.copyMove (h : Ready eventId path s.tree) (hmkdir : ∀ l, io.mkdirOk l = true)
    (hno : ∀ src dst, io.renameOk src dst = false) (hcreate : ∀ l, io.createOk l = true) (hcopy : io.copyOk = true)
    (hunlink : ∀ l, io.unlinkOk l = true) (hpath : Canonical path) (hslot : Canonical (quarantineFor eventId path))
    (hfile : s.tree.lookup (pathComponents path) = some (.file content)) :
    ∃ s', moveToQuarantine io path (quarantineFor eventId path) true s = (true, s') ∧
      Moved eventId path s.tree s'.tree := by
  have hq := pathComponents_quarantineFor eventId path
  obtain ⟨hground, hmade, hdirs, hfree, hunique, hsame⟩ := h.slotMade io hmkdir hslot
  have hon {p : Loc} (hp : p <+: pathComponents (Fs.parentPath (quarantineFor eventId path))) :
      p <+: quarantineLoc eventId ++ pathComponents path := hq ▸ (hslot.above_iff.2 hp).1
  unfold moveToQuarantine
  dsimp only
  generalize (Linked.mkdirP io s (Fs.parentPath (quarantineFor eventId path))).2 = s₁ at *
  have hfile₁ := hmade.madeDirs.some hfile
  have habove : ∀ p, p <+: pathComponents path → p ≠ pathComponents path → s₁.tree.lookup p = some .dir :=
    fun p hp hne => hground p _ hp hne (by rw [hfile₁]; rfl)
  have hapart : Apart (pathComponents path) (quarantineLoc eventId ++ pathComponents path) :=
    h.apart.symm.extend (List.prefix_append _ _)
  have hne : pathComponents path ≠ quarantineLoc eventId ++ pathComponents path :=
    hapart.ne (List.prefix_refl _) (List.prefix_refl _)
  rw [hunique, hpath.rename_across hslot hno hfile₁ habove (by rwa [hq]) (by rwa [hq])]
  dsimp only
  rw [if_pos rfl]
  obtain ⟨s₂, hcopied, htree⟩ := hpath.copyFile hslot hcreate hcopy hfile₁ habove (by rwa [hq])
    (.inl (by rwa [hq])) (by rwa [hq])
  rw [hq] at htree
  have hground₂ : Grounded s₂.tree := by
    rw [htree]
    exact grounded_put hground hdirs (by rw [hfree]; exact nofun) _
  have hfile₂ : s₂.tree.lookup (pathComponents path) = some (.file content) := by
    rw [htree, lookup_put_of_ne hne, hfile₁]
  rw [hcopied]
  dsimp only
  rw [hpath.unlink (n := .file content) hunlink hfile₂ nofun
    fun p hp hpne => hground₂ p _ hp hpne (by rw [hfile₂]; rfl)]
  have hbelow {rest : Loc} (hrest : rest ≠ []) : s₁.tree.lookup (pathComponents path ++ rest) = none :=
    hground.below (by rw [hfile₁]; exact nofun) hrest
  have hslotne : quarantineLoc eventId ++ pathComponents path ≠ [] := fun h0 =>
    hpath.place_ne_nil (List.append_eq_nil_iff.1 h0).2
  refine ⟨_, rfl, ?_, fun rest => ?_, fun rest => ?_, fun loc hl hqloc _ => ?_⟩
  · exact grounded_remove hground₂ hpath.place_ne_nil fun rest hrest =>
      hground₂.below (by rw [hfile₂]; exact nofun) hrest
  · dsimp only [Traced.change]
    by_cases hrest : rest = []
    · rw [hrest, List.append_nil, lookup_remove_self hpath.place_ne_nil]
    · rw [lookup_remove_of_ne fun heq => hrest (List.append_cancel_left (heq.trans (List.append_nil _).symm)), htree,
        lookup_put_of_ne fun heq => hapart.1 ⟨rest, heq⟩, hbelow hrest]
  · dsimp only [Traced.change]
    rw [lookup_remove_of_ne fun heq => h.apart.1 ⟨_, heq⟩, htree, ← hsame]
    by_cases hrest : rest = []
    · rw [hrest, List.append_nil, lookup_put_self hslotne, hfile₁]
    · rw [hbelow hrest, ← List.append_assoc,
        lookup_put_of_ne fun heq => hrest (List.append_cancel_left (heq.trans (List.append_nil _).symm))]
      exact hground.below (by rw [hfree]; exact nofun) hrest
  · dsimp only [Traced.change]
    rw [lookup_remove_of_ne (by rintro rfl; exact hl (List.prefix_refl _)), htree,
      lookup_put_of_ne (by rintro rfl; exact hqloc (List.prefix_refl _))]
    exact hmade.frame (l := pathComponents path) (b := none) (.inl (hon (List.prefix_refl _))) loc hl hqloc (by simp)

theorem FineMove.ready (h : FineMove eventId io path n t) (hground : Grounded t)
    (hfree : t.lookup (quarantineLoc eventId ++ pathComponents path) = none) : Ready eventId path t :=
  ⟨hground, h.above, h.slot, hfree, h.outside⟩

theorem FineMove.lookup (h : FineMove eventId io path n t) (hground : Grounded t) (hn : lstat io t path = some n) :
    t.lookup (pathComponents path) = some n := by
  rwa [h.canonical.lstat_eq hground (h.canonical.noLinks h.above)] at hn

/-- A fine move of a file or a directory to its free place. -/
theorem FineMove.moved (h : FineMove eventId io path n s.tree) (hground : Grounded s.tree)
    (hevent : Canonical (eventPath eventId)) (hn : lstat io s.tree path = some n)
    (hfree : s.tree.lookup (quarantineLoc eventId ++ pathComponents path) = none) :
    ∃ s', moveToQuarantine io path (quarantineFor eventId path) (isRegular n) s = (true, s') ∧
      Moved eventId path s.tree s'.tree := by
  have hready := h.ready hground hfree
  have hslot := h.canonical.quarantineFor hevent h.fits
  have hlookup := h.lookup hground hn
  cases h.succeeds with
  | renamed hrename => exact hready.move h.mkdirOk hrename h.canonical hslot _ hlookup
  | copied content hfile hno hcreate hcopy hunlink =>
    subst hfile
    exact hready.copyMove h.mkdirOk hno hcreate hcopy hunlink h.canonical hslot hlookup

/-- A step that moves leaves the tree alone, or moves what stands at its path. -/
theorem quarantineStep_moves (hmove : step.move = some (io, path)) (hfine : FineStep eventId s step)
    (hfree : FindsFree eventId s step) (hground : Grounded s.tree) (hevent : Canonical (eventPath eventId)) :
    (quarantineStep eventId s step).tree = s.tree ∨
      Moved eventId path s.tree (quarantineStep eventId s step).tree ∧
        s.tree.lookup (quarantineLoc eventId ++ pathComponents path) = none ∧
        ∃ n, FineMove eventId io path n s.tree := by
  cases step with
  | other t => cases hmove
  | displace io' path' =>
    cases hmove
    unfold quarantineStep quarantineCurrent
    dsimp only
    split
    · exact .inl rfl
    · next n hn =>
      have hmove := hfine n hn
      have hslot := hfree _ _ rfl (by rw [hn]; rfl)
      rw [if_neg (Nat.not_le.2 hmove.fits)]
      obtain ⟨s', heq, hmoved⟩ := hmove.moved hground hevent hn hslot
      rw [heq]
      exact .inr ⟨hmoved, hslot, n, hmove⟩
  | delete io' cf =>
    cases hmove
    unfold quarantineStep deleteCreatedOne
    dsimp only
    split
    · exact .inl rfl
    · cases hn : lstat io s.tree cf.filePath with
      | none => exact .inl rfl
      | some n =>
        obtain ⟨hmove, content, rfl⟩ := hfine n hn
        have hslot := hfree _ _ rfl (by rw [hn]; rfl)
        dsimp only
        rw [snprintf_of_lt hmove.fits]
        obtain ⟨s', heq, hmoved⟩ := hmove.moved hground hevent hn hslot
        rw [show isRegular (.file content) = true from rfl] at heq
        rw [heq]
        exact .inr ⟨hmoved, hslot, _, hmove⟩

/-! ## The run -/

/-- What one more step quarantines. -/
theorem quarantinedFrom_concat : QuarantinedFrom eventId s (steps ++ [step]) loc content ↔
    QuarantinedFrom eventId s steps loc content ∨
      ∃ io path, step.move = some (io, path) ∧ pathComponents path <+: loc ∧
        (Runs.run (quarantineStep eventId) s steps).tree.lookup loc = some (.file content) ∧
        (quarantineStep eventId (Runs.run (quarantineStep eventId) s steps) step).tree.lookup loc = none := by
  constructor
  · rintro ⟨pre, step', io, path, hpre, hmove, hp, hbefore, hafter⟩
    rcases List.prefix_concat_iff.1 hpre with heq | hpre
    · obtain ⟨rfl, hlast⟩ := List.append_inj' heq rfl
      obtain rfl := List.singleton_inj.1 hlast
      rw [Runs.run_append] at hafter
      exact .inr ⟨io, path, hmove, hp, hbefore, hafter⟩
    · exact .inl ⟨pre, step', io, path, hpre, hmove, hp, hbefore, hafter⟩
  · rintro (⟨pre, step', io, path, hpre, hmove, hp, hbefore, hafter⟩ | ⟨io, path, hmove, hp, hbefore, hafter⟩)
    · exact ⟨pre, step', io, path, hpre.trans (List.prefix_append _ _), hmove, hp, hbefore, hafter⟩
    · refine ⟨steps, step, io, path, List.prefix_refl _, hmove, hp, hbefore, ?_⟩
      rw [Runs.run_append]
      exact hafter

/-- The files in the quarantine are those that were quarantined, each at its place. -/
structure InSlots (eventId : CStr) (s : Traced) (steps : List QuarantineStep) (t : Links) : Prop where
  grounded : Grounded t
  way : ∀ p, p <+: quarantineLoc eventId → t.lookup p = none ∨ t.lookup p = some .dir
  source : ∀ rel n, rel ≠ [] → t.lookup (quarantineLoc eventId ++ rel) = some n →
    n = .dir ∨ ∃ content, n = .file content ∧ QuarantinedFrom eventId s steps rel content
  kept : ∀ rel content, QuarantinedFrom eventId s steps rel content →
    t.lookup (quarantineLoc eventId ++ rel) = some (.file content)
  outside : ∀ rel content, QuarantinedFrom eventId s steps rel content → Apart (quarantineLoc eventId) rel

/-- Before the first step. -/
theorem NothingQuarantined.inSlots (h : NothingQuarantined eventId s.tree) : InSlots eventId s [] s.tree := by
  have hnone {rel : Loc} {content : Content} : ¬ QuarantinedFrom eventId s [] rel content := by
    rintro ⟨pre, step, io, path, hpre, -⟩
    exact absurd (List.prefix_nil.1 hpre) (by simp)
  refine ⟨h.grounded, h.way, fun rel n hrel hn => ?_, fun _ _ h => absurd h hnone, fun _ _ h => absurd h hnone⟩
  rw [h.empty rel hrel] at hn
  cases hn

/-- A step that changes nothing in the quarantine and moves no file there. -/
theorem InSlots.same (h : InSlots eventId s steps (Runs.run (quarantineStep eventId) s steps).tree)
    (hground : Grounded t') (hsame : ∀ loc, quarantineLoc eventId <+: loc ∨ loc <+: quarantineLoc eventId →
      t'.lookup loc = (Runs.run (quarantineStep eventId) s steps).tree.lookup loc)
    (hnone : ∀ rel content, QuarantinedFrom eventId s (steps ++ [step]) rel content →
      QuarantinedFrom eventId s steps rel content) : InSlots eventId s (steps ++ [step]) t' where
  grounded := hground
  way p hp := by
    rw [hsame p (.inr hp)]
    exact h.way p hp
  source rel n hrel hn := by
    rw [hsame _ (.inl (List.prefix_append _ _))] at hn
    refine (h.source rel n hrel hn).imp_right ?_
    rintro ⟨content, hfile, hfrom⟩
    exact ⟨content, hfile, quarantinedFrom_concat.2 (.inl hfrom)⟩
  kept rel content hfrom := by
    rw [hsame _ (.inl (List.prefix_append _ _))]
    exact h.kept rel content (hnone rel content hfrom)
  outside rel content hfrom := h.outside rel content (hnone rel content hfrom)

/-- A step that moves what stands at its path. -/
theorem InSlots.moved (h : InSlots eventId s steps (Runs.run (quarantineStep eventId) s steps).tree)
    (hstep : step.move = some (io, path)) (hfine : FineMove eventId io path n (Runs.run (quarantineStep eventId) s steps).tree)
    (hfree : (Runs.run (quarantineStep eventId) s steps).tree.lookup
      (quarantineLoc eventId ++ pathComponents path) = none)
    (hmoved : Moved eventId path (Runs.run (quarantineStep eventId) s steps).tree
      (quarantineStep eventId (Runs.run (quarantineStep eventId) s steps) step).tree) :
    InSlots eventId s (steps ++ [step])
      (quarantineStep eventId (Runs.run (quarantineStep eventId) s steps) step).tree := by
  have hpre {rel : Loc} : quarantineLoc eventId <+: quarantineLoc eventId ++ rel := List.prefix_append _ _
  refine ⟨hmoved.grounded, fun p hp => ?_, fun rel n' hrel hn' => ?_, fun rel content hfrom => ?_,
    fun rel content hfrom => ?_⟩
  · rcases hmoved.frame p (fun hl => hfine.outside.2 (hl.trans hp)) (not_slot_isPrefix hfine.outside hp)
      (by simp) with hsame | ⟨-, hdir, -⟩
    · rw [hsame]
      exact h.way p hp
    · exact .inr hdir
  · by_cases hl : pathComponents path <+: rel
    · obtain ⟨rest, rfl⟩ := hl
      rw [hmoved.slot rest] at hn'
      rcases hfine.kinds rest n' hn' with rfl | ⟨content, rfl⟩
      · exact .inl rfl
      · exact .inr ⟨content, rfl, quarantinedFrom_concat.2
          (.inr ⟨io, path, hstep, List.prefix_append _ _, hn', hmoved.gone rest⟩)⟩
    · rcases hmoved.frame _ (hfine.outside.not_isPrefix hpre)
        (fun hq => hl ((List.prefix_append_right_inj _).1 hq)) (by simp) with hsame | ⟨-, hdir, -⟩
      · refine (h.source rel n' hrel (hsame ▸ hn')).imp_right ?_
        rintro ⟨content, hfile, hfrom⟩
        exact ⟨content, hfile, quarantinedFrom_concat.2 (.inl hfrom)⟩
      · rw [hdir] at hn'
        exact .inl (Option.some.inj hn').symm
  · rcases quarantinedFrom_concat.1 hfrom with hold | ⟨io', path', hstep', hp, hbefore, -⟩
    · have hkept := h.kept rel content hold
      refine hmoved.frame.some (hfine.outside.not_isPrefix hpre) (fun hq => ?_) (by simp) hkept
      -- the slot was free, and so was what is below it
      obtain ⟨rest, rfl⟩ := (List.prefix_append_right_inj _).1 hq
      rw [← List.append_assoc] at hkept
      by_cases hrest : rest = []
      · rw [hrest, List.append_nil, hfree] at hkept
        cases hkept
      · rw [h.grounded.below (by rw [hfree]; exact nofun) hrest] at hkept
        cases hkept
    · rw [hstep] at hstep'
      cases hstep'
      obtain ⟨rest, rfl⟩ := hp
      rw [hmoved.slot rest]
      exact hbefore
  · rcases quarantinedFrom_concat.1 hfrom with hold | ⟨io', path', hstep', hp, -⟩
    · exact h.outside rel content hold
    · rw [hstep] at hstep'
      cases hstep'
      exact hfine.outside.extend hp

/-- One more step. -/
theorem InSlots.next (h : InSlots eventId s steps (Runs.run (quarantineStep eventId) s steps).tree)
    (hevent : Canonical (eventPath eventId)) (hfine : FineStep eventId (Runs.run (quarantineStep eventId) s steps) step)
    (hfree : FindsFree eventId (Runs.run (quarantineStep eventId) s steps) step) :
    InSlots eventId s (steps ++ [step]) (Runs.run (quarantineStep eventId) s (steps ++ [step])).tree := by
  rw [Runs.run_append]
  cases hmove : step.move with
  | none =>
    have hnone (rel : Loc) (content : Content) (hfrom : QuarantinedFrom eventId s (steps ++ [step]) rel content) :
        QuarantinedFrom eventId s steps rel content := by
      refine (quarantinedFrom_concat.1 hfrom).resolve_right ?_
      rintro ⟨io, path, hsome, -⟩
      rw [hmove] at hsome
      cases hsome
    cases step with
    | displace io path => cases hmove
    | delete io cf => cases hmove
    | other t => exact h.same hfine.1 hfine.2 hnone
  | some move =>
    obtain ⟨io, path⟩ := move
    rcases quarantineStep_moves hmove hfine hfree h.grounded hevent with hsame | ⟨hmoved, hslot, n, hn⟩
    · refine h.same (by rw [Runs.run_cons, Runs.run_nil, hsame]; exact h.grounded)
        (fun loc _ => by rw [Runs.run_cons, Runs.run_nil, hsame]) fun rel content hfrom => ?_
      refine (quarantinedFrom_concat.1 hfrom).resolve_right ?_
      rintro ⟨io', path', -, -, hbefore, hafter⟩
      rw [hsame, hbefore] at hafter
      cases hafter
    · exact h.moved hmove hn hslot hmoved

/-- The whole run. -/
theorem inSlots_run (hstart : NothingQuarantined eventId s.tree) (hevent : Canonical (eventPath eventId))
    (hsteps : Runs.AllSteps (quarantineStep eventId) (fun s step => FineStep eventId s step ∧ FindsFree eventId s step)
      s steps) : InSlots eventId s steps (Runs.run (quarantineStep eventId) s steps).tree := by
  induction steps using List.reverseRecOn with
  | nil => exact hstart.inSlots
  | append_singleton steps step ih =>
    obtain ⟨hsteps, hlast, -⟩ := Runs.allSteps_append.1 hsteps
    exact (ih hsteps).next hevent hlast.1 hlast.2

/-- A file was quarantined where the walk finds one, and only there. -/
theorem InSlots.mem_files {wio : WebIo} {files : List Loc} (h : InSlots eventId s steps t)
    (hwalk : Walked wio eventId t files) :
    rel ∈ files ↔ ∃ content, QuarantinedFrom eventId s steps rel content := by
  rw [hwalk.mem]
  constructor
  · rintro ⟨n, hn, hdir, -⟩
    have hrel : rel ≠ [] := by
      rintro rfl
      rw [List.append_nil] at hn
      rcases h.way _ (List.prefix_refl _) with hnone | hisdir
      · rw [hnone] at hn
        cases hn
      · rw [hisdir] at hn
        exact hdir (Option.some.inj hn).symm
    obtain ⟨content, -, hfrom⟩ := (h.source rel n hrel hn).resolve_left hdir
    exact ⟨content, hfrom⟩
  · rintro ⟨content, hfrom⟩
    exact ⟨_, h.kept rel content hfrom, nofun, nofun⟩

/-- When every move finds its plain place free, a request gives every file back to the path it was
quarantined from, and makes no other file. -/
theorem web_restores_quarantined (io : WebIo) (eventId : CStr) (s : Traced) (steps : List QuarantineStep)
    (files : List Loc) (hstart : NothingQuarantined eventId s.tree)
    (hsteps : Runs.AllSteps (quarantineStep eventId) (fun s step => FineStep eventId s step ∧ FindsFree eventId s step)
      s steps)
    (hwalk : Walked io eventId (Runs.run (quarantineStep eventId) s steps).tree files)
    (hrequest : FineRequest eventId io (Runs.run (quarantineStep eventId) s steps).tree files) :
    Inverse eventId s steps (Runs.run (quarantineStep eventId) s steps).tree
      (restoreQuarantine io eventId files (Runs.run (quarantineStep eventId) s steps)).2.tree := by
  have hslots := inSlots_run hstart hrequest.event hsteps
  generalize Runs.run (quarantineStep eventId) s steps = st at *
  have hfiles : ∀ rel ∈ files, ∃ c, st.tree.lookup (quarantineLoc eventId ++ rel) = some (.file c) := by
    intro rel hrel
    obtain ⟨content, hfrom⟩ := (hslots.mem_files hwalk).1 hrel
    exact ⟨content, hslots.kept rel content hfrom⟩
  unfold restoreQuarantine
  rw [if_neg hrequest.accepted]
  split
  · next hnone =>
    -- no directory, no files
    refine ⟨fun loc content hfrom => ?_, fun loc hnone hsome => ?_⟩
    · have hfile := hslots.kept loc content hfrom
      have hdir : isDir io st.tree (eventPath eventId) = true := by
        have hplace : st.tree.lookup (pathComponents (eventPath eventId)) = some .dir :=
          hslots.grounded _ _ (List.prefix_append _ loc)
            (fun heq => (hslots.outside loc content hfrom).2
              (List.append_cancel_left ((List.append_nil _).trans heq) ▸ List.nil_prefix))
            (Option.isSome_iff_exists.2 ⟨_, hfile⟩)
        rw [isDir_eq hrequest.event (fun p hp hne => hslots.grounded p _ hp hne (by rw [hplace]; rfl))
          (by rw [hplace]; exact nofun), hplace]
        rfl
      rw [hdir] at hnone
      cases hnone
    · rw [hnone] at hsome
      cases hsome
  · have hreturn : ∀ rel ∈ files, CanReturn eventId st.tree rel := by
      intro rel hrel
      obtain ⟨content, hfrom⟩ := (hslots.mem_files hwalk).1 hrel
      exact ⟨hwalk.names rel hrel, hrequest.fits rel hrel, hslots.outside rel content hfrom, hrequest.above rel hrel,
        hrequest.place rel hrel⟩
    have hback := restoreFiles_returning ⟨st, 0, 0, 0⟩ hrequest.calls hrequest.event hslots.grounded
      hwalk.nodup hfiles hreturn
    refine ⟨fun loc content hfrom => ⟨content, hfrom, ?_⟩, fun loc hnone hsome => ?_⟩
    · exact hback.back loc ((hslots.mem_files hwalk).2 ⟨content, hfrom⟩) content (hslots.kept loc content hfrom)
    · by_cases hmem : loc ∈ files
      · exact .inl ((hslots.mem_files hwalk).1 hmem)
      · have hslot : ∀ rel ∈ files, loc ≠ quarantineLoc eventId ++ rel := by
          rintro rel hrel rfl
          obtain ⟨c, hc⟩ := hfiles rel hrel
          rw [hc] at hnone
          cases hnone
        rcases hback.other loc hmem hslot with hsame | ⟨-, hdir, rel, hrel, hp⟩
        · dsimp only at hsome hsame
          rw [hsame, hnone] at hsome
          cases hsome
        · obtain ⟨content, hfrom⟩ := (hslots.mem_files hwalk).1 hrel
          exact .inr ⟨hdir, rel, content, hfrom, hp⟩

/-! ## A path that is quarantined twice -/

theorem rename_across_eq (hno : ∀ src dst, io.renameOk src dst = false) :
    (Linked.rename io s old new).2 = s := by
  unfold Linked.rename
  split
  · rfl
  · split
    · rfl
    · split
      · rfl
      · split
        · rfl
        · split
          · rfl
          · rw [if_pos (.inr (.inr (hno _ _)))]

/-- A move across file systems brings a file to no place but the one its slot names. -/
theorem moveToQuarantine_files (hno : ∀ src dst, io.renameOk src dst = false) (qpath : CStr) (isRegular : Bool)
    (hn : (moveToQuarantine io path qpath isRegular s).2.tree.lookup loc = some n) (hdir : n ≠ .dir) :
    s.tree.lookup loc = some n ∨
      find io (mkdirP io s (Fs.parentPath qpath)).2.tree
        (quarantineUnique io (mkdirP io s (Fs.parentPath qpath)).2.tree qpath) false = some loc := by
  have hmade : MadeDirs s.tree (mkdirP io s (Fs.parentPath qpath)).2.tree := mkdirP_madeDirs _
  unfold moveToQuarantine at hn
  dsimp only at hn
  generalize (mkdirP io s (Fs.parentPath qpath)).2 = s₁ at hn hmade ⊢
  have hold (h : s₁.tree.lookup loc = some n) : s.tree.lookup loc = some n := by
    rcases hmade loc with hsame | ⟨-, hisdir⟩
    · exact hsame ▸ h
    · rw [hisdir] at h
      exact absurd (Option.some.inj h).symm hdir
  have hrename : (Linked.rename io s₁ path (quarantineUnique io s₁.tree qpath)).2 = s₁ := rename_across_eq hno
  generalize Linked.rename io s₁ path (quarantineUnique io s₁.tree qpath) = r at hn hrename
  obtain ⟨renamed, s₂⟩ := r
  obtain rfl : s₂ = s₁ := hrename
  have hcopied (h : (copyFile io path (quarantineUnique io s₂.tree qpath) s₂).2.tree.lookup loc = some n) :
      s.tree.lookup loc = some n ∨ find io s₂.tree (quarantineUnique io s₂.tree qpath) false = some loc := by
    rcases copyFile_cases io path (quarantineUnique io s₂.tree qpath) s₂ with hsame | ⟨target, c, hfind, -, htree, -⟩
    · rw [hsame] at h
      exact .inl (hold h)
    · by_cases htarget : loc = target
      · exact .inr (htarget ▸ hfind)
      · rw [htree, lookup_put_of_ne htarget] at h
        exact .inl (hold h)
  cases renamed with
  | true => exact .inl (hold hn)
  | false =>
    dsimp only at hn
    cases isRegular with
    | false => exact .inl (hold hn)
    | true =>
      rw [if_pos rfl] at hn
      cases hc : copyFile io path (quarantineUnique io s₂.tree qpath) s₂ with
      | mk whole s₃ =>
        rw [hc] at hn hcopied
        cases whole with
        | false => exact hcopied hn
        | true =>
          refine hcopied ?_
          have hunlink : (Linked.unlink io s₃ path).2 = s₃ ∨ _ := unlink_cases s₃ path
          dsimp only at hn ⊢
          rcases hunlink with hsame | ⟨gone, -, -, -, htree⟩
          · rwa [hsame] at hn
          · rw [htree] at hn
            by_cases hgone : loc = gone
            · by_cases hnil : gone = []
              · rw [hgone, hnil] at hn
                exact absurd (Option.some.inj hn).symm hdir
              · rw [hgone, lookup_remove_self hnil] at hn
                cases hn
            · rwa [lookup_remove_of_ne hgone] at hn

end

/-- The quarantine is on another file system. -/
def copyingIo : LinkedIo := { sampleIo with renameOk := fun _ _ => false }

/-- The file `/a/x`. -/
def onceState : Traced := ⟨linksOf [([lit "a"], .dir), ([lit "a", lit "x"], .file (lit "one"))], []⟩

example : find copyingIo onceState.tree (lit "/a//x") true = some [lit "a", lit "x"] := by decide

/-- It is quarantined. -/
def displaceX : QuarantineStep := .displace copyingIo (lit "/a/x")

/-- Another file comes to its path. -/
def againLinks : Links :=
  put (quarantineStep (lit "e") onceState displaceX).tree [lit "a", lit "x"] (.file (lit "two"))

/-- Nothing fails. -/
def webIo : WebIo := ⟨copyingIo, fun _ => none, fun _ => true, true⟩

theorem webIo_succeeds : webIo.Succeeds := ⟨fun _ => rfl, fun _ => rfl, rfl, fun _ => rfl, rfl⟩

/-- What evaluation says of the event and the path of the samples. -/
theorem sampleNames :
    pathComponents (lit "/a/x") = [lit "a", lit "x"] ∧ Canonical (lit "/a/x") ∧
      (quarantineFor (lit "e") (lit "/a/x")).length < pathMax ∧
      Apart (quarantineLoc (lit "e")) (pathComponents (lit "/a/x")) ∧ Canonical (eventPath (lit "e")) ∧
      ¬ (lit "e" = [] ∨ slash ∈ lit "e" ∨ lit ".." <:+: lit "e" ∨ lit ";" <:+: lit "e") ∧
      (∀ loc ∈ [[lit "a"], [lit "a", lit "x"]], ¬ quarantineLoc (lit "e") <+: loc) := by
  decide

theorem fineMove_x {t : Links} {content : Content} (hground : Grounded t)
    (hfile : t.lookup [lit "a", lit "x"] = some (.file content))
    (hslot : ∀ p ∈ (quarantineLoc (lit "e") ++ pathComponents (lit "/a/x")).inits,
      p ≠ quarantineLoc (lit "e") ++ pathComponents (lit "/a/x") → t.lookup p = none ∨ t.lookup p = some .dir) :
    FineMove (lit "e") copyingIo (lit "/a/x") (.file content) t := by
  obtain ⟨hcomps, hcanonical, hfits, hapart, -⟩ := sampleNames
  refine ⟨fun _ => rfl, .copied content rfl (fun _ _ => rfl) (fun _ => rfl) rfl fun _ => rfl, hcanonical,
    hfits, hapart, fun rest n hn => ?_, fun p hp hne => .inr ?_, fun p hp =>
      hslot p ((List.mem_inits p _).2 hp)⟩
  · rw [hcomps] at hn
    by_cases hrest : rest = []
    · rw [hrest, List.append_nil, hfile] at hn
      exact .inr ⟨content, (Option.some.inj hn).symm⟩
    · rw [hground.below (by rw [hfile]; exact nofun) hrest] at hn
      cases hn
  · rw [hcomps] at hp hne
    exact hground p _ hp hne (by rw [hfile]; rfl)

/-- The place a move of `/a/x` brings it to. -/
def slotX (s : Traced) : Option Loc :=
  let made := (mkdirP copyingIo s (Fs.parentPath (quarantineFor (lit "e") (lit "/a/x")))).2.tree
  find copyingIo made (quarantineUnique copyingIo made (quarantineFor (lit "e") (lit "/a/x"))) false

theorem displaceX_files {s : Traced} {loc : Loc} {n : LinkNode CStr Content}
    (hn : (quarantineStep (lit "e") s displaceX).tree.lookup loc = some n) (hdir : n ≠ .dir) :
    s.tree.lookup loc = some n ∨ slotX s = some loc := by
  unfold quarantineStep displaceX quarantineCurrent at hn
  dsimp only at hn
  split at hn
  · exact .inl hn
  · split at hn
    · exact .inl hn
    · exact moveToQuarantine_files (fun _ _ => rfl) _ _ hn hdir

theorem onceState_quarantine {rel : Loc} (hrel : rel ≠ []) :
    onceState.tree.lookup (quarantineLoc (lit "e") ++ rel) = none := by
  refine Option.not_isSome_iff_eq_none.1 fun hsome => ?_
  have hmem := linksOf_some (fun h => hrel (List.append_eq_nil_iff.1 h).2) hsome
  obtain ⟨-, -, -, -, -, -, hapart⟩ := sampleNames
  exact hapart _ hmem (List.prefix_append _ _)

/-- The directories of the state. -/
theorem onceState_dirs :
    (∀ loc ∈ [[lit "a"], [lit "a", lit "x"]], ∀ p ∈ loc.inits, p ≠ loc → onceState.tree.lookup p = some .dir) ∧
      (∀ p ∈ (quarantineLoc (lit "e")).inits,
        onceState.tree.lookup p = none ∨ onceState.tree.lookup p = some .dir) ∧
      (∀ p ∈ (quarantineLoc (lit "e") ++ pathComponents (lit "/a/x")).inits,
        p ≠ quarantineLoc (lit "e") ++ pathComponents (lit "/a/x") →
          onceState.tree.lookup p = none ∨ onceState.tree.lookup p = some .dir) := by
  decide

/-- The file, its place in the quarantine and the slot it is moved to. -/
theorem onceState_lookups :
    onceState.tree.lookup [lit "a", lit "x"] = some (.file (lit "one")) ∧
      lstat copyingIo onceState.tree (lit "/a/x") = some (.file (lit "one")) ∧
      onceState.tree.lookup (quarantineLoc (lit "e") ++ pathComponents (lit "/a/x")) = none ∧
      onceState.tree.lookup (quarantineLoc (lit "e")) = none ∧
      slotX onceState = some (quarantineLoc (lit "e") ++ [lit "a", lit "x"]) := by
  decide +kernel

theorem onceState_nothing : NothingQuarantined (lit "e") onceState.tree where
  grounded := linksOf_grounded onceState_dirs.1
  way p hp := onceState_dirs.2.1 p ((List.mem_inits p _).2 hp)
  empty _ hrel := onceState_quarantine hrel

theorem displaceX_fine {s : Traced} (content : Content) (hground : Grounded s.tree)
    (hfile : s.tree.lookup [lit "a", lit "x"] = some (.file content))
    (hlstat : lstat copyingIo s.tree (lit "/a/x") = some (.file content))
    (hslot : ∀ p ∈ (quarantineLoc (lit "e") ++ pathComponents (lit "/a/x")).inits,
      p ≠ quarantineLoc (lit "e") ++ pathComponents (lit "/a/x") →
        s.tree.lookup p = none ∨ s.tree.lookup p = some .dir) : FineStep (lit "e") s displaceX := by
  intro n hn
  obtain rfl := Option.some.inj (hlstat.symm.trans hn)
  exact fineMove_x hground hfile hslot

theorem onceState_fine : FineStep (lit "e") onceState displaceX := by
  obtain ⟨hfile, hlstat, -⟩ := onceState_lookups
  exact displaceX_fine (lit "one") onceState_nothing.grounded hfile hlstat onceState_dirs.2.2

theorem onceState_free : FindsFree (lit "e") onceState displaceX := by
  rintro io path ⟨⟩ -
  obtain ⟨-, -, hfree, -⟩ := onceState_lookups
  exact hfree

/-- What is in the quarantine after one move. -/
theorem once_files {rel : Loc} {n : LinkNode CStr Content}
    (hn : (quarantineStep (lit "e") onceState displaceX).tree.lookup (quarantineLoc (lit "e") ++ rel) = some n)
    (hdir : n ≠ .dir) : rel = [lit "a", lit "x"] := by
  obtain ⟨-, -, -, hnone, hfind⟩ := onceState_lookups
  rcases displaceX_files hn hdir with hold | hslot
  · by_cases hrel : rel = []
    · subst hrel
      rw [List.append_nil, hnone] at hold
      cases hold
    · rw [onceState_quarantine hrel] at hold
      cases hold
  · rw [hfind] at hslot
    exact (List.append_cancel_left (Option.some.inj hslot)).symm

instance (name : CStr) : Decidable (FileName name) :=
  decidable_of_iff (name ≠ [] ∧ slash ∉ name ∧ name ≠ lit "." ∧ name ≠ lit "..")
    ⟨fun h => ⟨h.1, h.2.1, h.2.2.1, h.2.2.2⟩, fun h => ⟨h.ne_nil, h.slash, h.here, h.up⟩⟩

/-- What evaluation says of the state after one move. -/
theorem once_lookups :
    (∀ rel ∈ [[lit "a", lit "x"]], (below (eventPath (lit "e")) rel).length < pathMax) ∧
      (∀ rel ∈ [[lit "a", lit "x"]], ∀ p ∈ rel.inits, p ≠ rel →
        (quarantineStep (lit "e") onceState displaceX).tree.lookup p = some .dir) ∧
      (∀ rel ∈ [[lit "a", lit "x"]], (quarantineStep (lit "e") onceState displaceX).tree.lookup rel = none) ∧
      (∀ rel ∈ [[lit "a", lit "x"]], ∀ name ∈ rel, FileName name) ∧
      (quarantineStep (lit "e") onceState displaceX).tree.lookup
        (quarantineLoc (lit "e") ++ [lit "a", lit "x"]) = some (.file (lit "one")) := by
  decide +kernel

theorem once_walked : Walked webIo (lit "e") (quarantineStep (lit "e") onceState displaceX).tree [[lit "a", lit "x"]] where
  nodup := by decide
  names := once_lookups.2.2.2.1
  mem rel := by
    constructor
    · intro hrel
      obtain rfl := List.mem_singleton.1 hrel
      exact ⟨.file (lit "one"), once_lookups.2.2.2.2, nofun, nofun⟩
    · rintro ⟨n, hn, hdir, -⟩
      exact List.mem_singleton.2 (once_files hn hdir)

/-- A request can bring files back that have only directories above their places. -/
theorem fineRequest_of_free {t : Links} {files : List Loc}
    (hfits : ∀ rel ∈ files, (below (eventPath (lit "e")) rel).length < pathMax)
    (habove : ∀ rel ∈ files, ∀ p ∈ rel.inits, p ≠ rel → t.lookup p = some .dir)
    (hfree : ∀ rel ∈ files, t.lookup rel = none) : FineRequest (lit "e") webIo t files where
  calls := webIo_succeeds
  event := sampleNames.2.2.2.2.1
  accepted := sampleNames.2.2.2.2.2.1
  fits := hfits
  above rel hrel p hp hne := .inr (habove rel hrel p ((List.mem_inits p _).2 hp) hne)
  place rel hrel := .inl (hfree rel hrel)

/-- A file that was moved once comes back. -/
theorem web_restores_quarantined_sample : Inverse (lit "e") onceState [displaceX]
    (Runs.run (quarantineStep (lit "e")) onceState [displaceX]).tree
    (restoreQuarantine webIo (lit "e") [[lit "a", lit "x"]]
      (Runs.run (quarantineStep (lit "e")) onceState [displaceX])).2.tree :=
  web_restores_quarantined webIo (lit "e") onceState [displaceX] [[lit "a", lit "x"]] onceState_nothing
    ⟨⟨onceState_fine, onceState_free⟩, trivial⟩ (by rw [Runs.run_cons, Runs.run_nil]; exact once_walked)
    (by
      rw [Runs.run_cons, Runs.run_nil]
      exact fineRequest_of_free once_lookups.1 once_lookups.2.1 once_lookups.2.2.1)

/-- The state when the path has a file again. -/
def againState : Traced := { quarantineStep (lit "e") onceState displaceX with tree := againLinks }

example : againState.tree.lookup [lit "a"] = some .dir := by decide +kernel

/-- The way to the path after one move; the path is free and outside of the quarantine. -/
theorem once_free :
    ¬ (quarantineLoc (lit "e") <+: [lit "a", lit "x"] ∨ [lit "a", lit "x"] <+: quarantineLoc (lit "e")) ∧
      (∀ p ∈ [lit "a", lit "x"].inits, p ≠ [lit "a", lit "x"] →
        (quarantineStep (lit "e") onceState displaceX).tree.lookup p = some .dir) ∧
      (quarantineStep (lit "e") onceState displaceX).tree.lookup [lit "a", lit "x"] ≠ some .dir := by
  decide +kernel

theorem again_same {loc : Loc} (h : quarantineLoc (lit "e") <+: loc ∨ loc <+: quarantineLoc (lit "e")) :
    againLinks.lookup loc = (quarantineStep (lit "e") onceState displaceX).tree.lookup loc := by
  refine lookup_put_of_ne ?_ _
  rintro rfl
  exact once_free.1 h

theorem again_grounded : Grounded againLinks := by
  have hground : Grounded (quarantineStep (lit "e") onceState displaceX).tree := by
    rcases quarantineStep_moves rfl onceState_fine onceState_free onceState_nothing.grounded
      sampleNames.2.2.2.2.1 with hsame | ⟨hmoved, -⟩
    · rw [hsame]
      exact onceState_nothing.grounded
    · exact hmoved.grounded
  exact grounded_put hground (fun p hp hne => once_free.2.1 p ((List.mem_inits p _).2 hp) hne) once_free.2.2 _

/-- The state when the path has a file again, as the second move finds it. -/
theorem again_lookups :
    againState.tree.lookup [lit "a", lit "x"] = some (.file (lit "two")) ∧
      lstat copyingIo againState.tree (lit "/a/x") = some (.file (lit "two")) ∧
      (∀ p ∈ (quarantineLoc (lit "e") ++ pathComponents (lit "/a/x")).inits,
        p ≠ quarantineLoc (lit "e") ++ pathComponents (lit "/a/x") →
          againState.tree.lookup p = none ∨ againState.tree.lookup p = some .dir) ∧
      slotX againState = some (quarantineLoc (lit "e") ++ [lit "a", lit "x.1"]) := by
  decide +kernel

theorem again_fine : FineStep (lit "e") againState displaceX := by
  obtain ⟨hfile, hlstat, hslot, -⟩ := again_lookups
  exact displaceX_fine (lit "two") again_grounded hfile hlstat hslot

/-- What is in the quarantine after two moves. -/
theorem twice_files {rel : Loc} {n : LinkNode CStr Content}
    (hn : (quarantineStep (lit "e") againState displaceX).tree.lookup (quarantineLoc (lit "e") ++ rel) = some n)
    (hdir : n ≠ .dir) : rel ∈ [[lit "a", lit "x"], [lit "a", lit "x.1"]] := by
  rcases displaceX_files hn hdir with hold | hslot
  · rw [show againState.tree = againLinks from rfl, again_same (.inl (List.prefix_append _ _))] at hold
    rw [once_files hold hdir]
    exact List.mem_cons_self
  · rw [again_lookups.2.2.2] at hslot
    rw [← List.append_cancel_left (Option.some.inj hslot)]
    exact List.mem_cons_of_mem _ List.mem_cons_self

theorem again_run : Runs.run (quarantineStep (lit "e")) onceState [displaceX, .other againLinks, displaceX] =
    quarantineStep (lit "e") againState displaceX := by
  have hagain : quarantineStep (lit "e") (quarantineStep (lit "e") onceState displaceX) (.other againLinks) =
      againState := by
    unfold againState
    generalize quarantineStep (lit "e") onceState displaceX = s
    rfl
  rw [Runs.run_cons, Runs.run_cons, Runs.run_cons, Runs.run_nil, hagain]

/-- The state after two moves, as a request finds it. -/
theorem twice_lookups :
    (∀ rel ∈ [[lit "a", lit "x"], [lit "a", lit "x.1"]], ∀ name ∈ rel, FileName name) ∧
      (∀ rel ∈ [[lit "a", lit "x"], [lit "a", lit "x.1"]], (below (eventPath (lit "e")) rel).length < pathMax) ∧
      (∀ rel ∈ [[lit "a", lit "x"], [lit "a", lit "x.1"]], ∀ p ∈ rel.inits, p ≠ rel →
        (quarantineStep (lit "e") againState displaceX).tree.lookup p = some .dir) ∧
      ∀ rel ∈ [[lit "a", lit "x"], [lit "a", lit "x.1"]],
        (quarantineStep (lit "e") againState displaceX).tree.lookup rel = none ∧
          (quarantineStep (lit "e") againState displaceX).tree.lookup (quarantineLoc (lit "e") ++ rel) =
            some (.file (if rel = [lit "a", lit "x"] then lit "one" else lit "two")) := by
  decide +kernel

theorem twice_walked : Walked webIo (lit "e") (quarantineStep (lit "e") againState displaceX).tree
    [[lit "a", lit "x"], [lit "a", lit "x.1"]] where
  nodup := by decide
  names := twice_lookups.1
  mem rel := by
    constructor
    · exact fun hrel => ⟨_, (twice_lookups.2.2.2 rel hrel).2, nofun, nofun⟩
    · rintro ⟨n, hn, hdir, -⟩
      exact twice_files hn hdir

/-- A path that is quarantined twice: the second file comes to a path that never was. -/
theorem web_restores_numbered : ¬ ∀ (io : WebIo) (eventId : CStr) (s : Traced) (steps : List QuarantineStep)
    (files : List Loc), NothingQuarantined eventId s.tree →
      Runs.AllSteps (quarantineStep eventId) (FineStep eventId) s steps →
      Walked io eventId (Runs.run (quarantineStep eventId) s steps).tree files →
      FineRequest eventId io (Runs.run (quarantineStep eventId) s steps).tree files →
      Inverse eventId s steps (Runs.run (quarantineStep eventId) s steps).tree
        (restoreQuarantine io eventId files (Runs.run (quarantineStep eventId) s steps)).2.tree := by
  intro h
  have hinverse := h webIo (lit "e") onceState [displaceX, .other againLinks, displaceX]
    [[lit "a", lit "x"], [lit "a", lit "x.1"]] onceState_nothing
  rw [again_run] at hinverse
  have hmade := (hinverse
    ⟨onceState_fine, ⟨again_grounded, fun loc hloc => again_same hloc⟩, again_fine, trivial⟩ twice_walked
    (fineRequest_of_free twice_lookups.2.1 twice_lookups.2.2.1 fun rel hrel => (twice_lookups.2.2.2 rel hrel).1)).made
      [lit "a", lit "x.1"] (by decide +kernel) (by decide +kernel)
  rcases hmade with ⟨content, pre, step, io, path, hpre, hmove, hp, -⟩ | ⟨hdir, -⟩
  · have hstep : step ∈ [displaceX, .other againLinks, displaceX] := hpre.subset (by simp)
    have hpath : path = lit "/a/x" := by
      simp only [List.mem_cons, List.not_mem_nil, or_false] at hstep
      rcases hstep with rfl | rfl | rfl <;> cases hmove <;> rfl
    rw [hpath] at hp
    revert hp
    decide
  · revert hdir
    decide +kernel

end Linked

end GfrGuard
