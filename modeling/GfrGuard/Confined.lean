import GfrGuard.LinkedRecover
import GfrGuard.RecoverSpec

/-!
# Where a restore reaches

`valid_restore_path` looks at the text of a path, and the kernel follows every link on the way to
its last component. Where no link stands on the way to the recorded path and to its slot in the
quarantine, `restore_one` and `delete_created_one` change the recorded place, the quarantine and the
preimage, and make the directories that are missing on these ways (`recovery_confined`). Where a
component was replaced by a link they write wherever the link points (`recovery_not_confined`).
-/

namespace GfrGuard

namespace Linked

open LinkTree

/-! ## Paths -/

/-- The way to the last component of a path. -/
def wayTo (path : CStr) : List (PathStep CStr) := pathSteps (Fs.parentPath path)

/-- The place a path spells. -/
def literalLoc (path : CStr) : Loc := spelled (walkSteps path)

/-- The quarantine directory. -/
def quarantineDir : Loc := spelled (pathSteps quarantinePath)

section
variable {path parent name suffix full q : CStr} {c : CStr} {eventId : CStr}

theorem pathStep_eq_up : pathStep c = .up ↔ c = lit ".." := by
  unfold pathStep
  split
  · next h =>
    rw [h]
    exact iff_of_false nofun (by decide)
  · split
    · next h => exact iff_of_true rfl h
    · next h => exact iff_of_false nofun h

theorem up_not_mem_pathSteps : .up ∉ pathSteps path ↔ lit ".." ∉ pathComponents path := by
  unfold pathSteps
  refine not_congr ⟨fun h => ?_, fun h => ?_⟩
  · obtain ⟨c, hc, hup⟩ := List.mem_map.1 h
    rwa [pathStep_eq_up.1 hup] at hc
  · exact List.mem_map.2 ⟨_, h, pathStep_eq_up.2 rfl⟩

theorem parentPath_append (parent : CStr) (hname : slash ∉ name) :
    Fs.parentPath (parent ++ slash :: name) = parent := by
  unfold Fs.parentPath
  rw [show strrchr (parent ++ slash :: name) slash = some (slash :: name) from
    ListSearch.lastAt_append parent hname]
  simp

/-- What is appended without a slash stays in the last component. -/
theorem parentPath_append_suffix (hslash : slash ∈ path) (hsuffix : slash ∉ suffix) :
    Fs.parentPath (path ++ suffix) = Fs.parentPath path := by
  obtain ⟨name, hpath, hname⟩ := parentPath_split hslash
  have hlast : slash ∉ name ++ suffix := by simp [hname, hsuffix]
  conv_lhs => rw [hpath, List.append_assoc, List.cons_append]
  exact parentPath_append _ hlast

theorem pathSteps_append_slash (a b : CStr) :
    pathSteps (a ++ slash :: b) = pathSteps a ++ pathSteps b := by
  unfold pathSteps
  rw [pathComponents_append_slash, List.map_append]

/-- The steps of a path are the way to its last component and one more. -/
theorem walkSteps_eq (hslash : slash ∈ path) :
    ∃ step, walkSteps path = wayTo path ++ [step] ∧ (step = .up → endsInDots path = true) ∧
      (pathSteps path = wayTo path ∨ pathSteps path = wayTo path ++ [step]) := by
  obtain ⟨name, hpath, hname⟩ := parentPath_split hslash
  have hsteps : pathSteps path = wayTo path ++ pathSteps name := by
    conv_lhs => rw [hpath]
    exact pathSteps_append_slash _ _
  by_cases hnil : name = []
  · have hlast : path.getLast? = some slash := by rw [hpath, hnil]; simp
    have hsame : pathSteps path = wayTo path := by
      rw [hsteps, hnil]
      exact List.append_nil _
    exact ⟨.here, by rw [walkSteps, hsame, if_pos hlast], nofun, .inl hsame⟩
  · have hone : pathComponents name = [name] := pathComponents_name hname hnil
    have hlast : path.getLast? ≠ some slash := by
      rw [hpath, List.getLast?_append, List.getLast?_cons, List.getLast?_eq_getLast_of_ne_nil hnil]
      exact fun h => hname (Option.some.inj h ▸ List.getLast_mem hnil)
    have hsame : pathSteps path = wayTo path ++ [pathStep name] := by
      rw [hsteps]
      unfold pathSteps
      rw [hone]
      rfl
    refine ⟨pathStep name, by rw [walkSteps, if_neg hlast, hsame, List.append_nil], fun hup => ?_,
      .inr hsame⟩
    have hcomps : pathComponents path = pathComponents (Fs.parentPath path) ++ [name] := by
      conv_lhs => rw [hpath]
      rw [pathComponents_append_slash, hone]
    unfold endsInDots
    rw [hcomps, pathStep_eq_up.1 hup]
    simp

/-- The way to a path holds no `..` where the path, or a longer one, holds none. -/
theorem up_not_mem_wayTo (hslash : slash ∈ path) (hfull : path <+: full)
    (hdots : lit ".." ∉ pathComponents full) : .up ∉ wayTo path := by
  obtain ⟨name, hpath, -⟩ := parentPath_split hslash
  obtain ⟨rest, rfl⟩ := hfull
  refine up_not_mem_pathSteps.2 fun h => hdots ?_
  rw [hpath, List.append_assoc, List.cons_append, pathComponents_append_slash]
  exact List.mem_append_left _ h

/-- A path accepted by the tool is absolute and has no component `..`. -/
theorem validRestorePath_dots (h : validRestorePath path = true) :
    path.head? = some slash ∧ lit ".." ∉ pathComponents path := by
  unfold validRestorePath at h
  simp only [Bool.and_eq_true, decide_eq_true_eq, Bool.not_eq_true'] at h
  obtain ⟨⟨hhead, hinner⟩, hend⟩ := h
  refine ⟨hhead, fun hdots => ?_⟩
  obtain ⟨a, b, hpath, ha, hb⟩ := SepText.exists_of_mem_components hdots
  rcases ha with rfl | ha
  · have hword : lit ".." = dot :: lit "." := by decide
    rw [hpath, hword] at hhead
    cases hhead
  · obtain ⟨a, rfl⟩ := List.getLast?_eq_some_iff.1 ha
    rcases hb with rfl | hb
    · have hword : lit "/.." = slash :: lit ".." := by decide
      have hsuffix : lit "/.." <:+ path := ⟨a, by rw [hpath, hword]; simp⟩
      rw [← List.isSuffixOf_iff_suffix] at hsuffix
      exact Bool.false_ne_true (hend.symm.trans hsuffix)
    · obtain ⟨b, rfl⟩ := List.head?_eq_some_iff.1 hb
      have hword : lit "/../" = slash :: lit ".." ++ [slash] := by decide
      have hinfix : lit "/../" <:+: path := ⟨a, b, by rw [hpath, hword]; simp⟩
      have hnone : strstr path (lit "/../") = none := by
        rwa [← Option.not_isSome_iff_eq_none, Bool.not_eq_true]
      exact ListSearch.firstAt_eq_none_iff.1 hnone hinfix

/-- Such a path is accepted. -/
theorem validRestorePath_of_dots (hhead : path.head? = some slash) (hup : lit ".." ∉ pathComponents path) :
    validRestorePath path = true := by
  have hdots : pathComponents (lit "..") = [lit ".."] :=
    pathComponents_name (by decide) (by decide)
  have hinner : ¬ lit "/../" <:+: path := by
    rintro ⟨a, b, hpath⟩
    have hword : lit "/../" = slash :: lit ".." ++ [slash] := by decide
    refine hup ?_
    rw [← hpath, hword, show a ++ (slash :: lit ".." ++ [slash]) ++ b = a ++ slash :: (lit ".." ++ slash :: b)
      by simp, pathComponents_append_slash, pathComponents_append_slash, hdots]
    simp
  have hend : ¬ lit "/.." <:+ path := by
    rintro ⟨a, hpath⟩
    have hword : lit "/.." = slash :: lit ".." := by decide
    refine hup ?_
    rw [← hpath, hword, pathComponents_append_slash, hdots]
    simp
  have hstrstr : strstr path (lit "/../") = none := ListSearch.firstAt_eq_none_iff.2 hinner
  have hsuffix : (lit "/..").isSuffixOf path = false := by
    rw [← Bool.not_eq_true, List.isSuffixOf_iff_suffix]
    exact hend
  rw [validRestorePath, hstrstr, hsuffix, hhead]
  rfl

/-- What precedes a slash is on the way. -/
theorem pathSteps_isPrefix_wayTo (parent rest : CStr) :
    pathSteps parent <+: wayTo (parent ++ slash :: rest) := by
  unfold wayTo
  by_cases hslash : slash ∈ rest
  · obtain ⟨name, hrest, hname⟩ := parentPath_split hslash
    have hsplit : parent ++ slash :: rest = (parent ++ slash :: Fs.parentPath rest) ++ slash :: name := by
      conv_lhs => rw [hrest]
      simp
    rw [hsplit, parentPath_append _ hname, pathSteps_append_slash]
    exact List.prefix_append _ _
  · rw [parentPath_append _ hslash]

/-- The way to a path that was cut is on the way to the path. -/
theorem wayTo_isPrefix (hslash : slash ∈ path) (hfull : path <+: full) : wayTo path <+: wayTo full := by
  obtain ⟨name, hpath, -⟩ := parentPath_split hslash
  obtain ⟨rest, rfl⟩ := hfull
  conv_rhs => rw [hpath, List.append_assoc, List.cons_append]
  exact pathSteps_isPrefix_wayTo _ _

/-- A trailing slash spells nothing. -/
theorem spelled_pathSteps (path : CStr) : spelled (pathSteps path) = literalLoc path := by
  unfold literalLoc walkSteps
  rw [spelled_append]
  split <;> simp

/-! ## The slot in the quarantine -/

variable (io : LinkedIo)

/-- The slot that is chosen appends a text without a slash. -/
theorem uniqueSlot_eq (t : Links) {base : CStr} (hbase : base.length < pathMax) {path : CStr}
    (hpath : ∃ suffix, slash ∉ suffix ∧ path = base ++ suffix) (is : List Nat) :
    ∃ suffix, slash ∉ suffix ∧ uniqueSlot io t base path is = base ++ suffix := by
  induction is generalizing path with
  | nil => exact hpath
  | cons i is ih =>
    have hdec : slash ∉ dot :: dec i := by
      rw [List.mem_cons, not_or]
      exact ⟨by decide, not_mem_dec (by decide)⟩
    unfold uniqueSlot
    dsimp only
    split
    · refine ⟨(dot :: dec i).take (pathMax - 1 - base.length),
        fun h => hdec (List.mem_of_mem_take h), ?_⟩
      unfold snprintf
      rw [List.take_append, List.take_of_length_le (by omega)]
    · split
      · exact ⟨_, hdec, rfl⟩
      · exact ih ⟨_, hdec, rfl⟩

theorem quarantineUnique_eq (t : Links) {path : CStr} (hpath : path.length < pathMax) :
    ∃ suffix, slash ∉ suffix ∧ quarantineUnique io t path = path ++ suffix := by
  unfold quarantineUnique
  split
  · exact ⟨[], List.not_mem_nil, (List.append_nil _).symm⟩
  · exact uniqueSlot_eq io t hpath ⟨[], List.not_mem_nil, (List.append_nil _).symm⟩ _

/-! ## What may change -/

/-- The place in the quarantine for a file, before a number is appended. -/
def slotBase (eventId path : CStr) : CStr := snprintf pathMax (quarantineFor eventId path)

/-- No link stands on the way to a path and to a slot. -/
structure Ways (t : Links) (path slot : CStr) : Prop where
  path : NoLinks t (wayTo path)
  slot : NoLinks t (wayTo slot)

/-- The tool accepts the path, the event's id does not lead upwards, and no link stands on the ways to
the path and to its slot in the quarantine. -/
structure PlainRow (t : Links) (eventId path : CStr) : Prop where
  ways : Ways t path (slotBase eventId path)
  valid : validRestorePath path = true
  event : lit ".." ∉ pathComponents eventId

/-- What a row lets the tool change: the place of its path, the quarantine, its backup file, and a
directory that is missing on the way to the path or to the quarantine. -/
def Allowed (path : CStr) (backup : Option CStr) (x : Links × Loc) : Prop :=
  x.2 = literalLoc path ∨ quarantineDir <+: x.2 ∨ (∃ b ∈ backup, entry io x.1 b = some x.2) ∨
    x.1.lookup x.2 = none ∧ (x.2 <+: literalLoc path ∨ x.2 <+: quarantineDir)

/-- Every change is at the place of the path, in the quarantine or at the backup file. -/
def OnlyRecorded (path : CStr) (backup : Option CStr) (s s' : Traced) : Prop :=
  ∀ x ∈ s'.log, x ∈ s.log ∨ x.2 = literalLoc path ∨ quarantineDir <+: x.2 ∨
    ∃ b ∈ backup, entry io x.1 b = some x.2

/-- Every change is one that is allowed. -/
def Confined (path : CStr) (backup : Option CStr) (s s' : Traced) : Prop :=
  ∀ x ∈ s'.log, x ∈ s.log ∨ Allowed io path backup x

/-- The changes are allowed, and no link comes to stand on the ways. -/
structure Reaches (path slot : CStr) (backup : Option CStr) (s s' : Traced) : Prop where
  ways : Ways s'.tree path slot
  confined : Confined io path backup s s'

/-- The texts of a path and of a slot for it. -/
structure PlainTexts (path slot : CStr) : Prop where
  path_head : path.head? = some slash
  path_up : .up ∉ pathSteps path
  slot_head : slot.head? = some slash
  slot_up : .up ∉ wayTo slot
  slot_below : quarantineDir <+: spelled (wayTo slot)
  slot_length : slot.length < pathMax

section
variable {path slot new : CStr} {backup : Option CStr} {s s' s'' : Traced} {t : Links} {loc src dst : Loc}
  {steps way : List (PathStep CStr)} {n : LinkNode CStr Content} {io}

/-! ## Where paths lead -/

theorem slash_mem_of_head (h : path.head? = some slash) : slash ∈ path := List.mem_of_mem_head? h

theorem spelled_wayTo_isPrefix (h : slash ∈ path) : spelled (wayTo path) <+: literalLoc path := by
  obtain ⟨step, hsteps, -⟩ := walkSteps_eq h
  rw [literalLoc, hsteps]
  exact spelled_isPrefix (List.prefix_append _ _)

theorem up_not_mem_walkSteps (hhead : path.head? = some slash) (hup : .up ∉ wayTo path)
    (hdots : endsInDots path = false) : .up ∉ walkSteps path := by
  obtain ⟨step, hsteps, hstep, -⟩ := walkSteps_eq (slash_mem_of_head hhead)
  rw [hsteps, List.mem_append, List.mem_singleton, not_or]
  refine ⟨hup, fun h => ?_⟩
  rw [hstep h.symm] at hdots
  cases hdots

theorem up_not_mem_walkSteps_of_pathSteps (h : .up ∉ pathSteps path) : .up ∉ walkSteps path := by
  rw [walkSteps, List.mem_append, not_or]
  refine ⟨h, ?_⟩
  split <;> simp

/-- An absolute path is walked from the root. -/
theorem walk_of_follow {last : Bool} (hhead : path.head? = some slash)
    (h : follow io t path last steps = some loc) : t.walk last 40 [] steps = some loc := by
  unfold follow at h
  rw [if_pos hhead] at h
  exact (Option.ite_none_left_eq_some.1 h).2

theorem find_eq (hhead : path.head? = some slash) (hup : .up ∉ walkSteps path)
    (hway : NoLinks t (wayTo path)) (h : find io t path false = some loc) : loc = literalLoc path := by
  obtain ⟨step, hsteps, -⟩ := walkSteps_eq (slash_mem_of_head hhead)
  have hwalk := walk_of_follow hhead h
  rw [hsteps] at hwalk hup
  rw [literalLoc, hsteps]
  exact walk_eq_spelled hup hway hwalk

theorem entry_eq (hhead : path.head? = some slash) (hup : .up ∉ walkSteps path)
    (hway : NoLinks t (wayTo path)) (h : entry io t path = some loc) : loc = literalLoc path := by
  obtain ⟨step, hsteps, -, hentry⟩ := walkSteps_eq (slash_mem_of_head hhead)
  have hwalk := walk_of_follow hhead h
  rw [hsteps] at hup
  rcases hentry with hentry | hentry
  · rw [← spelled_pathSteps]
    rw [hentry] at hwalk ⊢
    exact walk_eq_spelled_way (fun hmem => hup (List.mem_append_left _ hmem)) hway hwalk
  · rw [← spelled_pathSteps]
    rw [hentry] at hwalk ⊢
    exact walk_eq_spelled hup hway hwalk

/-! ## Ways -/

theorem noLinks_put (h : NoLinks t way) (hn : ∀ absolute target, n ≠ .link absolute target) (loc : Loc) :
    NoLinks (put t loc n) way := by
  intro pre hpre absolute target
  have hold := h pre hpre absolute target
  unfold LinkTree.lookup at hold ⊢
  split
  · exact nofun
  · next hroot =>
    rw [if_neg hroot] at hold
    unfold Linked.put
    dsimp only
    rw [Function.update_apply]
    split
    · exact fun hlink => hn absolute target (Option.some.inj hlink)
    · exact hold

theorem noLinks_remove (h : NoLinks t way) (loc : Loc) : NoLinks (remove t loc) way := by
  intro pre hpre absolute target
  have hold := h pre hpre absolute target
  unfold LinkTree.lookup at hold ⊢
  split
  · exact nofun
  · next hroot =>
    rw [if_neg hroot] at hold
    unfold Linked.remove
    dsimp only
    rw [Function.update_apply]
    split
    · exact nofun
    · exact hold

/-- A move brings no link to a way that does not come to the new place. -/
theorem noLinks_moveTree (h : NoLinks t way)
    (hdst : ∀ pre, pre <+: way → dst <+: spelled pre → ∀ absolute target,
      t.node (src ++ (spelled pre).drop dst.length) ≠ some (.link absolute target)) :
    NoLinks (moveTree t src dst) way := by
  intro pre hpre absolute target
  have hold := h pre hpre absolute target
  unfold LinkTree.lookup at hold ⊢
  split
  · exact nofun
  · next hroot =>
    rw [if_neg hroot] at hold
    unfold Linked.moveTree
    dsimp only
    split
    · next hbelow => exact hdst pre hpre hbelow absolute target
    · split
      · exact nofun
      · exact hold

/-! ## System calls -/

theorem Reaches.refl (h : Ways s.tree path slot) : Reaches io path slot backup s s := ⟨h, fun _ => .inl⟩

theorem Reaches.trans (h : Reaches io path slot backup s s') (h' : Reaches io path slot backup s' s'') :
    Reaches io path slot backup s s'' where
  ways := h'.ways
  confined x hx := (h'.confined x hx).elim (h.confined x) .inr

/-- A change at places that are allowed. -/
theorem Reaches.change {locs : List Loc} (hways : Ways t path slot)
    (hlocs : ∀ loc ∈ locs, Allowed io path backup (s.tree, loc)) :
    Reaches io path slot backup s (s.change locs t) where
  ways := hways
  confined x hx := by
    rcases List.mem_append.1 hx with hx | hx
    · exact .inl hx
    · obtain ⟨loc, hloc, rfl⟩ := List.mem_map.1 hx
      exact .inr (hlocs loc hloc)

theorem mkdir_reaches (htexts : PlainTexts path slot) (hways : Ways s.tree path slot)
    (hsteps : steps <+: wayTo path ∨ steps <+: wayTo slot) :
    Reaches io path slot backup s (mkdir io s steps).2 := by
  have hup : .up ∉ steps := fun h => by
    rcases hsteps with hsteps | hsteps
    · refine htexts.path_up ?_
      obtain ⟨step, -, -, hentry⟩ := walkSteps_eq (slash_mem_of_head htexts.path_head)
      rcases hentry with hentry | hentry
      · rw [hentry]; exact hsteps.subset h
      · rw [hentry]; exact List.mem_append_left _ (hsteps.subset h)
    · exact htexts.slot_up (hsteps.subset h)
  have hlinks : NoLinks s.tree steps := hsteps.elim hways.path.of_isPrefix hways.slot.of_isPrefix
  unfold mkdir
  split
  · exact .refl hways
  · next loc hwalk =>
    split
    · exact .refl hways
    · next hfree =>
      split
      · obtain rfl := walk_eq_spelled_way hup hlinks hwalk
        refine .change ⟨noLinks_put hways.path (by simp) _, noLinks_put hways.slot (by simp) _⟩ fun loc hloc => ?_
        obtain rfl := List.mem_singleton.1 hloc
        have hnone : s.tree.lookup (spelled steps) = none := by simpa using hfree
        rcases hsteps with hsteps | hsteps
        · exact .inr (.inr (.inr ⟨hnone, .inl ((spelled_isPrefix hsteps).trans
            (spelled_wayTo_isPrefix (slash_mem_of_head htexts.path_head)))⟩))
        · rcases List.prefix_or_prefix_of_prefix (spelled_isPrefix hsteps) htexts.slot_below with h | h
          · exact .inr (.inr (.inr ⟨hnone, .inr h⟩))
          · exact .inr (.inl h)
      · exact .refl hways

theorem mkdirAll_reaches (htexts : PlainTexts path slot) (hways : Ways s.tree path slot)
    {prefixes : List (List (PathStep CStr))}
    (hprefixes : ∀ steps ∈ prefixes, steps <+: wayTo path ∨ steps <+: wayTo slot) :
    Reaches io path slot backup s (mkdirAll io s prefixes).2 := by
  induction prefixes generalizing s with
  | nil => exact .refl hways
  | cons steps rest ih =>
    have hfirst : Reaches io path slot backup s (mkdir io s steps).2 :=
      mkdir_reaches htexts hways (hprefixes steps List.mem_cons_self)
    unfold mkdirAll
    split
    · next s' hmk =>
      rw [hmk] at hfirst
      exact hfirst
    · next s' hmk =>
      rw [hmk] at hfirst
      exact hfirst.trans (ih hfirst.ways fun steps hsteps => hprefixes steps (List.mem_cons_of_mem _ hsteps))

/-- Making the directory of a path, or of what is left of it in a buffer. -/
theorem mkdirP_reaches (htexts : PlainTexts path slot) (hways : Ways s.tree path slot) {text : CStr}
    (htext : wayTo text <+: wayTo path ∨ wayTo text <+: wayTo slot) (hlen : text.length < pathMax) :
    Reaches io path slot backup s (mkdirP io s (Fs.parentPath text)).2 := by
  have hparent : (Fs.parentPath text).length < pathMax := (parentPath_isPrefix text).length_le.trans_lt hlen
  refine mkdirAll_reaches htexts hways fun steps hsteps => ?_
  rw [snprintf_of_lt hparent] at hsteps
  have hsteps : steps <+: wayTo text := (List.mem_inits _ _).1 (List.mem_of_mem_tail hsteps)
  exact htext.imp hsteps.trans hsteps.trans

/-- A slot with a number. -/
def Numbered (slot new : CStr) : Prop := ∃ suffix, slash ∉ suffix ∧ new = slot ++ suffix

theorem Numbered.head (htexts : PlainTexts path slot) (h : Numbered slot new) : new.head? = some slash := by
  obtain ⟨suffix, -, rfl⟩ := h
  rw [List.head?_append, htexts.slot_head, Option.some_or]

theorem Numbered.wayTo (htexts : PlainTexts path slot) (h : Numbered slot new) : wayTo new = wayTo slot := by
  obtain ⟨suffix, hsuffix, rfl⟩ := h
  unfold Linked.wayTo
  rw [parentPath_append_suffix (slash_mem_of_head htexts.slot_head) hsuffix]

/-- The place of a numbered slot is in the quarantine. -/
theorem Numbered.below (htexts : PlainTexts path slot) (h : Numbered slot new) :
    quarantineDir <+: literalLoc new := by
  refine htexts.slot_below.trans ?_
  rw [← h.wayTo htexts]
  exact spelled_wayTo_isPrefix (slash_mem_of_head (h.head htexts))

theorem Numbered.up (htexts : PlainTexts path slot) (h : Numbered slot new)
    (hdots : endsInDots new = false) : .up ∉ walkSteps new :=
  up_not_mem_walkSteps (h.head htexts) (by rw [h.wayTo htexts]; exact htexts.slot_up) hdots

/-- Moving a file to its slot brings no link to the ways. -/
theorem ways_moveTree (io : LinkedIo) (htexts : PlainTexts path slot) (hways : Ways t path slot) (hnew : Numbered slot new)
    (hdots : endsInDots new = false) (hsrc : ¬ literalLoc new <+: literalLoc path)
    (hroot : literalLoc path ≠ [])
    (hnode : ∀ absolute target, t.lookup (literalLoc path) = some (.link absolute target) →
      find io t new false = some (literalLoc new) ∧ t.lookup (literalLoc new) ≠ some .dir) :
    Ways (moveTree t (literalLoc path) (literalLoc new)) path slot := by
  refine ⟨noLinks_moveTree hways.path fun pre hpre hbelow => ?_, noLinks_moveTree hways.slot fun pre hpre hbelow => ?_⟩
  · exact absurd (hbelow.trans ((spelled_isPrefix hpre).trans
      (spelled_wayTo_isPrefix (slash_mem_of_head htexts.path_head)))) hsrc
  · intro absolute target hlink
    have hslash := slash_mem_of_head (hnew.head htexts)
    obtain ⟨step, hsteps, hup, -⟩ := walkSteps_eq hslash
    rw [hnew.wayTo htexts] at hsteps
    -- the new place is the end of the way, which a trailing slash asks to be a directory
    have hlast : spelled (Linked.wayTo slot) <+: literalLoc new := by
      rw [← hnew.wayTo htexts]
      exact spelled_wayTo_isPrefix hslash
    have hend : literalLoc new = spelled pre := hbelow.eq_of_length_le
      (((spelled_isPrefix hpre).trans hlast).length_le)
    have hmoved : t.lookup (literalLoc path) = some (.link absolute target) := by
      rw [← hend, List.drop_length, List.append_nil] at hlink
      rw [LinkTree.lookup, if_neg hroot]
      exact hlink
    obtain ⟨hfind, hdir⟩ := hnode absolute target hmoved
    have hwalk := walk_of_follow (hnew.head htexts) hfind
    rw [hsteps] at hwalk
    have hshort : spelled [step] = [] := by
      have hlen := congrArg List.length (hend.trans (List.append_nil _).symm)
      have hle := (spelled_isPrefix hpre).length_le
      rw [literalLoc, hsteps, spelled_append, List.length_append, List.length_append] at hlen
      exact List.length_eq_zero_iff.1 (by simp only [List.length_nil] at hlen; omega)
    cases step with
    | here => exact hdir (walk_here htexts.slot_up hways.slot hwalk)
    | up =>
      rw [hup rfl] at hdots
      cases hdots
    | name n => cases hshort

/-- A rename that is carried out: a directory takes the place of a directory at most, and anything
else that of no directory. -/
structure Moves (io : LinkedIo) (t : Links) (old new : CStr) (src dst : Loc) (n : LinkNode CStr Content) :
    Prop where
  source : entry io t old = some src
  node : t.lookup src = some n
  dots : endsInDots new = false
  target : n = .dir ∧ entry io t new = some dst ∨
    n ≠ .dir ∧ find io t new false = some dst ∧ t.lookup dst ≠ some .dir
  outside : ¬ src <+: dst
  above : ¬ dst <+: src

theorem rename_cases (s : Traced) (old new : CStr) : (rename io s old new).2 = s ∨
    ∃ src dst n, Moves io s.tree old new src dst n ∧
      (n = .dir → s.tree.lookup dst = none ∨
        s.tree.lookup dst = some .dir ∧ ∀ name rest, s.tree.node (dst ++ name :: rest) = none) ∧
      rename io s old new = (true, s.change [src, dst] (moveTree s.tree src dst)) := by
  cases hsrc : entry io s.tree old with
  | none => exact .inl (by rw [rename, hsrc])
  | some src =>
    cases hn : s.tree.lookup src with
    | none => exact .inl (by simp only [rename, hsrc, hn])
    | some n =>
      cases hdots : endsInDots new with
      | true => exact .inl (by simp [rename, hsrc, hn, hdots])
      | false =>
        cases hdst : (if n = .dir then entry io s.tree new else find io s.tree new false) with
        | none => exact .inl (by simp only [rename, hsrc, hn, hdst]; split <;> rfl)
        | some dst =>
          generalize hr : rename io s old new = r
          simp only [rename, hsrc, hn, hdots, hdst] at hr
          split at hr
          · exact .inl (hr ▸ rfl)
          · split at hr
            · exact .inl (hr ▸ rfl)
            · split at hr
              · exact .inl (hr ▸ rfl)
              · next hbelow =>
                rw [not_or, not_or] at hbelow
                have hmoved (hto : n = .dir ∧ entry io s.tree new = some dst ∨
                    n ≠ .dir ∧ find io s.tree new false = some dst ∧ s.tree.lookup dst ≠ some .dir)
                    (hroom : n = .dir → s.tree.lookup dst = none ∨
                      s.tree.lookup dst = some .dir ∧ ∀ name rest, s.tree.node (dst ++ name :: rest) = none)
                    (hr : (true, s.change [src, dst] (moveTree s.tree src dst)) = r) :
                    ∃ src dst n, Moves io s.tree old new src dst n ∧
                      (n = .dir → s.tree.lookup dst = none ∨
                        s.tree.lookup dst = some .dir ∧
                          ∀ name rest, s.tree.node (dst ++ name :: rest) = none) ∧
                      r = (true, s.change [src, dst] (moveTree s.tree src dst)) :=
                  ⟨src, dst, n, ⟨hsrc, hn, hdots, hto, hbelow.1, hbelow.2.1⟩, hroom, hr.symm⟩
                by_cases hdir : n = .dir
                · have hentry := (if_pos hdir).symm.trans hdst
                  split at hr
                  · split at hr
                    · next hempty =>
                      exact .inr (hmoved (.inl ⟨hdir, hentry⟩)
                        (fun _ => .inr ⟨by assumption, io.rmdirEmpty _ _ hempty⟩) hr)
                    · exact .inl (hr ▸ rfl)
                  · exact .inl (hr ▸ rfl)
                  · exact .inl (hr ▸ rfl)
                  · next hnone =>
                    refine .inr (hmoved (.inl ⟨hdir, hentry⟩) (fun _ => .inl ?_) hr)
                    cases htarget : s.tree.lookup dst with
                    | none => rfl
                    | some n' => exact absurd htarget (hnone n' hdir)
                · have hfind := (if_neg hdir).symm.trans hdst
                  split at hr
                  · exact absurd rfl hdir
                  · exact .inl (hr ▸ rfl)
                  · exact .inl (hr ▸ rfl)
                  · next hnodir _ _ => exact .inr (hmoved (.inr ⟨hdir, hfind, hnodir⟩) (absurd · hdir) hr)

theorem rename_reaches (htexts : PlainTexts path slot) (hways : Ways s.tree path slot)
    (hnew : Numbered slot new) : Reaches io path slot backup s (rename io s path new).2 := by
  rcases rename_cases s path new with hsame |
    ⟨src, dst, n, ⟨hsrc, hn, hdots, hdst, hbelow, habove⟩, -, hmoved⟩
  · rw [hsame]
    exact .refl hways
  · have hup := up_not_mem_walkSteps_of_pathSteps htexts.path_up
    have hnewup := hnew.up htexts hdots
    have hnewway : NoLinks s.tree (Linked.wayTo new) := by
      rw [hnew.wayTo htexts]
      exact hways.slot
    obtain rfl := entry_eq htexts.path_head hup hways.path hsrc
    have hplace : dst = literalLoc new := by
      rcases hdst with ⟨-, hdst⟩ | ⟨-, hdst, -⟩
      · exact entry_eq (hnew.head htexts) hnewup hnewway hdst
      · exact find_eq (hnew.head htexts) hnewup hnewway hdst
    subst hplace
    rw [hmoved]
    refine .change (ways_moveTree io htexts hways hnew hdots habove (fun h => hbelow (h ▸ List.nil_prefix))
      fun absolute target hlink => ?_) fun loc hloc => ?_
    · cases hn.symm.trans hlink
      exact (hdst.resolve_left fun h => nomatch h.1).2
    · rcases List.mem_cons.1 hloc with rfl | hloc
      · exact .inl rfl
      · rw [List.mem_singleton.1 hloc]
        exact .inr (.inl (hnew.below htexts))

/-- A copy writes to the place of its target, which is allowed. -/
theorem copyFile_reaches {target : CStr} (source : CStr) (hways : Ways s.tree path slot)
    (htarget : endsInDots target = false → ∀ loc, find io s.tree target false = some loc →
      Allowed io path backup (s.tree, loc)) :
    Reaches io path slot backup s (copyFile io source target s).2 := by
  unfold copyFile
  split
  · exact .refl hways
  · exact .refl hways
  · exact .refl hways
  · split
    · exact .refl hways
    · next hdots =>
      split
      · exact .refl hways
      · next loc hloc =>
        have hput (content : Content) : Reaches io path slot backup s
            { s.change [loc] (put s.tree loc (.file [])) with
              tree := put (put s.tree loc (.file [])) loc (.file content) } := by
          refine ⟨⟨noLinks_put (noLinks_put hways.path (by simp) _) (by simp) _,
            noLinks_put (noLinks_put hways.slot (by simp) _) (by simp) _⟩, fun x hx => ?_⟩
          rcases List.mem_append.1 hx with hx | hx
          · exact .inl hx
          · rw [List.mem_singleton.1 hx]
            exact .inr (htarget (by simpa using hdots) loc hloc)
        split
        · exact .refl hways
        · exact .refl hways
        · exact .refl hways
        · dsimp only
          split
          · exact .refl hways
          · split
            · split
              · exact hput _
              · exact hput _
            · exact .change ⟨noLinks_put hways.path (by simp) _, noLinks_put hways.slot (by simp) _⟩
                fun loc' hloc' => List.mem_singleton.1 hloc' ▸ htarget (by simpa using hdots) loc hloc

/-- `unlink` takes away an entry that is no directory, whose path has no slash at its end, or nothing. -/
theorem unlink_outcome (io : LinkedIo) (s : Traced) (path : CStr) : unlink io s path = (false, s) ∨
    ∃ loc, path.getLast? ≠ some slash ∧ entry io s.tree path = some loc ∧ s.tree.lookup loc ≠ some .dir ∧
      unlink io s path = (true, s.change [loc] (remove s.tree loc)) := by
  unfold unlink
  split
  · exact .inl rfl
  · next loc hentry =>
    split
    · exact .inl rfl
    · exact .inl rfl
    · next n hdir hlookup =>
      split
      · next hok =>
        simp only [Bool.and_eq_true, decide_eq_true_eq] at hok
        exact .inr ⟨loc, hok.1, hentry, fun h => hdir (Option.some.inj (hlookup.symm.trans h)), rfl⟩
      · exact .inl rfl

/-- `rmdir` takes away an empty directory, or nothing. -/
theorem rmdir_outcome (io : LinkedIo) (s : Traced) (path : CStr) : (rmdir io s path).2 = s ∨
    ∃ loc, entry io s.tree path = some loc ∧ s.tree.lookup loc = some .dir ∧
      (∀ name rest, s.tree.node (loc ++ name :: rest) = none) ∧
        (rmdir io s path).2 = s.change [loc] (remove s.tree loc) := by
  unfold rmdir
  split
  · exact .inl rfl
  · next loc hentry =>
    split
    · next h =>
      simp only [Bool.and_eq_true, decide_eq_true_eq] at h
      exact .inr ⟨loc, hentry, h.1.1.1, io.rmdirEmpty _ _ h.2, rfl⟩
    · exact .inl rfl

theorem unlink_reaches {name : CStr} (hways : Ways s.tree path slot)
    (hname : ∀ loc, entry io s.tree name = some loc → Allowed io path backup (s.tree, loc)) :
    Reaches io path slot backup s (unlink io s name).2 := by
  rcases unlink_outcome io s name with hnone | ⟨loc, -, hloc, -, hgone⟩
  · rw [hnone]
    exact .refl hways
  · rw [hgone]
    exact .change ⟨noLinks_remove hways.path _, noLinks_remove hways.slot _⟩
      fun loc' hloc' => List.mem_singleton.1 hloc' ▸ hname loc hloc

theorem rmdir_reaches {name : CStr} (hways : Ways s.tree path slot)
    (hname : ∀ loc, entry io s.tree name = some loc → Allowed io path backup (s.tree, loc)) :
    Reaches io path slot backup s (rmdir io s name).2 := by
  rcases rmdir_outcome io s name with hnone | ⟨loc, hloc, -, -, hgone⟩
  · rw [hnone]
    exact .refl hways
  · rw [hgone]
    exact .change ⟨noLinks_remove hways.path _, noLinks_remove hways.slot _⟩
      fun loc' hloc' => List.mem_singleton.1 hloc' ▸ hname loc hloc

/-- The entry of the path is its own place. -/
theorem entry_allowed (htexts : PlainTexts path slot) (hways : Ways t path slot) :
    ∀ loc, entry io t path = some loc → Allowed io path backup (t, loc) := fun _ hloc =>
  .inl (entry_eq htexts.path_head (up_not_mem_walkSteps_of_pathSteps htexts.path_up) hways.path hloc)

/-! ## The quarantine -/

theorem moveToQuarantine_reaches (htexts : PlainTexts path slot) (hways : Ways s.tree path slot)
    (isRegular : Bool) : Reaches io path slot backup s (moveToQuarantine io path slot isRegular s).2 := by
  have hmk : Reaches io path slot backup s (mkdirP io s (Fs.parentPath slot)).2 :=
    mkdirP_reaches htexts hways (.inr (List.prefix_refl _)) htexts.slot_length
  unfold moveToQuarantine
  dsimp only
  generalize (mkdirP io s (Fs.parentPath slot)).2 = s₁ at hmk ⊢
  have hnew : Numbered slot (quarantineUnique io s₁.tree slot) :=
    quarantineUnique_eq io s₁.tree htexts.slot_length
  generalize quarantineUnique io s₁.tree slot = new at hnew ⊢
  have hrename : Reaches io path slot backup s₁ (rename io s₁ path new).2 :=
    rename_reaches htexts hmk.ways hnew
  split
  · next s₂ heq =>
    rw [heq] at hrename
    exact hmk.trans hrename
  · next s₂ heq =>
    rw [heq] at hrename
    split
    · have hcopy : Reaches io path slot backup s₂ (copyFile io path new s₂).2 :=
        copyFile_reaches path hrename.ways fun hdots loc hloc => by
          have hway : NoLinks s₂.tree (Linked.wayTo new) := by
            rw [hnew.wayTo htexts]
            exact hrename.ways.slot
          rw [find_eq (hnew.head htexts) (hnew.up htexts hdots) hway hloc]
          exact .inr (.inl (hnew.below htexts))
      split
      · next s₃ heq =>
        rw [heq] at hcopy
        exact hmk.trans (hrename.trans hcopy)
      · next s₃ heq =>
        rw [heq] at hcopy
        exact hmk.trans (hrename.trans (hcopy.trans
          (unlink_reaches hcopy.ways (entry_allowed htexts hcopy.ways))))
    · exact hmk.trans hrename

theorem quarantineCurrent_reaches {eventId : CStr} (htexts : PlainTexts path (slotBase eventId path))
    (hways : Ways s.tree path (slotBase eventId path)) :
    Reaches io path (slotBase eventId path) backup s (quarantineCurrent io eventId path s) := by
  unfold quarantineCurrent
  split
  · exact .refl hways
  · split
    · exact .refl hways
    · next hfits =>
      have hslot : quarantineFor eventId path = slotBase eventId path :=
        (snprintf_of_lt (by omega)).symm
      rw [hslot]
      exact moveToQuarantine_reaches htexts hways _

/-! ## The rows -/

/-- The texts of a row that is accepted. -/
theorem PlainRow.texts {eventId : CStr} (h : PlainRow t eventId path) :
    PlainTexts path (slotBase eventId path) := by
  obtain ⟨hhead, hdots⟩ := validRestorePath_dots h.valid
  obtain ⟨rel, rfl⟩ := List.head?_eq_some_iff.1 hhead
  let full := quarantineFor eventId (slash :: rel)
  have hfull : full = quarantinePath ++ slash :: (eventId ++ slash :: rel) := by
    simp [full, quarantineFor]
  have hslot : slotBase eventId (slash :: rel) = quarantinePath ++
      slash :: (eventId ++ slash :: rel).take (pathMax - 1 - quarantinePath.length - 1) := by
    have hroom : pathMax - 1 - quarantinePath.length = pathMax - 1 - quarantinePath.length - 1 + 1 := by
      decide
    rw [slotBase, show quarantineFor eventId (slash :: rel) = _ from hfull, snprintf, List.take_append,
      List.take_of_length_le (by decide), hroom, List.take_succ_cons]
    rfl
  have hslash : slash ∈ slotBase eventId (slash :: rel) := by
    rw [hslot]
    simp
  refine ⟨rfl, up_not_mem_pathSteps.2 hdots, ?_, ?_, ?_, length_snprintf_lt (by decide) _⟩
  · rw [hslot, List.head?_append, show quarantinePath.head? = some slash by decide, Option.some_or]
  · refine up_not_mem_wayTo hslash (List.take_prefix _ full) fun hmem => ?_
    rw [hfull, pathComponents_append_slash, pathComponents_append_slash, List.mem_append,
      List.mem_append] at hmem
    rcases hmem with hmem | hmem | hmem
    · exact absurd hmem (by decide)
    · exact h.event hmem
    · exact hdots (by rwa [pathComponents_slash_cons])
  · rw [hslot]
    exact spelled_isPrefix (pathSteps_isPrefix_wayTo _ _)

theorem restoreOne_confined {st : LinkedState} {pf : ProtectedFile}
    (h : PlainRow st.fs.tree pf.eventId pf.originalPath) :
    Confined io pf.originalPath (some pf.backupPath) st.fs (restoreOne io st pf).fs := by
  have htexts := h.texts
  have hquarantine : Reaches io pf.originalPath (slotBase pf.eventId pf.originalPath)
      (some pf.backupPath) st.fs (quarantineCurrent io pf.eventId pf.originalPath st.fs) :=
    quarantineCurrent_reaches htexts h.ways
  unfold restoreOne
  dsimp only
  split
  · exact fun x => .inl
  · split
    · exact fun x => .inl
    · generalize quarantineCurrent io pf.eventId pf.originalPath st.fs = s₁ at hquarantine ⊢
      have hmk : Reaches io pf.originalPath (slotBase pf.eventId pf.originalPath) (some pf.backupPath)
          s₁ (mkdirP io s₁ (Fs.parentPath (snprintf pathMax pf.originalPath))).2 := by
        have hslash : slash ∈ snprintf pathMax pf.originalPath := by
          obtain ⟨rel, hrel⟩ := List.head?_eq_some_iff.1 htexts.path_head
          rw [hrel]
          exact List.mem_cons_self
        exact mkdirP_reaches htexts hquarantine.ways
          (.inl (wayTo_isPrefix hslash (List.take_prefix _ _))) (length_snprintf_lt (by decide) _)
      generalize (mkdirP io s₁ (Fs.parentPath (snprintf pathMax pf.originalPath))).2 = s₂ at hmk ⊢
      have hcopy : Reaches io pf.originalPath (slotBase pf.eventId pf.originalPath)
          (some pf.backupPath) s₂ (copyFile io pf.backupPath pf.originalPath s₂).2 :=
        copyFile_reaches _ hmk.ways fun _ loc hloc => .inl (find_eq htexts.path_head
          (up_not_mem_walkSteps_of_pathSteps htexts.path_up) hmk.ways.path hloc)
      split
      · next s₃ heq =>
        rw [heq] at hcopy
        exact (hquarantine.trans (hmk.trans hcopy)).confined
      · next s₃ heq =>
        rw [heq] at hcopy
        exact (hquarantine.trans (hmk.trans (hcopy.trans (unlink_reaches hcopy.ways
          fun loc hloc => .inr (.inr (.inl ⟨_, rfl, hloc⟩)))))).confined

theorem deleteCreatedOne_confined {st : LinkedState} {eventId : CStr} {cf : CreatedFile}
    (h : PlainRow st.fs.tree eventId cf.filePath) :
    Confined io cf.filePath none st.fs (deleteCreatedOne io eventId st cf).fs := by
  have htexts := h.texts
  unfold deleteCreatedOne
  dsimp only
  split
  · exact fun x => .inl
  · have hdone (r : Bool × Traced) (hr : Confined io cf.filePath none st.fs r.2) :
        Confined io cf.filePath none st.fs (if r.1 then { st with fs := r.2, deleted := st.deleted + 1 }
          else { st with fs := r.2, deleteFailed := st.deleteFailed + 1 } : LinkedState).fs := by
      split <;> exact hr
    split
    · exact fun x => .inl
    · exact hdone _ (moveToQuarantine_reaches htexts h.ways true).confined
    · exact hdone _ (unlink_reaches h.ways (entry_allowed htexts h.ways)).confined
    · exact hdone _ (rmdir_reaches h.ways (entry_allowed htexts h.ways)).confined
    · exact fun x => .inl

/-- Restoring a row and deleting a created file change what their rows allow, where no link stands on
the ways to their paths and slots. -/
theorem recovery_confined (io : LinkedIo) (st : LinkedState) (pf : ProtectedFile) (eventId : CStr)
    (cf : CreatedFile) (hpf : PlainRow st.fs.tree pf.eventId pf.originalPath)
    (hcf : PlainRow st.fs.tree eventId cf.filePath) :
    Confined io pf.originalPath (some pf.backupPath) st.fs (restoreOne io st pf).fs ∧
      Confined io cf.filePath none st.fs (deleteCreatedOne io eventId st cf).fs :=
  ⟨restoreOne_confined hpf, deleteCreatedOne_confined hcf⟩

end

end

/-! ## A directory replaced by a link -/

/-- Every call succeeds. -/
def sampleIo : LinkedIo where
  cwd := []
  mkdirOk _ := true
  renameOk _ _ := true
  createOk _ := true
  copyOk := true
  copied := 0
  unlinkOk _ := true
  rmdirOk _ _ := false
  rmdirEmpty _ _ h := nomatch h
  now := lit "now"

/-- A tree with a preimage and the password file, and something at `/srv/home`. -/
def sampleLinks (home : LinkNode CStr Content) : Links where
  node loc :=
    if loc = [lit "srv", lit "home"] then some home
    else if loc = [lit "etc", lit "passwd"] then some (.file (lit "root"))
    else if loc = [lit "bk", lit "f"] then some (.file (lit "old"))
    else if loc ∈ [[lit "srv"], [lit "etc"], [lit "bk"]] then some .dir
    else none

/-- The state before the recovery. -/
def sampleState (home : LinkNode CStr Content) : LinkedState :=
  ⟨⟨sampleLinks home, []⟩, ⟨[], [], [], 0, 0, 0⟩, 0, 0, 0, 0, 0⟩

/-- A pending row with a preimage. -/
def sampleRow (eventId path : CStr) : ProtectedFile where
  id := 1
  eventId := eventId
  originalPath := path
  backupPath := lit "/bk/f"
  shareName := []
  username := []
  clientIp := []
  inode := 0
  mtime := 0
  fileSize := 0
  fileUid := 0
  fileGid := 0
  fileMode := 0
  opType := 0
  protectedAt := []
  restoreStatus := lit "pending"
  restoredAt := none

/-- A created file. -/
def sampleCreated (path : CStr) : CreatedFile := ⟨1, lit "e", path, [], [], [], []⟩

/-- No link stands anywhere. -/
theorem sampleLinks_noLinks (way : List (PathStep CStr)) : NoLinks (sampleLinks .dir) way := by
  intro pre _ absolute target
  unfold LinkTree.lookup sampleLinks
  dsimp only
  split_ifs <;> exact nofun

theorem sampleLinks_plainRow {eventId path : CStr} (hvalid : validRestorePath path = true)
    (hevent : lit ".." ∉ pathComponents eventId) : PlainRow (sampleLinks .dir) eventId path :=
  ⟨⟨sampleLinks_noLinks _, sampleLinks_noLinks _⟩, hvalid, hevent⟩

example : lstat sampleIo (sampleLinks (.link true [.name (lit "etc")])) (lit "/srv/home/passwd") =
    some (.file (lit "root")) := by decide +kernel

/-- Without links the recovery stays where it may. -/
theorem recovery_confined_sample :
    Confined sampleIo (lit "/srv/home/a/f") (some (lit "/bk/f")) (sampleState .dir).fs
        (restoreOne sampleIo (sampleState .dir) (sampleRow (lit "e") (lit "/srv/home/a/f"))).fs ∧
      Confined sampleIo (lit "/etc/passwd") none (sampleState .dir).fs
        (deleteCreatedOne sampleIo (lit "e") (sampleState .dir) (sampleCreated (lit "/etc/passwd"))).fs :=
  recovery_confined sampleIo (sampleState .dir) (sampleRow (lit "e") (lit "/srv/home/a/f")) (lit "e")
    (sampleCreated (lit "/etc/passwd")) (sampleLinks_plainRow (by decide +kernel) (by decide +kernel))
    (sampleLinks_plainRow (by decide +kernel) (by decide +kernel))

/-- A missing directory on the way is made, an event whose id leads upwards has its slot outside of
the quarantine, and with `/srv/home` replaced by a link to `/etc` the password file is moved away and
overwritten. -/
theorem recovery_not_confined :
    ¬ OnlyRecorded sampleIo (lit "/srv/home/a/f") (some (lit "/bk/f")) (sampleState .dir).fs
        (restoreOne sampleIo (sampleState .dir) (sampleRow (lit "e") (lit "/srv/home/a/f"))).fs ∧
      ¬ OnlyRecorded sampleIo (lit "/etc/passwd") (some (lit "/bk/f")) (sampleState .dir).fs
        (restoreOne sampleIo (sampleState .dir) (sampleRow (lit "..") (lit "/etc/passwd"))).fs ∧
      ¬ OnlyRecorded sampleIo (lit "/srv/home/passwd") (some (lit "/bk/f"))
        (sampleState (.link true [.name (lit "etc")])).fs
        (restoreOne sampleIo (sampleState (.link true [.name (lit "etc")]))
          (sampleRow (lit "e") (lit "/srv/home/passwd"))).fs := by
  refine ⟨fun h => ?_, fun h => ?_, fun h => ?_⟩
  · have hmade := (h _ (List.getElem_mem (n := 0) (by decide +kernel))).resolve_left List.not_mem_nil
    revert hmade
    decide +kernel
  · have hmade := (h _ (List.getElem_mem (n := 5) (by decide +kernel))).resolve_left List.not_mem_nil
    revert hmade
    decide +kernel
  · have hmoved := (h _ (List.getElem_mem (n := 8) (by decide +kernel))).resolve_left List.not_mem_nil
    revert hmoved
    decide +kernel

end Linked

end GfrGuard
