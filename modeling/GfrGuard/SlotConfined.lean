import GfrGuard.Confined
import GfrGuard.Lib.Lexical
import GfrGuard.Daemon

/-!
# Quarantine paths in normal form

`valid_restore_path` looks for `..` between two slashes and at the end, which finds every component
`..` of an absolute path (`validRestorePath_iff`). A path without one leads below the directory of
the event, whatever is before it. The path in the quarantine may be another text: `restore_one` skips
one that does not fit, but `delete_created_one` cuts it, inside a component, and `quarantine_unique`
leaves the cut text of a number in the buffer. Either can make a last component `..` of one that was
not, and where all others are `.` that leads out of the directory (`CutToDots`, `DotSuffixed`).
-/

namespace GfrGuard

namespace Linked

open LexicalPath

/-! ## The path that is used -/

/-- The loop of `quarantine_unique`, by what `lstat` finds. -/
def uniqueSlotOn (taken : CStr → Bool) (base : CStr) : CStr → List Nat → CStr
  | path, [] => path
  | _, i :: is =>
    let slot := base ++ dot :: dec i
    -- no room: what fits stays in the buffer
    if pathMax ≤ slot.length then snprintf pathMax slot
    else if taken slot = false then slot
    else uniqueSlotOn taken base slot is

/-- `quarantine_unique`, by what `lstat` finds. -/
def quarantineUniqueOn (taken : CStr → Bool) (path : CStr) : CStr :=
  if taken path = false then path else uniqueSlotOn taken path path (List.range' 1 99)

/-- The path `restore_one` moves the current file to; none when it does not fit. -/
def restoreSlot (taken : CStr → Bool) (eventId path : CStr) : Option CStr :=
  if pathMax ≤ (quarantineFor eventId path).length then none
  else some (quarantineUniqueOn taken (quarantineFor eventId path))

/-- The path `delete_created_one` moves a file to. -/
def deleteSlot (taken : CStr → Bool) (eventId path : CStr) : CStr :=
  quarantineUniqueOn taken (snprintf pathMax (quarantineFor eventId path))

section
variable (io : LinkedIo)

/-- What `lstat` finds in a tree. -/
def takenIn (t : Links) (path : CStr) : Bool := (lstat io t path).isSome

/-- The move once its target is chosen. -/
def moveTo (path slot : CStr) (isRegular : Bool) (s : Traced) : Bool × Traced :=
  match rename io s path slot with
  | (true, s) => (true, s)
  | (false, s) =>
    if isRegular then
      match copyFile io path slot s with
      | (false, s) => (false, s)
      | (true, s) => unlink io s path
    else (false, s)

theorem uniqueSlot_eq_on (t : Links) (base path : CStr) (is : List Nat) :
    uniqueSlot io t base path is = uniqueSlotOn (takenIn io t) base path is := by
  induction is generalizing path with
  | nil => rfl
  | cons i is ih =>
    unfold uniqueSlot uniqueSlotOn
    simp only [ih, takenIn, Option.isSome_eq_false_iff, Option.isNone_iff_eq_none]

theorem quarantineUnique_eq_on (t : Links) (path : CStr) :
    quarantineUnique io t path = quarantineUniqueOn (takenIn io t) path := by
  unfold quarantineUnique quarantineUniqueOn
  simp only [uniqueSlot_eq_on, takenIn, Option.isSome_eq_false_iff, Option.isNone_iff_eq_none]

/-- `restore_one` moves what stands at a path to its slot, as the tree is when the directories are
made. -/
theorem quarantineCurrent_eq (eventId path : CStr) (s : Traced) :
    quarantineCurrent io eventId path s =
      match lstat io s.tree path with
      | none => s
      | some cur =>
        let made := (mkdirP io s (Fs.parentPath (quarantineFor eventId path))).2
        match restoreSlot (takenIn io made.tree) eventId path with
        | none => s
        | some slot => (moveTo io path slot (isRegular cur) made).2 := by
  unfold quarantineCurrent
  cases lstat io s.tree path with
  | none => rfl
  | some cur =>
    unfold restoreSlot moveToQuarantine
    dsimp only
    rw [quarantineUnique_eq_on]
    split <;> rfl

/-- `delete_created_one` moves a regular file to its slot. -/
theorem deleteCreatedOne_eq (eventId : CStr) (s : LinkedState) (cf : CreatedFile) (content : Content)
    (hvalid : validRestorePath cf.filePath = true) (hfile : lstat io s.fs.tree cf.filePath = some (.file content)) :
    deleteCreatedOne io eventId s cf =
      let made := (mkdirP io s.fs (Fs.parentPath (snprintf pathMax (quarantineFor eventId cf.filePath)))).2
      let r := moveTo io cf.filePath (deleteSlot (takenIn io made.tree) eventId cf.filePath) true made
      if r.1 then { s with fs := r.2, deleted := s.deleted + 1 }
      else { s with fs := r.2, deleteFailed := s.deleteFailed + 1 } := by
  unfold deleteCreatedOne deleteSlot
  rw [hvalid, hfile]
  simp only [Bool.not_true, Bool.false_eq_true, if_false, ← quarantineUnique_eq_on]
  rfl

end

/-! ## Inside the directory of an event -/

/-- The normal form of an absolute path. -/
def normalForm (path : CStr) : NormalPath CStr :=
  normalize (lit ".") (lit "..") true (pathComponents path)

/-- A path leads to the quarantine directory of an event, or below it. -/
def StaysIn (eventId slot : CStr) : Prop :=
  (normalForm (quarantinePath ++ slash :: eventId)).names <+: (normalForm slot).names

/-- The bytes of a path, with its first slash, for which there is room in the quarantine path. -/
def roomFor (eventId : CStr) : Nat := pathMax - (quarantinePath.length + eventId.length + 2)

/-- The quarantine path does not fit, and of the path there is left a last component `..` after none,
or some `.`. -/
def CutToDots (eventId path : CStr) : Prop :=
  pathMax ≤ (quarantineFor eventId path).length ∧
    ∃ n, pathComponents (path.take (roomFor eventId)) = List.replicate n (lit ".") ++ [lit ".."]

/-- The quarantine path leaves room for one byte, something stands there, and the path is one of `.`
alone that ends in one. -/
def DotSuffixed (taken : CStr → Bool) (eventId path : CStr) : Prop :=
  (quarantineFor eventId path).length + 2 = pathMax ∧ taken (quarantineFor eventId path) = true ∧
    (∀ c ∈ pathComponents path, c = lit ".") ∧ path.getLast? = some dot

section
variable {path rel suffix eventId base : CStr} {taken : CStr → Bool}

/-- The tool accepts an absolute path that has no component `..` between its slashes. -/
theorem validRestorePath_iff :
    validRestorePath path = true ↔ path.head? = some slash ∧ lit ".." ∉ path.splitOn slash := by
  have hmem : lit ".." ∈ pathComponents path ↔ lit ".." ∈ path.splitOn slash := by
    unfold pathComponents SepText.components
    rw [List.mem_filter]
    exact and_iff_left (by decide)
  rw [← hmem]
  exact ⟨validRestorePath_dots, fun h => validRestorePath_of_dots h.1 h.2⟩

/-! ## What is appended to a path -/

/-- A path is a way and a last name, which is empty behind a slash. -/
theorem exists_last_name (rel : CStr) : ∃ way name cs, rel = way ++ name ∧ slash ∉ name ∧
    (∀ x, pathComponents (way ++ x) = cs ++ pathComponents x) ∧
      (name = [] → rel = [] ∨ rel.getLast? = some slash) := by
  by_cases hslash : slash ∈ rel
  · obtain ⟨name, hrel, hname⟩ := parentPath_split hslash
    refine ⟨Fs.parentPath rel ++ [slash], name, pathComponents (Fs.parentPath rel), ?_, hname, fun x => ?_, ?_⟩
    · rw [List.append_assoc]
      exact hrel
    · rw [List.append_assoc, List.singleton_append, pathComponents_append_slash]
    · rintro rfl
      right
      rw [hrel]
      simp
  · exact ⟨[], rel, [], rfl, hslash, fun _ => rfl, fun h => .inl h⟩

/-- The components of a path that is continued inside its last one. -/
theorem dots_not_mem_dropLast (h : lit ".." ∉ pathComponents (rel ++ suffix)) :
    lit ".." ∉ (pathComponents rel).dropLast := by
  obtain ⟨way, name, cs, rfl, hname, hcomps, -⟩ := exists_last_name rel
  rw [List.append_assoc, hcomps] at h
  rw [hcomps]
  have hcs : lit ".." ∉ cs := fun hmem => h (List.mem_append_left _ hmem)
  by_cases hnil : name = []
  · rw [hnil, pathComponents_nil, List.append_nil]
    exact fun hmem => hcs (List.mem_of_mem_dropLast hmem)
  · rw [pathComponents_name hname hnil, List.dropLast_concat]
    exact hcs

/-- A dot and a digit make no `..` of a last component. -/
theorem dots_not_mem_numbered {d : UInt8} {rest : CStr} (hd : isDigit d = true) (hrest : slash ∉ rest)
    (h : lit ".." ∉ pathComponents rel) : lit ".." ∉ pathComponents (rel ++ dot :: d :: rest) := by
  obtain ⟨way, name, cs, rfl, hname, hcomps, -⟩ := exists_last_name rel
  have hone : pathComponents (name ++ dot :: d :: rest) = [name ++ dot :: d :: rest] := by
    refine pathComponents_name ?_ (by simp)
    simp only [List.mem_append, List.mem_cons, not_or]
    refine ⟨hname, by decide, ?_, hrest⟩
    rintro rfl
    cases hd
  rw [hcomps, List.mem_append, not_or] at h
  rw [List.append_assoc, hcomps, hone, List.mem_append, List.mem_singleton, not_or]
  refine ⟨h.1, fun heq => ?_⟩
  have hmem : d ∈ lit ".." := by
    rw [heq]
    simp
  rw [show lit ".." = [dot, dot] by decide] at hmem
  rcases List.mem_cons.1 hmem with rfl | hmem
  · cases hd
  · rw [List.mem_singleton.1 hmem] at hd
    cases hd

/-- One more dot makes a last component `..` of `.`. -/
theorem dot_suffix_iff (h : lit ".." ∉ pathComponents rel) :
    (∃ n, pathComponents (rel ++ [dot]) = List.replicate n (lit ".") ++ [lit ".."]) ↔
      (∀ c ∈ pathComponents rel, c = lit ".") ∧ rel.getLast? = some dot := by
  obtain ⟨way, name, cs, rfl, hname, hcomps, hnil⟩ := exists_last_name rel
  have hone : pathComponents (name ++ [dot]) = [name ++ [dot]] := by
    refine pathComponents_name ?_ (by simp)
    rw [List.mem_append, List.mem_singleton, not_or]
    exact ⟨hname, by decide⟩
  have hdots : name ++ [dot] = lit ".." ↔ name = lit "." := by
    rw [show lit ".." = lit "." ++ [dot] by decide, List.append_left_inj]
  rw [List.append_assoc, hcomps, hone, hcomps]
  constructor
  · rintro ⟨n, heq⟩
    obtain ⟨hcs, hlast⟩ := List.append_inj' heq rfl
    rw [List.cons.injEq, hdots] at hlast
    obtain ⟨rfl, -⟩ := hlast
    refine ⟨fun c hc => ?_, ?_⟩
    · rw [hcs, pathComponents_name (by decide) (by decide)] at hc
      rcases List.mem_append.1 hc with hc | hc
      · exact List.eq_of_mem_replicate hc
      · exact List.mem_singleton.1 hc
    · rw [show lit "." = [dot] by decide]
      simp
  · rintro ⟨hall, hlast⟩
    have hne : name ≠ [] := by
      intro heq
      rcases hnil heq with hrel | hrel
      · rw [hrel] at hlast
        cases hlast
      · rw [hrel] at hlast
        cases hlast
    rw [pathComponents_name hname hne] at hall
    have hdot : name = lit "." := hall name (by simp)
    refine ⟨cs.length, ?_⟩
    rw [hdots.2 hdot, List.append_left_inj]
    exact List.eq_replicate_of_mem fun c hc => hall c (List.mem_append_left _ hc)

/-! ## What `quarantine_unique` appends -/

/-- Where there is room for two bytes a number of at least one digit is appended. -/
theorem uniqueSlotOn_numbered (hbase : base.length + 2 < pathMax) {path : CStr} {is : List Nat}
    (hpath : is = [] → ∃ d rest, isDigit d = true ∧ slash ∉ rest ∧ path = base ++ dot :: d :: rest) :
    ∃ d rest, isDigit d = true ∧ slash ∉ rest ∧ uniqueSlotOn taken base path is = base ++ dot :: d :: rest := by
  induction is generalizing path with
  | nil => exact hpath rfl
  | cons i is ih =>
    obtain ⟨d, ds, hdec⟩ := List.exists_cons_of_ne_nil (dec_ne_nil i)
    have hd : isDigit d = true := isDigit_of_mem_dec (n := i) (by simp [hdec])
    have hds : slash ∉ ds := fun h => not_mem_dec (n := i) (b := slash) (by decide) (by simp [hdec, h])
    unfold uniqueSlotOn
    dsimp only
    rw [hdec]
    split
    · obtain ⟨k, hk⟩ := Nat.exists_eq_add_of_lt hbase
      refine ⟨d, ds.take k, hd, fun h => hds (List.mem_of_mem_take h), ?_⟩
      rw [snprintf, List.take_append, List.take_of_length_le (by omega),
        show pathMax - 1 - base.length = k + 2 by omega, List.take_succ_cons, List.take_succ_cons]
    · split
      · exact ⟨d, ds, hd, hds, rfl⟩
      · exact ih fun _ => ⟨d, ds, hd, hds, rfl⟩

/-- A path that is taken gets a number; where there is room for one byte only it gets the dot, and
where there is none it stays. -/
theorem quarantineUniqueOn_eq (htaken : taken base = true) (hbase : base.length < pathMax) :
    if base.length + 2 = pathMax then quarantineUniqueOn taken base = base ++ [dot]
    else if base.length + 1 = pathMax then quarantineUniqueOn taken base = base
    else ∃ d rest, isDigit d = true ∧ slash ∉ rest ∧ quarantineUniqueOn taken base = base ++ dot :: d :: rest := by
  have hunique : quarantineUniqueOn taken base = uniqueSlotOn taken base base (1 :: List.range' 2 98) := by
    unfold quarantineUniqueOn
    rw [if_neg (by simp [htaken])]
    rfl
  have hone : dec 1 = [49] := by decide
  split
  · next hroom =>
    rw [hunique, uniqueSlotOn]
    rw [hone, if_pos (by rw [List.length_append, List.length_cons, List.length_singleton]; omega), snprintf,
      List.take_append, List.take_of_length_le (by omega), show pathMax - 1 - base.length = 0 + 1 by omega,
      List.take_succ_cons, List.take_zero]
  · split
    · next hroom =>
      rw [hunique, uniqueSlotOn]
      rw [hone, if_pos (by rw [List.length_append, List.length_cons, List.length_singleton]; omega), snprintf,
        List.take_append, List.take_of_length_le (by omega), show pathMax - 1 - base.length = 0 by omega,
        List.take_zero, List.append_nil]
    · rw [hunique]
      exact uniqueSlotOn_numbered (by omega) fun h => by cases h

/-! ## Where the slots lead -/

/-- The quarantine path of an event and the rest of a path. -/
def slotPath (eventId rel : CStr) : CStr := quarantinePath ++ slash :: eventId ++ slash :: rel

theorem quarantineFor_slash_cons (eventId rel : CStr) : quarantineFor eventId (slash :: rel) = slotPath eventId rel := rfl

theorem slotPath_append (eventId rel suffix : CStr) : slotPath eventId (rel ++ suffix) = slotPath eventId rel ++ suffix := by
  simp [slotPath]

theorem length_slotPath (eventId rel : CStr) :
    (slotPath eventId rel).length = quarantinePath.length + eventId.length + 2 + rel.length := by
  simp only [slotPath, List.length_append, List.length_cons]
  omega

/-- A path behind the directory of an event, of which only the last component may be `..`, leads out of
it exactly when it is that and no name stands before. -/
theorem staysIn_slotPath_iff (hid : IsEventId eventId) (hup : lit ".." ∉ (pathComponents rel).dropLast) :
    StaysIn eventId (slotPath eventId rel) ↔
      ¬ ∃ n, pathComponents rel = List.replicate n (lit ".") ++ [lit ".."] := by
  obtain ⟨tail, rfl, htail, -⟩ := hid
  have hslash : slash ∉ lit "evt-" ++ tail := fun h => by
    rcases List.mem_append.1 h with h | h
    · exact absurd h (by decide)
    · rcases htail slash h with h | h <;> cases h
  have hhead : (lit "evt-" ++ tail).head? = some 101 := rfl
  have hcomps : pathComponents (quarantinePath ++ slash :: (lit "evt-" ++ tail)) =
      pathComponents quarantinePath ++ [lit "evt-" ++ tail] := by
    rw [pathComponents_append_slash, pathComponents_name hslash (by simp [lit])]
  have hdots : lit ".." ∉ pathComponents (quarantinePath ++ slash :: (lit "evt-" ++ tail)) := by
    rw [hcomps, List.mem_append, List.mem_singleton, not_or]
    refine ⟨by decide, fun h => ?_⟩
    rw [← h] at hhead
    cases hhead
  have hdir : (normalForm (quarantinePath ++ slash :: (lit "evt-" ++ tail))).names ≠ [] := by
    unfold normalForm
    rw [normalize_of_not_mem true hdots, hcomps]
    refine List.ne_nil_of_mem (a := lit "evt-" ++ tail) (List.mem_filter.2 ⟨by simp, ?_⟩)
    rw [decide_eq_true_eq]
    rintro h
    rw [h] at hhead
    cases hhead
  unfold StaysIn slotPath
  have hne : lit ".." ≠ lit "." := by decide
  rw [← names_prefix_append_iff hdir hup hne]
  unfold normalForm
  rw [pathComponents_append_slash _ rel, normalize_append]

/-- A path without `..` leads below the directory of an event. -/
theorem staysIn_slotPath (hid : IsEventId eventId) (hup : lit ".." ∉ pathComponents rel) :
    StaysIn eventId (slotPath eventId rel) := by
  refine (staysIn_slotPath_iff hid fun h => hup (List.mem_of_mem_dropLast h)).2 ?_
  rintro ⟨n, h⟩
  exact hup (h ▸ List.mem_append_right _ List.mem_cons_self)

theorem getLast?_slash_cons (rel : CStr) : (slash :: rel).getLast? = some dot ↔ rel.getLast? = some dot := by
  cases rel with
  | nil => exact iff_of_false (by decide) (by decide)
  | cons b rel => rw [List.getLast?_cons_cons]

/-- What `quarantine_unique` makes of a path that fits. -/
theorem staysIn_unique_iff (hid : IsEventId eventId) (hup : lit ".." ∉ pathComponents rel)
    (hfits : (slotPath eventId rel).length < pathMax) :
    StaysIn eventId (quarantineUniqueOn taken (slotPath eventId rel)) ↔
      ¬ DotSuffixed taken eventId (slash :: rel) := by
  unfold DotSuffixed
  rw [quarantineFor_slash_cons, pathComponents_slash_cons, getLast?_slash_cons]
  cases htaken : taken (slotPath eventId rel) with
  | false =>
    rw [quarantineUniqueOn, if_pos htaken]
    exact iff_of_true (staysIn_slotPath hid hup) fun h => by cases h.2.1
  | true =>
    have hunique := quarantineUniqueOn_eq htaken hfits
    split_ifs at hunique with htwo hone
    · have hdrop : lit ".." ∉ (pathComponents (rel ++ [dot])).dropLast := by
        have hnumbered : lit ".." ∉ pathComponents (rel ++ [dot] ++ [48]) := by
          rw [List.append_assoc]
          exact dots_not_mem_numbered (by decide) List.not_mem_nil hup
        exact dots_not_mem_dropLast hnumbered
      rw [hunique, ← slotPath_append, staysIn_slotPath_iff hid hdrop, dot_suffix_iff hup]
      exact not_congr ⟨fun h => ⟨htwo, rfl, h⟩, fun h => h.2.2⟩
    · rw [hunique]
      exact iff_of_true (staysIn_slotPath hid hup) fun h => htwo h.1
    · obtain ⟨d, rest, hd, hrest, hslot⟩ := hunique
      rw [hslot, ← slotPath_append]
      exact iff_of_true (staysIn_slotPath hid (dots_not_mem_numbered hd hrest hup)) fun h => htwo h.1

/-- An accepted path has a slash before the rest, which has no `..`. -/
theorem exists_rel_of_valid (hvalid : validRestorePath path = true) :
    ∃ rel, path = slash :: rel ∧ lit ".." ∉ pathComponents rel := by
  obtain ⟨hhead, hup⟩ := validRestorePath_dots hvalid
  obtain ⟨rel, rfl⟩ := List.head?_eq_some_iff.1 hhead
  exact ⟨rel, rfl, by rwa [pathComponents_slash_cons] at hup⟩

/-- The slot of `restore_one` stays in the directory of the event, the case of the dot apart. -/
theorem restoreSlot_staysIn_iff (hid : IsEventId eventId) (hvalid : validRestorePath path = true) :
    (∀ slot, restoreSlot taken eventId path = some slot → StaysIn eventId slot) ↔
      ¬ DotSuffixed taken eventId path := by
  obtain ⟨rel, rfl, hup⟩ := exists_rel_of_valid hvalid
  unfold restoreSlot
  rw [quarantineFor_slash_cons]
  split
  · next hlong =>
    refine iff_of_true (fun slot h => by cases h) fun h => ?_
    have hlen := h.1
    rw [quarantineFor_slash_cons] at hlen
    omega
  · next hfits =>
    rw [← staysIn_unique_iff hid hup (by omega)]
    simp

/-- The slot of `delete_created_one` may also be cut to one that leads out of it. -/
theorem deleteSlot_staysIn_iff (hid : IsEventId eventId) (hvalid : validRestorePath path = true) :
    StaysIn eventId (deleteSlot taken eventId path) ↔
      ¬ DotSuffixed taken eventId path ∧ ¬ CutToDots eventId path := by
  obtain ⟨rel, rfl, hup⟩ := exists_rel_of_valid hvalid
  unfold deleteSlot CutToDots
  rw [quarantineFor_slash_cons]
  by_cases hfits : (slotPath eventId rel).length < pathMax
  · rw [snprintf_of_lt hfits, staysIn_unique_iff hid hup hfits]
    exact (and_iff_left fun h => by omega).symm
  · have hlen := length_slotPath eventId rel
    have hmax : pathMax = 4096 := rfl
    have hquarantine : quarantinePath.length = 39 := by decide
    have hidlen : eventId.length < 32 := by
      obtain ⟨-, -, -, h⟩ := hid
      exact h
    obtain ⟨m, hm⟩ : ∃ m, pathMax - 1 = quarantinePath.length + eventId.length + 2 + m :=
      Nat.exists_eq_add_of_le (by omega)
    have hroom : roomFor eventId = m + 1 := by
      unfold roomFor
      omega
    have hcut : snprintf pathMax (slotPath eventId rel) = slotPath eventId (rel.take m) := by
      have hhead : (slotPath eventId []).length = quarantinePath.length + eventId.length + 2 := by
        rw [length_slotPath, List.length_nil, Nat.add_zero]
      have hsplit (r : CStr) : slotPath eventId r = slotPath eventId [] ++ r := slotPath_append eventId [] r
      rw [snprintf, hsplit rel, hsplit (rel.take m), List.take_append, hhead, hm, Nat.add_sub_cancel_left,
        List.take_of_length_le (by omega)]
    have hfull : (slotPath eventId (rel.take m)).length + 1 = pathMax := by
      rw [← hcut, snprintf, List.length_take]
      omega
    have hsame : quarantineUniqueOn taken (slotPath eventId (rel.take m)) = slotPath eventId (rel.take m) := by
      cases htaken : taken (slotPath eventId (rel.take m)) with
      | false => exact if_pos htaken
      | true =>
        have hunique := quarantineUniqueOn_eq htaken (by omega)
        rwa [if_neg (by omega), if_pos hfull] at hunique
    have hdrop : lit ".." ∉ (pathComponents (rel.take m)).dropLast := by
      rw [← List.take_append_drop m rel] at hup
      exact dots_not_mem_dropLast hup
    rw [hcut, hsame, staysIn_slotPath_iff hid hdrop, hroom, List.take_succ_cons, pathComponents_slash_cons]
    have hsuffix : ¬ DotSuffixed taken eventId (slash :: rel) := fun h => by
      have := h.1
      rw [quarantineFor_slash_cons] at this
      omega
    rw [and_iff_right hsuffix, and_iff_right (by omega)]

end

/-- `valid_restore_path` accepts exactly the absolute paths without a component `..`. The quarantine
paths of one stay in the directory of the event unless the dot of a number that does not fit ends
them, or, when a created file is deleted, they are cut to end in `..`. -/
theorem quarantine_slots_iff (taken : CStr → Bool) (eventId path : CStr) :
    (validRestorePath path = true ↔ path.head? = some slash ∧ lit ".." ∉ path.splitOn slash) ∧
      (IsEventId eventId → validRestorePath path = true →
        ((∀ slot, restoreSlot taken eventId path = some slot → StaysIn eventId slot) ↔
          ¬ DotSuffixed taken eventId path) ∧
        (StaysIn eventId (deleteSlot taken eventId path) ↔
          ¬ DotSuffixed taken eventId path ∧ ¬ CutToDots eventId path)) :=
  ⟨validRestorePath_iff, fun hid hvalid =>
    ⟨restoreSlot_staysIn_iff hid hvalid, deleteSlot_staysIn_iff hid hvalid⟩⟩

/-- The first event of a day. -/
def firstEvent : CStr := lit "evt-20260712-001"

theorem isEventId_firstEvent : IsEventId firstEvent :=
  ⟨lit "20260712-001", by decide, by decide +kernel, by decide⟩

theorem quarantine_slots_srv : validRestorePath (lit "/srv/..a") = true ∧
    ((∀ slot, restoreSlot (fun _ => true) firstEvent (lit "/srv/..a") = some slot → StaysIn firstEvent slot) ↔
      ¬ DotSuffixed (fun _ => true) firstEvent (lit "/srv/..a")) ∧
    (StaysIn firstEvent (deleteSlot (fun _ => true) firstEvent (lit "/srv/..a")) ↔
      ¬ DotSuffixed (fun _ => true) firstEvent (lit "/srv/..a") ∧ ¬ CutToDots firstEvent (lit "/srv/..a")) :=
  ⟨by decide, (quarantine_slots_iff _ _ _).2 isEventId_firstEvent (by decide)⟩

/-! ## A file in the root directory -/

theorem pathComponents_replicate_slash (n : Nat) (path : CStr) :
    pathComponents (List.replicate n slash ++ path) = pathComponents path := by
  induction n with
  | zero => rfl
  | succ n ih => rw [List.replicate_succ, List.cons_append, pathComponents_slash_cons, ih]

/-- The file `/..foo`, with so many slashes that of its name there is room for two bytes. -/
def slashedFile : CStr := List.replicate 4037 slash ++ lit "..foo"

theorem validRestorePath_slashedFile : validRestorePath slashedFile = true := by
  refine validRestorePath_of_dots rfl ?_
  rw [slashedFile, pathComponents_replicate_slash]
  decide

theorem cutToDots_slashedFile : CutToDots firstEvent slashedFile := by
  have hquarantine : quarantinePath.length = 39 := by decide
  have hid : firstEvent.length = 16 := by decide
  have hpath : slashedFile = slash :: (List.replicate 4036 slash ++ lit "..foo") := rfl
  have hroom : roomFor firstEvent = 4039 := by
    rw [roomFor, hquarantine, hid]
    rfl
  refine ⟨?_, 0, ?_⟩
  · rw [hpath, quarantineFor_slash_cons, length_slotPath, hquarantine, hid, List.length_append, List.length_replicate]
    decide
  · have hslashes : (List.replicate 4037 slash).length ≤ 4039 := by
      rw [List.length_replicate]
      decide
    rw [hroom, slashedFile, List.take_append, List.length_replicate, List.take_of_length_le hslashes,
      pathComponents_replicate_slash]
    decide

/-- When it is deleted as a file of the event, it is moved to the parent of the directory of the event. -/
theorem quarantine_slot_escapes : ¬ ∀ (taken : CStr → Bool) (eventId path : CStr), IsEventId eventId →
    validRestorePath path = true →
      (∀ slot, restoreSlot taken eventId path = some slot → StaysIn eventId slot) ∧
        StaysIn eventId (deleteSlot taken eventId path) := fun h => by
  have hstays := (h (fun _ => false) firstEvent slashedFile isEventId_firstEvent validRestorePath_slashedFile).2
  rw [deleteSlot_staysIn_iff isEventId_firstEvent validRestorePath_slashedFile] at hstays
  exact hstays.2 cutToDots_slashedFile

end Linked

end GfrGuard
