import GfrGuard.SenderFlags

/-!
# Extensions

A rename that changes the extension of a file counts more than another, and one to an extension of
the ransomware list more still. The extension of a path is the text from the last dot of its last
component on. The daemon looks for the last dot of the whole string instead, which may stand in the
name of a directory; what it then finds has a slash in it (`strrchr_dot`). So it is right unless
neither name has an extension and the two strings go on differently after their last dots, or the
new name has none and a directory of it is listed (`rename_findings_iff`).
-/

namespace GfrGuard

/-- The last component of a path: what follows its last slash. -/
def lastComponent (path : CStr) : CStr :=
  match strrchr path slash with
  | none => path
  | some s => s.drop 1

/-- The extension of a path: its last component from the last dot on. -/
def extensionOf (path : CStr) : Option CStr := strrchr (lastComponent path) dot

example : extensionOf (lit "/srv/a.b/c") = none := by decide

/-- The extension of a path is one of the ransomware extensions. -/
def ListedExtension (p : Policy) (path : CStr) : Prop :=
  ∃ e, extensionOf path = some e ∧ e ∈ p.ransomExts.strs

/-- Where the daemon tells the extensions of a rename: both names are there, or have the same
extension; where neither has one, the strings are the same from their last dots on; the new name is
not listed for a directory of it; and the rename is not one of a new file with a listed name. -/
structure ExtensionsTold (p : Policy) (msg : EventMsg) : Prop where
  named : msg.filePath.str = [] ∨ msg.newName.str = [] →
    extensionOf msg.filePath.str = extensionOf msg.newName.str
  plain : msg.filePath.str ≠ [] → msg.newName.str ≠ [] → extensionOf msg.filePath.str = none →
    extensionOf msg.newName.str = none →
    strrchr msg.filePath.str dot = strrchr msg.newName.str dot
  listed : msg.filePath.str ≠ [] → extensionOf msg.filePath.str ≠ none →
    extensionOf msg.newName.str = none → hasRansomExt p msg.newName.str = false
  newFile : hasFlag msg.flags flagNewFile = true → hasRansomExt p msg.filePath.str = true →
    extensionOf msg.filePath.str ≠ extensionOf msg.newName.str ∧ ListedExtension p msg.newName.str

/-- What the daemon finds out about a rename is what the extensions say. -/
def FindsExtensions (env : CallEnv) (p : Policy) (msg : EventMsg) (s : SessionState) : Prop :=
  (Finding.extChange.made env p msg s = true ↔
      extensionOf msg.filePath.str ≠ extensionOf msg.newName.str) ∧
    (Finding.ransomExt.made env p msg s = true ↔
      extensionOf msg.filePath.str ≠ extensionOf msg.newName.str ∧ ListedExtension p msg.newName.str)

section
variable {env : CallEnv} {p : Policy} {msg : EventMsg} {s : SessionState} {path path' e : CStr}

/-! ## The last dot -/

/-- The last dot of a path is that of its extension, or what follows it goes on in another
component. -/
theorem strrchr_dot (path : CStr) : match extensionOf path with
    | some e => strrchr path dot = some e ∧ slash ∉ e
    | none => ∀ e, strrchr path dot = some e → slash ∈ e := by
  unfold extensionOf lastComponent
  cases hslash : strrchr path slash with
  | none =>
    have hnot : slash ∉ path := ListSearch.lastAt_eq_none_iff.1 hslash
    dsimp only
    cases hdot : strrchr path dot with
    | none =>
      intro e h
      cases h
    | some e =>
      obtain ⟨before, rest, hpath, rfl, -⟩ := ListSearch.lastAt_eq_some hdot
      exact ⟨rfl, fun h => hnot (hpath ▸ List.mem_append_right _ h)⟩
  | some tail =>
    obtain ⟨before, name, hpath, rfl, hname⟩ := ListSearch.lastAt_eq_some hslash
    show match strrchr name dot with
      | some e => strrchr path dot = some e ∧ slash ∉ e
      | none => ∀ e, strrchr path dot = some e → slash ∈ e
    cases hdot : strrchr name dot with
    | some e =>
      obtain ⟨stem, rest, hsplit, rfl, hrest⟩ := ListSearch.lastAt_eq_some hdot
      refine ⟨?_, fun h => hname (hsplit ▸ List.mem_append_right _ h)⟩
      have hlong : path = (before ++ slash :: stem) ++ dot :: rest := by
        rw [hpath, hsplit, List.append_assoc, List.cons_append]
      rw [hlong]
      exact ListSearch.lastAt_append _ hrest
    | none =>
      intro e h
      obtain ⟨stem, rest, hsplit, rfl, -⟩ := ListSearch.lastAt_eq_some h
      have hnot : dot ∉ name := ListSearch.lastAt_eq_none_iff.1 hdot
      -- the name would hold the dot, were it not further to the left
      have hends : slash :: name <:+ path := ⟨before, hpath.symm⟩
      rcases List.suffix_or_suffix_of_suffix hends ⟨stem, hsplit.symm⟩ with hlonger | hshorter
      · exact hlonger.subset List.mem_cons_self
      · rcases List.suffix_cons_iff.1 hshorter with heq | hin
        · cases heq
        · exact absurd (hin.subset List.mem_cons_self) hnot

theorem strrchr_dot_of_extensionOf (h : extensionOf path = some e) :
    strrchr path dot = some e ∧ slash ∉ e := by
  have hdot := strrchr_dot path
  rw [h] at hdot
  exact hdot

theorem slash_mem_of_extensionOf (h : extensionOf path = none) (hdot : strrchr path dot = some e) :
    slash ∈ e := by
  have hall := strrchr_dot path
  rw [h] at hall
  exact hall e hdot

/-- The last dots differ where the extensions do. -/
theorem strrchr_dot_ne (h : extensionOf path ≠ extensionOf path') :
    strrchr path dot ≠ strrchr path' dot := by
  intro heq
  cases hpath : extensionOf path with
  | some e =>
    obtain ⟨hdot, hnot⟩ := strrchr_dot_of_extensionOf hpath
    cases hpath' : extensionOf path' with
    | some e' =>
      rw [hdot, (strrchr_dot_of_extensionOf hpath').1] at heq
      exact h (by rw [hpath, hpath', heq])
    | none => exact hnot (slash_mem_of_extensionOf hpath' (heq ▸ hdot))
  | none =>
    cases hpath' : extensionOf path' with
    | some e' =>
      obtain ⟨hdot, hnot⟩ := strrchr_dot_of_extensionOf hpath'
      exact hnot (slash_mem_of_extensionOf hpath (heq.trans hdot))
    | none => exact h (by rw [hpath, hpath'])

/-- And the same where one extension is there. -/
theorem strrchr_dot_eq_iff (h : extensionOf path ≠ none ∨ extensionOf path' ≠ none) :
    strrchr path dot = strrchr path' dot ↔ extensionOf path = extensionOf path' := by
  refine ⟨fun heq => Classical.byContradiction fun hne => strrchr_dot_ne hne heq, fun heq => ?_⟩
  have hpath : extensionOf path ≠ none := h.elim id fun h' => heq ▸ h'
  obtain ⟨e, he⟩ := Option.ne_none_iff_exists'.1 hpath
  rw [(strrchr_dot_of_extensionOf he).1, (strrchr_dot_of_extensionOf (heq ▸ he)).1]

/-- A listed extension is found. -/
theorem hasRansomExt_of_extensionOf (h : extensionOf path = some e) :
    hasRansomExt p path = true ↔ ListedExtension p path := by
  unfold hasRansomExt ListedExtension
  rw [(strrchr_dot_of_extensionOf h).1, h]
  simp

/-! ## A rename -/

/-- The daemon compares the last dots. -/
theorem made_extChange (hop : msg.opType = opRename) :
    Finding.extChange.made env p msg s = true ↔
      msg.filePath.str ≠ [] ∧ msg.newName.str ≠ [] ∧
        strrchr msg.filePath.str dot ≠ strrchr msg.newName.str dot := by
  have hnew : hasFlag (newFileFlags p msg) flagExtChange = false := by
    unfold newFileFlags
    split <;> decide
  have hentropy : hasFlag (entropyFlags env p msg s) flagExtChange = false := by
    unfold entropyFlags
    split <;> decide
  have hyara : hasFlag (yaraFlags env p msg s) flagExtChange = false := by
    unfold yaraFlags
    split <;> decide
  show (hasFlag (renameFlags p msg) flagExtChange || hasFlag (newFileFlags p msg) flagExtChange ||
    hasFlag (entropyFlags env p msg s) flagExtChange ||
      hasFlag (yaraFlags env p msg s) flagExtChange) = true ↔ _
  rw [hnew, hentropy, hyara, Bool.or_false, Bool.or_false, Bool.or_false]
  unfold renameFlags
  split
  · next h =>
    refine iff_of_true ?_ h.2
    rw [hasFlag_or]
    rfl
  · next h => exact iff_of_false (by decide) fun hnames => h ⟨hop, hnames⟩

/-- The new name is looked up in the list after a change, and the name of a new file at once. -/
theorem made_ransomExt (hop : msg.opType = opRename) :
    Finding.ransomExt.made env p msg s = true ↔
      (msg.filePath.str ≠ [] ∧ msg.newName.str ≠ [] ∧
        strrchr msg.filePath.str dot ≠ strrchr msg.newName.str dot) ∧
          hasRansomExt p msg.newName.str = true ∨
        hasFlag msg.flags flagNewFile = true ∧ hasRansomExt p msg.filePath.str = true := by
  have hentropy : hasFlag (entropyFlags env p msg s) flagRansomExt = false := by
    unfold entropyFlags
    split <;> decide
  have hyara : hasFlag (yaraFlags env p msg s) flagRansomExt = false := by
    unfold yaraFlags
    split <;> decide
  have hrename : hasFlag (renameFlags p msg) flagRansomExt = true ↔
      (msg.filePath.str ≠ [] ∧ msg.newName.str ≠ [] ∧
        strrchr msg.filePath.str dot ≠ strrchr msg.newName.str dot) ∧
          hasRansomExt p msg.newName.str = true := by
    unfold renameFlags
    split
    · next h =>
      rw [hasFlag_or, and_iff_right h.2]
      cases hasRansomExt p msg.newName.str <;> decide
    · next h => exact iff_of_false (by decide) fun hnames => h ⟨hop, hnames.1⟩
  have hnew : hasFlag (newFileFlags p msg) flagRansomExt = true ↔
      hasFlag msg.flags flagNewFile = true ∧ hasRansomExt p msg.filePath.str = true := by
    have hempty : hasRansomExt p msg.filePath.str = true → msg.filePath.str ≠ [] := by
      intro h hnil
      rw [hnil] at h
      exact absurd h (by simp [hasRansomExt, strrchr, ListSearch.lastAt])
    unfold newFileFlags
    split
    · next h => exact iff_of_true (by decide) ⟨h.1, h.2.2⟩
    · next h => exact iff_of_false (by decide) fun hlisted => h ⟨hlisted.1, hempty hlisted.2, hlisted.2⟩
  show (hasFlag (renameFlags p msg) flagRansomExt || hasFlag (newFileFlags p msg) flagRansomExt ||
    hasFlag (entropyFlags env p msg s) flagRansomExt ||
      hasFlag (yaraFlags env p msg s) flagRansomExt) = true ↔ _
  rw [hentropy, hyara, Bool.or_false, Bool.or_false, Bool.or_eq_true, hrename, hnew]

/-- A change is told when a name without the other has the same extension, and two names without
extensions go on the same. -/
theorem findsChange_iff (hop : msg.opType = opRename) :
    (Finding.extChange.made env p msg s = true ↔
        extensionOf msg.filePath.str ≠ extensionOf msg.newName.str) ↔
      (msg.filePath.str = [] ∨ msg.newName.str = [] →
          extensionOf msg.filePath.str = extensionOf msg.newName.str) ∧
        (msg.filePath.str ≠ [] → msg.newName.str ≠ [] → extensionOf msg.filePath.str = none →
          extensionOf msg.newName.str = none →
          strrchr msg.filePath.str dot = strrchr msg.newName.str dot) := by
  rw [made_extChange hop]
  by_cases hnamed : msg.filePath.str = [] ∨ msg.newName.str = []
  · have hnot : ¬ (msg.filePath.str ≠ [] ∧ msg.newName.str ≠ [] ∧
        strrchr msg.filePath.str dot ≠ strrchr msg.newName.str dot) := fun h =>
      hnamed.elim h.1 h.2.1
    rw [iff_false_left hnot, not_not]
    exact ⟨fun heq => ⟨fun _ => heq, fun hsrc hdst => absurd hnamed (by simp [hsrc, hdst])⟩,
      fun h => h.1 hnamed⟩
  · obtain ⟨hsrc, hdst⟩ := not_or.1 hnamed
    rw [and_iff_right hsrc, and_iff_right hdst]
    by_cases hplain : extensionOf msg.filePath.str = none ∧ extensionOf msg.newName.str = none
    · rw [hplain.1, hplain.2]
      constructor
      · intro h
        exact ⟨fun _ => rfl, fun _ _ _ _ => not_not.1 fun hne => h.1 hne rfl⟩
      · intro h
        exact iff_of_false (not_not.2 (h.2 hsrc hdst rfl rfl)) (not_not.2 rfl)
    · have hthere := not_and_or.1 hplain
      refine iff_of_true (not_congr (strrchr_dot_eq_iff hthere)) ⟨fun h => absurd h hnamed, ?_⟩
      exact fun _ _ hnone hnone' => absurd ⟨hnone, hnone'⟩ hplain

/-- What the daemon finds out about a rename is what the extensions say exactly where it tells
them. -/
theorem rename_findings_iff (env : CallEnv) (p : Policy) (s : SessionState) (hop : msg.opType = opRename) :
    FindsExtensions env p msg s ↔ ExtensionsTold p msg := by
  unfold FindsExtensions
  rw [findsChange_iff hop, made_ransomExt hop]
  generalize hpath : msg.filePath.str = path
  generalize hname : msg.newName.str = name
  constructor
  · rintro ⟨⟨hnamed, hplain⟩, hlist⟩
    refine ⟨by rwa [hpath, hname], by rwa [hpath, hname], ?_, ?_⟩
    · rw [hpath, hname]
      intro hsrc hsome hnone
      by_contra hlisted
      have hdst : name ≠ [] := by
        rintro rfl
        exact hlisted rfl
      have hne : strrchr path dot ≠ strrchr name dot := strrchr_dot_ne (hnone ▸ hsome)
      obtain ⟨-, e, he, -⟩ := hlist.1 (.inl ⟨⟨hsrc, hdst, hne⟩, by simpa using hlisted⟩)
      rw [hnone] at he
      cases he
    · rw [hpath, hname]
      exact fun hflag hlisted => hlist.1 (.inr ⟨hflag, hlisted⟩)
  · rintro ⟨hnamed, hplain, hlisted, hnew⟩
    rw [hpath, hname] at hnamed hplain hlisted hnew
    refine ⟨⟨hnamed, hplain⟩, ?_, ?_⟩
    · rintro (⟨⟨hsrc, hdst, hne⟩, hlist⟩ | ⟨hflag, hlist⟩)
      · cases hext : extensionOf name with
        | none =>
          by_cases hext' : extensionOf path = none
          · exact absurd (hplain hsrc hdst hext' hext) hne
          · rw [hlisted hsrc hext' hext] at hlist
            cases hlist
        | some e =>
          have hdiffer : extensionOf path ≠ some e := by
            rw [← hext]
            exact fun heq => hne ((strrchr_dot_eq_iff (.inr (by simp [hext]))).2 heq)
          exact ⟨hdiffer, (hasRansomExt_of_extensionOf hext).1 hlist⟩
      · exact hnew hflag hlist
    · rintro ⟨hdiffer, hlist⟩
      obtain ⟨e, he, -⟩ := id hlist
      have hthere : ¬ (path = [] ∨ name = []) := fun h => hdiffer (hnamed h)
      exact .inl ⟨⟨fun h => hthere (.inl h), fun h => hthere (.inr h), strrchr_dot_ne hdiffer⟩,
        (hasRansomExt_of_extensionOf he).2 hlist⟩

end

/-- A rename inside the share from one document to another is told. -/
theorem rename_findings_sample : FindsExtensions (sampleEnv 0) .default sampleRename SessionState.zero :=
  (rename_findings_iff (sampleEnv 0) .default SessionState.zero rfl).2
    ⟨by decide, by decide, by decide, fun h => absurd h (by decide)⟩

/-- A rename of a file without an extension, in a directory whose name has a dot. -/
def dottedRename : EventMsg :=
  { sampleRename with
    filePath := .ofStr 4096 (lit "/mnt/my.share/README")
    newName := .ofStr 256 (lit "NOTES") }

/-- The rename passes the gates, and counts as a change of the extension. -/
theorem rename_findings_wrong :
    ¬ ∀ (env : CallEnv) (p : Policy) (msg : EventMsg) (s : SessionState), msg.opType = opRename →
      gate p msg = .accept → FindsExtensions env p msg s := fun h =>
  absurd ((h (sampleEnv 0) .default dottedRename SessionState.zero rfl (by decide)).1.1
    (by decide)) (by decide)

end GfrGuard
