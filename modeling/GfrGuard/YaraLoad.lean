import GfrGuard.Lib.FirstMet
import GfrGuard.YaraEngine

/-!
# Loading rule files

What libyara documents of its errors (`Libyara.Documented`) says which adds to a compiler fail. The
loader tests every file in a compiler of its own and adds the good ones to a shared one, where two
good files may declare the same rule. The one pass over the files of the tree, as the loader meets
them, keeps `YaraLoad.Inv`; the engine comes up exactly when no file clashes with those before it
(`yara_engine_init_iff`).
-/

namespace GfrGuard

/-! ## Rule files -/

/-- A rule file: whether it is well formed, and the identifiers it declares. -/
structure RuleText where
  valid : Bool
  idents : List CStr

/-- A file below a directory that is read with so many levels left: a regular file with the name of
a rule file. Names that start with a dot are hidden. -/
inductive RulesDir.HasRuleFile (d : RulesDir) : (levels : Nat) → CStr → FileId → Prop where
  | here {levels : Nat} {path name : CStr} {names : List CStr} {file : FileId} : d.readdir path = some names →
    name ∈ names → name.head? ≠ some dot → isRuleName name = true →
    d.stat (path ++ slash :: name) = some (.regular file) → HasRuleFile d (levels + 1) path file
  | deeper {levels : Nat} {path name : CStr} {names : List CStr} {file : FileId} : d.readdir path = some names →
    name ∈ names → name.head? ≠ some dot → d.stat (path ++ slash :: name) = some .directory →
    HasRuleFile d levels (path ++ slash :: name) file → HasRuleFile d (levels + 1) path file

/-- The file can be read and compiles on its own. -/
def RulesDir.Compiles (d : RulesDir) (text : FileId → RuleText) (file : FileId) : Prop :=
  d.fopen file = true ∧ (text file).valid = true ∧ (text file).idents.Nodup

/-- The rule files a name of a directory leads to. -/
def RulesDir.filesAt (d : RulesDir) (sub : CStr → List FileId) (path name : CStr) : List FileId :=
  if name.head? = some dot then []
  else
    match d.stat (snprintf pathMax (path ++ slash :: name)) with
    | none => []
    | some .directory => sub (snprintf pathMax (path ++ slash :: name))
    | some (.regular file) => if isRuleName name then [file] else []
    | some .other => []

/-- The rule files of a tree as the walk meets them, once for every way to them. -/
def RulesDir.ruleFiles (d : RulesDir) : (levels : Nat) → CStr → List FileId
  | 0, _ => []
  | levels + 1, path => ((d.readdir path).getD []).flatMap (d.filesAt (d.ruleFiles levels) path)

/-- A file is one of the 512 first different ones met before, or declares nothing that a good file
before it declares. -/
def RulesDir.Fresh (d : RulesDir) (text : FileId → RuleText) (before : List FileId) (file : FileId) : Prop :=
  d.Compiles text file → file ∈ before.eraseDups.take yaraMaxFiles ∨
    ∀ other ∈ before, d.Compiles text other → (text other).idents.Disjoint (text file).idents

/-- No file clashes with those met before it. -/
def RulesDir.NoClash (d : RulesDir) (text : FileId → RuleText) (files : List FileId) : Prop :=
  ∀ before file after, files = before ++ file :: after → d.Fresh text before file

section
variable {World Compiler Rules : Type*}

/-- What libyara documents, where no call runs out of memory: an added file has errors exactly when
it is not well formed or declares an identifier twice in its compiler. -/
structure Libyara.Documented (yr : Libyara World Compiler Rules) (text : FileId → RuleText)
    (declared : Compiler → List CStr) : Prop where
  init : ∀ world, ∃ world', yr.yrInitialize world = (true, world')
  create : ∀ world, ∃ c world', yr.yrCompilerCreate world = (some c, world') ∧ declared c = []
  add : ∀ c file full world, ∃ errors c' world', yr.yrCompilerAddFile c file full world = (errors, c', world') ∧
    (errors = 0 ↔ (text file).valid = true ∧ (text file).idents.Nodup ∧
      (declared c).Disjoint (text file).idents) ∧
    (errors = 0 → ∀ x, x ∈ declared c' ↔ x ∈ declared c ∨ x ∈ (text file).idents)
  rules : ∀ c world, ∃ rules world', yr.yrCompilerGetRules c world = (some rules, world')

variable {yr : Libyara World Compiler Rules} {text : FileId → RuleText} {declared : Compiler → List CStr}
  {d : RulesDir} {before files : List FileId} {file : FileId} {seen : List FileId} {loaded : Nat}
  {s : YaraLoad World Compiler}

/-! ## The files -/

theorem filesAt_eq {sub : CStr → List FileId} {path name : CStr} (hdot : name.head? ≠ some dot)
    (hstat : d.stat (path ++ slash :: name) ≠ none) :
    d.filesAt sub path name =
      match d.stat (path ++ slash :: name) with
      | none => []
      | some .directory => sub (path ++ slash :: name)
      | some (.regular file) => if isRuleName name then [file] else []
      | some .other => [] := by
  have hfits : (path ++ slash :: name).length < pathMax := by
    by_contra hlong
    exact hstat (d.stat_long _ (Nat.le_of_not_lt hlong))
  unfold RulesDir.filesAt
  rw [if_neg hdot, snprintf_of_lt hfits]

/-- The walk meets every rule file of the tree. -/
theorem RulesDir.HasRuleFile.mem {levels : Nat} {path : CStr} (h : d.HasRuleFile levels path file) :
    file ∈ d.ruleFiles levels path := by
  induction h with
  | here hnames hname hdot hrule hstat =>
    refine List.mem_flatMap.2 ⟨_, by rw [hnames]; exact hname, ?_⟩
    rw [filesAt_eq hdot (by rw [hstat]; exact Option.some_ne_none _), hstat]
    dsimp only
    rw [if_pos hrule]
    exact List.mem_singleton_self _
  | deeper hnames hname hdot hstat _ ih =>
    refine List.mem_flatMap.2 ⟨_, by rw [hnames]; exact hname, ?_⟩
    rw [filesAt_eq hdot (by rw [hstat]; exact Option.some_ne_none _), hstat]
    exact ih

/-! ## Clashes -/

theorem RulesDir.NoClash.of_append {after : List FileId} (h : d.NoClash text (before ++ after)) :
    d.NoClash text before := fun b f a heq => h b f (a ++ after) (by rw [heq, List.append_assoc]; rfl)

theorem RulesDir.noClash_append_singleton :
    d.NoClash text (before ++ [file]) ↔ d.NoClash text before ∧ d.Fresh text before file := by
  constructor
  · exact fun h => ⟨h.of_append, h before file [] rfl⟩
  · rintro ⟨hbefore, hfile⟩ b f a heq
    rcases List.eq_nil_or_concat a with rfl | ⟨a, last, rfl⟩
    · obtain ⟨rfl, hlast⟩ := List.append_inj' heq rfl
      cases hlast
      exact hfile
    · rw [List.concat_eq_append, ← List.cons_append, ← List.append_assoc] at heq
      exact hbefore b f a (List.append_inj' heq rfl).1

/-! ## The pass over the files -/

/-- A load that has met some files: the table holds the first of them, the compiler what the good
ones declare, and they do not clash. -/
structure YaraLoad.Inv (d : RulesDir) (text : FileId → RuleText) (declared : Compiler → List CStr)
    (before : List FileId) (loaded : Nat) (s : YaraLoad World Compiler) : Prop where
  seen : s.seen = before.eraseDups.take yaraMaxFiles
  declared : ∀ x, x ∈ declared s.compiler ↔ ∃ file ∈ before, d.Compiles text file ∧ x ∈ (text file).idents
  loaded : 0 < loaded ↔ ∃ file ∈ before, d.Compiles text file
  noClash : d.NoClash text before

/-- What a load comes to over some files. -/
def YaraLoad.Outcome (d : RulesDir) (text : FileId → RuleText) (declared : Compiler → List CStr)
    (before : List FileId) (loaded : Nat) : Option Nat × YaraLoad World Compiler → Prop
  | (some r, s) => YaraLoad.Inv d text declared before (loaded + r) s
  | (none, _) => ¬ d.NoClash text before

/-- What of a file is declared and loaded does not change when it adds nothing. -/
theorem YaraLoad.Inv.skip (h : s.Inv d text declared before loaded) {world : World}
    (hseen : (before ++ [file]).eraseDups.take yaraMaxFiles = seen)
    (hknown : d.Compiles text file → file ∈ before.eraseDups.take yaraMaxFiles) :
    YaraLoad.Inv d text declared (before ++ [file]) (loaded + 0) ⟨seen, s.compiler, world⟩ := by
  have hold : ∀ P : FileId → Prop, (∃ f ∈ before ++ [file], d.Compiles text f ∧ P f) ↔
      ∃ f ∈ before, d.Compiles text f ∧ P f := by
    intro P
    constructor
    · rintro ⟨f, hf, hcompiles, hP⟩
      rcases List.mem_append.1 hf with hf | hf
      · exact ⟨f, hf, hcompiles, hP⟩
      · cases List.mem_singleton.1 hf
        exact ⟨file, List.mem_eraseDups.1 (List.mem_of_mem_take (hknown hcompiles)), hcompiles, hP⟩
    · rintro ⟨f, hf, hrest⟩
      exact ⟨f, List.mem_append_left _ hf, hrest⟩
  refine ⟨hseen.symm, fun x => (h.declared x).trans (hold _).symm, ?_, ?_⟩
  · have hcompiles := hold fun _ => True
    simp only [and_true] at hcompiles
    exact h.loaded.trans hcompiles.symm
  · exact RulesDir.noClash_append_singleton.2 ⟨h.noClash, fun hcompiles => .inl (hknown hcompiles)⟩

/-- A good file with new identifiers. -/
theorem YaraLoad.Inv.add (h : s.Inv d text declared before loaded) {compiler : Compiler} {world : World}
    (hseen : (before ++ [file]).eraseDups.take yaraMaxFiles = seen) (hcompiles : d.Compiles text file)
    (hfresh : (declared s.compiler).Disjoint (text file).idents)
    (hadd : ∀ x, x ∈ declared compiler ↔ x ∈ declared s.compiler ∨ x ∈ (text file).idents) :
    YaraLoad.Inv d text declared (before ++ [file]) (loaded + 1) ⟨seen, compiler, world⟩ := by
  refine ⟨hseen.symm, fun x => ?_, ?_, ?_⟩
  · rw [hadd, h.declared x]
    constructor
    · rintro (⟨f, hf, hrest⟩ | hx)
      · exact ⟨f, List.mem_append_left _ hf, hrest⟩
      · exact ⟨file, List.mem_append_right _ (List.mem_singleton_self _), hcompiles, hx⟩
    · rintro ⟨f, hf, hrest⟩
      rcases List.mem_append.1 hf with hf | hf
      · exact .inl ⟨f, hf, hrest⟩
      · cases List.mem_singleton.1 hf
        exact .inr hrest.2
  · exact iff_of_true (Nat.succ_pos _) ⟨file, List.mem_append_right _ (List.mem_singleton_self _), hcompiles⟩
  · refine RulesDir.noClash_append_singleton.2 ⟨h.noClash, fun _ => .inr fun other hother hgood x hx hx' => ?_⟩
    exact hfresh ((h.declared x).2 ⟨other, hother, hgood, hx⟩) hx'

/-- A file the loader has not met, or has no room to remember. -/
theorem loadRuleFile_outcome (hyara : yr.Documented text declared) (h : s.Inv d text declared before loaded)
    (full : CStr) :
    YaraLoad.Outcome d text declared (before ++ [file]) loaded (loadRuleFile yr d full file s) := by
  have htable := FirstMet.take_eraseDups_append_singleton yaraMaxFiles before file
  rw [← h.seen] at htable
  unfold loadRuleFile
  split
  · next hmem =>
    rw [if_pos (.inl hmem)] at htable
    exact h.skip htable fun _ => h.seen ▸ hmem
  · next hout =>
    have hseen : (before ++ [file]).eraseDups.take yaraMaxFiles =
        if s.seen.length < yaraMaxFiles then s.seen ++ [file] else s.seen := by
      rw [htable]
      by_cases hroom : s.seen.length < yaraMaxFiles
      · rw [if_pos hroom, if_neg (by rw [not_or, not_le]; exact ⟨hout, hroom⟩)]
      · rw [if_neg hroom, if_pos (.inr (Nat.le_of_not_lt hroom))]
    obtain ⟨test, w₁, htest, hempty⟩ := hyara.create s.world
    obtain ⟨errors, test', w₂, hadd, herrors, -⟩ := hyara.add test file full w₁
    obtain ⟨errors', compiler, w₃, hadd', herrors', hdeclared⟩ := hyara.add s.compiler file full w₂
    rw [hempty] at herrors
    simp only [htest, hadd, hadd']
    split
    · next hclosed => exact h.skip hseen fun hgood => by rw [hgood.1] at hclosed; cases hclosed
    · next hopen =>
      rw [Bool.not_eq_false] at hopen
      split
      · next hbad =>
        refine h.skip hseen fun hgood => absurd (herrors.2 ⟨hgood.2.1, hgood.2.2, ?_⟩) (by omega)
        exact List.disjoint_nil_left _
      · next hfine =>
        obtain ⟨hvalid, hnodup, -⟩ := herrors.1 (by omega)
        have hgood : d.Compiles text file := ⟨hopen, hvalid, hnodup⟩
        split
        · next hbad =>
          intro hclean
          rcases (RulesDir.noClash_append_singleton.1 hclean).2 hgood with hmem | hfresh
          · exact hout (h.seen ▸ hmem)
          · refine absurd (herrors'.2 ⟨hvalid, hnodup, fun x hx hx' => ?_⟩) (by omega)
            obtain ⟨other, hother, hothers, hmem⟩ := (h.declared x).1 hx
            exact hfresh other hother hothers hmem hx'
        · next hfine => exact h.add hseen hgood (herrors'.1 (by omega)).2.2 (hdeclared (by omega))

/-- What a directory below makes of a load, over the files the walk meets there. -/
def LoadsFiles (d : RulesDir) (text : FileId → RuleText) (declared : Compiler → List CStr)
    (load : YaraLoad World Compiler → Option Nat × YaraLoad World Compiler) (files : List FileId) : Prop :=
  ∀ before loaded s, YaraLoad.Inv d text declared before loaded s →
    YaraLoad.Outcome d text declared (before ++ files) loaded (load s)

theorem loadsFiles_nil : LoadsFiles d text declared (fun s : YaraLoad World Compiler => (some 0, s)) [] := by
  intro before loaded s h
  rw [List.append_nil]
  exact h

theorem loadEntry_outcome (hyara : yr.Documented text declared)
    {sub : CStr → YaraLoad World Compiler → Option Nat × YaraLoad World Compiler} {below : CStr → List FileId}
    (hsub : ∀ path, LoadsFiles d text declared (sub path) (below path)) (path name : CStr) :
    LoadsFiles d text declared (loadEntry yr d sub path name) (d.filesAt below path name) := by
  intro before loaded s h
  unfold loadEntry RulesDir.filesAt
  split
  · exact loadsFiles_nil before loaded s h
  · dsimp only
    cases d.stat (snprintf pathMax (path ++ slash :: name)) with
    | none => exact loadsFiles_nil before loaded s h
    | some node =>
      cases node with
      | directory => exact hsub _ before loaded s h
      | regular file =>
        dsimp only
        split
        · exact loadRuleFile_outcome hyara h _
        · exact loadsFiles_nil before loaded s h
      | other => exact loadsFiles_nil before loaded s h

theorem loadEntries_outcome {entry : CStr → YaraLoad World Compiler → Option Nat × YaraLoad World Compiler}
    {files : CStr → List FileId} (hentry : ∀ name, LoadsFiles d text declared (entry name) (files name))
    (names : List CStr) {n : Nat} (h : s.Inv d text declared before (loaded + n)) :
    YaraLoad.Outcome d text declared (before ++ names.flatMap files) loaded (loadEntries entry names n s) := by
  induction names generalizing before n s with
  | nil =>
    rw [List.flatMap_nil, List.append_nil]
    exact h
  | cons name names ih =>
    have hfirst := hentry name before (loaded + n) s h
    rw [List.flatMap_cons, ← List.append_assoc]
    unfold loadEntries
    split
    · next hpoisoned =>
      rw [hpoisoned] at hfirst
      exact fun hclean => hfirst hclean.of_append
    · next hloaded =>
      rw [hloaded] at hfirst
      refine ih ?_
      rw [← Nat.add_assoc]
      exact hfirst

/-- The walk over a tree. -/
theorem loadRulesRecursive_outcome (hyara : yr.Documented text declared) (levels : Nat) (path : CStr) :
    LoadsFiles d text declared (loadRulesRecursive yr d levels path) (d.ruleFiles levels path) := by
  induction levels generalizing path with
  | zero => exact loadsFiles_nil
  | succ levels ih =>
    intro before loaded s h
    unfold loadRulesRecursive RulesDir.ruleFiles
    cases d.readdir path with
    | none => exact loadsFiles_nil before loaded s h
    | some names => exact loadEntries_outcome (fun name => loadEntry_outcome hyara ih path name) names h

/-- Of the trees with a rule file that compiles on its own, the engine comes up on those where no
file clashes with one met before it. -/
theorem yara_engine_init_iff (hyara : yr.Documented text declared) {e : YaraEngine Compiler Rules}
    (hidle : e.active = false) (rulesDir : Option CStr) (world : World) :
    ((∃ file, d.HasRuleFile (yaraMaxDepth + 1) (rulesDir.getD yaraRulesDir) file ∧ d.Compiles text file) →
      (yaraEngineInit yr d rulesDir e world).engine.active = true) ↔
    ((∃ file, d.HasRuleFile (yaraMaxDepth + 1) (rulesDir.getD yaraRulesDir) file ∧ d.Compiles text file) →
      d.NoClash text (d.ruleFiles (yaraMaxDepth + 1) (rulesDir.getD yaraRulesDir))) := by
  refine forall_congr' fun ⟨file, hfile, hgood⟩ => ?_
  obtain ⟨w₁, hinit⟩ := hyara.init world
  obtain ⟨compiler, w₂, hcreate, hempty⟩ := hyara.create w₁
  have hstart : YaraLoad.Inv d text declared [] 0 ⟨[], compiler, w₂⟩ := by
    refine ⟨rfl, fun x => ?_, ?_, fun before file after heq => ?_⟩
    · rw [hempty]
      simp
    · simp
    · simp at heq
  have hload := loadRulesRecursive_outcome hyara (yaraMaxDepth + 1) (rulesDir.getD yaraRulesDir) [] 0 _ hstart
  unfold yaraEngineInit yaraEngineInitClean
  rw [hinit]
  dsimp only
  rw [hcreate]
  dsimp only
  split
  · next hpoisoned =>
    rw [hpoisoned] at hload
    exact iff_of_false (by rw [hidle]; exact Bool.false_ne_true) hload
  · next hloaded =>
    rw [hloaded] at hload
    exact absurd (hload.loaded.2 ⟨file, hfile.mem, hgood⟩) (by decide)
  · next s hloaded =>
    rw [hloaded] at hload
    obtain ⟨rules, w₃, hrules⟩ := hyara.rules s.compiler s.world
    rw [hrules]
    exact iff_of_true rfl hload.noClash

end

/-! ## Two files -/

/-- A libyara whose compiler is the identifiers declared in it. -/
def listYara (text : FileId → RuleText) : Libyara Unit (List CStr) (List CStr) where
  yrInitialize world := (true, world)
  yrCompilerCreate world := (some [], world)
  yrCompilerAddFile c file _ world :=
    if (text file).valid = true ∧ (text file).idents.Nodup ∧ ∀ x ∈ c, x ∉ (text file).idents then
      (0, c ++ (text file).idents, world)
    else (1, c, world)
  yrCompilerGetRules c world := (some c, world)
  yrRulesScanFile rules _ := .scanned rules.head?

theorem listYara_documented (text : FileId → RuleText) : (listYara text).Documented text id where
  init world := ⟨world, rfl⟩
  create world := ⟨[], world, rfl, rfl⟩
  add c file full world := by
    by_cases h : (text file).valid = true ∧ (text file).idents.Nodup ∧ ∀ x ∈ c, x ∉ (text file).idents
    · exact ⟨0, _, world, if_pos h, iff_of_true rfl h, fun _ x => List.mem_append⟩
    · exact ⟨1, c, world, if_neg h, iff_of_false Nat.one_ne_zero h, fun h' => absurd h' Nat.one_ne_zero⟩
  rules c world := ⟨c, world, rfl⟩

/-- A directory of rule files, and nothing below it. -/
def flatRules (files : List (CStr × FileId)) : RulesDir where
  readdir path := if path = yaraRulesDir then some (files.map Prod.fst) else none
  stat path :=
    if pathMax ≤ path.length then none
    else (files.find? fun f => path = yaraRulesDir ++ slash :: f.1).map fun f => .regular f.2
  fopen _ := true
  stat_long _ h := if_pos h

def twoRuleFiles : RulesDir := flatRules [(lit "a.yar", ⟨1, 3⟩), (lit "b.yar", ⟨1, 4⟩)]

/-- Every file declares a rule of its own. -/
def ownRules (file : FileId) : RuleText := ⟨true, [dec file.ino]⟩

/-- Every file declares the same rule. -/
def sameRules (_ : FileId) : RuleText := ⟨true, [lit "ransom"]⟩

/-- Two files with rules of their own. -/
theorem yara_engine_init_two :
    ((∃ file, twoRuleFiles.HasRuleFile (yaraMaxDepth + 1) yaraRulesDir file ∧ twoRuleFiles.Compiles ownRules file) →
      (yaraEngineInit (listYara ownRules) twoRuleFiles none ⟨none, none, false, 0⟩ ()).engine.active = true) ↔
    ((∃ file, twoRuleFiles.HasRuleFile (yaraMaxDepth + 1) yaraRulesDir file ∧ twoRuleFiles.Compiles ownRules file) →
      twoRuleFiles.NoClash ownRules (twoRuleFiles.ruleFiles (yaraMaxDepth + 1) yaraRulesDir)) :=
  yara_engine_init_iff (listYara_documented ownRules) rfl none ()

/-- Two files that compile, with the same rule. -/
theorem twin_rules_disable :
    ¬ ((∃ file, twoRuleFiles.HasRuleFile (yaraMaxDepth + 1) yaraRulesDir file ∧ twoRuleFiles.Compiles sameRules file) →
      (yaraEngineInit (listYara sameRules) twoRuleFiles none ⟨none, none, false, 0⟩ ()).engine.active = true) := by
  intro h
  have hfile : twoRuleFiles.HasRuleFile (yaraMaxDepth + 1) yaraRulesDir ⟨1, 3⟩ :=
    .here rfl List.mem_cons_self (by decide) (by decide) rfl
  have hactive := h ⟨⟨1, 3⟩, hfile, rfl, rfl, by decide⟩
  exact absurd hactive (by decide)

end GfrGuard
