import GfrGuard.Protocol

/-!
# The YARA engine

The loading, the reload and the scans of the rule engine, over any libyara: the calls of the
library are a parameter, with a world that decides how each turns out. A reload takes the rules in
force down before it builds new ones, so it ends with new rules or with none
(`reload_new_or_none`).
-/

namespace GfrGuard

/-! ## What the engine is given -/

/-- `st_dev` and `st_ino`. -/
structure FileId where
  dev : Nat
  ino : Nat
deriving DecidableEq

/-- What `stat` finds, with links followed. -/
inductive RuleNode where
  | directory
  | regular (file : FileId)
  /-- Anything else. -/
  | other

/-- The file system under the rules: the names of a directory in the order of `readdir`, what a
path leads to, and which files can be read. -/
structure RulesDir where
  readdir : CStr → Option (List CStr)
  stat : CStr → Option RuleNode
  fopen : FileId → Bool
  /-- `PATH_MAX`: a longer path leads nowhere. -/
  stat_long : ∀ path : CStr, pathMax ≤ path.length → stat path = none

/-- How `yr_rules_scan_file` comes back. -/
inductive ScanOutcome where
  /-- Done, or out of time: the identifier of the first rule that matched. -/
  | scanned (identifier : Option CStr)
  | failed

/-- The calls of libyara. -/
structure Libyara (World Compiler Rules : Type*) where
  yrInitialize : World → Bool × World
  yrCompilerCreate : World → Option Compiler × World
  /-- How many errors there were. -/
  yrCompilerAddFile : Compiler → FileId → CStr → World → Nat × Compiler × World
  yrCompilerGetRules : Compiler → World → Option Rules × World
  yrRulesScanFile : Rules → CStr → ScanOutcome

/-- The globals of the engine, and how often the library is initialized. -/
structure YaraEngine (Compiler Rules : Type*) where
  compiler : Option Compiler
  rules : Option Rules
  active : Bool
  inits : Nat

/-- `YARA_RULES_DIR`. -/
def yaraRulesDir : CStr := lit "/etc/gf2000/yara-rules"

/-- `YARA_MAX_DEPTH`. -/
def yaraMaxDepth : Nat := 8

/-- `YARA_MAX_FILES`. -/
def yaraMaxFiles : Nat := 512

section
variable {World Compiler Rules : Type*}

/-! ## Loading -/

/-- A load under way: `seen`, `g_compiler` and the world. -/
structure YaraLoad (World Compiler : Type*) where
  seen : List FileId
  compiler : Compiler
  world : World

/-- The name ends in `.yar` or `.yara`. -/
def isRuleName (name : CStr) : Bool :=
  (4 < name.length && (lit ".yar").isSuffixOf name) || (5 < name.length && (lit ".yara").isSuffixOf name)

/-- A rule file: how many files were loaded, or nothing when the compiler is poisoned. -/
def loadRuleFile (yr : Libyara World Compiler Rules) (d : RulesDir) (full : CStr) (file : FileId)
    (s : YaraLoad World Compiler) : Option Nat × YaraLoad World Compiler :=
  if file ∈ s.seen then (some 0, s)
  else
    let seen := if s.seen.length < yaraMaxFiles then s.seen ++ [file] else s.seen
    -- the test compile
    match yr.yrCompilerCreate s.world with
    | (none, world) => (some 0, { s with seen, world })
    | (some test, world) =>
      if d.fopen file = false then (some 0, { s with seen, world })
      else
        match yr.yrCompilerAddFile test file full world with
        | (errors, _, world) =>
          if 0 < errors then (some 0, { s with seen, world })
          else
            match yr.yrCompilerAddFile s.compiler file full world with
            | (errors, compiler, world) =>
              if 0 < errors then (none, ⟨seen, compiler, world⟩) else (some 1, ⟨seen, compiler, world⟩)

/-- A name of a directory; `sub` loads a directory below it. -/
def loadEntry (yr : Libyara World Compiler Rules) (d : RulesDir)
    (sub : CStr → YaraLoad World Compiler → Option Nat × YaraLoad World Compiler) (path name : CStr)
    (s : YaraLoad World Compiler) : Option Nat × YaraLoad World Compiler :=
  if name.head? = some dot then (some 0, s)
  else
    let full := snprintf pathMax (path ++ slash :: name)
    match d.stat full with
    | none => (some 0, s)
    | some .directory => sub full s
    | some (.regular file) => if isRuleName name then loadRuleFile yr d full file s else (some 0, s)
    | some .other => (some 0, s)

/-- The names of a directory, one after the other. -/
def loadEntries (entry : CStr → YaraLoad World Compiler → Option Nat × YaraLoad World Compiler) :
    List CStr → (loaded : Nat) → YaraLoad World Compiler → Option Nat × YaraLoad World Compiler
  | [], loaded, s => (some loaded, s)
  | name :: names, loaded, s =>
    match entry name s with
    | (none, s) => (none, s)
    | (some r, s) => loadEntries entry names (loaded + r) s

/-- `load_rules_recursive`, with the directories it may still go down, this one included:
`YARA_MAX_DEPTH + 1 - depth`. -/
def loadRulesRecursive (yr : Libyara World Compiler Rules) (d : RulesDir) :
    (levels : Nat) → CStr → YaraLoad World Compiler → Option Nat × YaraLoad World Compiler
  | 0, _, s => (some 0, s)
  | levels + 1, path, s =>
    match d.readdir path with
    | none => (some 0, s)
    | some names => loadEntries (loadEntry yr d (loadRulesRecursive yr d levels) path) names 0 s

/-- What a call that changes the engine leaves. -/
structure YaraResult (World Compiler Rules : Type*) where
  rc : Int
  engine : YaraEngine Compiler Rules
  world : World

/-- `yara_engine_init_clean`. -/
def yaraEngineInitClean (yr : Libyara World Compiler Rules) (d : RulesDir) (rulesDir : CStr)
    (e : YaraEngine Compiler Rules) (world : World) : YaraResult World Compiler Rules :=
  match yr.yrInitialize world with
  | (false, world) => ⟨-1, e, world⟩
  | (true, world) =>
    match yr.yrCompilerCreate world with
    | (none, world) => ⟨-1, e, world⟩
    | (some compiler, world) =>
      match loadRulesRecursive yr d (yaraMaxDepth + 1) rulesDir ⟨[], compiler, world⟩ with
      | (none, s) => ⟨-1, { e with compiler := none }, s.world⟩
      | (some 0, s) => ⟨0, { e with compiler := none }, s.world⟩
      | (some (_ + 1), s) =>
        match yr.yrCompilerGetRules s.compiler s.world with
        | (none, world) => ⟨-1, { e with compiler := none }, world⟩
        | (some rules, world) => ⟨0, ⟨none, some rules, true, e.inits + 1⟩, world⟩

/-- `yara_engine_init`. -/
def yaraEngineInit (yr : Libyara World Compiler Rules) (d : RulesDir) (rulesDir : Option CStr)
    (e : YaraEngine Compiler Rules) (world : World) : YaraResult World Compiler Rules :=
  yaraEngineInitClean yr d (rulesDir.getD yaraRulesDir) e world

/-! ## Scans and the reload -/

/-- `yara_scan_file`, where `regular` tells the regular files that can be opened: the result, and
what is copied to `matched_rule` of `len` bytes. -/
def yaraScanFile (yr : Libyara World Compiler Rules) (regular : CStr → Bool) (e : YaraEngine Compiler Rules)
    (path : Option CStr) (len : Nat) : Int × Option CStr :=
  match e.active, e.rules with
  | true, some rules =>
    match path with
    | none => (-1, none)
    | some path =>
      if regular path = false then (-1, none)
      else
        match yr.yrRulesScanFile rules path with
        | .failed => (-1, none)
        | .scanned none => (0, none)
        | .scanned (some identifier) => (1, if 0 < len then some (snprintf len (snprintf 256 identifier)) else none)
  | _, _ => (0, none)

/-- `yara_engine_destroy`, and the first half of a reload. -/
def yaraEngineDestroy (e : YaraEngine Compiler Rules) : YaraEngine Compiler Rules :=
  { e with rules := none, active := false, inits := if e.active then e.inits - 1 else e.inits }

/-- `yara_engine_reload`. -/
def yaraEngineReload (yr : Libyara World Compiler Rules) (d : RulesDir) (rulesDir : Option CStr)
    (e : YaraEngine Compiler Rules) (world : World) : YaraResult World Compiler Rules :=
  yaraEngineInit yr d rulesDir (yaraEngineDestroy e) world

variable {yr : Libyara World Compiler Rules} {d : RulesDir} {rulesDir : Option CStr}
  {e : YaraEngine Compiler Rules} {world : World}

/-! ## What is in force -/

/-- No rules are in force: nothing is active, and every scan says no match. -/
def YaraEngine.Idle (yr : Libyara World Compiler Rules) (e : YaraEngine Compiler Rules) : Prop :=
  e.active = false ∧ e.rules = none ∧ ∀ regular path len, yaraScanFile yr regular e path len = (0, none)

/-- Between two calls: the library is initialized once for the rules in force, and nothing else is
kept. -/
structure YaraEngine.Settled (e : YaraEngine Compiler Rules) : Prop where
  compiler : e.compiler = none
  rules : e.rules.isSome = e.active
  inits : e.inits = if e.active then 1 else 0

theorem YaraEngine.idle_of_inactive (hactive : e.active = false) (hrules : e.rules = none) : e.Idle yr := by
  refine ⟨hactive, hrules, fun regular path len => ?_⟩
  unfold yaraScanFile
  rw [hactive]

theorem yaraEngineDestroy_idle : (yaraEngineDestroy e).Idle yr := YaraEngine.idle_of_inactive rfl rfl

theorem YaraEngine.Settled.destroy (h : e.Settled) : (yaraEngineDestroy e).Settled := by
  refine ⟨h.compiler, rfl, ?_⟩
  unfold yaraEngineDestroy
  dsimp only
  rw [h.inits]
  cases e.active <;> rfl

/-- An initialization puts new rules in force, or leaves the engine alone but for its compiler. -/
theorem yaraEngineInit_cases (yr : Libyara World Compiler Rules) (d : RulesDir) (rulesDir : Option CStr)
    (e : YaraEngine Compiler Rules) (world : World) :
    (∃ compiler before after rules, yr.yrCompilerGetRules compiler before = (some rules, after) ∧
      (yaraEngineInit yr d rulesDir e world).rc = 0 ∧
      (yaraEngineInit yr d rulesDir e world).engine = ⟨none, some rules, true, e.inits + 1⟩) ∨
    (yaraEngineInit yr d rulesDir e world).engine = e ∨
    (yaraEngineInit yr d rulesDir e world).engine = { e with compiler := none } := by
  unfold yaraEngineInit yaraEngineInitClean
  split
  · exact .inr (.inl rfl)
  · split
    · exact .inr (.inl rfl)
    · split
      · exact .inr (.inr rfl)
      · exact .inr (.inr rfl)
      · split
        · exact .inr (.inr rfl)
        · next hrules => exact .inl ⟨_, _, _, _, hrules, rfl, rfl⟩

theorem YaraEngine.Settled.init (h : e.Settled) (hactive : e.active = false) :
    (yaraEngineInit yr d rulesDir e world).engine.Settled := by
  have hinits := h.inits
  rw [hactive] at hinits
  rcases yaraEngineInit_cases yr d rulesDir e world with ⟨-, -, -, rules, -, -, heq⟩ | heq | heq <;> rw [heq]
  · exact ⟨rfl, rfl, by rw [hinits]; rfl⟩
  · exact h
  · exact ⟨rfl, h.rules, h.inits⟩

/-- A reload leaves the library initialized as often as rules are in force. -/
theorem YaraEngine.Settled.reload (h : e.Settled) : (yaraEngineReload yr d rulesDir e world).engine.Settled :=
  h.destroy.init rfl

/-! ## The reload -/

/-- The rules before a reload that brings none stay in force. -/
def ReloadProtects (yr : Libyara World Compiler Rules) (d : RulesDir) (rulesDir : Option CStr)
    (e : YaraEngine Compiler Rules) (world : World) : Prop :=
  let r := yaraEngineReload yr d rulesDir e world
  (r.rc = 0 ∧ r.engine.active = true) ∨
    (r.engine.active = true ∧ ∀ regular path len,
      yaraScanFile yr regular r.engine path len = yaraScanFile yr regular e path len)

/-- However the calls of libyara turn out: a reload ends with new rules in force, or with none. -/
theorem reload_new_or_none (yr : Libyara World Compiler Rules) (d : RulesDir) (rulesDir : Option CStr)
    (e : YaraEngine Compiler Rules) (world : World) :
    ((yaraEngineReload yr d rulesDir e world).rc = 0 ∧
      (yaraEngineReload yr d rulesDir e world).engine.active = true ∧
      ∃ compiler before after rules, yr.yrCompilerGetRules compiler before = (some rules, after) ∧
        (yaraEngineReload yr d rulesDir e world).engine.rules = some rules) ∨
    (yaraEngineReload yr d rulesDir e world).engine.Idle yr := by
  unfold yaraEngineReload
  rcases yaraEngineInit_cases yr d rulesDir (yaraEngineDestroy e) world with
    ⟨compiler, before, after, rules, hrules, hrc, heq⟩ | heq | heq
  · exact .inl ⟨hrc, by rw [heq], compiler, before, after, rules, hrules, by rw [heq]⟩
  · rw [heq]
    exact .inr yaraEngineDestroy_idle
  · rw [heq]
    exact .inr (YaraEngine.idle_of_inactive rfl rfl)

end

/-- A libyara whose calls succeed, with rules that match every file. -/
def readyYara : Libyara Unit Unit Unit where
  yrInitialize world := (true, world)
  yrCompilerCreate world := (some (), world)
  yrCompilerAddFile _ _ _ world := (0, (), world)
  yrCompilerGetRules _ world := (some (), world)
  yrRulesScanFile _ _ := .scanned (some (lit "ransom"))

/-- The directory of the rules is gone. -/
def noRulesDir : RulesDir where
  readdir _ := none
  stat _ := none
  fopen _ := false
  stat_long _ _ := rfl

/-- A reload while the directory of the rules is away takes the rules in force down. -/
theorem reload_drops_rules : ¬ ReloadProtects readyYara noRulesDir none ⟨none, some (), true, 1⟩ () := by
  rintro (⟨-, hactive⟩ | ⟨hactive, -⟩)
  · cases hactive
  · cases hactive

end GfrGuard
