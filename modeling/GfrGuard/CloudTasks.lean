import GfrGuard.Fanotify
import GfrGuard.Lib.Runs

/-!
# The saved cloud tasks

A block of a cloud session asks neo-croner for the task, saves what it reports, and has it
deleted. The three happen whether or not the query was answered, and every later notification of
the session blocks it again, so the newest row of a task may be one that was saved without its
config (`deleted_task_forgotten`). A deleted task stays recoverable in every state of a run exactly
when no step saves over it and each deletion saved what was reported (`deleted_task_recoverable_iff`).
What neo-croner prints is a parameter of the model (`TaskReport`, `NoReport`).
-/

namespace GfrGuard

/-! ## The query -/

/-- `isalnum` in the C locale. -/
def isAlnum (c : UInt8) : Bool :=
  48 ≤ c && c ≤ 57 || 65 ≤ c && c ≤ 90 || 97 ≤ c && c ≤ 122

/-- `valid_task_name`. -/
def validTaskName (s : CStr) : Bool :=
  s ≠ [] && s.all fun c => isAlnum c || c ∈ lit "_.-"

/-- What follows the label of a line, less the blanks before it. -/
def lineValue (label line : CStr) : CStr :=
  (line.drop label.length).dropWhile fun c => c = 32 || c = 9

/-- One line of the parse: a value goes into its buffer. -/
def cronerLine (out : CBuf 256 × CBuf 4096) (line : CStr) : CBuf 256 × CBuf 4096 :=
  if lit "Expression:" <+: line then (.ofStr 256 (lineValue (lit "Expression:") line), out.2)
  else if lit "Command:" <+: line then (out.1, .ofStr 4096 (lineValue (lit "Command:") line))
  else out

/-- What is read of the output, as the string that is parsed. -/
def readStdout (stdout : CStr) : CStr := (stdout.take 8191).takeWhile (· ≠ 0)

/-- `neo_croner_query`: the expression and the command, and whether both are there. The output is
nothing when the tool cannot be run or read to its end in time. -/
def neoCronerQuery (task : CStr) (stdout : Option CStr) : Bool × CBuf 256 × CBuf 4096 :=
  if validTaskName task then
    match stdout with
    | none => (false, .empty 256, .empty 4096)
    | some stdout =>
      let out := (SepText.components newline (readStdout stdout)).foldl cronerLine
        (.empty 256, .empty 4096)
      (out.1.str ≠ [] && out.2.str ≠ [], out)
  else (false, .empty 256, .empty 4096)

/-- The value of the last line with a label. -/
def lastValue (label : CStr) (lines : List CStr) : CStr :=
  match (lines.filter (label.isPrefixOf ·)).getLast? with
  | none => []
  | some line => lineValue label line

/-- What a text reports under a label. -/
def reportedValue (label text : CStr) : CStr := lastValue label (SepText.components newline text)

/-- What `neo-croner query` prints for a task it has. -/
structure TaskReport where
  text : CStr
  hasExpression : reportedValue (lit "Expression:") text ≠ []
  hasCommand : reportedValue (lit "Command:") text ≠ []

/-- The expression of the task. -/
def TaskReport.expression (r : TaskReport) : CStr := reportedValue (lit "Expression:") r.text

/-- The command of the task. -/
def TaskReport.command (r : TaskReport) : CStr := reportedValue (lit "Command:") r.text

/-- What it prints for a task it does not have: no config is read of it. -/
structure NoReport where
  text : CStr
  noExpression : reportedValue (lit "Expression:") (readStdout text) = []
  noCommand : reportedValue (lit "Command:") (readStdout text) = []

/-! ## The table -/

/-- A row of `cloud_task_configs`. -/
structure CloudTaskConfig where
  id : Nat
  eventId : CStr
  taskName : CStr
  expression : CStr
  command : CStr
  status : CStr
  disabledAt : CStr
  restoredAt : Option CStr

/-- The table, its rows in the order of their ids, and the ids handed out so far. -/
structure CloudTaskTable where
  rows : List CloudTaskConfig
  seq : Nat
  ordered : (rows.map (·.id)).Pairwise (· < ·)
  bounded : ∀ row ∈ rows, row.id ≤ seq

/-- `db_save_cloud_task_config`, when the insert succeeds. -/
def dbSaveCloudTaskConfig (eventId : Option CStr) (task expression command disabledAt : CStr)
    (t : CloudTaskTable) : CloudTaskTable where
  rows := t.rows ++ [{
    id := t.seq + 1
    eventId := eventId.getD []
    taskName := task
    expression := expression
    command := command
    status := lit "disabled"
    disabledAt := disabledAt
    restoredAt := none }]
  seq := t.seq + 1
  ordered := by
    rw [List.map_append, List.map_singleton, List.pairwise_append]
    refine ⟨t.ordered, List.pairwise_singleton _ _, fun id hid id' hid' => ?_⟩
    obtain ⟨row, hrow, rfl⟩ := List.mem_map.1 hid
    rw [List.mem_singleton.1 hid']
    exact Nat.lt_succ_of_le (t.bounded row hrow)
  bounded row hrow := by
    rcases List.mem_append.1 hrow with hold | hnew
    · exact Nat.le_succ_of_le (t.bounded row hold)
    · rw [List.mem_singleton.1 hnew]

/-- The row is a task that was not restored. -/
def CloudTaskConfig.disabled (task : CStr) (row : CloudTaskConfig) : Bool :=
  row.taskName = task && row.status = lit "disabled"

/-- `db_get_cloud_task_config` into buffers of two sizes: the newest row of the task that is
disabled, which is the last. -/
def dbGetCloudTaskConfig (t : CloudTaskTable) (task : CStr) (elen clen : Nat) :
    Option (CStr × CStr) :=
  ((t.rows.filter (·.disabled task)).getLast?).map fun row =>
    (snprintf elen row.expression, snprintf clen row.command)

/-- The update of `db_mark_cloud_task_restored` on a row. -/
def CloudTaskConfig.restore (task restoredAt : CStr) (row : CloudTaskConfig) : CloudTaskConfig :=
  if row.disabled task then { row with status := lit "restored", restoredAt := some restoredAt }
  else row

theorem id_restore (task restoredAt : CStr) (row : CloudTaskConfig) :
    (row.restore task restoredAt).id = row.id := by
  unfold CloudTaskConfig.restore
  split <;> rfl

/-- `db_mark_cloud_task_restored`, when the update succeeds. -/
def dbMarkCloudTaskRestored (task restoredAt : CStr) (t : CloudTaskTable) : CloudTaskTable where
  rows := t.rows.map (·.restore task restoredAt)
  seq := t.seq
  ordered := by
    have hids : (t.rows.map (·.restore task restoredAt)).map (·.id) = t.rows.map (·.id) := by
      rw [List.map_map]
      exact List.map_congr_left fun row _ => id_restore task restoredAt row
    rw [hids]
    exact t.ordered
  bounded row hrow := by
    obtain ⟨old, hold, rfl⟩ := List.mem_map.1 hrow
    rw [id_restore]
    exact t.bounded old hold

/-! ## The block -/

/-- What the database and neo-croner answer during a block. -/
structure CloudBlockEnv where
  /-- The local time as text. -/
  ts : CStr
  /-- The query is run, and read to its end in time. -/
  queryOk : Bool
  /-- What it prints for a task that neo-croner does not have. -/
  noTask : NoReport
  /-- The insert succeeds. -/
  saveOk : Bool
  /-- The deletion is run, and removes the task if neo-croner has it. -/
  deletes : Bool

/-- The saved configs, the tasks of neo-croner with what it prints for each, and those that a block
has removed and that are not marked restored, with what was printed for each before. -/
structure CloudState where
  table : CloudTaskTable
  tasks : CStr → Option TaskReport
  deleted : CStr → Option TaskReport

/-- What `neo-croner query` prints, if it can be read. -/
def CloudState.stdout (s : CloudState) (env : CloudBlockEnv) (task : CStr) : Option CStr :=
  if env.queryOk then
    match s.tasks task with
    | some r => some r.text
    | none => some env.noTask.text
  else none

/-- `neo_croner_delete`: the task it removes, if it removes one. -/
def CloudState.removes (s : CloudState) (env : CloudBlockEnv) (task : CStr) : Option TaskReport :=
  if validTaskName task && env.deletes then s.tasks task else none

/-- `cloud_block_task`, the processes it kills apart: query, save, delete. Whether the query was
answered is only logged. -/
def cloudBlockTask (env : CloudBlockEnv) (task : CStr) (eventId : Option CStr) (s : CloudState) :
    CloudState :=
  let (_, expression, command) := neoCronerQuery task (s.stdout env task)
  let table :=
    if env.saveOk then
      dbSaveCloudTaskConfig eventId task expression.str command.str env.ts s.table
    else s.table
  match s.removes env task with
  | none => { s with table := table }
  | some r =>
    { table := table
      tasks := Function.update s.tasks task none
      deleted := Function.update s.deleted task (some r) }

/-- `cloud_block`: the share name of the session stands for its task. -/
def cloudBlock (env : CloudBlockEnv) (ctx : ChannelCtx) (eventId : Option CStr) (s : CloudState) :
    CloudState :=
  cloudBlockTask env ctx.shareName.str eventId s

/-! ## Runs -/

/-- What can happen to the tasks and the table. -/
inductive CloudEvent where
  /-- A block of a session, under its event if it has one. -/
  | block (env : CloudBlockEnv) (ctx : ChannelCtx) (eventId : Option CStr)
  /-- Someone else sets up, changes or removes a task of neo-croner. -/
  | croner (task : CStr) (report : Option TaskReport)
  /-- `db_mark_cloud_task_restored`, and whether the update succeeds. -/
  | restored (task restoredAt : CStr) (ok : Bool)

/-- One event. -/
def cloudStep (s : CloudState) : CloudEvent → CloudState
  | .block env ctx eventId => cloudBlock env ctx eventId s
  | .croner task report => { s with tasks := Function.update s.tasks task report }
  | .restored task restoredAt ok =>
    if ok then
      { s with
        table := dbMarkCloudTaskRestored task restoredAt s.table
        deleted := Function.update s.deleted task none }
    else s

/-- Before any block, with any rows of earlier runs and any tasks. -/
def CloudState.start (table : CloudTaskTable) (tasks : CStr → Option TaskReport) : CloudState :=
  ⟨table, tasks, fun _ => none⟩

/-- The table returns the config of the task into buffers as large as those it was saved from. -/
def Recovers (t : CloudTaskTable) (task : CStr) (r : TaskReport) : Prop :=
  ∀ elen clen, 256 ≤ elen → 4096 ≤ clen →
    dbGetCloudTaskConfig t task elen clen = some (r.expression, r.command)

/-- Every task that a block removed is recoverable until it is marked restored. -/
def CloudState.Recoverable (s : CloudState) : Prop :=
  ∀ task r, s.deleted task = some r → Recovers s.table task r

/-- What the buffers take of a report `r'` is the config of `r`. -/
def ReadsAs (r' r : TaskReport) : Prop :=
  snprintf 256 (reportedValue (lit "Expression:") (readStdout r'.text)) = r.expression ∧
    snprintf 4096 (reportedValue (lit "Command:") (readStdout r'.text)) = r.command

/-- The block asks for a task that neo-croner has, under a valid name, and the answer can be read
as the config of `r`. -/
def Answers (s : CloudState) (env : CloudBlockEnv) (task : CStr) (r : TaskReport) : Prop :=
  validTaskName task = true ∧ env.queryOk = true ∧ ∃ r', s.tasks task = some r' ∧ ReadsAs r' r

/-- A block of a task that it removes, or that was removed and not restored, saves an answer with
the config the task had; if it saves nothing, the table has the config already. -/
def KeepsConfig (s : CloudState) : CloudEvent → Prop
  | .block env ctx _ =>
    ∀ r, (s.removes env ctx.shareName.str).or (s.deleted ctx.shareName.str) = some r →
      if env.saveOk then Answers s env ctx.shareName.str r
      else Recovers s.table ctx.shareName.str r
  | _ => True

section
variable {s : CloudState} {env : CloudBlockEnv} {task task' : CStr} {r r' : TaskReport}
  {t : CloudTaskTable} {e : CloudEvent} {elen clen : Nat}

/-! ## What a query reads -/

theorem lastValue_concat (label line : CStr) (lines : List CStr) :
    lastValue label (lines ++ [line]) =
      if label <+: line then lineValue label line else lastValue label lines := by
  unfold lastValue
  rw [List.filter_append]
  by_cases h : label <+: line
  · rw [if_pos h, List.filter_cons_of_pos (List.isPrefixOf_iff_prefix.2 h), List.filter_nil,
      List.getLast?_concat]
  · rw [if_neg h, List.filter_cons_of_neg (fun hp => h (List.isPrefixOf_iff_prefix.1 hp)),
      List.filter_nil, List.append_nil]

/-- The loop of the parse keeps the last value of each label. -/
theorem foldl_cronerLine (lines : List CStr) :
    lines.foldl cronerLine (.empty 256, .empty 4096) =
      (.ofStr 256 (lastValue (lit "Expression:") lines),
        .ofStr 4096 (lastValue (lit "Command:") lines)) := by
  induction lines using List.reverseRecOn with
  | nil => rfl
  | append_singleton lines line ih =>
    rw [List.foldl_concat, ih, lastValue_concat, lastValue_concat]
    unfold cronerLine
    by_cases hexpr : lit "Expression:" <+: line
    · have hcmd : ¬ lit "Command:" <+: line := fun hcmd => by
        have hboth := List.prefix_or_prefix_of_prefix hexpr hcmd
        revert hboth
        decide
      rw [if_pos hexpr, if_pos hexpr, if_neg hcmd]
    · rw [if_neg hexpr, if_neg hexpr]
      by_cases hcmd : lit "Command:" <+: line
      · rw [if_pos hcmd, if_pos hcmd]
      · rw [if_neg hcmd, if_neg hcmd]

/-- What a query leaves in the buffers. -/
theorem neoCronerQuery_values (task : CStr) (stdout : Option CStr) :
    let out := (neoCronerQuery task stdout).2
    match stdout with
    | some text =>
      if validTaskName task then
        out.1.str = snprintf 256 (reportedValue (lit "Expression:") (readStdout text)) ∧
          out.2.str = snprintf 4096 (reportedValue (lit "Command:") (readStdout text))
      else out.1.str = [] ∧ out.2.str = []
    | none => out.1.str = [] ∧ out.2.str = [] := by
  unfold neoCronerQuery
  cases stdout with
  | none => cases validTaskName task <;> exact ⟨rfl, rfl⟩
  | some text =>
    dsimp only
    cases validTaskName task with
    | false => exact ⟨rfl, rfl⟩
    | true =>
      rw [if_pos rfl, if_pos rfl, foldl_cronerLine]
      exact ⟨rfl, rfl⟩

/-- The buffers hold the config of a report exactly when the query was answered so. -/
theorem query_eq_iff (s : CloudState) (env : CloudBlockEnv) (task : CStr) (r : TaskReport) :
    (neoCronerQuery task (s.stdout env task)).2.1.str = r.expression ∧
        (neoCronerQuery task (s.stdout env task)).2.2.str = r.command ↔
      Answers s env task r := by
  have hempty : ∀ out : CBuf 256 × CBuf 4096, out.1.str = [] →
      ¬ (out.1.str = r.expression ∧ out.2.str = r.command) := fun out hnil h =>
    r.hasExpression (h.1.symm.trans hnil)
  have hvalues := neoCronerQuery_values task (s.stdout env task)
  unfold Answers
  unfold CloudState.stdout at hvalues ⊢
  cases hquery : env.queryOk with
  | false =>
    rw [hquery] at hvalues
    exact iff_of_false (hempty _ hvalues.1) fun h => Bool.false_ne_true h.2.1
  | true =>
    rw [hquery] at hvalues
    rw [if_pos rfl] at hvalues ⊢
    cases hvalid : validTaskName task with
    | false =>
      have hnil : (neoCronerQuery task (match s.tasks task with
          | some r => some r.text
          | none => some env.noTask.text)).2.1.str = [] := by
        unfold neoCronerQuery
        rw [hvalid]
        rfl
      exact iff_of_false (hempty _ hnil) fun h => Bool.false_ne_true h.1
    | true =>
      rw [and_iff_right rfl, and_iff_right rfl]
      cases htask : s.tasks task with
      | none =>
        rw [htask, hvalid] at hvalues
        have hnil := hvalues.1
        rw [env.noTask.noExpression] at hnil
        exact iff_of_false (hempty _ hnil) fun ⟨_, h, _⟩ => by cases h
      | some r' =>
        rw [htask, hvalid] at hvalues
        rw [hvalues.1, hvalues.2]
        exact ⟨fun h => ⟨r', rfl, h⟩, fun ⟨_, h, hreads⟩ => by cases h; exact hreads⟩

/-! ## What the table returns -/

/-- The last of the disabled rows of a task is the newest, as `ORDER BY id DESC` has it. -/
theorem id_le_of_getLast? {row row' : CloudTaskConfig}
    (h : (t.rows.filter (·.disabled task)).getLast? = some row) (hrow : row' ∈ t.rows)
    (hdis : row'.disabled task = true) : row'.id ≤ row.id := by
  obtain ⟨rows, hrows⟩ := List.getLast?_eq_some_iff.1 h
  have hordered : ((rows ++ [row]).map (·.id)).Pairwise (· < ·) :=
    hrows ▸ t.ordered.sublist (List.filter_sublist.map _)
  rw [List.map_append, List.map_singleton, List.pairwise_append] at hordered
  have hmem : row' ∈ rows ++ [row] := hrows ▸ List.mem_filter.2 ⟨hrow, hdis⟩
  rcases List.mem_append.1 hmem with hold | hlast
  · exact Nat.le_of_lt (hordered.2.2 _ (List.mem_map_of_mem hold) _ (List.mem_singleton_self _))
  · rw [List.mem_singleton.1 hlast]

theorem dbGet_save (eventId : Option CStr) (task expression command ts : CStr)
    (t : CloudTaskTable) (task' : CStr) (elen clen : Nat) :
    dbGetCloudTaskConfig (dbSaveCloudTaskConfig eventId task expression command ts t) task' elen
        clen =
      if task = task' then some (snprintf elen expression, snprintf clen command)
      else dbGetCloudTaskConfig t task' elen clen := by
  unfold dbGetCloudTaskConfig dbSaveCloudTaskConfig
  dsimp only
  rw [List.filter_append]
  by_cases h : task = task'
  · subst h
    rw [if_pos rfl, List.filter_cons_of_pos (by simp [CloudTaskConfig.disabled]), List.filter_nil,
      List.getLast?_concat]
    rfl
  · rw [if_neg h, List.filter_cons_of_neg (by simp [CloudTaskConfig.disabled, h]), List.filter_nil,
      List.append_nil]

/-- Marking a task restored leaves the others. -/
theorem dbGet_markRestored (restoredAt : CStr) (t : CloudTaskTable) (h : task' ≠ task)
    (elen clen : Nat) :
    dbGetCloudTaskConfig (dbMarkCloudTaskRestored task restoredAt t) task' elen clen =
      dbGetCloudTaskConfig t task' elen clen := by
  have hrow : ∀ row : CloudTaskConfig,
      (row.restore task restoredAt).disabled task' = row.disabled task' := fun row => by
    unfold CloudTaskConfig.restore
    split
    · next hdis =>
      have hname : row.taskName = task := by
        simp only [CloudTaskConfig.disabled, Bool.and_eq_true, decide_eq_true_eq] at hdis
        exact hdis.1
      simp [CloudTaskConfig.disabled, hname, Ne.symm h]
    · rfl
  have hfilter : (t.rows.map (·.restore task restoredAt)).filter (·.disabled task') =
      t.rows.filter (·.disabled task') := by
    rw [List.filter_map]
    have hsame : (CloudTaskConfig.disabled task' ∘ CloudTaskConfig.restore task restoredAt) =
        CloudTaskConfig.disabled task' := funext hrow
    rw [hsame]
    refine (List.map_congr_left fun row hmem => ?_).trans (List.map_id _)
    have hdis := (List.mem_filter.1 hmem).2
    unfold CloudTaskConfig.restore
    rw [if_neg]
    · rfl
    · intro hother
      simp only [CloudTaskConfig.disabled, Bool.and_eq_true, decide_eq_true_eq] at hdis hother
      exact h (hdis.1.symm.trans hother.1)
  unfold dbGetCloudTaskConfig dbMarkCloudTaskRestored
  dsimp only
  rw [hfilter]

/-- A row just saved from the buffers of a block is the config of the task exactly when they held
it. -/
theorem recovers_save_iff (eventId : Option CStr) (expression : CBuf 256) (command : CBuf 4096)
    (ts : CStr) (t : CloudTaskTable) :
    Recovers (dbSaveCloudTaskConfig eventId task expression.str command.str ts t) task r ↔
      expression.str = r.expression ∧ command.str = r.command := by
  have hget : ∀ elen clen, 256 ≤ elen → 4096 ≤ clen →
      dbGetCloudTaskConfig (dbSaveCloudTaskConfig eventId task expression.str command.str ts t) task
        elen clen = some (expression.str, command.str) := fun elen clen he hc => by
    rw [dbGet_save, if_pos rfl, snprintf_of_lt (Nat.lt_of_lt_of_le expression.fits he),
      snprintf_of_lt (Nat.lt_of_lt_of_le command.fits hc)]
  constructor
  · intro h
    have hpair := (hget 256 4096 (Nat.le_refl _) (Nat.le_refl _)).symm.trans
      (h 256 4096 (Nat.le_refl _) (Nat.le_refl _))
    exact Prod.mk.inj (Option.some.inj hpair)
  · rintro ⟨hexpr, hcmd⟩ elen clen he hc
    rw [hget elen clen he hc, hexpr, hcmd]

/-! ## Steps -/

/-- What a block leaves in the table and counts as deleted. -/
theorem cloudBlockTask_spec (env : CloudBlockEnv) (task : CStr) (eventId : Option CStr)
    (s : CloudState) :
    (cloudBlockTask env task eventId s).table =
        (let (_, expression, command) := neoCronerQuery task (s.stdout env task)
        if env.saveOk then
          dbSaveCloudTaskConfig eventId task expression.str command.str env.ts s.table
        else s.table) ∧
      (cloudBlockTask env task eventId s).deleted task = (s.removes env task).or (s.deleted task) ∧
      ∀ task' ≠ task, (cloudBlockTask env task eventId s).deleted task' = s.deleted task' := by
  unfold cloudBlockTask
  dsimp only
  cases s.removes env task with
  | none => exact ⟨rfl, rfl, fun _ _ => rfl⟩
  | some r =>
    exact ⟨rfl, Function.update_self .., fun task' h => Function.update_of_ne h ..⟩

/-- A step keeps the removed tasks recoverable exactly when it keeps their configs. -/
theorem keepsConfig_iff (h : s.Recoverable) :
    KeepsConfig s e ↔ (cloudStep s e).Recoverable := by
  cases e with
  | croner task report => exact iff_of_true trivial h
  | restored task restoredAt ok =>
    refine iff_of_true trivial ?_
    cases ok with
    | false => exact h
    | true =>
      intro task' r hdel elen clen he hc
      dsimp only [cloudStep] at hdel ⊢
      rw [if_pos rfl] at hdel ⊢
      dsimp only at hdel ⊢
      by_cases htask : task' = task
      · rw [htask, Function.update_self] at hdel
        cases hdel
      · rw [Function.update_of_ne htask] at hdel
        rw [dbGet_markRestored restoredAt s.table htask]
        exact h task' r hdel elen clen he hc
  | block env ctx eventId =>
    dsimp only [KeepsConfig, cloudStep, cloudBlock]
    generalize ctx.shareName.str = task
    obtain ⟨htable, hself, hother⟩ := cloudBlockTask_spec env task eventId s
    have hkept : ∀ task' ≠ task, ∀ r, s.deleted task' = some r →
        Recovers (cloudBlockTask env task eventId s).table task' r := by
      intro task' hne r hdel elen clen he hc
      rw [htable]
      dsimp only
      split
      · rw [dbGet_save, if_neg hne.symm]
        exact h task' r hdel elen clen he hc
      · exact h task' r hdel elen clen he hc
    have hsaved : ∀ r, Recovers (cloudBlockTask env task eventId s).table task r ↔
        if env.saveOk then Answers s env task r else Recovers s.table task r := by
      intro r
      rw [htable]
      dsimp only
      split
      · rw [recovers_save_iff, query_eq_iff]
      · rfl
    unfold CloudState.Recoverable
    constructor
    · intro hkeeps task' r hdel
      by_cases htask : task' = task
      · subst htask
        exact (hsaved r).2 (hkeeps r (hself.symm.trans hdel))
      · exact hkept task' htask r ((hother task' htask).symm.trans hdel)
    · intro hall r hdel
      exact (hsaved r).1 (hall task r (hself.trans hdel))

end

/-- In every run of blocks, of restores and of changes to the tasks of neo-croner: every task that a
block removed is recoverable in every state until it is marked restored, exactly when each block
keeps the config. -/
theorem deleted_task_recoverable_iff (table : CloudTaskTable) (tasks : CStr → Option TaskReport)
    (es : List CloudEvent) :
    Runs.AllSteps cloudStep KeepsConfig (.start table tasks) es ↔
      ∀ pre, pre <+: es → (Runs.run cloudStep (.start table tasks) pre).Recoverable :=
  Runs.allSteps_iff_states (fun _ => True) CloudState.Recoverable (fun _ _ _ => trivial)
    (fun _ _ _ h => keepsConfig_iff h) trivial fun _ _ h => by cases h

/-- What neo-croner prints for a sample task. -/
def sampleReport : TaskReport where
  text := lit "Expression:     0 2 * * *\nCommand:        rclone bisync photos\n"
  hasExpression := by decide
  hasCommand := by decide

/-- A block in which everything succeeds; for a task it does not have neo-croner prints nothing. -/
def sampleBlock : CloudEvent :=
  .block ⟨lit "2026-01-01T00:00:00", true, ⟨[], by decide, by decide⟩, true, true⟩
    ⟨.ofStr 64 (lit "cloud"), .ofStr 48 (lit "photos"), .ofStr 64 (lit "photos")⟩
    (some (lit "evt-20260101-001"))

/-- Every call of the block succeeds. -/
def CloudEvent.Succeeds : CloudEvent → Prop
  | .block env _ _ => env.queryOk = true ∧ env.saveOk = true ∧ env.deletes = true
  | _ => True

/-- A second notification of the session of a deleted task saves an empty config over the one
saved before. -/
theorem deleted_task_forgotten :
    ¬ ∀ (table : CloudTaskTable) (tasks : CStr → Option TaskReport) (es : List CloudEvent),
      (∀ e ∈ es, e.Succeeds) →
      ∀ pre, pre <+: es → (Runs.run cloudStep (.start table tasks) pre).Recoverable := by
  intro h
  have hall := h ⟨[], 0, List.Pairwise.nil, fun _ hrow => absurd hrow List.not_mem_nil⟩
    (fun task => if task = lit "photos" then some sampleReport else none)
    [sampleBlock, sampleBlock] (fun e he => by
      obtain rfl | rfl : e = sampleBlock ∨ e = sampleBlock := by simpa using he
      all_goals exact ⟨rfl, rfl, rfl⟩) _ List.prefix_rfl
  have hget := hall (lit "photos") sampleReport (by rfl) 256 4096 (Nat.le_refl _) (Nat.le_refl _)
  revert hget
  decide

end GfrGuard
