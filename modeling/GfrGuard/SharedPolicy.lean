import GfrGuard.PolicyRequests
import GfrGuard.Lib.Sections
import GfrGuard.Lib.Slots
import Mathlib.Data.Fintype.Basic

/-!
# The writers of the policy file

The daemon persists verdicts in the policy file, through a temporary file and a rename; the
requests of the web server load the file, change it and write it in place. Neither takes a lock.
Any number of them run in any order of their steps. As long as none takes a step on the file
while another is between its reading and its writing (`PolicyApart`), nothing that one of them
has stored is lost (`policy_updates_kept`).
-/

namespace GfrGuard

/-! ## The calls -/

/-- What the daemon and the web server make of a text. -/
structure PolicyEnv extends ConfigEnv where
  /-- `json.load`. -/
  load : CStr → Option Json
  /-- `json.dump`, with an indent of two. -/
  dump : Json → CStr

/-- A call that works on the policy file. -/
inductive PolicyJob where
  /-- `config_persist_blacklist_ip`. -/
  | persist (ip : CStr)
  /-- A request that loads the policy, changes it, and saves it where the change succeeds. -/
  | web (change : Json → Option Json)

/-- The address a persist has stored when it reports success. -/
def PolicyJob.stores : PolicyJob → Option CStr
  | .persist ip => if validClientIp ip then some ip else none
  | .web _ => none

/-- A call that does not come to the file, and its result: the address is no real one. -/
def PolicyJob.skips : PolicyJob → Option Bool
  | .persist ip => if validClientIp ip then none else some (ip ≠ [])
  | .web _ => none

/-- The document a call reads. -/
def PolicyJob.read (env : PolicyEnv) (job : PolicyJob) (text : Option CStr) : Option Json :=
  match job with
  | .persist _ => (text.filter fun text => text.length ≤ 4194304).bind env.parse
  | .web _ => text.bind env.load

/-- It finds what it was to store. -/
def PolicyJob.finds : PolicyJob → Json → Bool
  | .persist ip, root => ip ∈ fileAddresses root
  | .web _, _ => false

/-- The document it makes of the one it has read. -/
def PolicyJob.change : PolicyJob → Json → Option Json
  | .persist ip, root => some (addVerdict root ip)
  | .web change, policy => change policy

/-- What it writes for a document. -/
def PolicyJob.text (env : PolicyEnv) : PolicyJob → Json → CStr
  | .persist _, root => env.print root ++ [newline]
  | .web _, policy => env.dump policy ++ [newline]

/-- `save_policy` writes the file itself, the persist a temporary one. -/
def PolicyJob.inPlace : PolicyJob → Bool
  | .persist _ => false
  | .web _ => true

/-- The document after the call, made alone and without a failure. -/
def PolicyJob.perform (job : PolicyJob) (doc : Json) : Json :=
  if job.skips.isSome || job.finds doc then doc else (job.change doc).getD doc

/-- Where a call is. -/
inductive PolicyPc where
  | start
  /-- It has made what it writes. -/
  | ready (out : CStr)
  /-- The file it writes is open, and written up to an offset. -/
  | writing (inode off : Nat) (out : CStr)
  /-- It is through with the file. -/
  | closing (ok : Bool)
  | finished (ok : Bool)
  deriving DecidableEq

/-- The file has been read. -/
def PolicyJob.afterRead (env : PolicyEnv) (job : PolicyJob) (text : Option CStr) : PolicyPc :=
  match job.read env text with
  | none => .closing false
  | some doc =>
    if job.finds doc then .closing true
    else
      match job.change doc with
      | none => .closing false
      | some doc => .ready (job.text env doc)

section
variable {ι : Type*}

/-- One step of a call. -/
def policyStep (env : PolicyEnv) (jobs : ι → PolicyJob) (i : ι) (io : FileIo) (s : Slots UInt8) :
    PolicyPc → Slots UInt8 × PolicyPc
  | .start =>
    match (jobs i).skips with
    | some ok => (s, .finished ok)
    | none =>
      match io with
      | .fail => (s, .finished false)
      | .ok _ => (s, (jobs i).afterRead env s.read)
  | .ready out =>
    match io with
    | .fail => (s, .closing false)
    | .ok _ =>
      let opened := if (jobs i).inPlace then s.openMain else s.openTmp
      (opened.2, .writing opened.1 0 out)
  | .writing n off out =>
    match io with
    | .fail => (if (jobs i).inPlace then s else s.unlinkTmp, .closing false)
    | .ok k =>
      if off < out.length then
        let bytes := Slots.chunk out off k
        (s.write n off bytes, .writing n (off + bytes.length) out)
      else if (jobs i).inPlace then (s, .closing true)
      else if s.tmp.isSome then (s.rename, .closing true)
      else (s, .closing false)
  | .closing ok => (s, .finished ok)
  | .finished ok => (s, .finished ok)

/-- The calls on the policy file; a call is in its section from its reading of the file until it
is through. -/
def policyCode (env : PolicyEnv) (jobs : ι → PolicyJob) :
    Sections.Code ι (Slots UInt8) PolicyPc FileIo where
  step := policyStep env jobs
  inside
    | .start | .finished _ => false
    | _ => true
  complete
    | .finished ok => ok
    | _ => false

/-- No call has begun. -/
def policyStart (files : Slots UInt8) : Sections.World ι (Slots UInt8) PolicyPc where
  shared := files
  pc _ := .start
  log := []

/-- Every call that has begun has completed with success. -/
def AllSucceed (w : Sections.World ι (Slots UInt8) PolicyPc) : Prop :=
  ∀ i, w.pc i = .start ∨ w.pc i = .finished true

/-! ## What is stored -/

/-- The text of a document, to the daemon and to the web server. -/
def IsText (env : PolicyEnv) (text : CStr) (doc : Json) : Prop :=
  env.parse text = some doc ∧ env.load text = some doc

/-- A request that completed after a call undid what the call had stored. -/
def Undone (jobs : ι → PolicyJob) (doc : Json) (log : List ι) (i : ι) (Q : Json → Prop) : Prop :=
  ∃ pre j post change before after, log = pre ++ j :: post ∧ i ∈ pre ∧ jobs j = .web change ∧
    before = pre.foldl (fun doc i => (jobs i).perform doc) doc ∧ change before = some after ∧
      Q before ∧ ¬ Q after

/-- The file holds every address that a persist has stored and every item that an
`update_config` has saved, but for what a later request undid. -/
def PolicyKept (env : PolicyEnv) (jobs : ι → PolicyJob) (doc : Json)
    (w : Sections.World ι (Slots UInt8) PolicyPc) : Prop :=
  ∃ text doc', w.shared.read = some text ∧ IsText env text doc' ∧
    (∀ i ∈ w.log, ∀ ip ∈ (jobs i).stores,
      ip ∈ fileAddresses doc' ∨ Undone jobs doc w.log i (ip ∈ fileAddresses ·)) ∧
    ∀ i ∈ w.log, ∀ body, jobs i = .web (updateConfig (.obj body)) → DistinctKeys (.obj body) →
      ∀ f ∈ body, f.1 ∈ policyKeys → DistinctKeys f.2 →
        Saved f.1 f.2 doc' ∨ Undone jobs doc w.log i (Saved f.1 f.2)

/-- A persist that adds its address finds no hidden item, and makes no room by an address that
another has stored. -/
def KeepsStored (jobs : ι → PolicyJob) (log : List ι) (i : ι) (doc : Json) : Prop :=
  (jobs i).stores.isSome = true → (jobs i).finds doc = false →
    PlainBlacklist doc ∧ ∀ k ∈ log, ∀ a ∈ (jobs k).stores, a ∈ fileAddresses doc →
      a ∈ (dropOldestAuto (blacklistEntries doc)).filterMap entryIp

/-- A step on the file is taken while no other call is between its reading and its writing, and
what a persist reads lets it keep what is stored. -/
def PolicyApart [DecidableEq ι] (env : PolicyEnv) (jobs : ι → PolicyJob)
    (w : Sections.World ι (Slots UInt8) PolicyPc) (e : ι × FileIo) : Prop :=
  (policyCode env jobs).Alone w e ∧
    (w.pc e.1 = .start → ∀ doc ∈ (jobs e.1).read env w.shared.read, KeepsStored jobs w.log e.1 doc)

instance (root : Json) : Decidable (PlainBlacklist root) := by
  unfold PlainBlacklist
  have (item : Option Json) : Decidable (item = none) := decidable_of_iff _ Option.isNone_iff_eq_none
  refine @instDecidableAnd _ _ inferInstance ?_
  split <;> infer_instance

instance (jobs : ι → PolicyJob) (log : List ι) (i : ι) (doc : Json) :
    Decidable (KeepsStored jobs log i doc) := by
  unfold KeepsStored; infer_instance

instance [DecidableEq ι] [Fintype ι] (env : PolicyEnv) (jobs : ι → PolicyJob)
    (w : Sections.World ι (Slots UInt8) PolicyPc) (e : ι × FileIo) :
    Decidable (PolicyApart env jobs w e) := by
  unfold PolicyApart Sections.Code.Alone; infer_instance

instance [Fintype ι] (w : Sections.World ι (Slots UInt8) PolicyPc) : Decidable (AllSucceed w) := by
  unfold AllSucceed; infer_instance

/-- What a call writes of the document it has made is a text of it. -/
def WritesBack (env : PolicyEnv) (jobs : ι → PolicyJob)
    (w : Sections.World ι (Slots UInt8) PolicyPc) (e : ι × FileIo) : Prop :=
  w.pc e.1 = .start → (jobs e.1).skips = none → ∀ doc ∈ (jobs e.1).read env w.shared.read,
    (jobs e.1).finds doc = false → ∀ doc' ∈ (jobs e.1).change doc,
      IsText env ((jobs e.1).text env doc') doc'

end

/-! ## Alone -/

theorem skips_persist (ip : CStr) :
    (PolicyJob.persist ip).skips = if validClientIp ip then none else some (ip ≠ [] : Bool) := rfl

theorem stores_persist (ip : CStr) :
    (PolicyJob.persist ip).stores = if validClientIp ip then some ip else none := rfl

/-- A persist made alone does what the daemon does. -/
theorem persist_alone (env : PolicyEnv) (io : PersistIo) (files : FileTexts) (path ip : CStr) :
    configPersistBlacklistIp env.toConfigEnv io files path ip =
      match (PolicyJob.persist ip).skips with
      | some ok => (ok, files)
      | none =>
        match (PolicyJob.persist ip).afterRead env (files path) with
        | .ready out => replaceFile io files path out
        | .closing ok => (ok, files)
        | _ => (false, files) := by
  have hread : (PolicyJob.persist ip).read env (files path) = readJson env.toConfigEnv files path := rfl
  unfold configPersistBlacklistIp
  rw [skips_persist]
  cases hip : validClientIp ip with
  | false =>
    rw [if_neg Bool.false_ne_true]
    split
    · next hnil => simp [hnil]
    · next hnil => simp [hnil]
  | true =>
    rw [if_neg (ne_nil_of_validClientIp hip), Bool.not_true, if_neg Bool.false_ne_true, if_pos rfl]
    unfold PolicyJob.afterRead
    rw [hread]
    cases readJson env.toConfigEnv files path with
    | none => rfl
    | some root =>
      have hfinds : (PolicyJob.persist ip).finds root = decide (ip ∈ fileAddresses root) := rfl
      dsimp only
      rw [hfinds]
      split
      · next hin =>
        have hin : ip ∈ fileAddresses root := hin
        rw [if_pos (decide_eq_true hin)]
      · next hnew =>
        have hnew : ¬ ip ∈ fileAddresses root := hnew
        rw [if_neg fun h => hnew (of_decide_eq_true h)]
        rfl

section
variable {ι : Type*} {env : PolicyEnv} {jobs : ι → PolicyJob} {log : List ι} {i : ι} {io : FileIo}
  {s : Slots UInt8} {p : PolicyPc} {doc doc' : Json}

/-- The file holds the document. -/
def FileHolds (env : PolicyEnv) (doc : Json) (s : Slots UInt8) : Prop :=
  s.Wf ∧ ∃ text, s.read = some text ∧ IsText env text doc

/-- What a call that completes has done to the document. -/
def PolicyPost (jobs : ι → PolicyJob) (log : List ι) (i : ι) (doc doc' : Json) : Prop :=
  match jobs i with
  | .persist ip =>
    (validClientIp ip = true → ip ∈ fileAddresses doc') ∧
      (∀ k ∈ log, ∀ a ∈ (jobs k).stores, a ∈ fileAddresses doc → a ∈ fileAddresses doc') ∧
        ∀ key ∈ policyKeys, ∀ value, Saved key value doc → Saved key value doc'
  | .web change => change doc = some doc'

/-- The output is a text of the document that the call leaves. -/
def WillLeave (env : PolicyEnv) (jobs : ι → PolicyJob) (log : List ι) (i : ι) (doc : Json)
    (out : CStr) : Prop :=
  IsText env out ((jobs i).perform doc) ∧ PolicyPost jobs log i doc ((jobs i).perform doc)

/-- Inside a section that found the document. -/
def PolicyHold (env : PolicyEnv) (jobs : ι → PolicyJob) (log : List ι) (i : ι) (doc : Json)
    (s : Slots UInt8) : PolicyPc → Prop
  | .start | .finished _ => False
  | .ready out => FileHolds env doc s ∧ WillLeave env jobs log i doc out
  | .writing n off out => s.Wf ∧ s.Written n off out ∧ WillLeave env jobs log i doc out ∧
      if (jobs i).inPlace then s.main = some n else s.tmp = some n ∧ FileHolds env doc s
  | .closing true => FileHolds env ((jobs i).perform doc) s ∧
      PolicyPost jobs log i doc ((jobs i).perform doc)
  | .closing false => FileHolds env doc s

/-- A persist that finds its address leaves the document. -/
theorem policyPost_found (hfinds : (jobs i).finds doc = true) : PolicyPost jobs log i doc doc := by
  unfold PolicyPost
  cases hjob : jobs i with
  | persist ip =>
    rw [hjob] at hfinds
    exact ⟨fun _ => of_decide_eq_true hfinds, fun _ _ _ _ => id, fun _ _ _ => id⟩
  | web change =>
    rw [hjob] at hfinds
    cases hfinds

/-- A call that changes the document. -/
theorem policyPost_change (hskips : (jobs i).skips = none) (hfinds : (jobs i).finds doc = false)
    (hchange : (jobs i).change doc = some doc') (hkeeps : KeepsStored jobs log i doc) :
    PolicyPost jobs log i doc doc' := by
  unfold KeepsStored at hkeeps
  unfold PolicyPost
  cases hjob : jobs i with
  | persist ip =>
    rw [hjob] at hskips hkeeps hfinds hchange
    have hip : validClientIp ip = true := by
      cases hip : validClientIp ip with
      | true => rfl
      | false =>
        rw [skips_persist, hip] at hskips
        cases hskips
    obtain ⟨hplain, hstored⟩ := hkeeps (by rw [stores_persist, hip]; rfl) hfinds
    have haddresses : fileAddresses (addVerdict doc ip) = _ := addVerdict_addresses hplain
    cases hchange
    refine ⟨fun _ => ?_, fun k hk a ha hmem => ?_, fun key hkey value h => h.addVerdict hkey ip⟩
    · rw [haddresses]
      exact List.mem_append_right _ List.mem_cons_self
    · rw [haddresses]
      exact List.mem_append_left _ (hstored k hk a ha hmem)
  | web change =>
    rw [hjob] at hchange
    exact hchange

/-- The call that reads the document makes a text of what it leaves, or has nothing to do, or
fails. -/
theorem afterRead_policyHold (hskips : (jobs i).skips = none) (h : FileHolds env doc s)
    (hkeeps : ∀ doc ∈ (jobs i).read env s.read, KeepsStored jobs log i doc)
    (hback : ∀ doc ∈ (jobs i).read env s.read, (jobs i).finds doc = false →
      ∀ doc' ∈ (jobs i).change doc, IsText env ((jobs i).text env doc') doc') :
    PolicyHold env jobs log i doc s ((jobs i).afterRead env s.read) := by
  obtain ⟨text, hread, hparse, hload⟩ := h.2
  have hdoc : ∀ doc' ∈ (jobs i).read env s.read, doc' = doc := by
    intro doc' hmem
    rw [hread] at hmem
    unfold PolicyJob.read at hmem
    cases hjob : jobs i with
    | persist ip =>
      rw [hjob] at hmem
      obtain ⟨text', htext, hdoc'⟩ := Option.bind_eq_some_iff.1 hmem
      cases (Option.filter_eq_some_iff.1 htext).1
      exact Option.some.inj (hdoc'.symm.trans hparse)
    | web change =>
      rw [hjob] at hmem
      exact Option.some.inj (hmem.symm.trans hload)
  unfold PolicyJob.afterRead
  cases hdocs : (jobs i).read env s.read with
  | none => exact h
  | some doc' =>
    cases hdoc doc' hdocs
    have hkeeps := hkeeps doc hdocs
    have hback := hback doc hdocs
    dsimp only
    cases hfinds : (jobs i).finds doc with
    | true =>
      have hperform : (jobs i).perform doc = doc := by
        unfold PolicyJob.perform
        rw [hfinds, Bool.or_true]
        rfl
      show FileHolds env ((jobs i).perform doc) s ∧ PolicyPost jobs log i doc ((jobs i).perform doc)
      rw [hperform]
      exact ⟨h, policyPost_found hfinds⟩
    | false =>
      cases hchange : (jobs i).change doc with
      | none => exact h
      | some doc' =>
        have hperform : (jobs i).perform doc = doc' := by
          unfold PolicyJob.perform
          rw [hskips, hfinds, hchange]
          rfl
        refine ⟨h, ?_⟩
        unfold WillLeave
        rw [hperform]
        exact ⟨hback hfinds doc' hchange, policyPost_change hskips hfinds hchange hkeeps⟩

theorem inside_policyAfterRead (env : PolicyEnv) (jobs : ι → PolicyJob) (job : PolicyJob)
    (text : Option CStr) : (policyCode env jobs).inside (job.afterRead env text) = true := by
  unfold PolicyJob.afterRead
  split
  · rfl
  · split
    · rfl
    · split <;> rfl

/-- A step that enters the section. -/
theorem policyStep_enter (hp : (policyCode env jobs).inside p = false)
    (hp' : (policyCode env jobs).inside (policyStep env jobs i io s p).2 = true)
    (hkeeps : p = .start → ∀ doc ∈ (jobs i).read env s.read, KeepsStored jobs log i doc)
    (hback : p = .start → (jobs i).skips = none → ∀ doc ∈ (jobs i).read env s.read,
      (jobs i).finds doc = false → ∀ doc' ∈ (jobs i).change doc, IsText env ((jobs i).text env doc') doc')
    (h : FileHolds env doc s) :
    PolicyHold env jobs log i doc (policyStep env jobs i io s p).1 (policyStep env jobs i io s p).2 := by
  cases p with
  | start =>
    unfold policyStep at hp' ⊢
    cases hskips : (jobs i).skips with
    | some ok =>
      rw [hskips] at hp'
      cases hp'
    | none =>
      rw [hskips] at hp'
      cases io with
      | fail => cases hp'
      | ok k => exact afterRead_policyHold hskips h (hkeeps rfl) (hback rfl hskips)
  | finished ok => cases hp'
  | ready out | writing n off out | closing ok => cases hp

/-- A step inside the section. -/
theorem policyStep_stay (hp : (policyCode env jobs).inside p = true)
    (hp' : (policyCode env jobs).inside (policyStep env jobs i io s p).2 = true)
    (hio : ∀ n off out, p = .writing n off out → io ≠ .fail) (h : PolicyHold env jobs log i doc s p) :
    PolicyHold env jobs log i doc (policyStep env jobs i io s p).1 (policyStep env jobs i io s p).2 := by
  cases p with
  | start | finished ok => cases hp
  | ready out =>
    obtain ⟨hfile, hwill⟩ := h
    unfold policyStep
    cases io with
    | fail => exact hfile
    | ok k =>
      cases hplace : (jobs i).inPlace with
      | true =>
        obtain ⟨hmain, hwritten⟩ := s.openMain_written out
        refine ⟨hfile.1.openMain, hwritten, hwill, ?_⟩
        rw [hplace]
        exact hmain
      | false =>
        obtain ⟨htmp, hwritten⟩ := s.openTmp_written out
        have hread : ∃ text, s.openTmp.2.read = some text ∧ IsText env text doc := by
          rw [Slots.read_openTmp hfile.1]
          exact hfile.2
        refine ⟨hfile.1.openTmp, hwritten, hwill, ?_⟩
        rw [hplace]
        exact ⟨htmp, hfile.1.openTmp, hread⟩
  | writing n off out =>
    obtain ⟨hwf, hwritten, hwill, hplace⟩ := h
    unfold policyStep
    cases io with
    | fail => exact absurd rfl (hio n off out rfl)
    | ok k =>
      dsimp only
      split
      · refine ⟨hwf.write n off _, hwritten.write k, hwill, ?_⟩
        split at hplace
        · next hin => rw [if_pos hin]; exact hplace
        · next hin =>
          rw [if_neg hin]
          refine ⟨hplace.1, hwf.write n off _, ?_⟩
          rw [Slots.read_write hwf hplace.1]
          exact hplace.2.2
      · next hend =>
        split
        · next hin =>
          rw [if_pos hin] at hplace
          refine ⟨⟨hwf, out, ?_, hwill.1⟩, hwill.2⟩
          unfold Slots.read
          rw [hplace]
          exact congrArg some (hwritten.whole hend)
        · next hin =>
          rw [if_neg hin] at hplace
          split
          · exact ⟨⟨hwf.rename, out, Slots.read_rename hplace.1 hwritten hend, hwill.1⟩, hwill.2⟩
          · exact hplace.2
  | closing ok => cases hp'

/-- The step that leaves the section. -/
theorem policyStep_leave (hp : (policyCode env jobs).inside p = true)
    (hp' : (policyCode env jobs).inside (policyStep env jobs i io s p).2 = false)
    (h : PolicyHold env jobs log i doc s p) :
    if (policyCode env jobs).complete (policyStep env jobs i io s p).2 = true then
      FileHolds env ((jobs i).perform doc) (policyStep env jobs i io s p).1 ∧
        PolicyPost jobs log i doc ((jobs i).perform doc)
    else FileHolds env doc (policyStep env jobs i io s p).1 := by
  cases p with
  | start | finished ok => cases hp
  | ready out => cases io <;> cases hp'
  | writing n off out =>
    unfold policyStep at hp'
    cases io with
    | fail => cases hp'
    | ok k =>
      dsimp only at hp'
      split at hp'
      · cases hp'
      · split at hp'
        · cases hp'
        · split at hp' <;> cases hp'
  | closing ok =>
    cases ok with
    | false => exact h
    | true => exact h

/-- A call outside its section changes nothing, and is complete only when it has nothing to
store. -/
theorem policyStep_outside (hp : (policyCode env jobs).inside p = false)
    (hp' : (policyCode env jobs).inside (policyStep env jobs i io s p).2 = false) :
    (policyStep env jobs i io s p).1 = s ∧ ((policyCode env jobs).complete p = false →
      (policyCode env jobs).complete (policyStep env jobs i io s p).2 = true →
      (jobs i).skips.isSome = true) := by
  cases p with
  | start =>
    unfold policyStep at hp' ⊢
    cases hskips : (jobs i).skips with
    | some ok => exact ⟨rfl, fun _ _ => rfl⟩
    | none =>
      rw [hskips] at hp'
      cases io with
      | fail => exact ⟨rfl, fun _ h => by cases h⟩
      | ok k => cases hp'.symm.trans (inside_policyAfterRead env jobs (jobs i) s.read)
  | finished ok => exact ⟨rfl, fun h h' => by cases h.symm.trans h'⟩
  | ready out | writing n off out | closing ok => cases hp

/-- A call that skips the file stores nothing and leaves the document. -/
theorem policyPost_skips (hskips : (jobs i).skips.isSome = true) :
    (jobs i).stores = none ∧ (jobs i).perform doc = doc ∧ PolicyPost jobs log i doc doc := by
  refine ⟨?_, ?_, ?_⟩
  · cases hjob : jobs i with
    | persist ip =>
      rw [hjob, skips_persist] at hskips
      rw [stores_persist]
      split at hskips
      · cases hskips
      · next hip => exact if_neg hip
    | web change => rfl
  · unfold PolicyJob.perform
    rw [hskips, Bool.true_or, if_pos rfl]
  · unfold PolicyPost
    cases hjob : jobs i with
    | persist ip =>
      rw [hjob, skips_persist] at hskips
      refine ⟨fun hip => ?_, fun _ _ _ _ => id, fun _ _ _ => id⟩
      rw [if_pos hip] at hskips
      cases hskips
    | web change =>
      rw [hjob] at hskips
      cases hskips

/-- What a persist reports as stored is in the document. -/
theorem PolicyPost.stored {ip : CStr} (h : PolicyPost jobs log i doc doc') (hip : ip ∈ (jobs i).stores) :
    ip ∈ fileAddresses doc' := by
  unfold PolicyPost at h
  cases hjob : jobs i with
  | persist ip' =>
    rw [hjob] at h hip
    rw [stores_persist] at hip
    split at hip
    · next hvalid =>
      cases hip
      exact h.1 hvalid
    · cases hip
  | web change =>
    rw [hjob] at hip
    cases hip

/-- A request that completes has changed the document. -/
theorem PolicyPost.changed {change : Json → Option Json} (h : PolicyPost jobs log i doc doc')
    (hjob : jobs i = .web change) : change doc = some doc' := by
  unfold PolicyPost at h
  rwa [hjob] at h

/-- What is said of a call stays said when one that stores nothing completes. -/
theorem PolicyPost.concat {j : ι} (h : PolicyPost jobs log i doc doc') (hj : (jobs j).stores = none) :
    PolicyPost jobs (log ++ [j]) i doc doc' := by
  unfold PolicyPost at h ⊢
  cases hjob : jobs i with
  | persist ip =>
    rw [hjob] at h
    refine ⟨h.1, fun k hk a ha => ?_, h.2.2⟩
    rcases List.mem_append.1 hk with hk | hk
    · exact h.2.1 k hk a ha
    · rw [List.mem_singleton.1 hk, hj] at ha
      cases ha
  | web change =>
    rw [hjob] at h
    exact h

theorem PolicyHold.concat {j : ι} (h : PolicyHold env jobs log i doc s p)
    (hj : (jobs j).stores = none) : PolicyHold env jobs (log ++ [j]) i doc s p := by
  cases p with
  | start | finished ok => exact h
  | ready out => exact ⟨h.1, h.2.1, h.2.2.concat hj⟩
  | writing n off out => exact ⟨h.1, h.2.1, ⟨h.2.2.1.1, h.2.2.1.2.concat hj⟩, h.2.2.2⟩
  | closing ok =>
    cases ok with
    | false => exact h
    | true => exact ⟨h.1, h.2.concat hj⟩

end

/-- What a call on the policy file does when its section is alone. -/
def policySerial {ι : Type*} (env : PolicyEnv) (jobs : ι → PolicyJob) :
    Sections.Serial (policyCode env jobs) Json where
  op i := (jobs i).perform
  Post := PolicyPost jobs
  Ok log i io s p :=
    (p = .start → ∀ doc ∈ (jobs i).read env s.read, KeepsStored jobs log i doc) ∧
      (p = .start → (jobs i).skips = none → ∀ doc ∈ (jobs i).read env s.read,
        (jobs i).finds doc = false → ∀ doc' ∈ (jobs i).change doc,
          IsText env ((jobs i).text env doc') doc') ∧
      ∀ n off out, p = .writing n off out → io ≠ .fail
  Rest := FileHolds env
  Hold := PolicyHold env jobs
  inside_not_complete {p} hp := by cases p <;> first | rfl | cases hp
  outside {i _ _ _} hp hp' :=
    ⟨(policyStep_outside hp hp').1, fun h h' l a => by
      obtain ⟨hstores, hperform, hpost⟩ :
          (jobs i).stores = none ∧ (jobs i).perform a = a ∧ PolicyPost jobs l i a a :=
        policyPost_skips ((policyStep_outside hp hp').2 h h')
      exact ⟨hperform, hpost, fun _ _ _ hold => hold.concat hstores⟩⟩
  enter hok hp hp' h := policyStep_enter hp hp' hok.1 hok.2.1 h
  stay hok hp hp' h := policyStep_stay hp hp' hok.2.2 h
  leave _ := policyStep_leave

section
variable {ι : Type*} {env : PolicyEnv} {jobs : ι → PolicyJob} {log : List ι} {i : ι} {doc : Json}

/-- What a call has left is there unless a later request undid it, when no later persist does. -/
theorem kept_or_undone {Q : Json → Prop} (hpromises : (policySerial env jobs).Promises doc log)
    (hpersist : ∀ pre j ip before after, i ∈ pre → jobs j = .persist ip →
      PolicyPost jobs pre j before after → Q before → Q after)
    (h : (policySerial env jobs).KeptSince doc log i Q) :
    Q ((policySerial env jobs).value doc log) ∨ Undone jobs doc log i Q := by
  rcases h with h | ⟨pre, j, post, hlog, hmem, hbefore, hafter⟩
  · exact .inl h
  · have hpost := hpromises pre j post hlog
    cases hjob : jobs j with
    | persist ip => exact absurd (hpersist pre j ip _ _ hmem hjob hpost hbefore) hafter
    | web change =>
      exact .inr ⟨pre, j, post, change, _, _, hlog, hmem, hjob, rfl, PolicyPost.changed hpost hjob,
        hbefore, hafter⟩

variable [DecidableEq ι] {w : Sections.World ι (Slots UInt8) PolicyPc} {e : ι × FileIo}

/-- A call has failed. -/
def SomeFailed (w : Sections.World ι (Slots UInt8) PolicyPc) : Prop :=
  ∃ i, w.pc i = .closing false ∨ w.pc i = .finished false

theorem SomeFailed.move (h : SomeFailed w) (e : ι × FileIo) :
    SomeFailed ((policyCode env jobs).move w e) := by
  obtain ⟨i, hi⟩ := h
  refine ⟨i, ?_⟩
  by_cases hie : i = e.1
  · have hstep : ((policyCode env jobs).move w e).pc i =
        (policyStep env jobs e.1 e.2 w.shared (w.pc i)).2 := by
      rw [hie]
      exact (policyCode env jobs).move_pc_self w e
    rw [hstep]
    rcases hi with hi | hi
    · exact .inr (by rw [hi]; rfl)
    · exact .inr (by rw [hi]; rfl)
  · rw [Sections.Code.move_pc_of_ne hie]
    exact hi

/-- A write that fails is the failure of its call. -/
theorem someFailed_of_write {n off : ℕ} {out : CStr} (hp : w.pc e.1 = .writing n off out)
    (hio : e.2 = .fail) : SomeFailed ((policyCode env jobs).move w e) := by
  refine ⟨e.1, .inl ?_⟩
  rw [(policyCode env jobs).move_pc_self w e, hp, hio]
  rfl

/-- Where every call succeeds, every write does. -/
theorem writes_succeed {es : List (ι × FileIo)}
    (hend : AllSucceed (Runs.run (policyCode env jobs).move w es)) :
    Runs.AllSteps (policyCode env jobs).move
      (fun w e => ∀ n off out, w.pc e.1 = .writing n off out → e.2 ≠ .fail) w es := by
  refine Runs.allSteps_of_not_bad SomeFailed (fun _ e h => h.move e) (fun w e hnot => ?_) ?_
  · push Not at hnot
    obtain ⟨n, off, out, hp, hio⟩ := hnot
    exact someFailed_of_write hp hio
  · rintro ⟨i, hi⟩
    rcases hend i with h | h <;> rcases hi with hi | hi <;> cases h.symm.trans hi

end

/-- In every run in which no call takes a step on the policy file while another is between its
reading and its writing, what the calls have stored is in the file at the end. -/
theorem policy_updates_kept {ι : Type*} [DecidableEq ι] (env : PolicyEnv) (jobs : ι → PolicyJob)
    (files : Slots UInt8) (doc : Json) (hfile : FileHolds env doc files) (es : List (ι × FileIo))
    (hback : Runs.AllSteps (policyCode env jobs).move (WritesBack env jobs) (policyStart files) es)
    (hrun : Runs.AllSteps (policyCode env jobs).move (PolicyApart env jobs) (policyStart files) es)
    (hend : AllSucceed (Runs.run (policyCode env jobs).move (policyStart files) es)) :
    PolicyKept env jobs doc (Runs.run (policyCode env jobs).move (policyStart files) es) := by
  have hsteps := Runs.allSteps_and.2 ⟨hrun, Runs.allSteps_and.2 ⟨hback, writes_succeed hend⟩⟩
  have hok : Runs.AllSteps (policyCode env jobs).move (fun w e => (policyCode env jobs).Alone w e ∧
      (policySerial env jobs).Ok w.log e.1 e.2 w.shared (w.pc e.1)) (policyStart files) es :=
    Runs.allSteps_imp (fun _ => True) (fun _ _ _ h => ⟨h.1.1, h.1.2, h.2.1, h.2.2⟩)
      (fun _ _ _ _ => trivial) trivial hsteps
  have hquiet : (policyCode env jobs).Quiet
      (Runs.run (policyCode env jobs).move (policyStart files) es) := fun i => by
    rcases hend i with h | h <;> rw [h] <;> rfl
  obtain ⟨hpromises, -, text, hread, htext⟩ :=
    (policySerial env jobs).run (a := doc) (w := policyStart files) (fun _ => rfl) rfl hfile hok hquiet
  refine ⟨text, _, hread, htext, fun i hi ip hip => ?_, fun i hi body hjob hkeys f hf hkey hvalue => ?_⟩
  · obtain ⟨pre, post, hlog⟩ := List.append_of_mem hi
    refine kept_or_undone (Q := (ip ∈ fileAddresses ·)) hpromises
      (fun pre j ip' before after hmem hj hpost hbefore => ?_)
      (Sections.Serial.keptSince_of _ hlog (PolicyPost.stored (hpromises pre i post hlog) hip))
    unfold PolicyPost at hpost
    rw [hj] at hpost
    exact hpost.2.1 i hmem ip hip hbefore
  · obtain ⟨pre, post, hlog⟩ := List.append_of_mem hi
    have hsaved := (PolicyPost.changed (hpromises pre i post hlog) hjob)
    refine kept_or_undone (Q := Saved f.1 f.2) hpromises
      (fun pre j ip before after hmem hj hpost hbefore => ?_)
      (Sections.Serial.keptSince_of _ hlog (updateConfig_saved hsaved hkeys hf hkey hvalue))
    unfold PolicyPost at hpost
    rw [hj] at hpost
    exact hpost.2.2 f.1 hkey f.2 hbefore

/-- The documents of an empty policy, of the policy with `10.0.0.9`, and of one that is saved. -/
def sampleRead (dumped : CStr) (saved : Json) (t : CStr) : Option Json :=
  if t = lit "\x7b\x7d" then some (.obj [])
  else if t = sampleText ++ [newline] then some (addVerdict (.obj []) (lit "10.0.0.9"))
  else if t = dumped ++ [newline] then some saved else none

/-- The libraries on these documents. -/
def samplePolicyEnv (dumped : CStr) (saved : Json) : PolicyEnv where
  parse := sampleRead dumped saved
  print _ := sampleText
  exist _ := true
  dirWritable _ := true
  load := sampleRead dumped saved
  dump _ := dumped

/-- The daemon persists `10.0.0.9`, and a request sets the log level. -/
def samplePolicyJobs (i : Fin 2) : PolicyJob :=
  if i = 0 then .persist (lit "10.0.0.9")
  else .web (updateConfig (.obj [(lit "log_level", .str (lit "debug"))]))

/-- The empty policy file. -/
def samplePolicySlots : Slots UInt8 := ⟨some 0, none, fun _ => lit "\x7b\x7d", 1⟩

theorem samplePolicySlots_wf : samplePolicySlots.Wf :=
  ⟨fun _ h => by cases h; decide, nofun, nofun⟩

section
variable {dumped : CStr} {saved : Json}

theorem isText_empty : IsText (samplePolicyEnv dumped saved) (lit "\x7b\x7d") (.obj []) := by
  have h : sampleRead dumped saved (lit "\x7b\x7d") = some (.obj []) := if_pos rfl
  exact ⟨h, h⟩

theorem isText_persisted : IsText (samplePolicyEnv dumped saved) (sampleText ++ [newline])
    (addVerdict (.obj []) (lit "10.0.0.9")) := by
  have h : sampleRead dumped saved (sampleText ++ [newline]) =
      some (addVerdict (.obj []) (lit "10.0.0.9")) := by
    unfold sampleRead
    rw [if_neg (by decide), if_pos rfl]
  exact ⟨h, h⟩

theorem isText_dumped (hempty : dumped ++ [newline] ≠ lit "\x7b\x7d")
    (hpersisted : dumped ++ [newline] ≠ sampleText ++ [newline]) :
    IsText (samplePolicyEnv dumped saved) (dumped ++ [newline]) saved := by
  have h : sampleRead dumped saved (dumped ++ [newline]) = some saved := by
    unfold sampleRead
    rw [if_neg hempty, if_neg hpersisted, if_pos rfl]
  exact ⟨h, h⟩

/-- A text stands for one document. -/
theorem IsText.unique {env : PolicyEnv} {text : CStr} {doc doc' : Json} (h : IsText env text doc)
    (h' : IsText env text doc') : doc' = doc := Option.some.inj (h'.1.symm.trans h.1)

end

/-- Calls that have read the file make no more of what they write. -/
theorem writesBack_of_begun {ι : Type*} [DecidableEq ι] {env : PolicyEnv} {jobs : ι → PolicyJob}
    {w : Sections.World ι (Slots UInt8) PolicyPc} {es : List (ι × FileIo)}
    (h : Runs.AllSteps (policyCode env jobs).move (fun w e => w.pc e.1 ≠ .start) w es) :
    Runs.AllSteps (policyCode env jobs).move (WritesBack env jobs) w es :=
  Runs.allSteps_imp (fun _ => True) (fun _ _ _ hbegun hstart => absurd hstart hbegun)
    (fun _ _ _ _ => trivial) trivial h

/-- What the request saves of the policy with `10.0.0.9`. -/
def mergedText : CStr :=
  lit "\x7b\n  \"blacklist\": \x7b\n    \"ips\": [\n      \x7b\n        \"ip\": \"10.0.0.9\",\n" ++
    lit "        \"auto_add\": true\n      \x7d\n    ]\n  \x7d,\n  \"log_level\": \"debug\"\n\x7d"

/-- Its document. -/
def mergedDoc : Json :=
  .obj [(lit "blacklist", .obj [(lit "ips", .arr [autoEntry (lit "10.0.0.9")])]),
    (lit "log_level", .str (lit "debug"))]

/-- The persist, then the request. -/
theorem policy_updates_kept_sample :
    (Runs.run (policyCode (samplePolicyEnv mergedText mergedDoc) samplePolicyJobs).move
        (policyStart samplePolicySlots)
        (List.replicate 5 (0, .ok 1000) ++ List.replicate 5 (1, .ok 1000))).log = [0, 1] ∧
      PolicyKept (samplePolicyEnv mergedText mergedDoc) samplePolicyJobs (.obj [])
        (Runs.run (policyCode (samplePolicyEnv mergedText mergedDoc) samplePolicyJobs).move
          (policyStart samplePolicySlots)
          (List.replicate 5 (0, .ok 1000) ++ List.replicate 5 (1, .ok 1000))) := by
  refine ⟨by decide +kernel, policy_updates_kept _ _ _ _ ⟨samplePolicySlots_wf, _, rfl, isText_empty⟩ _
    (Runs.allSteps_append.2 ⟨⟨fun _ _ doc hdoc _ doc' hdoc' => ?_, writesBack_of_begun ?_⟩,
      fun _ _ doc hdoc _ doc' hdoc' => ?_, writesBack_of_begun ?_⟩) ?_ ?_⟩
  · cases Option.some.inj (hdoc.symm.trans isText_empty.1)
    cases hdoc'
    exact isText_persisted
  · decide
  · have hread : (Runs.run (policyCode (samplePolicyEnv mergedText mergedDoc) samplePolicyJobs).move
        (policyStart samplePolicySlots) (List.replicate 5 (0, .ok 1000))).shared.read =
        some (sampleText ++ [newline]) := by decide
    rw [hread] at hdoc
    cases Option.some.inj (hdoc.symm.trans isText_persisted.2)
    have hchange : updateConfig (.obj [(lit "log_level", .str (lit "debug"))])
        (addVerdict (.obj []) (lit "10.0.0.9")) = some mergedDoc := by rfl
    cases Option.some.inj (hdoc'.symm.trans hchange)
    exact isText_dumped (by decide) (by decide)
  · decide +kernel
  · decide +kernel
  · decide +kernel

/-- What the request saves of the empty policy. -/
def debugText : CStr := lit "\x7b\n  \"log_level\": \"debug\"\n\x7d"

/-- The request loads the policy, the daemon persists its address, and the request saves what it
made of what it had loaded. -/
theorem policy_updates_lost :
    ¬ ∀ (env : PolicyEnv) (jobs : Fin 2 → PolicyJob) (files : Slots UInt8) (doc : Json)
      (es : List (Fin 2 × FileIo)), FileHolds env doc files →
      Runs.AllSteps (policyCode env jobs).move (WritesBack env jobs) (policyStart files) es →
      AllSucceed (Runs.run (policyCode env jobs).move (policyStart files) es) →
      PolicyKept env jobs doc (Runs.run (policyCode env jobs).move (policyStart files) es) := by
  intro h
  let env := samplePolicyEnv debugText (.obj [(lit "log_level", .str (lit "debug"))])
  have hback : Runs.AllSteps (policyCode env samplePolicyJobs).move (WritesBack env samplePolicyJobs)
      (policyStart samplePolicySlots)
      ((1, .ok 1000) :: (List.replicate 5 (0, .ok 1000) ++ List.replicate 4 (1, .ok 1000))) := by
    refine ⟨fun _ _ doc hdoc _ doc' hdoc' => ?_, fun _ _ doc hdoc _ doc' hdoc' => ?_, ?_⟩
    · cases Option.some.inj (hdoc.symm.trans isText_empty.2)
      cases hdoc'
      exact isText_dumped (by decide) (by decide)
    · cases Option.some.inj (hdoc.symm.trans isText_empty.1)
      cases hdoc'
      exact isText_persisted
    · exact writesBack_of_begun (by decide)
  obtain ⟨text, doc', hread, htext, hstored, -⟩ := h env samplePolicyJobs samplePolicySlots (.obj [])
    ((1, .ok 1000) :: (List.replicate 5 (0, .ok 1000) ++ List.replicate 4 (1, .ok 1000)))
    ⟨samplePolicySlots_wf, _, rfl, isText_empty⟩ hback (by decide)
  have htext' : some text = some (debugText ++ [newline]) := by
    rw [← hread]
    decide
  cases htext'
  cases htext.unique (isText_dumped (by decide) (by decide))
  rcases hstored 0 (by decide) (lit "10.0.0.9") (by decide) with hin |
    ⟨pre, j, post, change, before, after, -, -, hjob, -, hchange, hbefore, hafter⟩
  · revert hin
    decide
  · have hj : change = updateConfig (.obj [(lit "log_level", .str (lit "debug"))]) := by
      revert hjob
      match j with
      | 0 => nofun
      | 1 => exact fun h => (PolicyJob.web.inj h).symm
    rw [hj] at hchange
    have hsame := updateConfig_addresses hchange
    exact hafter (show _ ∈ fileAddresses after by rwa [hsame])

end GfrGuard
