import GfrGuard.Fanotify
import GfrGuard.Persist

/-!
# The channel table

The modules of the FTP, cloud and host channels register each of their monitor paths in one table
of 16 channels. A path that cannot be activated stays registered as pending and is retried on the
timer; one that finds the table full is only logged, and nothing retries it. The policy file has
room for 8 paths of each channel. Whatever was reloaded and retried, the table registers the first
16 enabled paths of the policy (`MonitorState.Inv`), so all are registered exactly when the rest
repeats some of these (`monitor_paths_registered_iff`).
-/

namespace GfrGuard

/-! ## The table -/

/-- What the system shows `channel_rt_activate` of a path. -/
structure ActivateEnv where
  /-- `realpath`. -/
  realpath : CStr → Option CStr
  /-- `stat`: the path is a directory. -/
  stat : CStr → Option Bool
  /-- `open` of a directory succeeds. -/
  openDir : CStr → Bool
  /-- `f_fsid` of `statfs`. -/
  statfs : CStr → Option Nat

/-- `struct fanotify_channel`, whose handler is `fan_channel_dispatch`. -/
structure FanotifyChannel where
  markPath : CStr
  userData : Channel
deriving DecidableEq

/-- `struct fan_channel_rt`. -/
structure FanChannelRt where
  realPath : CStr
  /-- The directory the mount descriptor is open on. -/
  mountFd : Option CStr
  fsid : Nat
  pending : Bool
  isDir : Bool

/-- An entry of the table, `g_channels` and `g_chrt` at one index. -/
structure ChannelSlot where
  channel : FanotifyChannel
  rt : FanChannelRt

/-- The table, of at most `FANOTIFY_MAX_CHANNELS` entries. -/
structure ChannelTable where
  slots : List ChannelSlot
  count_le : slots.length ≤ 16

/-- `fanotify_channels_clear`. -/
def fanotifyChannelsClear : ChannelTable := ⟨[], Nat.zero_le 16⟩

/-- The runtime state of a channel just registered. -/
def FanChannelRt.registered : FanChannelRt := ⟨[], none, 0, true, false⟩

/-- `fanotify_channel_register`: the index of the new entry, nothing when the table is full. -/
def fanotifyChannelRegister (ch : FanotifyChannel) (t : ChannelTable) :
    Option (Nat × ChannelTable) :=
  if h : t.slots.length < 16 then
    some (t.slots.length, ⟨t.slots ++ [⟨ch, .registered⟩], by
      simp only [List.length_append, List.length_singleton]
      exact h⟩)
  else none

/-- The parent of a single file, `/` where it has none. -/
def monitorParent (path : CStr) : CStr :=
  match strrchr path slash with
  | none => lit "/"
  | some s =>
    let parent := path.take (path.length - s.length)
    if parent = [] then lit "/" else parent

/-- The directory a channel opens for its file handles. -/
def mountDir (isDir : Bool) (realPath : CStr) : CStr :=
  if isDir then realPath else monitorParent realPath

/-- `channel_rt_activate`: whether the channel is active now. The marks it sets are not modelled; it
does not depend on them. -/
def channelRtActivate (env : ActivateEnv) (slot : ChannelSlot) : Bool × ChannelSlot :=
  match env.realpath slot.channel.markPath with
  | none => (false, { slot with rt := { slot.rt with pending := true } })
  | some realPath =>
    let rt := { slot.rt with realPath := realPath }
    match env.stat realPath with
    | none => (false, { slot with rt := { rt with pending := true } })
    | some isDir =>
      let rt := { rt with isDir := isDir }
      if env.openDir (mountDir isDir realPath) then
        match env.statfs realPath with
        | none => (false, { slot with rt := { rt with mountFd := none, pending := true } })
        | some fsid =>
          (true, { slot with rt :=
            { rt with mountFd := some (mountDir isDir realPath), fsid := fsid, pending := false } })
      else (false, { slot with rt := { rt with mountFd := none, pending := true } })

/-- `fanotify_channel_setup`: register first, then activate. -/
def fanotifyChannelSetup (env : ActivateEnv) (ch : FanotifyChannel) (t : ChannelTable) :
    Bool × ChannelTable :=
  match fanotifyChannelRegister ch t with
  | none => (false, t)
  | some (idx, t) =>
    (((t.slots[idx]?).map fun slot => (channelRtActivate env slot).1).getD false,
      ⟨t.slots.modify idx fun slot => (channelRtActivate env slot).2, by
        rw [List.length_modify]
        exact t.count_le⟩)

/-- `fanotify_retry_pending_channels`: how many are active now that were pending. -/
def fanotifyRetryPendingChannels (env : ActivateEnv) (t : ChannelTable) : Nat × ChannelTable :=
  (t.slots.countP fun slot => slot.rt.pending && (channelRtActivate env slot).1,
    ⟨t.slots.map fun slot => if slot.rt.pending then (channelRtActivate env slot).2 else slot, by
      rw [List.length_map]
      exact t.count_le⟩)

/-! ## The modules -/

/-- The loop of a module over its monitor paths; a setup that fails is only logged. -/
def moduleInit (env : ActivateEnv) (userData : Channel) (enabled : Bool) (paths : StrList 8 4096)
    (t : ChannelTable) : ChannelTable :=
  if enabled then
    paths.strs.foldl (fun t path => (fanotifyChannelSetup env ⟨path, userData⟩ t).2) t
  else t

/-- `ftp_module_init`. -/
def ftpModuleInit (env : ActivateEnv) (st : Settings) (t : ChannelTable) : ChannelTable :=
  moduleInit env .ftp st.policy.protection.ftp st.ftpPaths t

/-- `cloud_module_init`. -/
def cloudModuleInit (env : ActivateEnv) (st : Settings) (t : ChannelTable) : ChannelTable :=
  moduleInit env .cloud st.policy.protection.cloudSync st.cloudPaths t

/-- `local_module_init`. -/
def localModuleInit (env : ActivateEnv) (st : Settings) (t : ChannelTable) : ChannelTable :=
  moduleInit env .host st.policy.protection.host st.localPaths t

/-- The three modules, one after the other. -/
def modulesInit (env : ActivateEnv) (st : Settings) (t : ChannelTable) : ChannelTable :=
  localModuleInit env st (cloudModuleInit env st (ftpModuleInit env st t))

/-! ## Runs -/

/-- The policy of the daemon and its channel table. -/
structure MonitorState where
  /-- `fanotify_get_notify_fd` is a descriptor. -/
  available : Bool
  settings : Settings
  channels : ChannelTable

/-- What changes the table after the start. -/
inductive MonitorEvent where
  /-- `daemon_reload`, with what `config_load` returns. -/
  | reload (loaded : Option Settings) (env : ActivateEnv)
  /-- The timer of the main loop. -/
  | retry (env : ActivateEnv)

/-- The start of the daemon, with what `fanotify_module_init` returns. -/
def monitorStart (available : Bool) (st : Settings) (env : ActivateEnv) : MonitorState where
  available := available
  settings := st
  channels := if available then modulesInit env st fanotifyChannelsClear else fanotifyChannelsClear

/-- One event. -/
def monitorStep (s : MonitorState) : MonitorEvent → MonitorState
  | .reload none _ => s
  | .reload (some st) env =>
    { s with
      settings := st
      channels := if s.available then modulesInit env st fanotifyChannelsClear else s.channels }
  | .retry env => { s with channels := (fanotifyRetryPendingChannels env s.channels).2 }

/-- The enabled paths of one channel. -/
def pathsOf (userData : Channel) (enabled : Bool) (paths : StrList 8 4096) :
    List FanotifyChannel :=
  if enabled then paths.strs.map (⟨·, userData⟩) else []

/-- The enabled monitor paths of a policy, in the order of the modules. -/
def Settings.monitored (st : Settings) : List FanotifyChannel :=
  pathsOf .ftp st.policy.protection.ftp st.ftpPaths ++
    pathsOf .cloud st.policy.protection.cloudSync st.cloudPaths ++
    pathsOf .host st.policy.protection.host st.localPaths

/-- The path is registered for its channel; while it is pending a retry activates it if it can. -/
def Registered (t : ChannelTable) (ch : FanotifyChannel) : Prop :=
  ∃ (i : Nat) (slot : ChannelSlot), t.slots[i]? = some slot ∧ slot.channel = ch ∧
    (slot.rt.pending = true → ∀ env : ActivateEnv,
      (fanotifyRetryPendingChannels env t).2.slots[i]? = some (channelRtActivate env slot).2)

/-- The table has room for the enabled paths of the policy, or those past the room repeat a path of
the same channel. -/
def Settings.FitsTable (st : Settings) : Prop :=
  ∀ ch ∈ st.monitored.drop 16, ch ∈ st.monitored.take 16

instance (st : Settings) : Decidable st.FitsTable :=
  inferInstanceAs (Decidable (∀ _ ∈ _, _))

/-- The channels of a table. -/
def ChannelTable.channels (t : ChannelTable) : List FanotifyChannel := t.slots.map (·.channel)

/-- The table registers the first paths of the policy. -/
def MonitorState.Inv (s : MonitorState) : Prop :=
  s.available = true ∧ s.channels.channels = s.settings.monitored.take 16

section
variable {env : ActivateEnv} {st : Settings} {s : MonitorState} {t : ChannelTable}
  {ch : FanotifyChannel}

/-! ## What is registered -/

/-- What is cut off makes no difference to what is cut off later. -/
theorem take_take_append {α : Type*} (n : Nat) (xs ys : List α) :
    (xs.take n ++ ys).take n = (xs ++ ys).take n := by
  rw [List.take_append, List.take_append, List.take_take, Nat.min_self, List.length_take]
  congr 2
  omega

theorem channelRtActivate_channel (env : ActivateEnv) (slot : ChannelSlot) :
    (channelRtActivate env slot).2.channel = slot.channel := by
  unfold channelRtActivate
  split
  · rfl
  · split
    · rfl
    · split
      · split <;> rfl
      · rfl

/-- Setup registers a channel while there is room, whether or not it can be activated. -/
theorem channels_setup (env : ActivateEnv) (ch : FanotifyChannel) (t : ChannelTable) :
    (fanotifyChannelSetup env ch t).2.channels = (t.channels ++ [ch]).take 16 := by
  have hlen : t.channels.length = t.slots.length := List.length_map _
  unfold fanotifyChannelSetup fanotifyChannelRegister
  by_cases hroom : t.slots.length < 16
  · rw [dif_pos hroom]
    have hlast : (t.slots ++ [ChannelSlot.mk ch .registered]).modify t.slots.length
          (fun slot => (channelRtActivate env slot).2) =
        t.slots ++ [(channelRtActivate env ⟨ch, .registered⟩).2] := by
      rw [List.modify_eq_set_getElem?]
      simp
    show ((t.slots ++ [_]).modify t.slots.length _).map _ = _
    rw [hlast, List.map_append, List.map_singleton, channelRtActivate_channel,
      List.take_of_length_le]
    · rfl
    · rw [List.length_append, List.length_singleton, hlen]
      exact hroom
  · rw [dif_neg hroom]
    have hfull : t.channels.length = 16 := by
      have := t.count_le
      omega
    rw [List.take_append_of_le_length (Nat.le_of_eq hfull.symm),
      List.take_of_length_le (Nat.le_of_eq hfull)]

theorem channels_retry (env : ActivateEnv) (t : ChannelTable) :
    (fanotifyRetryPendingChannels env t).2.channels = t.channels := by
  unfold fanotifyRetryPendingChannels ChannelTable.channels
  rw [List.map_map]
  refine List.map_congr_left fun slot _ => ?_
  dsimp only [Function.comp]
  split
  · exact channelRtActivate_channel env slot
  · rfl

/-- A module registers its paths while there is room. -/
theorem channels_moduleInit (env : ActivateEnv) (userData : Channel) (enabled : Bool)
    (paths : StrList 8 4096) (t : ChannelTable) :
    (moduleInit env userData enabled paths t).channels =
      (t.channels ++ pathsOf userData enabled paths).take 16 := by
  have hroom : t.channels.take 16 = t.channels := by
    refine List.take_of_length_le ?_
    rw [show t.channels.length = t.slots.length from List.length_map _]
    exact t.count_le
  unfold moduleInit pathsOf
  cases enabled with
  | false => rw [if_neg Bool.false_ne_true, if_neg Bool.false_ne_true, List.append_nil, hroom]
  | true =>
    rw [if_pos rfl, if_pos rfl]
    generalize paths.strs = strs
    induction strs generalizing t with
    | nil => rw [List.foldl_nil, List.map_nil, List.append_nil, hroom]
    | cons path strs ih =>
      have hnext := channels_setup env ⟨path, userData⟩ t
      have hcut : (fanotifyChannelSetup env ⟨path, userData⟩ t).2.channels.take 16 =
          (fanotifyChannelSetup env ⟨path, userData⟩ t).2.channels := by
        rw [hnext, List.take_take, Nat.min_self]
      rw [List.foldl_cons, ih _ hcut, hnext, take_take_append, List.map_cons, List.append_assoc,
        List.singleton_append]

theorem channels_modulesInit (env : ActivateEnv) (st : Settings) :
    (modulesInit env st fanotifyChannelsClear).channels = st.monitored.take 16 := by
  unfold modulesInit localModuleInit cloudModuleInit ftpModuleInit Settings.monitored
  rw [channels_moduleInit, channels_moduleInit, channels_moduleInit, take_take_append,
    List.append_assoc, take_take_append, ← List.append_assoc]
  rfl

/-! ## Runs -/

theorem MonitorState.Inv.step (h : s.Inv) (e : MonitorEvent) : (monitorStep s e).Inv := by
  cases e with
  | reload loaded env =>
    cases loaded with
    | none => exact h
    | some st =>
      refine ⟨h.1, ?_⟩
      dsimp only [monitorStep]
      rw [h.1, if_pos rfl]
      exact channels_modulesInit env st
  | retry env => exact ⟨h.1, (channels_retry env s.channels).trans h.2⟩

theorem MonitorState.inv_start (st : Settings) (env : ActivateEnv) : (monitorStart true st env).Inv :=
  ⟨rfl, channels_modulesInit env st⟩

/-- What is in the table is retried while it is pending. -/
theorem registered_iff : Registered t ch ↔ ch ∈ t.channels := by
  constructor
  · rintro ⟨i, slot, hslot, rfl, -⟩
    exact List.mem_map_of_mem (List.mem_of_getElem? hslot)
  · intro hmem
    obtain ⟨slot, hslot, hch⟩ := List.mem_map.1 hmem
    obtain ⟨i, hi⟩ := List.getElem?_of_mem hslot
    refine ⟨i, slot, hi, hch, fun hpending env => ?_⟩
    unfold fanotifyRetryPendingChannels
    rw [List.getElem?_map, hi, Option.map_some, if_pos hpending]

end

/-- In every run of reloads and retries of a daemon that has fanotify: every monitor path that the
policy in force enables is registered, and retried while it is pending, exactly when the paths past
the sixteenth, counted over FTP, cloud and host, repeat earlier ones. -/
theorem monitor_paths_registered_iff (st : Settings) (env : ActivateEnv) (es : List MonitorEvent) :
    (∀ ch ∈ (Runs.run monitorStep (monitorStart true st env) es).settings.monitored,
        Registered (Runs.run monitorStep (monitorStart true st env) es).channels ch) ↔
      (Runs.run monitorStep (monitorStart true st env) es).settings.FitsTable := by
  have hinv : (Runs.run monitorStep (monitorStart true st env) es).Inv :=
    Runs.run_invariant MonitorState.Inv (fun _ e h => h.step e) (MonitorState.inv_start st env) es
  generalize Runs.run monitorStep (monitorStart true st env) es = s at hinv
  unfold Settings.FitsTable
  simp only [registered_iff, hinv.2]
  constructor
  · exact fun h ch hch => h ch (List.mem_of_mem_drop hch)
  · intro h ch hch
    rw [← List.take_append_drop 16 s.settings.monitored] at hch
    exact (List.mem_append.1 hch).elim id (h ch)

/-- The text of a policy file with eight paths for FTP, eight for the cloud and one for the host. -/
def seventeenText : CStr :=
  lit "\x7b\"monitor_path\":\x7b\"ftp\":[\"/f1\",\"/f2\",\"/f3\",\"/f4\",\"/f5\",\"/f6\",\"/f7\",\"/f8\"]," ++
    lit "\"cloud_sync\":[\"/c1\",\"/c2\",\"/c3\",\"/c4\",\"/c5\",\"/c6\",\"/c7\",\"/c8\"]," ++
    lit "\"local\":[\"/h1\"]\x7d\x7d"

/-- Its document. -/
def seventeenDoc : Json :=
  .obj [(lit "monitor_path", .obj [
    (lit "ftp", .arr (["/f1", "/f2", "/f3", "/f4", "/f5", "/f6", "/f7", "/f8"].map (.str <| lit ·))),
    (lit "cloud_sync",
      .arr (["/c1", "/c2", "/c3", "/c4", "/c5", "/c6", "/c7", "/c8"].map (.str <| lit ·))),
    (lit "local", .arr [.str (lit "/h1")])])]

/-- A system where every path is a directory. -/
def directoriesEnv : ActivateEnv := ⟨some, fun _ => some true, fun _ => true, fun _ => some 1⟩

/-- The host path of a policy with eight paths for FTP and for the cloud is not registered. -/
theorem monitor_path_dropped :
    ¬ ∀ (config : ConfigEnv) (files : FileTexts) (path : CStr) (st : Settings) (env : ActivateEnv),
      configLoad config files path = some st →
      ∀ ch ∈ (monitorStart true st env).settings.monitored,
        Registered (monitorStart true st env).channels ch := by
  intro h
  have hload : configLoad (docEnv seventeenText seventeenDoc) (sampleFiles seventeenText)
      samplePath = some (docSettings seventeenText seventeenDoc) :=
    configLoad_doc (by decide +kernel) (by decide)
  have hregistered := h _ _ _ _ directoriesEnv hload ⟨lit "/h1", .host⟩ (by decide)
  rw [registered_iff] at hregistered
  revert hregistered
  decide

end GfrGuard
