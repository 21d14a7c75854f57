import MeesignServer.GroupWellFormed

/-!
# From admission to the start

The checks that a request passes and the checks that the approved task has to pass
are made in different places. A task on a group can always start unless it is a PDF
that is too large or has too long a name; a group request is not checked for its
protocol and key type at all, nor for a threshold that the protocol accepts.
-/
namespace AdmissionStart

open FallibleProgram FiniteMap DataModel CommunicatorModel ProtocolModel VotingModel
open RunningTaskModel DatabaseModel HydrationModel ServerModel TaskOutcomes ServerOutcomes
open ActiveShares VoteTally TableFrames ServerInvariant HydrationOutcomes TaskStart InvariantSteps
open TableWrites TaskAdmission ServerMoves GroupWellFormed

section Construction

variable {db : Database} {id : Uuid} {row : TaskRow} {v : VotingTask}

theorem setTaskActiveShares_choice {chosen : List Device} (h : Tables db)
    (hc : Choice (db.getTaskParticipants id) chosen) :
    ∃ db', db.setTaskActiveShares id (countDevices chosen) = .ok db' := by
  unfold Database.setTaskActiveShares
  rw [if_pos]
  · exact ⟨_, rfl⟩
  rw [List.all_eq_true]
  rintro ⟨d, n⟩ hmem
  have hn := AList.mem_lookup_iff.mpr hmem
  rw [Option.mem_def, lookup_countDevices] at hn
  split_ifs at hn with hd
  cases hn
  obtain ⟨device, hdevice, rfl⟩ := List.mem_map.mp hd
  obtain ⟨p, hp, rfl⟩ := hc.mem device hdevice
  have hle := hc.count p hp
  obtain ⟨r, hr, hfound, hshares⟩ := mem_getTaskParticipants.mp hp
  obtain ⟨hpos, hmax⟩ := h.constraints.task_shares id r hr
  have hcount : 0 < chosen.countP (fun device => device.id = p.device.id) :=
    List.countP_pos_iff.mpr ⟨p.device, hdevice, by simp⟩
  have hid : r.deviceId = p.device.id := (findDevice_id hfound).symm
  rw [Database.activeShareInsertable, Bool.and_eq_true, List.any_eq_true, decide_eq_true_eq]
  refine ⟨⟨r, hr, by simpa using hid⟩, ?_⟩
  have hmax' : chosen.countP (fun device => device.id = p.device.id) ≤ maxI32 := by
    refine hle.trans ?_
    rw [hshares]
    unfold asU32 maxI32 at *
    omega
  rw [asI32_of_le hmax']
  exact_mod_cast hcount

/-- What `decide_task` does with an approved task before it is initialized. -/
def constructTask (env : Env) (task : VotingTask) : EStateM Stop Server RunningTask := do
  let activeShares ← chooseActiveShares env task
  fromExcept (RunningTaskContext.createRunningTask task.runningTaskContext task activeShares)

theorem voting_choice (h : Tables db) (hrow : db.task.lookup id = some row)
    (hv : VotingOf db id (fixed row) (db.getTaskParticipants id) v) (env : Env)
    (activations : Bytes → Option ℕ) :
    Choice (db.getTaskParticipants id) (chosenDevices env activations v) := by
  have hchoice := choice_chosenDevices (voting_distinct h hrow hv) env activations
  refine ⟨fun device hd => ?_, fun p hp =>
    hchoice.count p (hv.info.participants.mem_iff.mpr hp)⟩
  obtain ⟨p, hp, hpd⟩ := hchoice.mem device hd
  exact ⟨p, hv.info.participants.mem_iff.mp hp, hpd⟩

theorem two_le_of_startable (h : Tables db) (hrow : db.task.lookup id = some row)
    (hv : VotingOf db id (fixed row) (db.getTaskParticipants id) v) (hs : Startable v) :
    2 ≤ v.acceptThreshold := by
  cases hg : contextGroup v.runningTaskContext with
  | some group => exact (threshold_bounds h hrow hv hg).1
  | none =>
    unfold Startable at hs
    cases hctx : v.runningTaskContext with
    | group threshold note =>
      rw [hctx] at hs
      have hb := ProtocolType.checkThreshold_bounds hs.2
      have ht : (fixed row).taskType = .group := by
        have := hv.context
        rw [hctx] at this
        exact this.1
      have htotal : v.taskInfo.totalShares = totalShares (db.getTaskParticipants id) :=
        (hv.info.participants.map _).sum_eq
      rw [hv.threshold, acceptThreshold, if_pos ht, ← htotal]
      omega
    | signChallenge | signPdf | decrypt => simp [hctx, contextGroup] at hg

/-- The construction succeeds if and only if the constructor's checks do. -/
theorem construct_iff (h : Tables db) (hrow : db.task.lookup id = some row)
    (hv : VotingOf db id (fixed row) (db.getTaskParticipants id) v)
    (hacc : v.decisionUpdate = .accepted) (env : Env) (activations : Bytes → Option ℕ) :
    (∃ t, construct v (chosenDevices env activations v) = .ok t) ↔ Startable v := by
  constructor
  · rintro ⟨t, ht⟩
    obtain ⟨m, -, hcon⟩ := construct_ok ht
    exact hcon.startable
  · intro hs
    have hn := voting_distinct h hrow hv
    obtain ⟨m, hm, hlen, -⟩ := assignShareIndices_spec hn (choice_chosenDevices hn env activations)
    rw [length_chosen_of_accepted hn (hv.ballots.perm hv.info.participants.symm) hacc] at hlen
    have htwo := two_le_of_startable h hrow hv hs
    have hnew : ∃ c, Communicator.new v.acceptThreshold v.taskInfo.protocolType m = .ok c := by
      rw [Communicator.new, dif_pos (by omega), dif_pos (by omega)]
      exact ⟨_, rfl⟩
    obtain ⟨c, hc⟩ := hnew
    obtain ⟨t, ht, -⟩ := create_startable hc hs
    refine ⟨t, ?_⟩
    simp only [construct, hm, bind, Except.bind]
    exact ht

theorem constructTask_iff {s : Server} {env : Env} (hserves : env.RepositoryServes)
    (h : Tables s.db) (hrow : s.db.task.lookup id = some row)
    (hv : VotingOf s.db id (fixed row) (s.db.getTaskParticipants id) v)
    (hacc : v.decisionUpdate = .accepted) :
    (∃ t, (outcome (constructTask env v) s).1 = .ok t) ↔ Startable v := by
  rw [← construct_iff h hrow hv hacc env s.deviceLastActivations]
  obtain ⟨db', hdb'⟩ := setTaskActiveShares_choice h
    (voting_choice h hrow hv env s.deviceLastActivations)
  have hpost : post (constructTask env v) s (fun r _ =>
      r = construct v (chosenDevices env s.deviceLastActivations v)) := by
    rw [constructTask, post_bind]
    refine chooseActiveShares_post (fun stop s' w _ _ => ?_) (fun db s' w _ _ => ?_)
    · cases w with
      | fails hf => simp [hserves _ _] at hf
      | stops hf => simp [hserves _ _] at hf
      | refused _ he =>
        rw [activeSharesWrite, hv.info.id, hdb'] at he
        cases he
    · unfold construct
      cases assignShareIndices v.taskInfo.participants
        (chosenDevices env s.deviceLastActivations v) with
      | error stop => rfl
      | ok m =>
        simp only [post_fromExcept]
        rfl
  rw [show (outcome (constructTask env v) s).1 = _ from hpost]

end Construction

section Requests

variable [External] {env : Env} {s : Server} {op : Op} {v : VotingTask}

inductive MadeBy (env : Env) (s : Server) : Op → VotingTask → Prop where
  | group (name : String) (deviceIds : GroupDevices) (threshold : ℕ) (protocolType : ProtocolType)
      (keyType : KeyType) (note : Option String) :
      MadeBy env s (.addGroupTask name deviceIds threshold protocolType keyType note)
        (newGroupTask env s name deviceIds threshold protocolType keyType note)
  | sign {groupId : Bytes} {name : String} {data : Bytes} {group : Group}
      {context : RunningTaskContext} (found : s.db.getGroup groupId = some group)
      (context_of : votingContext (taskTypeOf group.keyType) group data = .ok context)
      (request : Bytes) : MadeBy env s (.addSignTask groupId name data)
        (newThresholdTask env group (s.db.getGroupParticipants groupId) name
          (taskTypeOf group.keyType) [] request context)
  | decrypt {groupId : Bytes} {name : String} {data : Bytes} {dataType : String}
      {creator : Option Bytes} {group : Group} {context : RunningTaskContext}
      (found : s.db.getGroup groupId = some group) (key : group.keyType = .decrypt)
      (context_of : votingContext (taskTypeOf group.keyType) group data = .ok context)
      (observers : List Bytes) (request : Bytes) :
      MadeBy env s (.addDecryptTask groupId name data dataType creator)
        (newThresholdTask env group (s.db.getGroupParticipants groupId) name
          (taskTypeOf group.keyType) observers request context)

theorem MadeBy.admitted (h : MadeBy env s op v) : Admitted env s v := by
  cases h with
  | group => exact .group
  | sign found context_of => exact .threshold found context_of
  | decrypt found _ context_of => exact .threshold found context_of

theorem MadeBy.id (h : MadeBy env s op v) : v.taskInfo.id = env.newUuid := by
  cases h <;> rfl

def isRequest : Op → Bool
  | .addGroupTask .. => true
  | .addSignTask .. => true
  | .addDecryptTask .. => true
  | _ => false

theorem request_ok (hop : isRequest op) (hok : result env op s = .ok ()) : ∃ v db,
    MadeBy env s op v ∧ createRows v s.db = .ok db ∧
      next env op s = cached { s with db } v.taskInfo.id (.voting v) := by
  have hadd : ∀ v, MadeBy env s op v → post (addTask env v) s (fun r t =>
      (r.map fun _ => ()) = .ok () → ∃ v db, MadeBy env s op v ∧ createRows v s.db = .ok db ∧
        t = cached { s with db } v.taskInfo.id (.voting v)) := by
    intro v hv
    refine addTask_post env (fun _ _ hr => by cases hr) (fun _ _ _ _ hr => by cases hr)
      fun db w _ _ => ?_
    exact ⟨v, db, hv, w.write, rfl⟩
  have hpost : post (exec env op) s (fun r t => r = .ok () → ∃ v db, MadeBy env s op v ∧
      createRows v s.db = .ok db ∧ t = cached { s with db } v.taskInfo.id (.voting v)) := by
    cases op with
    | addGroupTask name deviceIds threshold protocolType keyType note =>
      exact discard_post.mpr (addGroupTask_post env (fun _ hr => by cases hr) (hadd _ (.group ..)))
    | addSignTask groupId name data =>
      exact discard_post.mpr (addSignTask_post env (fun _ hr => by cases hr) fun _ _ hg hc =>
        hadd _ (.sign hg hc _))
    | addDecryptTask groupId name data dataType creator =>
      exact discard_post.mpr (addDecryptTask_post env (fun _ hr => by cases hr)
        fun _ _ hg hk hc => hadd _ (.decrypt hg hk hc _ _))
    | _ => cases hop
  obtain ⟨v, db, hmade, hrows, hs⟩ := hpost hok
  refine ⟨v, db, hmade, hrows, ?_⟩
  have hne : result env op s ≠ .error .crash := by
    intro hcrash
    rw [hok] at hcrash
    cases hcrash
  rw [next_eq, if_neg hne, hs]

/-- What the start of the task checks and the admission does not. -/
def CanStart (s : Server) : Op → Prop
  | .addGroupTask _ deviceIds threshold protocolType keyType _ =>
    Supported protocolType keyType ∧ protocolType.checkThreshold threshold
      (totalShares (groupParticipants s (countShares deviceIds.ids)))
  | .addSignTask groupId name data =>
    ∀ group, s.db.getGroup groupId = some group → group.keyType = .signPdf →
      data.length ≤ SignPDFTask.maxDataLength ∧ byteLength name ≤ 256
  | _ => True

omit [External] in
theorem not_elgamal {protocol : ProtocolType} {keyType : KeyType}
    (h : Supported protocol keyType) (hk : keyType ≠ .decrypt) : protocol ≠ .elgamal := by
  rintro rfl
  cases keyType with
  | decrypt => exact hk rfl
  | signPdf | signChallenge => cases h

theorem made_startable (h : Invariant s) (hmade : MadeBy env s op v)
    (hname : isNameValid v.taskInfo.name) : Startable v ↔ CanStart s op := by
  cases hmade with
  | group => exact Iff.rfl
  | @sign groupId name data group context found context_of =>
    have hs := (h.tables.group groupId group found).supported
    have hcontrol : name.toList.any isControl = false := by
      simp only [newThresholdTask, isNameValid, Bool.and_eq_true, Bool.not_eq_true'] at hname
      exact hname.1.2
    cases hk : group.keyType with
    | signPdf =>
      rw [hk] at context_of
      cases context_of
      have hne := not_elgamal hs (by rw [hk]; decide)
      constructor
      · intro hstart group' found' _
        rw [found] at found'
        cases found'
        exact ⟨hstart.2.1, hstart.2.2.1⟩
      · intro hcan
        obtain ⟨hdata, hlen⟩ := hcan group found hk
        exact ⟨hne, hdata, hlen, hcontrol⟩
    | signChallenge =>
      rw [hk] at context_of
      cases context_of
      have hne := not_elgamal hs (by rw [hk]; decide)
      refine ⟨fun _ group' found' hk' => ?_, fun _ => hne⟩
      rw [found] at found'
      cases found'
      rw [hk] at hk'
      cases hk'
    | decrypt =>
      rw [hk] at context_of
      cases context_of
      refine ⟨fun _ group' found' hk' => ?_, fun _ => trivial⟩
      rw [found] at found'
      cases found'
      rw [hk] at hk'
      cases hk'
  | @decrypt groupId name data dataType creator group context found key context_of =>
    rw [key] at context_of
    cases context_of
    exact ⟨fun _ => trivial, fun _ => trivial⟩

end Requests

section Later

variable {db db' : Database} {id : Uuid} {row : TaskRow} {ps : List Participant}
  {v v' : VotingTask}

theorem context_unique {c c' : RunningTaskContext} (hx : Extends db db')
    (h : ContextOf db row c) (h' : ContextOf db' row c') : c' = c := by
  have hgroup : ∀ {group group' : Group}, (∃ groupId, row.groupId = some groupId ∧
      db.getGroup groupId = some group) → (∃ groupId, row.groupId = some groupId ∧
      db'.getGroup groupId = some group') → group' = group := by
    rintro group group' ⟨groupId, hid, hfound⟩ ⟨groupId', hid', hfound'⟩
    rw [hid] at hid'
    cases hid'
    rw [(hx.group groupId group hfound).1] at hfound'
    exact (Option.some.inj hfound').symm
  have hdata : ∀ {data data' : Bytes}, row.taskData = some data → row.taskData = some data' →
      data' = data := by
    intro data data' hd hd'
    rw [hd] at hd'
    exact (Option.some.inj hd').symm
  cases c with
  | group threshold note =>
    cases c' with
    | group threshold' note' => rw [h.2.1, h.2.2, h'.2.1, h'.2.2]
    | signChallenge | signPdf | decrypt => exact absurd (h.1.symm.trans h'.1) nofun
  | signChallenge group data =>
    cases c' with
    | signChallenge group' data' => rw [hgroup h.2.2 h'.2.2, hdata h.2.1 h'.2.1]
    | group | signPdf | decrypt => exact absurd (h.1.symm.trans h'.1) nofun
  | signPdf group data =>
    cases c' with
    | signPdf group' data' => rw [hgroup h.2.2 h'.2.2, hdata h.2.1 h'.2.1]
    | group | signChallenge | decrypt => exact absurd (h.1.symm.trans h'.1) nofun
  | decrypt group data =>
    cases c' with
    | decrypt group' data' => rw [hgroup h.2.2 h'.2.2, hdata h.2.1 h'.2.1]
    | group | signChallenge | signPdf => exact absurd (h.1.symm.trans h'.1) nofun

theorem startable_congr (hx : Extends db db') (h : VotingOf db id row ps v)
    (h' : VotingOf db' id row ps v') : Startable v' ↔ Startable v := by
  have htotal : v'.taskInfo.totalShares = v.taskInfo.totalShares :=
    ((h'.info.participants.trans h.info.participants.symm).map _).sum_eq
  unfold Startable
  rw [context_unique hx h.context h'.context, h'.info.protocolType, h'.info.keyType,
    h'.info.name, htotal, ← h.info.protocolType, ← h.info.keyType, ← h.info.name]

def voted (env : Env) (id : Uuid) (d : Bytes) (accept : Bool) (s : Server) : Server :=
  { touched env id s with db := s.db.setTaskDecision id d accept }

variable [External]

omit [External] in
/-- Whether the next vote approves the cached task, and whether it can then be constructed. -/
def nextStart (env : Env) (s : Server) (id : Uuid) (d : Bytes) (accept : Bool) : Option Bool :=
  match s.taskCache id with
  | some (.voting v) =>
    match v.decide d accept with
    | .ok (v', .accepted) =>
      match (outcome (constructTask env v')
        (voted env id d accept (cached s id (.voting v)))).1 with
      | .ok _ => some true
      | .error _ => some false
    | _ => none
  | _ => none

omit [External] in
theorem nextStart_some {env : Env} {s : Server} {id : Uuid} {d : Bytes} {accept b : Bool}
    (h : nextStart env s id d accept = some b) : ∃ v v', s.taskCache id = some (.voting v) ∧
      v.decide d accept = .ok (v', .accepted) ∧ (b ↔ ∃ task, (outcome (constructTask env v')
        (voted env id d accept (cached s id (.voting v)))).1 = .ok task) := by
  unfold nextStart at h
  split at h
  · rename_i v hv
    split at h
    · rename_i v' hdecide
      refine ⟨v, v', hv, hdecide, ?_⟩
      split at h
      · rename_i task htask
        cases h
        exact ⟨fun _ => ⟨task, htask⟩, fun _ => rfl⟩
      · rename_i stop hstop
        cases h
        refine ⟨nofun, ?_⟩
        rintro ⟨task, htask⟩
        rw [hstop] at htask
        cases htask
    · cases h
  · cases h

/-- An admitted task that is approved, after any other operations, can be constructed if and
only if its request passes the checks of the start. -/
theorem admitted_tasks_start {s t : Server} {env env' : Env} {op : Op} {v v' : VotingTask}
    {d : Bytes} {accept : Bool} (hs : Reachable s) (hop : isRequest op)
    (hok : result env op s = .ok ()) (hl : Later (next env op s) t)
    (hserves : env'.RepositoryServes) (hv : Loaded env' t env.newUuid (.voting v))
    (hdecide : v.decide d accept = .ok (v', .accepted)) :
    (∃ task, (outcome (constructTask env' v')
      (voted env' env.newUuid d accept (cached t env.newUuid (.voting v)))).1 = .ok task) ↔
      CanStart s op := by
  have hinv := reachable_invariant hs
  obtain ⟨v₀, db, hmade, hrows, hnext⟩ := request_ok hop hok
  obtain ⟨hname, -, hins⟩ := createRows_ok hrows
  have hid := hmade.id
  -- the row and the participants of the task are those of the request
  obtain ⟨-, hv₀⟩ := admitted_fixed hinv hmade.admitted hrows
  obtain ⟨-, -, -, hdb⟩ := insertTask_ok hins
  have hrow₀ : db.task.lookup env.newUuid = some (createdRow v₀) := by
    rw [hdb, ← hid]
    exact AList.lookup_insert _
  rw [hid] at hv₀
  obtain ⟨hinv', hx⟩ := later_invariant (next_invariant env op s hinv).1 hl
  rw [hnext] at hx
  obtain ⟨row, hrow, he⟩ := loaded_entry hinv' hv
  obtain ⟨row', hrow', hfix⟩ := hx.task env.newUuid _ hrow₀
  rw [hrow] at hrow'
  cases hrow'
  have hps : t.db.getTaskParticipants env.newUuid = db.getTaskParticipants env.newUuid :=
    hx.participants _ (mem_of_row hrow₀)
  -- the vote is written before the construction
  obtain ⟨p, hfind, rfl, hacc⟩ := vote_of_decide hdecide
  have hw := writesTask_setTaskDecision t.db env.newUuid d accept
  have hvote := (voting_vote he.votingOf hfind accept).mono hw.toExtends
  have hps' := hw.participants _ (mem_of_row hrow)
  have hstart := startable_congr (hx.trans hw.toExtends) hv₀ (hfix ▸ hps ▸ hvote)
  rw [← made_startable hinv hmade hname, ← hstart]
  refine constructTask_iff hserves (tables_setTaskDecision hinv'.tables _ d accept) hrow ?_ hacc
  exact hps'.symm ▸ hvote

omit [External] in
/-- Alice has approved the group, and Bob's vote starts its task. -/
theorem admitted_tasks_start_group : ∃ v v', (@runOps plainExternal initial
      (servedOps 0 0 groupRequested)).taskCache 0 = some (.voting v) ∧
    v.decide bob.id true = .ok (v', .accepted) ∧
    (∃ task, (outcome (constructTask (servingEnv 0 0) v') (voted (servingEnv 0 0) 0 bob.id true
      (cached (@runOps plainExternal initial (servedOps 0 0 groupRequested)) 0
        (.voting v)))).1 = .ok task) := by
  have hstart : nextStart (servingEnv 0 0) (@runOps plainExternal initial
    (servedOps 0 0 groupRequested)) 0 bob.id true = some true := by decide +kernel
  obtain ⟨v, v', hv, hdecide, -⟩ := nextStart_some hstart
  have hok : @result plainExternal (servingEnv 0 0)
      (.addGroupTask "Group" ⟨[alice.id, bob.id], by decide⟩ 2 .frost .signChallenge none)
      (@runOps plainExternal initial (servedOps 0 0 (groupRequested.take 2))) = .ok () := by
    decide +kernel
  have hcan : CanStart (@runOps plainExternal initial (servedOps 0 0 (groupRequested.take 2)))
      (.addGroupTask "Group" ⟨[alice.id, bob.id], by decide⟩ 2 .frost .signChallenge none) :=
    ⟨by decide +kernel, by decide +kernel⟩
  have hreach := @reachable_later plainExternal _ _ (@Reachable.initial plainExternal)
    (@later_runOps plainExternal initial (servedOps 0 0 (groupRequested.take 2)))
  have hlater := @later_runOps plainExternal (@next plainExternal (servingEnv 0 0)
    (.addGroupTask "Group" ⟨[alice.id, bob.id], by decide⟩ 2 .frost .signChallenge none)
    (@runOps plainExternal initial (servedOps 0 0 (groupRequested.take 2))))
    (servedOps 0 0 (groupRequested.drop 3))
  exact ⟨v, v', hv, hdecide, (@admitted_tasks_start plainExternal _ _ (servingEnv 0 0)
    (servingEnv 0 0) _ v v' bob.id true hreach rfl hok hlater (servingEnv_serves 0 0) (.hit hv rfl)
    hdecide).mpr hcan⟩

def unsupportedGroup : List Op :=
  [.addDevice alice, .addDevice bob,
    .addGroupTask "Group" ⟨[alice.id, bob.id], pair_fits⟩ 2 .elgamal .signPdf none,
    .decideTask 0 alice.id true]

omit [External] in
/-- The request is admitted, Alice and Bob approve it, and the task cannot be constructed. -/
theorem approved_group_cannot_start :
    @result plainExternal (servingEnv 0 0)
      (.addGroupTask "Group" ⟨[alice.id, bob.id], by decide⟩ 2 .elgamal .signPdf none)
      (@runOps plainExternal initial (servedOps 0 0 (unsupportedGroup.take 2))) = .ok () ∧
    ∃ v v', (@runOps plainExternal initial (servedOps 0 0 unsupportedGroup)).taskCache 0 =
        some (.voting v) ∧
      v.decide bob.id true = .ok (v', .accepted) ∧
      ¬ ∃ task, (outcome (constructTask (servingEnv 0 0) v') (voted (servingEnv 0 0) 0 bob.id true
        (cached (@runOps plainExternal initial (servedOps 0 0 unsupportedGroup)) 0
          (.voting v)))).1 = .ok task := by
  have hstart : nextStart (servingEnv 0 0) (@runOps plainExternal initial
    (servedOps 0 0 unsupportedGroup)) 0 bob.id true = some false := by decide +kernel
  obtain ⟨v, v', hv, hdecide, hiff⟩ := nextStart_some hstart
  exact ⟨by decide +kernel, v, v', hv, hdecide, fun htask => absurd (hiff.mpr htask) nofun⟩

end Later

end AdmissionStart
