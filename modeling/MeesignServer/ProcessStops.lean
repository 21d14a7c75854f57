import MeesignServer.ServerMoves

/-!
# Where the process stops

The model lets the process stop at repository calls. No other step of an operation ends it,
so an operation whose repository calls are all answered comes to its end.
-/
namespace ProcessStops

open FallibleProgram FiniteMap DataModel CommunicatorModel ProtocolModel VotingModel
open RunningTaskModel DatabaseModel HydrationModel ServerModel TaskOutcomes ServerOutcomes
open ServerMoves

abbrev Survives {σ α : Type} (m : EStateM Stop σ α) : Prop := Avoids .crash m

theorem orProtocolError_ne_crash {α : Type} (x : Except String α) :
    orProtocolError x ≠ .error .crash := by
  cases x <;> exact nofun

theorem mapError_ne_crash {ε α : Type} (x : Except ε α) (f : ε → Error) :
    x.mapError (fun e => Stop.err (f e)) ≠ .error .crash := by
  cases x <;> exact nofun

theorem communicator_ne_crash (threshold : ℕ) (p : ProtocolType) (m : Map ℕ Device) :
    Communicator.new threshold p m ≠ .error .crash := by
  unfold Communicator.new
  split_ifs
  all_goals
    intro h
    cases h

theorem assign_ne_crash (ps : List Participant) (devices : List Device) :
    assignShareIndices ps devices ≠ .error .crash := by
  unfold assignShareIndices
  split <;> exact nofun

theorem create_ne_crash (context : RunningTaskContext) (v : VotingTask) (m : Map ℕ Device) :
    RunningTaskContext.createRunningTask context v m ≠ .error .crash :=
  bind_ne_error (communicator_ne_crash _ _ _) fun _ => orProtocolError_ne_crash _

theorem hydrateCommunicator_ne_crash (db : Database) (id : Uuid) (row : TaskRow)
    (ps : List Participant) : hydrateCommunicator db id row ps ≠ .error .crash :=
  bind_ne_error (assign_ne_crash _ _) fun _ => communicator_ne_crash _ _ _

theorem groupFromModel_ne_crash (info : TaskInfo) (row : TaskRow) (c : Communicator) :
    GroupTask.fromModel info row c ≠ .error .crash := by
  refine bind_ne_error (orProtocolError_ne_crash _) fun protocol => ?_
  split <;> exact nofun

theorem signFromModel_ne_crash (info : TaskInfo) (row : TaskRow) (c : Communicator) (g : Group) :
    SignTask.fromModel info row c g ≠ .error .crash := by
  refine bind_ne_error (orProtocolError_ne_crash _) fun protocol => ?_
  split <;> exact nofun

theorem decryptFromModel_ne_crash (info : TaskInfo) (row : TaskRow) (c : Communicator)
    (g : Group) : DecryptTask.fromModel info row c g ≠ .error .crash := by
  refine bind_ne_error (orProtocolError_ne_crash _) fun protocol => ?_
  split <;> exact nofun

theorem runningFromModel_ne_crash (info : TaskInfo) (row : TaskRow) (c : Communicator)
    (g : Group) : runningFromModel info row c g ≠ .error .crash := by
  unfold runningFromModel
  split
  · exact nofun
  · exact map_ne_error _ (map_ne_error _ (signFromModel_ne_crash info row c g))
  · exact map_ne_error _ (signFromModel_ne_crash info row c g)
  · exact map_ne_error _ (decryptFromModel_ne_crash info row c g)

theorem groupTask_ne_crash (db : Database) (info : TaskInfo) (row : TaskRow) :
    groupTaskFromModel db info row ≠ .error .crash := by
  unfold groupTaskFromModel
  split
  · refine bind_ne_error (mapError_ne_crash _ _) fun x => ?_
    unfold groupTaskWithResult
    split
    · split <;> exact nofun
    · simp only
      split_ifs <;> exact nofun
  · simp only
    split_ifs
    · exact nofun
    · refine bind_ne_error (hydrateCommunicator_ne_crash _ _ _ _) fun c => ?_
      exact bind_ne_error (groupFromModel_ne_crash _ _ _) fun _ => nofun

theorem thresholdTask_ne_crash (db : Database) (info : TaskInfo) (row : TaskRow) :
    thresholdTaskFromModel db info row ≠ .error .crash := by
  unfold thresholdTaskFromModel
  split
  · refine bind_ne_error (mapError_ne_crash _ _) fun x => ?_
    unfold thresholdTaskWithResult
    split
    · simp only
      split <;> exact nofun
    · simp only
      split_ifs <;> exact nofun
  · split
    · exact nofun
    · split
      · exact nofun
      · unfold unfinishedThresholdTask
        simp only
        split_ifs
        · split
          · exact nofun
          · refine bind_ne_error ?_ fun _ => nofun
            unfold votingContext
            split <;> exact nofun
        · refine bind_ne_error (hydrateCommunicator_ne_crash _ _ _ _) fun c => ?_
          exact bind_ne_error (runningFromModel_ne_crash _ _ _ _) fun _ => nofun

theorem hydrateTask_ne_crash (db : Database) (id : Uuid) : hydrateTask db id ≠ .error .crash := by
  unfold hydrateTask
  split
  · exact nofun
  · simp only
    split_ifs
    · exact nofun
    · exact groupTask_ne_crash _ _ _
    · exact thresholdTask_ne_crash _ _ _

section Methods

variable [External]

theorem start_ne_crash {t t' : RunningTask} {u : Except Stop RoundUpdate}
    (h : StartOutcome t u t') : u ≠ .error .crash := by
  rintro rfl
  cases h with
  | broke h => exact h

theorem update_survives (helper : Helper) (d : Bytes) (messages : List ClientMessage) :
    Survives (RunningTask.update helper d messages) := by
  intro r
  refine post_mono (update_outcome helper d messages r) fun u r' ho => ?_
  rintro rfl
  generalize r'.task = t at ho
  cases ho with
  | broke h => exact h
  | received _ _ _ _ _ round =>
    cases round with
    | start _ _ start => exact start_ne_crash start rfl
    | final _ _ final =>
      cases final with
      | broke h => exact h

theorem restart_survives (helper : Helper) : Survives (RunningTask.restart helper) := by
  intro r
  refine post_mono (restart_outcome helper r) fun u r' ho => ?_
  rintro rfl
  generalize r'.task = t at ho
  cases ho with
  | broke h => exact h
  | again _ _ _ _ start => exact start_ne_crash start rfl

theorem initialize_survives (helper : Helper) : Survives (RunningTask.initializeTask helper) := by
  intro r
  refine post_mono (initialize_outcome helper r) fun u r' ho => ?_
  rintro rfl
  cases ho with
  | start _ start => exact start_ne_crash start rfl

end Methods

section Operations

variable [External] {env : Env} (hup : ∀ call id, env.fault call id ≠ .stops)

include hup

omit [External] in
theorem repoRead_survives (call : RepoCall) (id : Uuid) : Survives (repoRead env call id) := by
  unfold repoRead
  cases h : env.fault call id with
  | served => exact avoids_pure _
  | fails => exact avoids_throw nofun
  | stops => exact absurd h (hup call id)

omit [External] in
theorem repoWrite_survives (call : RepoCall) (id : Uuid) (f : Write) :
    Survives (repoWrite env call id f) := by
  refine (repoRead_survives hup call id).bind fun _ => avoids_get.bind fun s => ?_
  exact (avoids_fromExcept (mapError_ne_crash _ _)).bind fun _ => avoids_set _

omit [External] in
theorem withTaskMut_survives {α : Type} {m : EStateM Stop Guarded α} (id : Uuid)
    (hm : Survives m) : Survives (withTaskMut env id m) := by
  refine Avoids.bind ?_ fun _ => avoids_get.bind fun s => ?_
  · refine avoids_get.bind fun s => (repoRead_survives hup _ _).bind fun _ => ?_
    split
    · exact avoids_pure _
    · exact (avoids_fromExcept (hydrateTask_ne_crash _ _)).bind fun _ => avoids_set _
  · split
    · exact avoids_throw nofun
    · exact hm.zoom _ _

omit [External] hup in
theorem onServer_survives {α : Type} {m : EStateM Stop Server α} (hm : Survives m) :
    Survives (onServer m) := hm.zoom _ _

omit [External] hup in
theorem connectedParticipants_survives (ps : List Participant) :
    Survives (connectedParticipants env ps) := by
  intro s
  refine post_mono (connectedParticipants_post env ps s) fun r t h => ?_
  rw [h.1]
  exact nofun

omit [External] in
theorem chooseActiveShares_survives (v : VotingTask) : Survives (chooseActiveShares env v) := by
  refine (connectedParticipants_survives _).bind fun connected => ?_
  refine (repoWrite_survives hup _ _ _).bind fun _ => ?_
  exact avoids_fromExcept (assign_ne_crash _ _)

theorem startEntry_survives (id : Uuid) (v : VotingTask) : Survives (startEntry env id v) := by
  refine (onServer_survives (chooseActiveShares_survives hup v)).bind fun shares => ?_
  refine (avoids_fromExcept (create_ne_crash _ _ _)).bind fun running => ?_
  refine (onServer_survives (Avoids.zoom ?_ _ _)).bind fun p => ?_
  · exact (initialize_survives _).bind fun _ => avoids_get.bind fun _ => avoids_pure _
  · obtain ⟨u, t⟩ := p
    cases u with
    | listen => exact avoids_throw nofun
    | finished => exact avoids_throw nofun
    | groupCertificatesSent | nextRound | failed =>
      exact (onServer_survives (repoWrite_survives hup _ _ _)).bind fun _ => avoids_modify _

theorem decideEntry_survives (id : Uuid) (d : Bytes) (accept : Bool) :
    Survives (decideEntry env id d accept) := by
  refine avoids_get.bind fun g => ?_
  split
  · refine (onServer_survives (avoids_modify _)).bind fun _ => ?_
    refine (avoids_fromExcept (mapError_ne_crash _ _)).bind fun p => ?_
    refine (avoids_modify _).bind fun _ => ?_
    refine (onServer_survives (repoWrite_survives hup _ _ _)).bind fun _ => ?_
    split
    · exact avoids_pure _
    · exact startEntry_survives hup _ _
    · exact (onServer_survives (repoWrite_survives hup _ _ _)).bind fun _ => avoids_modify _
  · exact avoids_throw nofun

theorem updateEntry_survives (id : Uuid) (d : Bytes) (messages : List ClientMessage)
    (attempt : ℕ) : Survives (updateEntry env id d messages attempt) := by
  refine avoids_get.bind fun g => ?_
  split
  · refine (onServer_survives (avoids_modify _)).bind fun _ => ?_
    split_ifs
    · exact avoids_throw nofun
    refine ((update_survives _ _ _).zoom _ _).bind fun u => ?_
    cases u with
    | listen => exact avoids_pure _
    | groupCertificatesSent => exact avoids_throw nofun
    | nextRound => exact onServer_survives (repoWrite_survives hup _ _ _)
    | failed =>
      exact (onServer_survives (repoWrite_survives hup _ _ _)).bind fun _ => avoids_modify _
    | finished round f' =>
      refine (onServer_survives (repoWrite_survives hup _ _ _)).bind fun _ => ?_
      have hstore : ∀ f, Survives (do
          onServer (repoWrite env .setTaskResult id f)
          setEntry (.finished f') : EStateM Stop Guarded Unit) := fun f =>
        (onServer_survives (repoWrite_survives hup _ _ _)).bind fun _ => avoids_modify _
      simp only
      split
      · exact (onServer_survives (repoWrite_survives hup _ _ _)).bind fun _ => hstore _
      · exact hstore _
  · exact avoids_throw nofun

theorem restartEntry_survives (id : Uuid) : Survives (restartEntry env id) := by
  refine avoids_get.bind fun g => ?_
  split
  · refine (onServer_survives (avoids_modify _)).bind fun _ => ?_
    refine (onServer_survives (repoWrite_survives hup _ _ _)).bind fun _ => ?_
    refine ((restart_survives _).zoom _ _).bind fun u => ?_
    cases u with
    | listen => exact avoids_throw nofun
    | finished => exact avoids_throw nofun
    | groupCertificatesSent => exact onServer_survives (repoWrite_survives hup _ _ _)
    | nextRound => exact onServer_survives (repoWrite_survives hup _ _ _)
    | failed =>
      exact (onServer_survives (repoWrite_survives hup _ _ _)).bind fun _ => avoids_modify _
  · exact avoids_throw nofun

omit [External] hup in
theorem staleTasks_survives (now : ℕ) (l : List Uuid) : Survives (staleTasks env now l) := by
  induction l with
  | nil => exact avoids_pure _
  | cons id l ih =>
    refine Avoids.bind ?_ fun _ => ih.bind fun _ => avoids_pure _
    refine avoids_get.bind fun s => ?_
    split
    · exact avoids_pure _
    · exact (avoids_modify _).bind fun _ => avoids_pure _

theorem restartTasks_survives (l : List Uuid) : Survives (restartTasks env l) := by
  induction l with
  | nil => exact avoids_pure _
  | cons id l ih =>
    exact (withTaskMut_survives hup id (restartEntry_survives hup id)).bind fun _ => ih

omit [External] in
theorem addTask_survives (v : VotingTask) : Survives (addTask env v) := by
  refine Avoids.bind ?_ fun _ => withTaskMut_survives hup _ (avoids_get.bind fun _ => avoids_pure _)
  exact (repoWrite_survives hup _ _ _).bind fun _ => avoids_modify _

theorem addSignTask_survives (groupId : Bytes) (name : String) (data : Bytes) :
    Survives (addSignTask env groupId name data) := by
  refine (repoRead_survives hup _ _).bind fun _ => avoids_get.bind fun s => ?_
  split
  · exact avoids_throw nofun
  · refine (repoRead_survives hup _ _).bind fun _ => avoids_get.bind fun s => ?_
    simp only
    split
    · exact addTask_survives hup _
    · exact addTask_survives hup _
    · exact avoids_throw nofun

theorem addDecryptTask_survives (groupId : Bytes) (name : String) (data : Bytes)
    (dataType : String) (creator : Option Bytes) :
    Survives (addDecryptTask env groupId name data dataType creator) := by
  refine (repoRead_survives hup _ _).bind fun _ => avoids_get.bind fun s => ?_
  split
  · exact avoids_throw nofun
  · refine (repoRead_survives hup _ _).bind fun _ => avoids_get.bind fun s => ?_
    simp only
    split
    · exact addTask_survives hup _
    · exact avoids_throw nofun
    · exact avoids_throw nofun

theorem exec_survives (op : Op) : Survives (exec env op) := by
  cases op with
  | addDevice device =>
    exact (repoWrite_survives hup _ _ _).bind fun _ => avoids_modify _
  | activateDevice d => exact avoids_modify _
  | addGroupTask name devices threshold protocolType keyType note =>
    refine Avoids.map ?_ _
    unfold addGroupTask
    split_ifs
    · exact avoids_throw nofun
    · exact avoids_get.bind fun _ => addTask_survives hup _
  | addSignTask groupId name data => exact (addSignTask_survives hup _ _ _).map _
  | addDecryptTask groupId name data dataType creator =>
    exact (addDecryptTask_survives hup _ _ _ _ _).map _
  | decideTask id d accept => exact withTaskMut_survives hup _ (decideEntry_survives hup _ _ _)
  | updateTask id d messages attempt =>
    exact withTaskMut_survives hup _ (updateEntry_survives hup _ _ _ _)
  | acknowledgeTask id d =>
    refine withTaskMut_survives hup _ (avoids_get.bind fun g => ?_)
    split
    · exact (avoids_modify _).bind fun _ => onServer_survives (repoWrite_survives hup _ _ _)
    · exact avoids_throw nofun
  | restartStaleTasks =>
    refine Avoids.bind ?_ fun _ => restartTasks_survives hup _
    exact (repoRead_survives hup _ _).bind fun _ => avoids_get.bind fun _ => staleTasks_survives _ _
  | getFormattedTask id d =>
    exact (withTaskMut_survives hup _ (avoids_get.bind fun _ => avoids_pure _)).map _
  | restartServer => exact avoids_modify _

/-- An operation whose repository calls are answered is not ended by a stop of the process. -/
theorem result_ne_crash (op : Op) (s : Server) : result env op s ≠ .error .crash :=
  exec_survives hup op s

end Operations

end ProcessStops
