import MeesignServer.ServerMoves

/-!
# The cache follows the tables

While no repository call fails, the phase of a cached task can be told from its
rows. When moreover no call breaks off in the middle, the round and the attempt
are those of the row too.
-/
namespace TableSync

open FallibleProgram FiniteMap DataModel CommunicatorModel ProtocolModel VotingModel
open RunningTaskModel DatabaseModel HydrationModel ServerModel TaskOutcomes ServerOutcomes
open ActiveShares VoteTally TableFrames ServerInvariant TableWrites HydrationOutcomes TaskStart
open InvariantSteps TaskAdmission ServerMoves

/-- The checks of phase, attempt and sender. -/
def refusals : List Stop :=
  [protocolError "Cannot decide non-voting task", protocolError "Invalid task participant id",
    protocolError "Cannot update non-running task", protocolError "Stale update", notWaiting,
    protocolError "Cannot acknowledge unfinished task"]

def Accepted (r : Except Stop Unit) : Prop := r = .ok () ∨ ∃ stop ∈ refusals, r = .error stop

instance (r : Except Stop Unit) : Decidable (Accepted r) :=
  inferInstanceAs (Decidable (_ ∨ _))

/-- No repository call fails, or the result shows that none did. -/
def Served (env : Env) (r : Except Stop Unit) : Prop := env.RepositoryServes ∨ Accepted r

theorem accepted_error {stop : Stop} : Accepted (.error stop) ↔ stop ∈ refusals := by
  simp [Accepted]

theorem not_accepted_persistence (e : PersistenceError) :
    ¬ Accepted (.error (.err (.persistence e))) := by
  simp [accepted_error, refusals, protocolError, notWaiting]

theorem not_accepted_breaks {stop : Stop} (h : Breaks stop) : ¬ Accepted (.error stop) := by
  rw [accepted_error]
  intro hm
  simp only [refusals, List.mem_cons, List.not_mem_nil, or_false] at hm
  rcases hm with rfl | rfl | rfl | rfl | rfl | rfl <;> exact h

theorem not_accepted_start {message : String} (h : message ∈ startErrors) :
    ¬ Accepted (.error (protocolError message)) := by
  rw [accepted_error]
  simp only [startErrors, List.mem_cons, List.not_mem_nil, or_false] at h
  rcases h with rfl | rfl | rfl <;> decide

/-- In a served call a write is only refused by the constraints of its table. -/
theorem fails_refused {env : Env} {call : RepoCall} {id : Uuid} {f : Write} {db : Database}
    {stop : Stop} (hs : Served env (.error stop)) (w : WriteFails env call id f db stop) :
    (∃ e, f db = .error e) ∧ ¬ Accepted (.error stop) := by
  cases w with
  | fails h =>
    rcases hs with hs | hs
    · rw [hs call id] at h
      cases h
    · exact absurd hs (not_accepted_persistence _)
  | stops h =>
    rcases hs with hs | hs
    · rw [hs call id] at h
      cases h
    · rw [accepted_error] at hs
      simp [refusals, protocolError, notWaiting] at hs
  | refused _ he => exact ⟨⟨_, he⟩, not_accepted_persistence _⟩

def Approved (db : Database) (id : Uuid) (row : TaskRow) : Prop :=
  acceptThreshold row (db.getTaskParticipants id) ≤
    accepts (db.getTaskParticipants id) (db.getTaskDecisions id)

def TurnedDown (db : Database) (id : Uuid) (row : TaskRow) : Prop :=
  Rejected row (totalShares (db.getTaskParticipants id))
    (rejects (db.getTaskParticipants id) (db.getTaskDecisions id))

structure SameVotes (db db' : Database) (id : Uuid) : Prop where
  participants : db'.getTaskParticipants id = db.getTaskParticipants id
  decisions : db'.getTaskDecisions id = db.getTaskDecisions id

variable {db db' : Database} {id : Uuid} {row row' : TaskRow}

theorem sameVotes_of_rows (h : db'.taskParticipant id = db.taskParticipant id)
    (hd : db'.findDevice = db.findDevice) : SameVotes db db' id := by
  constructor
  · simp only [Database.getTaskParticipants, h, hd]
  · simp only [Database.getTaskDecisions, h]

theorem sameVotes_of_sameTask (hx : Extends db db') (hid : id ∈ db.task)
    (hs : SameTask db db' id) : SameVotes db db' id := by
  refine ⟨hx.participants id hid, ?_⟩
  simp only [Database.getTaskDecisions, hs.participant]

theorem acceptThreshold_congr (hf : fixed row' = fixed row) (ps : List Participant) :
    acceptThreshold row' ps = acceptThreshold row ps := by
  change acceptThreshold (fixed row') ps = acceptThreshold (fixed row) ps
  rw [hf]

theorem rejected_congr (hf : fixed row' = fixed row) (total n : ℕ) :
    Rejected row' total n ↔ Rejected row total n := by
  change Rejected (fixed row') total n ↔ Rejected (fixed row) total n
  rw [hf]

theorem SameVotes.approved (h : SameVotes db db' id) (hf : fixed row' = fixed row) :
    Approved db' id row' ↔ Approved db id row := by
  rw [Approved, Approved, h.participants, h.decisions, acceptThreshold_congr hf]

theorem SameVotes.turnedDown (h : SameVotes db db' id) (hf : fixed row' = fixed row) :
    TurnedDown db' id row' ↔ TurnedDown db id row := by
  rw [TurnedDown, TurnedDown, h.participants, h.decisions, rejected_congr hf]

theorem threshold_pos (h : Tables db) (hrow : db.task.lookup id = some row) :
    0 < asU32 row.threshold := by
  obtain ⟨h1, h2⟩ := (h.fixed id row hrow).threshold
  change 0 < row.threshold at h1
  change row.threshold ≤ maxI32 at h2
  unfold asU32 maxI32 at *
  omega

theorem rejectThreshold_eq {total threshold : ℕ} (ht : total < 2 ^ 32) (hp : 0 < threshold)
    (hle : threshold ≤ total) : rejectThreshold total threshold = total - threshold + 1 := by
  unfold rejectThreshold asU32
  omega

theorem not_turnedDown (h : Tables db) (hrow : db.task.lookup id = some row)
    (ha : Approved db id row) : ¬ TurnedDown db id row := by
  have hf := h.fixed id row hrow
  have hle := accepts_add_rejects_le (ballots_stored h hrow) hf.distinct
  have hpos := threshold_pos h hrow
  unfold Approved acceptThreshold at ha
  unfold TurnedDown Rejected
  split_ifs at ha ⊢
  · omega
  · rw [rejectThreshold_eq hf.total hpos (by omega)]
    omega

/-- The votes of a task that has started approve it, and if nothing broke off, an approved
task has started or has a result. -/
structure SyncedRows (strict : Prop) (db : Database) (id : Uuid) (row : TaskRow) : Prop where
  started : Started row → Approved db id row
  approved : strict → db.taskResult id = none → Approved db id row → Started row

inductive PhaseOf (strict : Prop) (db : Database) (id : Uuid) (row : TaskRow) :
    TaskEntry → Prop where
  | voting {v : VotingTask} (pending : db.taskResult id = none) (waits : ¬ Started row)
      (votes : voteIn v.decisions = voteIn (db.getTaskDecisions id)) :
      PhaseOf strict db id row (.voting v)
  | running {t : RunningTask} (pending : db.taskResult id = none) (approved : Approved db id row)
      (started : strict → Started row)
      (round : strict → t.session.protocol.round = row.protocolRound) :
      PhaseOf strict db id row (.running t)
  | declined {t : DeclinedTask} {reason : String}
      (stored : db.taskResult id = some (NewTaskResult.ofResult (.error reason)))
      (votes : TurnedDown db id row)
      (tally : (t.accepts, t.rejects) = acceptsRejects (db.getTaskDecisions id)) :
      PhaseOf strict db id row (.declined t)
  | finished {f : FinishedTask}
      (stored : db.taskResult id = some (NewTaskResult.ofResult (.ok f.result.asBytes))) :
      PhaseOf strict db id row (.finished f)
  | failed {f : FailedTask}
      (stored : db.taskResult id = some (NewTaskResult.ofResult (.error f.reason)))
      (votes : ¬ TurnedDown db id row) : PhaseOf strict db id row (.failed f)

structure TaskSync (strict : Prop) (db : Database) (id : Uuid) (row : TaskRow) (e : TaskEntry) :
    Prop where
  rows : SyncedRows strict db id row
  phase : PhaseOf strict db id row e
  attempts : strict → e.taskInfo.attempts = row.attemptCount

def Synced (strict : Prop) (db : Database) (id : Uuid) (e : TaskEntry) : Prop :=
  ∃ row, db.task.lookup id = some row ∧ TaskSync strict db id row e

variable {strict : Prop} {e : TaskEntry}

theorem SyncedRows.congr (h : SyncedRows strict db id row) (hv : SameVotes db db' id)
    (hr : db'.taskResult id = db.taskResult id) : SyncedRows strict db' id row where
  started hs := (hv.approved rfl).mpr (h.started hs)
  approved hst hres ha := h.approved hst (hr ▸ hres) ((hv.approved rfl).mp ha)

theorem PhaseOf.congr (h : PhaseOf strict db id row e) (hv : SameVotes db db' id)
    (hr : db'.taskResult id = db.taskResult id) : PhaseOf strict db' id row e := by
  cases h with
  | voting pending waits votes => exact .voting (hr ▸ pending) waits (hv.decisions ▸ votes)
  | running pending approved started round =>
    exact .running (hr ▸ pending) ((hv.approved rfl).mpr approved) started round
  | declined stored votes tally =>
    exact .declined (hr ▸ stored) ((hv.turnedDown rfl).mpr votes) (hv.decisions ▸ tally)
  | finished stored => exact .finished (hr ▸ stored)
  | failed stored votes => exact .failed (hr ▸ stored) (mt (hv.turnedDown rfl).mp votes)

theorem TaskSync.congr (h : TaskSync strict db id row e) (hv : SameVotes db db' id)
    (hr : db'.taskResult id = db.taskResult id) : TaskSync strict db' id row e :=
  ⟨h.rows.congr hv hr, h.phase.congr hv hr, h.attempts⟩

theorem roundWrite_ok {round : ℕ} (hrow : db.task.lookup id = some row)
    (hw : roundWrite id round db = .ok db') :
    db'.task.lookup id = some { row with protocolRound := round } ∧ SameVotes db db' id ∧
      db'.taskResult id = db.taskResult id := by
  obtain ⟨row', hrow', rfl⟩ := setTaskRound_ok hw
  rw [hrow] at hrow'
  cases hrow'
  exact ⟨AList.lookup_insert _, sameVotes_of_rows rfl rfl, rfl⟩

theorem resultWrite_ok {result : Except String Bytes} (hw : resultWrite id result db = .ok db') :
    db'.task = db.task ∧ SameVotes db db' id ∧
      db'.taskResult id = some (NewTaskResult.ofResult result) := by
  obtain ⟨-, rfl⟩ := setTaskResult_ok hw
  exact ⟨rfl, sameVotes_of_rows rfl rfl, Function.update_self ..⟩

theorem roundWrite_served (hrow : db.task.lookup id = some row) (round : ℕ) :
    ∃ db', roundWrite id round db = .ok db' := by
  rw [roundWrite, Database.setTaskRound, if_pos (mem_of_row hrow)]
  exact ⟨_, rfl⟩

theorem resultWrite_served (hrow : db.task.lookup id = some row) (result : Except String Bytes) :
    ∃ db', resultWrite id result db = .ok db' := by
  rw [resultWrite, Database.setTaskResult, if_pos (mem_of_row hrow)]
  exact ⟨_, rfl⟩

theorem stored_ok {env : Env} {call : RepoCall} {f : Write} {e e' e'' : TaskEntry}
    {r : Except Stop Unit} (hok : ∃ db', f db = .ok db')
    (h : Stored env call id f db e e' r db' e'') (hs : Served env r) :
    f db = .ok db' ∧ e'' = e' := by
  cases h with
  | served w => exact ⟨w.write, rfl⟩
  | fails w =>
    obtain ⟨⟨x, hx⟩, -⟩ := fails_refused hs w
    obtain ⟨y, hy⟩ := hok
    rw [hx] at hy
    cases hy

theorem syncedRows_result {r : TaskResultRow} (h : Started row → Approved db id row)
    (hv : SameVotes db db' id) (hr : db'.taskResult id = some r) :
    SyncedRows strict db' id row where
  started hs := (hv.approved rfl).mpr (h hs)
  approved _ hres := by
    rw [hr] at hres
    cases hres

theorem failed_sync {f : FailedTask} (h : Tables db) (hrow : db.task.lookup id = some row)
    (ha : Approved db id row)
    (hat : strict → f.taskInfo.attempts = row.attemptCount)
    (hw : resultWrite id (.error f.reason) db = .ok db') :
    Synced strict db' id (.failed f) := by
  obtain ⟨htask, hv, hres⟩ := resultWrite_ok hw
  refine ⟨row, htask ▸ hrow, syncedRows_result (fun _ => ha) hv hres, .failed hres ?_, hat⟩
  exact mt (hv.turnedDown rfl).mp (not_turnedDown h hrow ha)

theorem finished_sync {f : FinishedTask} (hrow : db.task.lookup id = some row)
    (ha : Approved db id row) (hat : strict → f.taskInfo.attempts = row.attemptCount)
    (hw : resultWrite id (.ok f.result.asBytes) db = .ok db') :
    Synced strict db' id (.finished f) := by
  obtain ⟨htask, hv, hres⟩ := resultWrite_ok hw
  exact ⟨row, htask ▸ hrow, syncedRows_result (fun _ => ha) hv hres, .finished hres, hat⟩

theorem round_sync (strict : Prop) {round : ℕ} (hrow : db.task.lookup id = some row)
    (hpending : db.taskResult id = none) (ha : Approved db id row)
    (hw : roundWrite id round db = .ok db') (hpos : 1 ≤ round) :
    db'.task.lookup id = some { row with protocolRound := round } ∧
      SyncedRows strict db' id { row with protocolRound := round } ∧
      Approved db' id { row with protocolRound := round } ∧ db'.taskResult id = none := by
  obtain ⟨hrow', hv, hres⟩ := roundWrite_ok hrow hw
  have ha' : Approved db' id { row with protocolRound := round } := (hv.approved rfl).mpr ha
  exact ⟨hrow', ⟨fun _ => ha', fun _ _ _ => .inr hpos⟩, ha', hres.trans hpending⟩

section Rounds

variable [External] {env : Env} {t t' : RunningTask} {u : Except Stop RoundUpdate}
  {r : Except Stop Unit} {g g' : Guarded}

def Answers (t t' : RunningTask) : Except Stop RoundUpdate → Prop
  | .error stop => Accepted (.error stop) → t' = t
  | .ok .listen => t'.session.protocol = t.session.protocol
  | .ok .groupCertificatesSent => True
  | .ok (.nextRound n) => t'.session.protocol.round = n ∧ 1 ≤ n
  | .ok (.finished n f) => 1 ≤ n ∧ f.taskInfo = t'.taskInfo
  | .ok (.failed f) => f.taskInfo = t'.taskInfo

theorem start_answers (t₀ : RunningTask) (h : StartOutcome t u t') : Answers t₀ t' u := by
  cases h with
  | started data kept session => exact ⟨by rw [session]; rfl, le_rfl⟩
  | failed => exact rfl
  | broke hb => exact fun ha => absurd ha (not_accepted_breaks hb)

theorem final_answers (t₀ : RunningTask) (h : FinalOutcome t u t') : Answers t₀ t' u := by
  cases h with
  | finished kept => exact ⟨by omega, kept.taskInfo.symm⟩
  | failed _ kept => exact kept.taskInfo.symm
  | broke hb => exact fun ha => absurd ha (not_accepted_breaks hb)

theorem update_answers {d : Bytes} {messages : List ClientMessage}
    (h : UpdateOutcome d messages t u t') : Answers t t' u := by
  cases h with
  | notWaiting => exact fun _ => rfl
  | broke hb => exact fun _ => rfl
  | received _ _ _ kept session round =>
    cases round with
    | listen =>
      change t'.session.protocol = _
      rw [session]
    | start _ _ h => exact start_answers _ h
    | advance _ _ _ _ hs => exact ⟨by rw [hs]; rfl, by omega⟩
    | final _ _ h => exact final_answers _ h

omit [External] in
theorem record_sync (h : Tables db) (hrow : db.task.lookup id = some row)
    (hs : SyncedRows strict db id row) (hpending : db.taskResult id = none)
    (ha : Approved db id row) (hst : strict → Started row)
    (hround : strict → t.session.protocol.round = row.protocolRound) (hans : Answers t t' u)
    (hat : strict → t'.taskInfo.attempts = row.attemptCount)
    (ho : RecordOutcome env id t' db u r db' e) (hserved : Served env r)
    (hacc : strict → Accepted r) : Synced strict db' id e := by
  cases ho with
  | stopped =>
    exact ⟨row, hrow, hs, .running hpending ha hst
      fun hx => by rw [hans (hacc hx), hround hx], hat⟩
  | listen =>
    exact ⟨row, hrow, hs, .running hpending ha hst
      fun hx => by rw [hans, hround hx], hat⟩
  | @nextRound n _ _ _ stored =>
    obtain ⟨hw, rfl⟩ := stored_ok (roundWrite_served hrow n) stored hserved
    obtain ⟨hrow', hs', ha', hres'⟩ := round_sync strict hrow hpending ha hw hans.2
    exact ⟨_, hrow', hs', .running hres' ha' (fun _ => .inr hans.2) fun _ => hans.1, hat⟩
  | @failed f _ _ _ stored =>
    obtain ⟨hw, rfl⟩ := stored_ok (resultWrite_served hrow _) stored hserved
    exact failed_sync h hrow ha (fun hx => by rw [hans]; exact hat hx) hw
  | @finished n f _ _ _ finish =>
    obtain ⟨hn, hinfo⟩ := hans
    have hat' : strict → f.taskInfo.attempts = row.attemptCount := fun hx => hinfo ▸ hat hx
    cases finish with
    | roundNotStored w =>
      obtain ⟨⟨x, hx⟩, -⟩ := fails_refused hserved w
      obtain ⟨y, hy⟩ := roundWrite_served hrow n
      rw [hx] at hy
      cases hy
    | groupNotStored w _ w' =>
      -- a group with this id exists already: the round is stored and the task stays
      obtain ⟨hrow', hs', ha', hres'⟩ := round_sync strict hrow hpending ha w.write hn
      have hnot := fun hx => (fails_refused hserved w').2 (hacc hx)
      exact ⟨_, hrow', hs', .running hres' ha' (fun _ => .inr hn) fun hx => absurd hx hnot,
        hat⟩
    | @group db₁ db₂ _ _ _ _ w result w' stored =>
      obtain ⟨hrow', hs', ha', hres'⟩ := round_sync strict hrow hpending ha w.write hn
      obtain ⟨-, -, -, hdb⟩ := addGroup_ok (mem_of_row hrow') w'.write
      have hrow₂ : db₂.task.lookup id = some { row with protocolRound := n } := by
        rw [hdb]
        exact hrow'
      have ha₂ : Approved db₂ id { row with protocolRound := n } := by
        rw [hdb]
        exact ((sameVotes_of_rows rfl rfl).approved rfl).mpr ha'
      obtain ⟨hw, rfl⟩ := stored_ok (resultWrite_served hrow₂ _) stored hserved
      exact finished_sync hrow₂ ha₂ hat' hw
    | threshold w result stored =>
      obtain ⟨hrow', hs', ha', hres'⟩ := round_sync strict hrow hpending ha w.write hn
      obtain ⟨hw, rfl⟩ := stored_ok (resultWrite_served hrow' _) stored hserved
      exact finished_sync hrow' ha' hat' hw

omit [External] in
theorem PhaseOf.runningPhase (h : PhaseOf strict db id row (.running t)) :
    db.taskResult id = none ∧ Approved db id row ∧ (strict → Started row) ∧
      (strict → t.session.protocol.round = row.protocolRound) := by
  cases h with
  | running pending approved started round => exact ⟨pending, approved, started, round⟩

theorem update_sync {d : Bytes} {messages : List ClientMessage} {attempt : ℕ}
    (h : Tables g.server.db) (hrow : g.server.db.task.lookup id = some row)
    (hs : TaskSync strict g.server.db id row g.entry)
    (ho : UpdateEntryOutcome env id d messages attempt g r g') (hserved : Served env r)
    (hacc : strict → Accepted r) : Synced strict g'.server.db id g'.entry := by
  cases ho with
  | notRunning => exact ⟨row, hrow, hs⟩
  | stale => exact ⟨row, hrow, hs⟩
  | updated hentry _ update record rest =>
    rw [hentry] at hs
    obtain ⟨pending, approved, started, round⟩ := hs.phase.runningPhase
    rw [rest.db]
    refine record_sync h hrow hs.rows pending approved started round (update_answers update)
      (fun hx => ?_) record hserved hacc
    rw [(update_steady update).1.taskInfo]
    exact hs.attempts hx

theorem restart_sync (h : Tables g.server.db) (hrow : g.server.db.task.lookup id = some row)
    (hs : TaskSync strict g.server.db id row g.entry) (ho : RestartEntryOutcome env id g r g')
    (hserved : Served env r) (hacc : strict → Accepted r) :
    Synced strict g'.server.db id g'.entry := by
  cases ho with
  | notRunning => exact ⟨row, hrow, hs⟩
  | notStored => exact ⟨row, hrow, hs⟩
  | @restarted t t' u _ db₁ _ _ _ hentry w restart record rest =>
    rw [hentry] at hs
    obtain ⟨pending, approved, started, round⟩ := hs.phase.runningPhase
    have htab := tables_incrementTaskAttemptCount h w.write
    obtain ⟨row', hrow', -, hdb⟩ := incrementTaskAttemptCount_ok w.write
    rw [hrow] at hrow'
    cases hrow'
    have hrow₁ : db₁.task.lookup id =
        some { row with attemptCount := row.attemptCount + 1 } := by
      rw [hdb]
      exact AList.lookup_insert _
    have hv : SameVotes g.server.db db₁ id := by
      rw [hdb]
      exact sameVotes_of_rows rfl rfl
    have hres : db₁.taskResult id = g.server.db.taskResult id := by rw [hdb]
    have ha₁ : Approved db₁ id { row with attemptCount := row.attemptCount + 1 } :=
      (hv.approved rfl).mpr approved
    have hs₁ : SyncedRows strict db₁ id { row with attemptCount := row.attemptCount + 1 } :=
      ⟨fun _ => ha₁, fun hx _ _ => started hx⟩
    rw [rest.db]
    cases restart with
    | broke hb =>
      -- the attempt is stored but not counted in memory
      have hnot : ¬ strict := fun hx => by
        cases record
        exact not_accepted_breaks hb (hacc hx)
      refine record_sync htab hrow₁ hs₁ (hres.trans pending) ha₁ started round (t := t) ?_
        (fun hx => absurd hx hnot) record hserved hacc
      exact fun _ => rfl
    | again context is_ready taskInfo session start =>
      refine record_sync htab hrow₁ hs₁ (hres.trans pending) ha₁ started round
        (start_answers _ start) (fun hx => ?_) record hserved hacc
      rw [(start_steady start).1.taskInfo, taskInfo]
      exact congrArg (· + 1) (hs.attempts hx)

end Rounds

theorem voteIn_insert (m : Map Bytes ℤ) (d : Bytes) (x : ℤ) :
    voteIn (m.insert d x) = Function.update (voteIn m) d x := by
  funext d'
  unfold voteIn
  by_cases hd : d' = d
  · subst hd
    simp
  · rw [AList.lookup_insert_ne hd, Function.update_of_ne hd]

theorem accepts_congr (ps : List Participant) {m m' : Map Bytes ℤ} (h : voteIn m = voteIn m') :
    accepts ps m = accepts ps m' ∧ rejects ps m = rejects ps m' := by
  simp only [accepts, rejects, h, and_self]

theorem voteIn_stored (h : Tables db) (hrow : db.task.lookup id = some row)
    {r : TaskParticipantRow} (hr : r ∈ db.taskParticipant id) :
    voteIn (db.getTaskDecisions id) r.deviceId = r.vote := by
  rw [voteIn, lookup_getTaskDecisions h hrow hr, Option.getD_some]

theorem voteIn_setTaskDecision (h : Tables db) (hrow : db.task.lookup id = some row)
    {p : Participant} (hp : p ∈ db.getTaskParticipants id) (accept : Bool) :
    voteIn ((db.setTaskDecision id p.device.id accept).getTaskDecisions id) =
      Function.update (voteIn (db.getTaskDecisions id)) p.device.id (voteOf p.shares accept) := by
  have h' := tables_setTaskDecision h id p.device.id accept
  have hrows : (db.setTaskDecision id p.device.id accept).taskParticipant id =
      (db.taskParticipant id).map fun r =>
        if r.deviceId = p.device.id then { r with decision := some accept } else r := by
    simp [Database.setTaskDecision]
  obtain ⟨r₀, hr₀, hd₀, hs₀⟩ := mem_getTaskParticipants.mp hp
  have hid₀ : r₀.deviceId = p.device.id := (findDevice_id hd₀).symm
  funext d
  by_cases hd : d = p.device.id
  · subst hd
    rw [Function.update_self]
    have hmem : { r₀ with decision := some accept } ∈
        (db.setTaskDecision id p.device.id accept).taskParticipant id := by
      rw [hrows]
      exact List.mem_map.mpr ⟨r₀, hr₀, if_pos hid₀⟩
    have hst := voteIn_stored h' hrow hmem
    simp only [hid₀] at hst
    rw [hst, row_vote_eq, Option.map_some, Option.getD_some, hs₀, shares_of_row h.constraints hr₀]
  · rw [Function.update_of_ne hd]
    by_cases hr : ∃ r ∈ db.taskParticipant id, r.deviceId = d
    · obtain ⟨r, hr, rfl⟩ := hr
      rw [voteIn_stored h hrow hr]
      refine voteIn_stored h' hrow ?_
      rw [hrows]
      exact List.mem_map.mpr ⟨r, hr, if_neg hd⟩
    · have hnone : ∀ {db' : Database}, (∀ r' ∈ db'.taskParticipant id,
          ∃ r ∈ db.taskParticipant id, r.deviceId = r'.deviceId) →
          voteIn (db'.getTaskDecisions id) d = 0 := by
        intro db' hsub
        have : d ∉ db'.getTaskDecisions id := fun hm => by
          obtain ⟨r', hr', rfl⟩ := mem_getTaskDecisions hm
          exact hr (hsub r' hr')
        rw [voteIn, AList.lookup_eq_none.mpr this, Option.getD_none]
      rw [hnone fun r hr => ⟨r, hr, rfl⟩, hnone fun r' hr' => ?_]
      rw [hrows] at hr'
      obtain ⟨r, hr, rfl⟩ := List.mem_map.mp hr'
      exact ⟨r, hr, by split_ifs <;> rfl⟩

section Decisions

variable [External] {env : Env} {r : Except Stop Unit} {g g' : Guarded} {v : VotingTask}

omit [External] in
theorem tally_votes (h : Tables db) (hrow : db.task.lookup id = some row)
    (hv : VotingOf db id (fixed row) (db.getTaskParticipants id) v)
    (votes : voteIn v.decisions = voteIn (db.getTaskDecisions id)) :
    acceptsRejects v.decisions = acceptsRejects (db.getTaskDecisions id) ∧
      (v.acceptThreshold ≤ (acceptsRejects v.decisions).1 ↔ Approved db id row) := by
  have hn := (h.fixed id row hrow).distinct
  obtain ⟨ha, hr⟩ := accepts_congr (db.getTaskParticipants id) votes
  have htally : acceptsRejects v.decisions = acceptsRejects (db.getTaskDecisions id) := by
    rw [acceptsRejects_eq hn fun _ => hv.ballots.mem, tally_stored h hrow, ha, hr]
  refine ⟨htally, ?_⟩
  rw [htally, tally_stored h hrow, hv.threshold]
  rfl

omit [External] in
theorem voting_sync (hrow : db.task.lookup id = some row) (pending : db.taskResult id = none)
    (waits : ¬ Started row) (votes : voteIn v.decisions = voteIn (db.getTaskDecisions id))
    (hnot : ¬ strict) : Synced strict db id (.voting v) :=
  ⟨row, hrow, ⟨fun hs => absurd hs waits, fun hx => absurd hx hnot⟩,
    .voting pending waits votes, fun hx => absurd hx hnot⟩

theorem build_sync {chosen : List Device} (h : Tables db) (hrow : db.task.lookup id = some row)
    (pending : db.taskResult id = none) (waits : ¬ Started row)
    (votes : voteIn v.decisions = voteIn (db.getTaskDecisions id)) (ha : Approved db id row)
    (hat : strict → v.taskInfo.attempts = row.attemptCount)
    (ho : BuildOutcome env id v chosen db (.voting v) r db' e) (hserved : Served env r)
    (hacc : strict → Accepted r) : Synced strict db' id e := by
  have hzero : row.protocolRound = 0 := by
    by_contra hne
    exact waits (.inr (by omega))
  have hinfo : ∀ {t}, construct v chosen = .ok t →
      t.session.protocol.round = 0 ∧ t.taskInfo.attempts = v.taskInfo.attempts := by
    intro t ht
    obtain ⟨m, -, hc⟩ := construct_ok ht
    obtain ⟨ps, -, hinfo⟩ := hc.info
    exact ⟨hc.round, by rw [hinfo]⟩
  cases ho with
  | notConstructed hc =>
    refine voting_sync hrow pending waits votes fun hx => ?_
    rcases construct_error hc with hb | ⟨message, hm, rfl⟩
    · exact not_accepted_breaks hb (hacc hx)
    · exact not_accepted_start hm (hacc hx)
  | notInitialized hc init =>
    refine voting_sync hrow pending waits votes fun hx => ?_
    cases init with
    | start _ start =>
      cases start with
      | broke hb => exact not_accepted_breaks hb (hacc hx)
  | @certificates t t' _ _ _ hc init stored =>
    obtain ⟨hround, hattempts⟩ := hinfo hc
    have hok : ∃ db', certificatesWrite id db = .ok db' := ⟨_, rfl⟩
    obtain ⟨hw, rfl⟩ := stored_ok hok stored hserved
    cases hw
    have hrow' : (db.setTaskGroupCertificatesSent id (some true)).task.lookup id =
        some { row with groupCertificatesSent := some true } := by
      rw [Database.setTaskGroupCertificatesSent, modifyTask_of_row hrow]
      exact AList.lookup_insert _
    have hv : SameVotes db (db.setTaskGroupCertificatesSent id (some true)) id := by
      rw [Database.setTaskGroupCertificatesSent, modifyTask_of_row hrow]
      exact sameVotes_of_rows rfl rfl
    have hres : (db.setTaskGroupCertificatesSent id (some true)).taskResult id = none := by
      rw [Database.setTaskGroupCertificatesSent, modifyTask_of_row hrow]
      exact pending
    have hst : Started { row with groupCertificatesSent := some true } := .inl rfl
    have ha' : Approved (db.setTaskGroupCertificatesSent id (some true)) id
        { row with groupCertificatesSent := some true } := (hv.approved rfl).mpr ha
    cases init with
    | certificates f hgroup context is_ready taskInfo session =>
      refine ⟨_, hrow', ⟨fun _ => ha', fun _ _ _ => hst⟩, .running hres ha' (fun _ => hst)
        fun _ => ?_, fun hx => ?_⟩
      · rw [session]
        exact hround.trans hzero.symm
      · change t'.taskInfo.attempts = row.attemptCount
        rw [taskInfo, hattempts, hat hx]
    | start _ start => cases start
  | @nextRound t t' n _ _ _ hc init stored =>
    obtain ⟨-, hattempts⟩ := hinfo hc
    cases init with
    | start _ start =>
      obtain ⟨hn, hpos⟩ := start_answers t start
      obtain ⟨hw, rfl⟩ := stored_ok (roundWrite_served hrow n) stored hserved
      obtain ⟨hrow', hs', ha', hres'⟩ := round_sync strict hrow pending ha hw hpos
      refine ⟨_, hrow', hs', .running hres' ha' (fun _ => .inr hpos) fun _ => hn, fun hx => ?_⟩
      change t'.taskInfo.attempts = row.attemptCount
      rw [(start_steady start).1.taskInfo, hattempts, hat hx]
  | @failed t t' f _ _ _ hc init stored =>
    obtain ⟨-, hattempts⟩ := hinfo hc
    cases init with
    | start _ start =>
      obtain ⟨hw, rfl⟩ := stored_ok (resultWrite_served hrow _) stored hserved
      have hf : f.taskInfo = t'.taskInfo := start_answers t start
      refine failed_sync h hrow ha (fun hx => ?_) hw
      rw [hf, (start_steady start).1.taskInfo, hattempts, hat hx]

theorem start_sync (h : Tables g.server.db) (hrow : g.server.db.task.lookup id = some row)
    (hv : VotingOf g.server.db id (fixed row) (g.server.db.getTaskParticipants id) v)
    (hentry : g.entry = .voting v) (tally : v.decisionUpdate = .accepted)
    (pending : g.server.db.taskResult id = none) (waits : ¬ Started row)
    (votes : voteIn v.decisions = voteIn (g.server.db.getTaskDecisions id))
    (hat : strict → v.taskInfo.attempts = row.attemptCount)
    (ho : StartEntryOutcome env id v g r g') (hserved : Served env r)
    (hacc : strict → Accepted r) : Synced strict g'.server.db id g'.entry := by
  have ha := (tally_votes h hrow hv votes).2.mp (decisionUpdate_accepted tally)
  cases ho with
  | notStored w rest =>
    rw [rest.db, hentry]
    exact voting_sync hrow pending waits votes fun hx => (fails_refused hserved w).2 (hacc hx)
  | @built _ db₁ _ _ _ w build rest =>
    rw [hentry] at build
    obtain ⟨hs, -, htask, -⟩ := choice_sound h hrow hv tally w.write
    obtain ⟨-, hdb⟩ := setTaskActiveShares_ok w.write
    have hsame : SameVotes g.server.db db₁ id := by
      rw [hdb]
      exact sameVotes_of_rows rfl rfl
    have hres : db₁.taskResult id = g.server.db.taskResult id := by rw [hdb]
    rw [rest.db]
    exact build_sync hs.tables (htask ▸ hrow) (hres.trans pending) waits
      (hsame.decisions ▸ votes) ((hsame.approved rfl).mpr ha) hat build hserved hacc

omit [External] in
theorem turnedDown_of_declined (h : Tables db) (hrow : db.task.lookup id = some row)
    (hv : VotingOf db id (fixed row) (db.getTaskParticipants id) v)
    (votes : voteIn v.decisions = voteIn (db.getTaskDecisions id))
    (hr : v.rejectThreshold ≤ (acceptsRejects v.decisions).2) : TurnedDown db id row := by
  have hf := h.fixed id row hrow
  rw [(tally_votes h hrow hv votes).1, tally_stored h hrow, VotingTask.rejectThreshold,
    info_totalShares hv.info, hv.threshold] at hr
  change rejectThreshold _ (acceptThreshold row _) ≤ _ at hr
  unfold acceptThreshold at hr
  unfold TurnedDown Rejected
  split_ifs at hr ⊢ with ht
  · obtain ⟨p, hp⟩ := List.exists_mem_of_ne_nil _ hf.nonempty
    have := shares_le_total hp
    have := hf.positive p hp
    rw [rejectThreshold_eq hf.total (by omega) le_rfl] at hr
    omega
  · exact hr

omit [External] in
/-- The vote in memory and the stored vote change in the same way. -/
theorem vote_sync {p : Participant} {d : Bytes} (h : Tables db)
    (hrow : db.task.lookup id = some row) (he : EntryOf db id row (.voting v))
    (hs : TaskSync strict db id row (.voting v))
    (hfind : v.taskInfo.participants.find? (fun p => p.device.id = d) = some p) (accept : Bool) :
    db.taskResult id = none ∧ ¬ Started row ∧
      VotingOf (db.setTaskDecision id d accept) id (fixed row)
        ((db.setTaskDecision id d accept).getTaskParticipants id)
        (v.vote d (voteOf p.shares accept)) ∧
      voteIn (v.vote d (voteOf p.shares accept)).decisions =
        voteIn ((db.setTaskDecision id d accept).getTaskDecisions id) ∧
      (strict → v.taskInfo.attempts = row.attemptCount) := by
  have wt := writesTask_setTaskDecision db id d accept
  have hvot := voting_vote he.votingOf hfind accept
  have hid : p.device.id = d := by simpa using List.find?_some hfind
  have hp : p ∈ db.getTaskParticipants id :=
    he.votingOf.info.participants.mem_iff.mp (List.mem_of_find?_eq_some hfind)
  cases hs.phase with
  | voting pending waits votes =>
    refine ⟨pending, waits, ?_, ?_, hs.attempts⟩
    · rw [wt.participants id (mem_of_row hrow)]
      exact hvot.mono wt.toExtends
    · subst hid
      rw [voteIn_setTaskDecision h hrow hp, ← votes]
      exact voteIn_insert _ _ _

theorem decide_sync {d : Bytes} {accept : Bool} (h : Tables g.server.db)
    (hrow : g.server.db.task.lookup id = some row) (he : EntryOf g.server.db id row g.entry)
    (hs : TaskSync strict g.server.db id row g.entry)
    (ho : DecideOutcome env id d accept g r g') (hserved : Served env r)
    (hacc : strict → Accepted r) : Synced strict g'.server.db id g'.entry := by
  have htab := tables_setTaskDecision h id d accept
  have hrow' : (g.server.db.setTaskDecision id d accept).task.lookup id = some row := hrow
  cases ho with
  | notVoting => exact ⟨row, hrow, hs⟩
  | notParticipant => exact ⟨row, hrow, hs⟩
  | notStored hv hfind w =>
    obtain ⟨⟨x, hx⟩, -⟩ := fails_refused hserved w
    cases hx
  | undecided hv hfind served tally =>
    obtain ⟨pending, waits, hvot, votes, hat⟩ := vote_sync h hrow (hv ▸ he) (hv ▸ hs) hfind accept
    refine ⟨row, hrow, ⟨fun hst => absurd hst waits, fun _ _ ha => ?_⟩,
      .voting pending waits votes, hat⟩
    have := (tally_votes htab hrow' hvot votes).2.mpr ha
    exact absurd this (not_le.mpr (decisionUpdate_undecided tally))
  | declined hv hfind served tally stored =>
    obtain ⟨pending, waits, hvot, votes, hat⟩ := vote_sync h hrow (hv ▸ he) (hv ▸ hs) hfind accept
    obtain ⟨-, hrej, rfl⟩ := decisionUpdate_declined tally
    obtain ⟨hw, rfl⟩ := stored_ok (resultWrite_served hrow' _) stored hserved
    obtain ⟨htask, hsame, hres⟩ := resultWrite_ok hw
    refine ⟨row, htask ▸ hrow', syncedRows_result (fun hst => absurd hst waits) hsame hres,
      .declined hres ((hsame.turnedDown rfl).mpr
        (turnedDown_of_declined htab hrow' hvot votes hrej)) ?_, hat⟩
    rw [hsame.decisions]
    exact (tally_votes htab hrow' hvot votes).1
  | accepted hv hfind served tally start =>
    obtain ⟨pending, waits, hvot, votes, hat⟩ := vote_sync h hrow (hv ▸ he) (hv ▸ hs) hfind accept
    exact start_sync
      (g := ⟨.voting _, { touched env id g.server with
        db := g.server.db.setTaskDecision id d accept }⟩)
      htab hrow' hvot rfl tally pending waits votes hat start hserved hacc

end Decisions

end TableSync
