import MeesignServer.SyncRuns

/-!
# A restart of the server is transparent

The phase of a task is not stored. In runs without broken calls, what hydration
infers from the tables is what the cache holds.
-/
namespace RestartTransparency

open FallibleProgram FiniteMap DataModel CommunicatorModel ProtocolModel VotingModel
open RunningTaskModel DatabaseModel HydrationModel ServerModel TaskOutcomes ServerOutcomes
open ActiveShares VoteTally TableFrames ServerInvariant HydrationOutcomes
open InvariantSteps ServerMoves TableSync SyncRuns

def view (e : TaskEntry) (d : Option Bytes) : ProtoTask :=
  let task := e.format d (some e.taskInfo.request)
  match e with
  | .running _ => { task with data := [] }
  | _ => task

/-- Tasks of the same phase that agree on what the rest of the task depends on. -/
def SamePhase : TaskEntry → TaskEntry → Prop
  | .voting v, .voting v' => v'.acceptThreshold = v.acceptThreshold
  | .running t, .running t' =>
    t'.session.communicator.threshold = t.session.communicator.threshold ∧
    t'.session.communicator.protocolType = t.session.communicator.protocolType ∧
    t'.session.protocol.protocolType = t.session.protocol.protocolType ∧
    t'.session.protocol.round = t.session.protocol.round
  | .declined _, .declined _ => True
  | .finished _, .finished _ => True
  | .failed _, .failed _ => True
  | _, _ => False

variable {db : Database} {id : Uuid} {row : TaskRow} {e : TaskEntry}

theorem hydrate_finished {data : Bytes} (h : Tables db) (hrow : db.task.lookup id = some row)
    (hr : db.taskResult id = some (NewTaskResult.ofResult (.ok data))) :
    ∃ f, hydrateTask db id = .ok (.finished f) ∧ f.result.asBytes = data ∧
      f.taskInfo = hydratedTaskInfo id row (db.getTaskParticipants id) := by
  have ho := hydrate_outcome h hrow
  generalize hydrateTask db id = x at ho
  cases ho with
  | @finished f data' stored info bytes _ =>
    rw [hr] at stored
    simp only [NewTaskResult.ofResult, Option.some.injEq, TaskResultRow.mk.injEq] at stored
    exact ⟨f, rfl, bytes.trans stored.2.1.symm, info⟩
  | declined stored | failed stored | voting stored | running stored | noCommunicator stored
  | unsupported stored =>
    rw [hr] at stored
    cases stored

theorem hydrate_declined {reason : String} (h : Tables db)
    (hrow : db.task.lookup id = some row)
    (hr : db.taskResult id = some (NewTaskResult.ofResult (.error reason)))
    (hv : TurnedDown db id row) : hydrateTask db id = .ok (.declined
      ⟨hydratedTaskInfo id row (db.getTaskParticipants id),
        (acceptsRejects (db.getTaskDecisions id)).1,
        (acceptsRejects (db.getTaskDecisions id)).2⟩) := by
  have ho := hydrate_outcome h hrow
  rw [tally_stored h hrow]
  generalize hydrateTask db id = x at ho
  cases ho with
  | declined => rfl
  | failed _ votes => exact absurd hv votes
  | finished stored | voting stored | running stored | noCommunicator stored
  | unsupported stored =>
    rw [hr] at stored
    cases stored

theorem hydrate_failed {reason : String} (h : Tables db) (hrow : db.task.lookup id = some row)
    (hr : db.taskResult id = some (NewTaskResult.ofResult (.error reason)))
    (hv : ¬ TurnedDown db id row) : hydrateTask db id =
      .ok (.failed ⟨hydratedTaskInfo id row (db.getTaskParticipants id), reason⟩) := by
  have ho := hydrate_outcome h hrow
  generalize hydrateTask db id = x at ho
  cases ho with
  | failed stored =>
    rw [hr] at stored
    simp only [NewTaskResult.ofResult, Option.some.injEq, TaskResultRow.mk.injEq] at stored
    rw [stored.2.2]
  | declined _ votes => exact absurd votes hv
  | finished stored | voting stored | running stored | noCommunicator stored
  | unsupported stored =>
    rw [hr] at stored
    cases stored

theorem hydrate_voting (h : Tables db) (hrow : db.task.lookup id = some row)
    (hr : db.taskResult id = none) (hv : ¬ Approved db id row) :
    ∃ v, hydrateTask db id = .ok (.voting v) ∧ v.decisions = db.getTaskDecisions id ∧
      v.acceptThreshold = acceptThreshold row (db.getTaskParticipants id) ∧
      v.taskInfo = hydratedTaskInfo id row (db.getTaskParticipants id) := by
  have ho := hydrate_outcome h hrow
  generalize hydrateTask db id = x at ho
  cases ho with
  | voting => exact ⟨_, rfl, rfl, rfl, rfl⟩
  | running _ votes | noCommunicator _ votes | unsupported _ votes => exact absurd votes hv
  | finished stored | declined stored | failed stored =>
    rw [hr] at stored
    cases stored

theorem two_le_acceptThreshold (h : Tables db) (hrow : db.task.lookup id = some row)
    (hs : Started row) : 2 ≤ acceptThreshold row (db.getTaskParticipants id) := by
  unfold acceptThreshold
  split_ifs with ht
  · have hc := ((h.rows id row hrow).started_group hs ht).2
    have := ProtocolType.checkThreshold_bounds hc
    omega
  · obtain ⟨groupId, group, data, hon⟩ := (h.fixed id row hrow).onGroup ht
    have hb := ProtocolType.checkThreshold_bounds (h.group groupId group hon.found).threshold
    have hthr : group.threshold = row.threshold := hon.threshold
    rw [← hthr]
    exact hb.1

theorem hydrateCommunicator_ok (h : Tables db) (hrow : db.task.lookup id = some row)
    (hs : Started row) :
    ∃ c, hydrateCommunicator db id row (db.getTaskParticipants id) = .ok c := by
  obtain ⟨m, -, hlen, hc⟩ := hydrateCommunicator_spec h hrow
  have hr := h.rows id row hrow
  have htwo := two_le_acceptThreshold h hrow hs
  have henough := hr.enough.resolve_left (hr.started_active hs)
  rw [hc, Communicator.new, dif_pos (by omega), dif_pos (by omega)]
  exact ⟨_, rfl⟩

theorem hydrate_started (h : Tables db) (hrow : db.task.lookup id = some row)
    (hs : Started row) (ha : Approved db id row) (hp : db.taskResult id = none) :
    ∃ t, hydrateTask db id = .ok (.running t) ∧
      t.session.communicator.threshold = acceptThreshold row (db.getTaskParticipants id) ∧
      t.session.communicator.protocolType = row.protocolType ∧
      t.session.protocol.protocolType = row.protocolType ∧
      t.session.protocol.round = row.protocolRound ∧
      t.taskInfo = hydratedTaskInfo id row (db.getTaskParticipants id) ∧
      ContextOf db (fixed row) (contextOf t) ∧
      (row.taskType = .group → row.groupCertificatesSent = some (ready t)) := by
  obtain ⟨c, hc⟩ := hydrateCommunicator_ok h hrow hs
  have ho := hydrate_outcome h hrow
  generalize hydrateTask db id = x at ho
  cases ho with
  | finished stored | declined stored | failed stored =>
    rw [hp] at stored
    cases stored
  | voting _ votes => exact absurd ha (not_le.mpr votes)
  | running _ _ communicator protocol round info context_of is_ready =>
    obtain ⟨m, -, -, hnew⟩ := hydrateCommunicator_spec h hrow
    rw [communicator] at hnew
    obtain ⟨hthr, htype, -, -⟩ := Communicator.new_ok hnew.symm
    exact ⟨_, rfl, hthr, htype, protocol, round, info, context_of, is_ready⟩
  | noCommunicator _ _ communicator =>
    rw [hc] at communicator
    cases communicator
  | unsupported _ _ _ group hn => exact absurd ((h.rows id row hrow).started_group hs group).1 hn

theorem getRound_congr {t t' : RunningTask} (hc : ContextOf db (fixed row) (contextOf t))
    (hc' : ContextOf db (fixed row) (contextOf t'))
    (hready : row.taskType = .group → ready t' = ready t)
    (hround : t'.session.protocol.round = t.session.protocol.round) :
    t'.getRound = t.getRound := by
  have hgroup := context_taskType hc
  have hgroup' := context_taskType hc'
  rw [getRound_eq, getRound_eq, hround]
  by_cases ht : row.taskType = .group
  · obtain ⟨threshold, note, heq⟩ := hgroup.mp ht
    obtain ⟨threshold', note', heq'⟩ := hgroup'.mp ht
    rw [heq, heq', hready ht]
  · cases hk : contextOf t with
    | group threshold note => exact absurd (hgroup.mpr ⟨_, _, hk⟩) ht
    | signChallenge | signPdf | decrypt =>
      cases hk' : contextOf t' with
      | group threshold note => exact absurd (hgroup'.mpr ⟨_, _, hk'⟩) ht
      | signChallenge | signPdf | decrypt => rfl

structure SameInfo (info info' : TaskInfo) : Prop where
  id : info'.id = info.id
  taskType : info'.taskType = info.taskType
  attempts : info'.attempts = info.attempts
  request : info'.request = info.request

theorem sameInfo_hydrated {ps : List Participant} {info info' : TaskInfo}
    (h : InfoOf id (fixed row) ps info) (hat : info.attempts = row.attemptCount)
    (hinfo : info' = hydratedTaskInfo id row ps) : SameInfo info info' := by
  subst hinfo
  exact ⟨h.id.symm, h.taskType.symm, hat.symm, h.request.symm⟩

theorem hydrate_same (h : Tables db) (hrow : db.task.lookup id = some row)
    (he : EntryOf db id row e) (hs : TaskSync True db id row e) :
    ∃ e', hydrateTask db id = .ok e' ∧ SamePhase e e' ∧ ∀ d, view e' d = view e d := by
  have hat := hs.attempts trivial
  cases hs.phase with
  | voting pending waits votes =>
    have hopen : ¬ Approved db id row := fun ha => waits (hs.rows.approved trivial pending ha)
    obtain ⟨v', hh, hdecisions, hthr, hinfo⟩ := hydrate_voting h hrow pending hopen
    have hvot := he.votingOf
    have hi := sameInfo_hydrated hvot.info hat hinfo
    have htally := (tally_votes h hrow hvot votes).1
    refine ⟨_, hh, hthr.trans hvot.threshold.symm, fun d => ?_⟩
    simp only [view, TaskEntry.format, TaskEntry.taskInfo, hi.id, hi.taskType, hi.attempts,
      hi.request, hdecisions, htally]
  | @running t pending approved started round =>
    obtain ⟨t', hh, hthr, htype, hprot, hround, hinfo, hctx, hready⟩ :=
      hydrate_started h hrow (started trivial) approved pending
    have hrun := he.runningOf
    have hi := sameInfo_hydrated hrun.info hat hinfo
    have hround' := hround.trans (round trivial).symm
    have hget : t'.getRound = t.getRound := by
      refine getRound_congr hrun.context hctx (fun ht => ?_) hround'
      cases he with
      | running _ his _ => exact Option.some.inj ((hready ht).symm.trans (his ht))
    refine ⟨_, hh, ⟨hthr.trans hrun.threshold.symm, htype.trans hrun.communicator.symm,
      hprot.trans hrun.protocol.symm, hround'⟩, fun d => ?_⟩
    simp only [view, TaskEntry.format, TaskEntry.taskInfo, hi.id, hi.taskType, hi.attempts,
      hi.request, hget]
  | declined stored votes tally =>
    cases he with
    | declined hinfo =>
      have hi := sameInfo_hydrated hinfo hat rfl
      refine ⟨_, hydrate_declined h hrow stored votes, trivial, fun d => ?_⟩
      simp only [view, TaskEntry.format, TaskEntry.taskInfo, hi.id, hi.taskType, hi.attempts,
        hi.request, ← tally]
  | finished stored =>
    cases he with
    | finished hinfo =>
      obtain ⟨f', hh, hbytes, hinfo'⟩ := hydrate_finished h hrow stored
      have hi := sameInfo_hydrated hinfo hat hinfo'
      refine ⟨_, hh, trivial, fun d => ?_⟩
      simp only [view, TaskEntry.format, TaskEntry.taskInfo, hi.id, hi.taskType, hi.attempts,
        hi.request, hbytes]
  | failed stored votes =>
    cases he with
    | failed hinfo =>
      have hi := sameInfo_hydrated hinfo hat rfl
      refine ⟨_, hydrate_failed h hrow stored votes, trivial, fun d => ?_⟩
      simp only [view, TaskEntry.format, TaskEntry.taskInfo, hi.id, hi.taskType, hi.attempts,
        hi.request]

variable [External]

/-- Runs whose calls return `Ok` or are refused by a check of phase, attempt or sender. -/
inductive SmoothRun : Server → Prop where
  | initial : SmoothRun initial
  | step {s : Server} (env : Env) (op : Op) : SmoothRun s → Accepted (result env op s) →
      SmoothRun (next env op s)

theorem SmoothRun.reachable {s : Server} (h : SmoothRun s) : Reachable s := by
  induction h with
  | initial => exact .initial
  | step env op _ _ ih => exact .step env op ih

theorem smoothRun_sync {s : Server} (h : SmoothRun s) : SyncInvariant True s := by
  induction h with
  | initial => exact sync_initial
  | step env op hs ha ih =>
    exact next_sync (reachable_invariant hs.reachable) ih (.inr ha) fun _ => ha

/-- Hydrating a cached task gives a task of the same phase that looks the same to every
device. -/
theorem hydration_transparent {s : Server} {id : Uuid} {e : TaskEntry} (h : SmoothRun s)
    (hc : s.taskCache id = some e) : ∃ e', hydrateTask s.db id = .ok e' ∧ SamePhase e e' ∧
      ∀ d, view e' d = view e d := by
  have hinv := reachable_invariant h.reachable
  obtain ⟨row, hrow, hsync⟩ := (smoothRun_sync h).cache id e hc
  obtain ⟨row', hrow', he⟩ := hinv.cache id e hc
  rw [hrow] at hrow'
  cases hrow'
  exact hydrate_same hinv.tables hrow he hsync

def runsSmoothly (s : Server) : List (Env × Op) → Bool
  | [] => true
  | p :: ops => decide (Accepted (result p.1 p.2 s)) && runsSmoothly (next p.1 p.2 s) ops

theorem smoothRun_runOps {s : Server} {ops : List (Env × Op)} (h : SmoothRun s)
    (hs : runsSmoothly s ops) : SmoothRun (runOps s ops) := by
  induction ops generalizing s with
  | nil => exact h
  | cons p ops ih =>
    rw [runsSmoothly, Bool.and_eq_true, decide_eq_true_eq] at hs
    exact ih (.step p.1 p.2 h hs.1) hs.2

def signing : List (Env × Op) :=
  servedOps 100 0 (groupRequested ++ groupEstablished) ++ servedOps 100 1 signatureStarted

omit [External] in
theorem hydration_transparent_signing :
    ∃ e, (@runOps plainExternal initial signing).taskCache 1 = some e ∧
      ∃ e', hydrateTask (@runOps plainExternal initial signing).db 1 = .ok e' ∧ SamePhase e e' ∧
        ∀ d, view e' d = view e d := by
  have hsmooth : @runsSmoothly plainExternal initial signing := by decide +kernel
  have hcached : ((@runOps plainExternal initial signing).taskCache 1).isSome := by
    decide +kernel
  obtain ⟨e, he⟩ := Option.isSome_iff_exists.mp hcached
  have hrun := @smoothRun_runOps plainExternal _ _ (@SmoothRun.initial plainExternal) hsmooth
  exact ⟨e, he, @hydration_transparent plainExternal _ _ _ hrun he⟩

end RestartTransparency
