import MeesignServer.StaleSweep

/-!
# The sweep between other calls

`restart_stale_tasks` reads the candidates, drops those with a recent update and then
takes the locks of the others one by one. Requests go on in between. An update of a
task that waits for its lock is not noticed: the sweep restarts a task that is not
stale any more, or finds that it is not even running.
-/
namespace SweepSchedule

open FallibleProgram FiniteMap DataModel ProtocolModel VotingModel RunningTaskModel
open DatabaseModel HydrationModel ServerModel TaskOutcomes ServerOutcomes
open TableFrames ServerInvariant HydrationOutcomes TaskAdmission ServerMoves TableSync SyncRuns
open RestartTransparency StaleSweep

inductive SweepPhase where
  | idle
  | queried (now : ℕ) (candidates : List Uuid)
  | filtered (stale : List Uuid)
  deriving DecidableEq

structure Timed where
  server : Server
  clock : ℕ
  sweep : SweepPhase

inductive SweepEvent where
  | call (env : Env) (op : Op)
  | query (env : Env)
  | filter (env : Env)
  | restart (env : Env)

def SweepEvent.env : SweepEvent → Env
  | .call env _ => env
  | .query env => env
  | .filter env => env
  | .restart env => env

variable [External]

/-- A request. If the process stops or is replaced, the sweep is gone with it. -/
def Timed.call (w : Timed) (env : Env) (op : Op) : Timed where
  server := next env op w.server
  clock := env.now
  sweep := match op, result env op w.server with
    | .restartServer, _ => .idle
    | _, .error .crash => .idle
    | _, _ => w.sweep

/-- A sweep ends with its first error. -/
def Timed.step (w : Timed) (ev : SweepEvent) : Timed :=
  match ev, w.sweep with
  | .call env op, _ => w.call env op
  | .query env, .idle => ⟨w.server, env.now, .queried env.now w.server.db.getRestartCandidates⟩
  | .filter env, .queried now candidates =>
    match outcome (staleTasks env now candidates) w.server with
    | (.ok stale, server) => ⟨server, env.now, .filtered stale⟩
    | (.error _, server) => ⟨server, env.now, .idle⟩
  | .restart env, .filtered (taskId :: rest) =>
    match outcome (withTaskMut env taskId (restartEntry env taskId)) w.server with
    | (.ok _, server) => ⟨server, env.now, .filtered rest⟩
    | (.error _, server) => ⟨server, env.now, .idle⟩
  | .restart env, .filtered [] => ⟨w.server, env.now, .idle⟩
  | _, _ => w

def Timed.pending (w : Timed) : List Uuid :=
  match w.sweep with
  | .filtered stale => stale
  | _ => []

/-- The clock does not go back, and there is one sweep at a time. -/
structure Allowed (w : Timed) (ev : SweepEvent) : Prop where
  serves : ev.env.RepositoryServes
  clock : w.clock ≤ ev.env.now
  requests : ∀ env op, ev = .call env op → op ≠ .restartStaleTasks

/-- No update of a task arrives while the sweep is about to lock it. -/
def Quiet (w : Timed) : SweepEvent → Prop
  | .call _ (.updateTask id _ _ _) => id ∉ w.pending
  | _ => True

/-- Runs of requests and sweeps, after any requests that the repository has served. -/
inductive QuietRun : Timed → Prop where
  | start {s : Server} {clock : ℕ} (h : ServedReachable s) : QuietRun ⟨s, clock, .idle⟩
  | step {w : Timed} (ev : SweepEvent) (h : QuietRun w) (ha : Allowed w ev) (hq : Quiet w ev) :
      QuietRun (w.step ev)

section Requests

variable {env : Env} {op : Op} {s : Server} {id : Uuid}

def target : Op → Option Uuid
  | .decideTask id _ _ => some id
  | .updateTask id _ _ _ => some id
  | .acknowledgeTask id _ => some id
  | .getFormattedTask id _ => some id
  | _ => none

omit [External] in
theorem addTask_lastUpdates (v : VotingTask) : post (addTask env v) s (fun _ t =>
    t.taskLastUpdates = s.taskLastUpdates) :=
  addTask_post env (fun _ _ => rfl) (fun _ _ _ _ => rfl) fun _ _ _ => rfl

theorem request_lastUpdates (hop : target op = none) (hsweep : op ≠ .restartStaleTasks)
    (hrestart : op ≠ .restartServer) :
    post (exec env op) s (fun _ t => t.taskLastUpdates = s.taskLastUpdates) := by
  cases op with
  | addDevice device =>
    simp only [exec, addDevice, post_bind]
    exact repoWrite_post (fun _ _ => rfl) fun _ _ => rfl
  | activateDevice d => rfl
  | addGroupTask name deviceIds threshold protocolType keyType note =>
    exact discard_post.mpr (addGroupTask_post env (fun _ => rfl) (addTask_lastUpdates _))
  | addSignTask groupId name data =>
    exact discard_post.mpr (addSignTask_post env (fun _ => rfl) fun _ _ _ _ =>
      addTask_lastUpdates _)
  | addDecryptTask groupId name data dataType creator =>
    exact discard_post.mpr (addDecryptTask_post env (fun _ => rfl) fun _ _ _ _ _ =>
      addTask_lastUpdates _)
  | decideTask | updateTask | acknowledgeTask | getFormattedTask => cases hop
  | restartStaleTasks => exact absurd rfl hsweep
  | restartServer => exact absurd rfl hrestart

theorem target_outcome (hop : target op = some id) :
    post (exec env op) s (fun r t => (∃ stop, NotLoaded env s id stop ∧ r = .error stop ∧ t = s) ∨
      ∃ e g, Loaded env s id e ∧ BodyOutcome env op id ⟨e, cached s id e⟩ r g ∧
        t = cached g.server id g.entry) := by
  have hof : ∀ {Body : Guarded → Except Stop Unit → Guarded → Prop} {r t},
      (∀ g r g', Body g r g' → BodyOutcome env op id g r g') → TaskOutcome env id Body s r t →
      (∃ stop, NotLoaded env s id stop ∧ r = .error stop ∧ t = s) ∨
        ∃ e g, Loaded env s id e ∧ BodyOutcome env op id ⟨e, cached s id e⟩ r g ∧
          t = cached g.server id g.entry := by
    intro Body r t hb ho
    cases ho with
    | notLoaded hn => exact .inl ⟨_, hn, rfl, rfl⟩
    | @loaded e _ g hl body => exact .inr ⟨e, g, hl, hb _ _ _ body, rfl⟩
  cases op with
  | decideTask j d accept =>
    cases hop
    exact post_mono (decideTask_outcome env id d accept s) fun r t ho =>
      hof (fun _ _ _ => .decide) ho
  | updateTask j d messages attempt =>
    cases hop
    exact post_mono (updateTask_outcome env id d messages attempt s) fun r t ho =>
      hof (fun _ _ _ => .update) ho
  | acknowledgeTask j d =>
    cases hop
    exact post_mono (withTaskMut_outcome (acknowledgeEntry_outcome env id d) s) fun r t ho =>
      hof (fun _ _ _ => .acknowledge) ho
  | getFormattedTask j d =>
    cases hop
    have hread : ∀ g, post (do
        let task := (← get).entry
        return task.format d (some task.taskInfo.request) : EStateM Stop Guarded ProtoTask) g
        (fun r g' => (r.map fun _ => ()) = .ok () ∧ g' = g) := fun g => ⟨rfl, rfl⟩
    refine discard_post.mpr (post_mono (withTaskMut_outcome hread s) fun r t ho => ?_)
    cases ho with
    | notLoaded hn => exact .inl ⟨_, hn, rfl, rfl⟩
    | @loaded e _ g hl hb =>
      obtain ⟨hr, rfl⟩ := hb
      exact .inr ⟨e, _, hl, hr ▸ .read, rfl⟩
  | _ => cases hop

omit [External] in
theorem candidate_running {e : TaskEntry} (h : Invariant s) (hs : SyncInvariant False s)
    (hc : id ∈ s.db.getRestartCandidates) (hl : Loaded env s id e) : ∃ t, e = .running t := by
  obtain ⟨row, hrow, hts⟩ := loaded_sync h hs hl
  obtain ⟨pending, started⟩ := (mem_candidates hrow).mp hc
  cases hts.phase with
  | voting _ waits => exact absurd started waits
  | running => exact ⟨_, rfl⟩
  | declined stored | finished stored | failed stored =>
    rw [pending] at stored
    cases stored

omit [External] in
theorem candidate_loaded (h : Invariant s) (hs : SyncInvariant False s)
    (hserves : env.RepositoryServes) (hc : id ∈ s.db.getRestartCandidates) :
    ∃ t, Loaded env s id (.running t) := by
  cases hcache : s.taskCache id with
  | some e =>
    have hl : Loaded env s id e := .hit hcache (hserves _ _)
    obtain ⟨t, rfl⟩ := candidate_running h hs hc hl
    exact ⟨t, hl⟩
  | none =>
    obtain ⟨row, hrow⟩ := row_of_candidate hc
    obtain ⟨pending, started⟩ := (mem_candidates hrow).mp hc
    have ha := (hs.rows id row hrow).started started
    obtain ⟨t, ht, -⟩ := hydrate_started h.tables hrow started ha pending
    exact ⟨t, .hydrated hcache (hserves _ _) ht⟩

omit [External] in
theorem mem_candidates_congr {db db' : Database} (h : SameTask db db' id)
    (hc : id ∈ db.getRestartCandidates) : id ∈ db'.getRestartCandidates := by
  obtain ⟨row, hrow⟩ := row_of_candidate hc
  rw [mem_candidates hrow] at hc
  rw [mem_candidates (h.task.trans hrow), h.result]
  exact hc

theorem body_lastUpdates {g g' : Guarded} {r : Except Stop Unit}
    (h : BodyOutcome env op id g r g') : g'.server.taskLastUpdates = g.server.taskLastUpdates ∨
      g'.server.taskLastUpdates =
        Function.update g.server.taskLastUpdates id (some env.now) := by
  cases h with
  | decide h =>
    cases h with
    | notVoting => exact .inl rfl
    | notParticipant | notStored | undecided | declined => exact .inr rfl
    | accepted _ _ _ _ start =>
      cases start with
      | notStored _ rest | built _ _ rest => exact .inr rest.taskLastUpdates
  | update h =>
    cases h with
    | notRunning => exact .inl rfl
    | stale => exact .inr rfl
    | updated _ _ _ _ rest => exact .inr rest.taskLastUpdates
  | restart _ h =>
    cases h with
    | notRunning => exact .inl rfl
    | notStored => exact .inr rfl
    | restarted _ _ _ _ rest => exact .inr rest.taskLastUpdates
  | acknowledge h =>
    cases h with
    | notFinished | acknowledged => exact .inl rfl
  | read => exact .inl rfl

theorem call_lastUpdates (id : Uuid) (hsweep : op ≠ .restartStaleTasks)
    (hrestart : op ≠ .restartServer) :
    post (exec env op) s (fun _ t => t.taskLastUpdates id = s.taskLastUpdates id ∨
      (target op = some id ∧ t.taskLastUpdates id = some env.now)) := by
  cases hop : target op with
  | none =>
    refine post_mono (request_lastUpdates hop hsweep hrestart) fun r t ht => ?_
    rw [ht]
    exact .inl rfl
  | some j =>
    refine post_mono (target_outcome hop) ?_
    rintro r t (⟨stop, -, -, rfl⟩ | ⟨e, g, -, body, rfl⟩)
    · exact .inl rfl
    · change g.server.taskLastUpdates id = _ ∨ _ ∧ g.server.taskLastUpdates id = _
      rcases body_lastUpdates body with hsame | hset
      · rw [hsame]
        exact .inl rfl
      · rw [hset]
        by_cases hj : id = j
        · subst hj
          exact .inr ⟨rfl, Function.update_self ..⟩
        · exact .inl (Function.update_of_ne hj ..)

/-- A candidate is running, so of the requests for its task only an update has an effect. -/
theorem target_candidate (h : Invariant s) (hs : SyncInvariant False s)
    (hserves : env.RepositoryServes) (hop : target op = some id) (hsweep : op ≠ .restartStaleTasks)
    (hc : id ∈ s.db.getRestartCandidates) :
    post (exec env op) s (fun _ t =>
      (id ∈ t.db.getRestartCandidates ∧ t.taskLastUpdates id = s.taskLastUpdates id) ∨
      (t.taskLastUpdates id = some env.now ∧ ∃ d messages attempt,
        op = .updateTask id d messages attempt)) := by
  obtain ⟨task, hrunning⟩ := candidate_loaded h hs hserves hc
  refine post_mono (target_outcome hop) ?_
  rintro r t (⟨stop, hn, -⟩ | ⟨e, g, hl, body, rfl⟩)
  · exact (hrunning.not_notLoaded hn).elim
  have he := loaded_unique hl hrunning
  subst he
  rcases running_body body hsweep with rfl | ⟨d, messages, attempt, rfl, update⟩
  · exact .inl ⟨hc, rfl⟩
  · refine .inr ⟨?_, d, messages, attempt, rfl⟩
    cases update with
    | notRunning hr => exact absurd rfl (hr task)
    | stale => exact Function.update_self ..
    | updated _ _ _ _ rest =>
      exact (congrFun rest.taskLastUpdates id).trans (Function.update_self ..)

theorem move_candidate {r : Except Stop Unit} {t : Server} (m : Move env op s r t)
    (h : Invariant s) (hop : target op ≠ some id) (hsweep : op ≠ .restartStaleTasks)
    (hrestart : op ≠ .restartServer) (hc : id ∈ s.db.getRestartCandidates) :
    id ∈ t.db.getRestartCandidates := by
  cases m with
  | refused => exact hc
  | aside ha =>
    rw [ha.db]
    exact hc
  | addDevice w => exact mem_candidates_congr (sameTask_addDevice w.write id) hc
  | @addTask v db admitted w =>
    obtain ⟨row, hrow⟩ := row_of_candidate hc
    have hne := createRows_new w.write (mem_of_row hrow)
    exact mem_candidates_congr ((admitted_sound h admitted w.write).others id hne) hc
  | restart hr => exact absurd hr hrestart
  | @task j e _ g loaded body =>
    by_cases hj : id = j
    · subst hj
      cases body with
      | decide | update | acknowledge => exact absurd rfl hop
      | restart => exact absurd rfl hsweep
      | read => exact hc
    · exact mem_candidates_congr ((task_sound h loaded body).others id hj) hc

/-- A request leaves a candidate alone unless it is an update of its task. -/
theorem call_candidate (h : Invariant s) (hs : SyncInvariant False s)
    (hserves : env.RepositoryServes) (hsweep : op ≠ .restartStaleTasks)
    (hrestart : op ≠ .restartServer) (hc : id ∈ s.db.getRestartCandidates) :
    post (exec env op) s (fun _ t =>
      (id ∈ t.db.getRestartCandidates ∧ t.taskLastUpdates id = s.taskLastUpdates id) ∨
      (t.taskLastUpdates id = some env.now ∧ ∃ d messages attempt,
        op = .updateTask id d messages attempt)) := by
  by_cases hop : target op = some id
  · exact target_candidate h hs hserves hop hsweep hc
  · refine post_mono (post_and (exec_move env hsweep s) (call_lastUpdates id hsweep hrestart)) ?_
    rintro r t ⟨m, hsame | ⟨htarget, -⟩⟩
    · exact .inl ⟨move_candidate m h hop hsweep hrestart hc, hsame⟩
    · exact absurd htarget hop

end Requests

omit [External] in
theorem restart_refused {db : Database} {id : Uuid} {e : PersistenceError}
    (h : db.incrementTaskAttemptCount id = .error e ∨
      (∃ round, db.setTaskRound id round = .error e) ∨
      ∃ result, db.setTaskResult id result = .error e) : e = .execution := by
  rcases h with h | ⟨round, h⟩ | ⟨result, h⟩
  · unfold Database.incrementTaskAttemptCount at h
    split at h
    · cases h
      rfl
    · split_ifs at h
      cases h
      rfl
  · unfold Database.setTaskRound at h
    split_ifs at h
    cases h
    rfl
  · unfold Database.setTaskResult at h
    split_ifs at h
    cases h
    rfl

omit [External] in
theorem writeFails_stop {env : Env} {call : RepoCall} {id : Uuid} {f : Write} {db : Database}
    {stop : Stop} (hf : ∀ e, f db = .error e → e = .execution)
    (w : WriteFails env call id f db stop) : ∀ message, stop ≠ inconsistent message := by
  intro message
  cases w with
  | fails => exact nofun
  | stops => exact nofun
  | refused _ he =>
    rw [hf _ he]
    exact nofun

theorem restart_running {env : Env} {id : Uuid} {task : RunningTask} {s : Server} {stop : Stop}
    {g : Guarded} (h : RestartEntryOutcome env id ⟨.running task, s⟩ (.error stop) g) :
    ∀ message, stop ≠ inconsistent message := by
  cases h with
  | notRunning hr => exact absurd rfl (hr task)
  | notStored _ w => exact writeFails_stop (fun e he => restart_refused (.inl he)) w
  | restarted _ _ restart record =>
    cases record with
    | stopped =>
      have hbreaks : Breaks stop := by
        cases restart with
        | broke h => exact h
        | again _ _ _ _ start =>
          cases start with
          | broke h => exact h
      rintro message rfl
      exact hbreaks
    | nextRound stored =>
      cases stored with
      | fails w =>
        exact writeFails_stop (fun e he => restart_refused (.inr (.inl ⟨_, he⟩))) w
    | failed stored =>
      cases stored with
      | fails w =>
        exact writeFails_stop (fun e he => restart_refused (.inr (.inr ⟨_, he⟩))) w
    | finished =>
      cases restart with
      | again _ _ _ _ start => cases start

def Standing (s : Server) (clock : ℕ) : SweepPhase → Prop
  | .idle => True
  | .queried now candidates => now ≤ clock ∧ candidates.Nodup ∧ ∀ id ∈ candidates,
      id ∈ s.db.getRestartCandidates ∨ ∃ last, s.taskLastUpdates id = some last ∧ now ≤ last
  | .filtered stale => stale.Nodup ∧ ∀ id ∈ stale,
      id ∈ s.db.getRestartCandidates ∧ ∃ last, s.taskLastUpdates id = some last ∧ 30 < clock - last

structure SweepInvariant (w : Timed) : Prop where
  invariant : Invariant w.server
  sync : SyncInvariant False w.server
  standing : Standing w.server w.clock w.sweep

section Steps

variable {w : Timed} {env : Env}

theorem call_standing {op : Op} (h : SweepInvariant w) (ha : Allowed w (.call env op))
    (hq : Quiet w (.call env op)) (hrestart : op ≠ .restartServer) :
    Standing (outcome (exec env op) w.server).2 env.now w.sweep := by
  have hsweep := ha.requests env op rfl
  have hclock : w.clock ≤ env.now := ha.clock
  have hstanding := h.standing
  cases hphase : w.sweep with
  | idle => trivial
  | queried now candidates =>
    rw [hphase] at hstanding
    obtain ⟨hnow, hnodup, hall⟩ := hstanding
    refine ⟨hnow.trans hclock, hnodup, fun id hid => ?_⟩
    rcases hall id hid with hc | ⟨last, hlast, hle⟩
    · have hcall := call_candidate h.invariant h.sync ha.serves hsweep hrestart hc
      rcases hcall with ⟨hmem, -⟩ | ⟨hset, -⟩
      · exact .inl hmem
      · exact .inr ⟨env.now, hset, hnow.trans hclock⟩
    · have hcall : post (exec env op) w.server _ := call_lastUpdates id hsweep hrestart
      rcases hcall with hsame | ⟨-, hset⟩
      · exact .inr ⟨last, hsame.trans hlast, hle⟩
      · exact .inr ⟨env.now, hset, hnow.trans hclock⟩
  | filtered stale =>
    rw [hphase] at hstanding
    obtain ⟨hnodup, hall⟩ := hstanding
    refine ⟨hnodup, fun id hid => ?_⟩
    obtain ⟨hc, last, hlast, hage⟩ := hall id hid
    have hcall := call_candidate h.invariant h.sync ha.serves hsweep hrestart hc
    rcases hcall with ⟨hmem, hsame⟩ | ⟨-, d, messages, attempt, rfl⟩
    · exact ⟨hmem, last, hsame.trans hlast, by omega⟩
    · have hnot : id ∉ w.pending := hq
      rw [Timed.pending, hphase] at hnot
      exact absurd hid hnot

theorem call_invariant {op : Op} (h : SweepInvariant w) (ha : Allowed w (.call env op))
    (hq : Quiet w (.call env op)) : SweepInvariant (w.call env op) := by
  refine ⟨(next_invariant env op w.server h.invariant).1,
    next_sync h.invariant h.sync (.inl ha.serves) False.elim, ?_⟩
  by_cases hrestart : op = .restartServer
  · subst hrestart
    trivial
  · by_cases hcrash : result env op w.server = .error .crash
    · have hidle : (w.call env op).sweep = .idle := by
        simp only [Timed.call, hcrash]
      exact hidle ▸ trivial
    · have hsame : (w.call env op).sweep = w.sweep := by simp only [Timed.call]
      have hserver : (w.call env op).server = (outcome (exec env op) w.server).2 := by
        change next env op w.server = _
        rw [next_eq, if_neg hcrash]
      rw [hsame, hserver]
      exact call_standing h ha hq hrestart

theorem filter_invariant {now : ℕ} {candidates : List Uuid} (h : SweepInvariant w)
    (hphase : w.sweep = .queried now candidates) (ha : Allowed w (.filter env)) :
    SweepInvariant (w.step (.filter env)) := by
  have hstanding := h.standing
  rw [hphase] at hstanding
  obtain ⟨hnow, hnodup, hall⟩ := hstanding
  have hclock : w.clock ≤ env.now := ha.clock
  have hpost := staleTasks_post env now candidates w.server
  unfold Timed.step
  rw [hphase]
  dsimp only
  unfold post at hpost
  generalize outcome (staleTasks env now candidates) w.server = p at hpost ⊢
  obtain ⟨r, t⟩ := p
  obtain ⟨haside, hkeep, stale, rfl, hsub, hold⟩ := hpost
  dsimp only
  have hmove : Move env .restartStaleTasks w.server (.ok ()) t := .aside haside
  refine ⟨invariant_aside h.invariant haside, move_sync h.invariant h.sync hmove
    (.inl ha.serves) False.elim, hsub.nodup hnodup, fun id hid => ?_⟩
  obtain ⟨last, hlast, hage⟩ := hold id hid
  have hage' : 30 < env.now - last := by omega
  refine ⟨?_, last, hlast, hage'⟩
  rcases hall id (hsub.subset hid) with hc | ⟨last', hlast', hle⟩
  · change id ∈ t.db.getRestartCandidates
    rw [haside.db]
    exact hc
  · -- a task that was updated since the query is not stale
    have hsame := hkeep id last' hlast'
    rw [hlast] at hsame
    cases hsame
    omega

theorem restart_invariant {id : Uuid} {rest : List Uuid} (h : SweepInvariant w)
    (hphase : w.sweep = .filtered (id :: rest)) (ha : Allowed w (.restart env)) :
    SweepInvariant (w.step (.restart env)) := by
  have hstanding := h.standing
  rw [hphase] at hstanding
  obtain ⟨hnodup, hall⟩ := hstanding
  rw [List.nodup_cons] at hnodup
  have hclock : w.clock ≤ env.now := ha.clock
  have hc := (hall id (List.mem_cons_self ..)).1
  have hpost := restartTask_outcome env id w.server
  unfold Timed.step
  rw [hphase]
  dsimp only
  unfold post at hpost
  generalize outcome (withTaskMut env id (restartEntry env id)) w.server = p at hpost ⊢
  obtain ⟨r, t⟩ := p
  have hmove : Move env .restartStaleTasks w.server r t :=
    runs_task (fun g r g' hdb hb => .restart (hdb ▸ candidate_of_mem hc) hb) hpost
  have hinv := (move_invariant h.invariant hmove).1
  have hsync := move_sync h.invariant h.sync hmove (.inl ha.serves) False.elim
  cases r with
  | error stop => exact ⟨hinv, hsync, trivial⟩
  | ok u =>
    dsimp only
    refine ⟨hinv, hsync, hnodup.2, fun j hj => ?_⟩
    have hne : j ≠ id := by
      rintro rfl
      exact hnodup.1 hj
    obtain ⟨hcj, last, hlast, hage⟩ := hall j (List.mem_cons_of_mem _ hj)
    cases hpost with
    | @loaded e _ g hl hb =>
      have body : BodyOutcome env .restartStaleTasks id ⟨e, cached w.server id e⟩ (.ok ()) g :=
        .restart (candidate_of_mem hc) hb
      have hage' : 30 < env.now - last := by omega
      refine ⟨mem_candidates_congr ((task_sound h.invariant hl body).others j hne) hcj, last, ?_,
        hage'⟩
      change g.server.taskLastUpdates j = some last
      rcases body_lastUpdates body with hsame | hset
      · rw [hsame]
        exact hlast
      · rw [hset]
        exact (Function.update_of_ne hne ..).trans hlast

theorem step_invariant {ev : SweepEvent} (h : SweepInvariant w) (ha : Allowed w ev)
    (hq : Quiet w ev) : SweepInvariant (w.step ev) := by
  cases ev with
  | call env op => exact call_invariant h ha hq
  | query env =>
    cases hphase : w.sweep with
    | idle =>
      unfold Timed.step
      rw [hphase]
      exact ⟨h.invariant, h.sync, le_rfl, candidates_nodup _, fun id hid => .inl hid⟩
    | queried | filtered =>
      unfold Timed.step
      rw [hphase]
      exact h
  | filter env =>
    cases hphase : w.sweep with
    | queried now candidates => exact filter_invariant h hphase ha
    | idle | filtered =>
      unfold Timed.step
      rw [hphase]
      exact h
  | restart env =>
    cases hphase : w.sweep with
    | filtered stale =>
      cases stale with
      | nil =>
        unfold Timed.step
        rw [hphase]
        exact ⟨h.invariant, h.sync, trivial⟩
      | cons id rest => exact restart_invariant h hphase ha
    | idle | queried =>
      unfold Timed.step
      rw [hphase]
      exact h

end Steps

theorem quietRun_invariant {w : Timed} (h : QuietRun w) : SweepInvariant w := by
  induction h with
  | start hs =>
    exact ⟨reachable_invariant hs.reachable, servedReachable_sync hs, trivial⟩
  | step ev _ ha hq ih => exact step_invariant ih ha hq

/-- Without updates of the tasks that wait for their lock, the sweep finds each of them running
and without an update for more than 30 seconds, and it does not stop at a task that is not
running. -/
theorem sweep_restarts_stale_tasks {w : Timed} {id : Uuid} {rest : List Uuid} {env : Env}
    (h : QuietRun w) (hphase : w.sweep = .filtered (id :: rest))
    (ha : Allowed w (.restart env)) :
    (∃ t, Loaded env w.server id (.running t)) ∧
    (∃ last, w.server.taskLastUpdates id = some last ∧ 30 < env.now - last) ∧
    (outcome (withTaskMut env id (restartEntry env id)) w.server).1 ≠
      .error (inconsistent "non-running task in candidates for restart") := by
  have hinv := quietRun_invariant h
  have hstanding := hinv.standing
  rw [hphase] at hstanding
  obtain ⟨hc, last, hlast, hage⟩ := hstanding.2 id (List.mem_cons_self ..)
  obtain ⟨t, ht⟩ := candidate_loaded hinv.invariant hinv.sync ha.serves hc
  have hclock : w.clock ≤ env.now := ha.clock
  refine ⟨⟨t, ht⟩, ⟨last, hlast, by omega⟩, fun herr => ?_⟩
  have hpost := restartTask_outcome env id w.server
  unfold post at hpost
  rw [herr] at hpost
  generalize (outcome (withTaskMut env id (restartEntry env id)) w.server).2 = t' at hpost
  cases hpost with
  | notLoaded hn => exact ht.not_notLoaded hn
  | loaded hl hb =>
    have he := loaded_unique hl ht
    subst he
    exact restart_running hb _ rfl

theorem servedReachable_runOps {s : Server} (h : ServedReachable s) (now uuid : ℕ)
    (ops : List Op) : ServedReachable (runOps s (servedOps now uuid ops)) := by
  induction ops generalizing s with
  | nil => exact h
  | cons op ops ih => exact ih (.step _ op h (servingEnv_serves now uuid))

omit [External] in
theorem allowed_sweep {w : Timed} {env : Env} (hserves : env.RepositoryServes)
    (hclock : w.clock ≤ env.now) :
    Allowed w (.query env) ∧ Allowed w (.filter env) ∧ Allowed w (.restart env) := by
  refine ⟨⟨hserves, hclock, ?_⟩, ⟨hserves, hclock, ?_⟩, ⟨hserves, hclock, ?_⟩⟩
  all_goals
    intro env' op hev
    cases hev

theorem quietRun_filtered {s : Server} {env : Env} (h : ServedReachable s)
    (hserves : env.RepositoryServes) :
    QuietRun ((Timed.step ⟨s, 0, .idle⟩ (.query env)).step (.filter env)) := by
  have hquery : QuietRun (Timed.step ⟨s, 0, .idle⟩ (.query env)) :=
    .step _ (.start h) (allowed_sweep hserves (Nat.zero_le _)).1 trivial
  exact .step _ hquery (allowed_sweep hserves (Nat.le_refl env.now)).2.1 trivial

def sweepAfter (ops : List Op) : Timed :=
  @Timed.step plainExternal (@Timed.step plainExternal ⟨@runOps plainExternal initial
    (servedOps 0 0 ops), 0, .idle⟩ (.query (servingEnv 100 0))) (.filter (servingEnv 100 0))

omit [External] in
theorem sweepAfter_quiet (ops : List Op) : @QuietRun plainExternal (sweepAfter ops) :=
  @quietRun_filtered plainExternal _ _ (@servedReachable_runOps plainExternal _
    (@ServedReachable.initial plainExternal) 0 0 ops) (servingEnv_serves 100 0)

omit [External] in
/-- Bob has started the group, and nobody has sent a message since. -/
theorem sweep_restarts_stale_tasks_started :
    (∃ t, Loaded (servingEnv 100 0) (sweepAfter (groupRequested ++ groupEstablished.take 1)).server
      0 (.running t)) ∧
    ∃ last, (sweepAfter (groupRequested ++ groupEstablished.take 1)).server.taskLastUpdates 0 =
      some last ∧ 30 < (servingEnv 100 0).now - last := by
  have hphase : (sweepAfter (groupRequested ++ groupEstablished.take 1)).sweep = .filtered [0] := by
    decide +kernel
  have hclock : (sweepAfter (groupRequested ++ groupEstablished.take 1)).clock ≤
      (servingEnv 100 0).now := by decide +kernel
  obtain ⟨hrunning, hage, -⟩ := @sweep_restarts_stale_tasks plainExternal _ 0 [] (servingEnv 100 0)
    (sweepAfter_quiet _) hphase (allowed_sweep (servingEnv_serves 100 0) hclock).2.2
  exact ⟨hrunning, hage⟩

/-- Bob's message for the group comes in when the sweep has filtered the candidates. -/
def updatedMeanwhile (ops : List Op) : Timed :=
  @Timed.step plainExternal (sweepAfter ops)
    (.call (servingEnv 100 0) (.updateTask 0 bob.id (answer [7]) 0))

omit [External] in
/-- If it is the last message, the sweep stops at the finished task. If it completes the first
round, the sweep is about to restart a task that has just been updated. -/
theorem sweep_meets_update :
    (updatedMeanwhile (groupRequested ++ groupEstablished.take 6)).sweep = .filtered [0] ∧
    (outcome (withTaskMut (servingEnv 100 0) 0 (@restartEntry plainExternal (servingEnv 100 0) 0))
      (updatedMeanwhile (groupRequested ++ groupEstablished.take 6)).server).1 =
        .error (inconsistent "non-running task in candidates for restart") ∧
    (updatedMeanwhile (groupRequested ++ groupEstablished.take 2)).sweep = .filtered [0] ∧
    (updatedMeanwhile (groupRequested ++ groupEstablished.take 2)).server.taskLastUpdates 0 =
      some 100 := by
  refine ⟨?_, ?_, ?_, ?_⟩ <;> decide +kernel

end SweepSchedule
