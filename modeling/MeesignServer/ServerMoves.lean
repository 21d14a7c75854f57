import MeesignServer.TaskAdmission

/-!
# Runs of the server as moves

An operation is a sequence of moves, each of which creates a device or a task or
works on one task under its lock. The invariant holds after every move, so it
holds in every reachable server.
-/
namespace ServerMoves

open FallibleProgram FiniteMap DataModel ProtocolModel VotingModel RunningTaskModel
open DatabaseModel HydrationModel ServerModel TaskOutcomes ServerOutcomes
open TableFrames ServerInvariant TableWrites HydrationOutcomes InvariantSteps TaskAdmission

variable [External]

inductive AcknowledgeOutcome (env : Env) (id : Uuid) (d : Bytes) (g : Guarded) :
    Except Stop Unit → Guarded → Prop where
  | notFinished (h : ∀ f, g.entry ≠ .finished f) : AcknowledgeOutcome env id d g
      (.error (protocolError "Cannot acknowledge unfinished task")) g
  | acknowledged {f f' : FinishedTask} {r : Except Stop Unit} {db : Database} {e : TaskEntry}
      (h : g.entry = .finished f)
      (acknowledge : f' = { f with acknowledgements := insert d f.acknowledgements })
      (stored : Stored env .setTaskAcknowledgement id
        (fun db => .ok (db.setTaskAcknowledgement id d)) g.server.db (.finished f')
        (.finished f') r db e) :
      AcknowledgeOutcome env id d g r ⟨e, { g.server with db }⟩

inductive BodyOutcome (env : Env) : Op → Uuid → Guarded → Except Stop Unit → Guarded → Prop where
  | decide {id : Uuid} {d : Bytes} {accept : Bool} {g g' : Guarded} {r : Except Stop Unit}
      (h : DecideOutcome env id d accept g r g') :
      BodyOutcome env (.decideTask id d accept) id g r g'
  | update {id : Uuid} {d : Bytes} {messages : List ClientMessage} {attempt : ℕ}
      {g g' : Guarded} {r : Except Stop Unit}
      (h : UpdateEntryOutcome env id d messages attempt g r g') :
      BodyOutcome env (.updateTask id d messages attempt) id g r g'
  | restart {id : Uuid} {g g' : Guarded} {r : Except Stop Unit}
      (candidate : g.server.db.isRestartCandidate id) (h : RestartEntryOutcome env id g r g') :
      BodyOutcome env .restartStaleTasks id g r g'
  | acknowledge {id : Uuid} {d : Bytes} {g g' : Guarded} {r : Except Stop Unit}
      (h : AcknowledgeOutcome env id d g r g') :
      BodyOutcome env (.acknowledgeTask id d) id g r g'
  | read {op : Op} {id : Uuid} {g : Guarded} : BodyOutcome env op id g (.ok ()) g

/-- Only updates and restarts have an effect on a running task. -/
theorem running_body {env : Env} {op : Op} {id : Uuid} {t : RunningTask} {s : Server}
    {r : Except Stop Unit} {g : Guarded} (h : BodyOutcome env op id ⟨.running t, s⟩ r g)
    (hsweep : op ≠ .restartStaleTasks) : g = ⟨.running t, s⟩ ∨
      ∃ d messages attempt, op = .updateTask id d messages attempt ∧
        UpdateEntryOutcome env id d messages attempt ⟨.running t, s⟩ r g := by
  cases h with
  | decide body =>
    cases body with
    | notVoting => exact .inl rfl
    | notParticipant hv | notStored hv | undecided hv | declined hv | accepted hv => cases hv
  | update body => exact .inr ⟨_, _, _, rfl, body⟩
  | restart => exact absurd rfl hsweep
  | acknowledge body =>
    cases body with
    | notFinished => exact .inl rfl
    | acknowledged hf => cases hf
  | read => exact .inl rfl

/-- Nothing but timestamps differs. -/
structure Aside (s s' : Server) : Prop where
  db : s'.db = s.db
  devices : s'.devices = s.devices
  taskCache : s'.taskCache = s.taskCache
  pdfHelpers : s'.pdfHelpers = s.pdfHelpers

inductive ReadBack (env : Env) (id : Uuid) : Except Stop Unit → Prop where
  | read (served : env.fault .hydrateTasks id = .served) : ReadBack env id (.ok ())
  | unread {stop : Stop} (h : ReadFails env .hydrateTasks id stop) : ReadBack env id (.error stop)

inductive Move (env : Env) (op : Op) (s : Server) : Except Stop Unit → Server → Prop where
  | refused {stop : Stop} : Move env op s (.error stop) s
  | aside {s' : Server} (h : Aside s s') : Move env op s (.ok ()) s'
  | addDevice {device : Device} {db : Database}
      (w : WriteServed env .addDevice 0 (fun db => db.addDevice device) s.db db) :
      Move env op s (.ok ()) { s with
        db
        devices := Function.update s.devices device.id (some device) }
  | addTask {v : VotingTask} {db : Database} (admitted : Admitted env s v)
      (w : WriteServed env .createTask v.taskInfo.id (createRows v) s.db db)
      {r : Except Stop Unit} (readBack : ReadBack env v.taskInfo.id r) :
      Move env op s r (cached { s with db } v.taskInfo.id (.voting v))
  | restart (h : op = .restartServer) : Move env op s (.ok ()) (Server.restore s.db)
  | task {id : Uuid} {e : TaskEntry} {r : Except Stop Unit} {g : Guarded}
      (loaded : Loaded env s id e) (body : BodyOutcome env op id ⟨e, cached s id e⟩ r g) :
      Move env op s r (cached g.server id g.entry)

inductive Runs (env : Env) (op : Op) : Server → Except Stop Unit → Server → Prop where
  | last {s s' : Server} {r : Except Stop Unit} (m : Move env op s r s') : Runs env op s r s'
  | cons {s s' s'' : Server} {r : Except Stop Unit} (m : Move env op s (.ok ()) s')
      (rest : Runs env op s' r s'') : Runs env op s r s''

theorem Runs.keeps {env : Env} {op : Op} {s s' : Server} {r : Except Stop Unit}
    {P : Server → Prop} (hm : ∀ s r s', P s → Move env op s r s' → P s') (h : Runs env op s r s')
    (hs : P s) : P s' := by
  induction h with
  | last m => exact hm _ _ _ hs m
  | cons m _ ih => exact ih (hm _ _ _ hs m)

omit [External] in
theorem acknowledge_sound {env : Env} {id : Uuid} {d : Bytes} {g g' : Guarded} {row : TaskRow}
    {r : Except Stop Unit} (h : Tables g.server.db)
    (hrow : g.server.db.task.lookup id = some row) (he : EntryOf g.server.db id row g.entry)
    (ho : AcknowledgeOutcome env id d g r g') : GuardedSound id g g' := by
  cases ho with
  | notFinished => exact guardedSound (sound_same h hrow he) rfl rfl rfl
  | @acknowledged f f' r db e hf hack stored =>
    subst hack
    rw [hf] at he
    have he' : EntryOf g.server.db id row
        (.finished { f with acknowledgements := insert d f.acknowledgements }) := by
      cases he with
      | finished hi => exact .finished hi
    have w := writesTask_setTaskAcknowledgement g.server.db id d
    refine guardedSound (sound_stored stored (sound_same h hrow he') ?_) rfl rfl rfl
    rintro _ ⟨⟩
    exact sound_write (tables_setTaskAcknowledgement h id d) w
      ⟨row, hrow, he'.mono w.toExtends (mem_of_row hrow) fun ha => ha⟩

omit [External] in
theorem started_of_candidate {db : Database} {id : Uuid} {row : TaskRow}
    (h : db.isRestartCandidate id) (hrow : db.task.lookup id = some row) : Started row := by
  simp only [Database.isRestartCandidate, hrow, Bool.and_eq_true, Bool.or_eq_true, beq_iff_eq,
    decide_eq_true_eq] at h
  exact h.2

theorem body_sound {env : Env} {op : Op} {id : Uuid} {g g' : Guarded} {row : TaskRow}
    {r : Except Stop Unit} (h : Tables g.server.db)
    (hrow : g.server.db.task.lookup id = some row) (he : EntryOf g.server.db id row g.entry)
    (ho : BodyOutcome env op id g r g') : GuardedSound id g g' := by
  cases ho with
  | decide ho => exact decide_sound h hrow he ho
  | update ho => exact update_sound h hrow he ho
  | restart candidate ho => exact restart_sound h hrow (started_of_candidate candidate hrow) he ho
  | acknowledge ho => exact acknowledge_sound h hrow he ho
  | read => exact guardedSound (sound_same h hrow he) rfl rfl rfl

omit [External] in
theorem loaded_entry {env : Env} {s : Server} {id : Uuid} {e : TaskEntry} (h : Invariant s)
    (hl : Loaded env s id e) : ∃ row, s.db.task.lookup id = some row ∧ EntryOf s.db id row e := by
  cases hl with
  | hit hc => exact h.cache id e hc
  | hydrated _ _ hh =>
    obtain ⟨row, hrow⟩ := hydrate_row hh
    exact ⟨row, hrow, hydrate_entry h.tables hrow hh⟩

omit [External] in
theorem invariant_cached {s s' : Server} {id : Uuid} {e : TaskEntry} (h : Invariant s)
    (hs : Sound id s.db s'.db e) (hd : s'.devices = s.devices)
    (hc : ∀ j, j ≠ id → s'.taskCache j = s.taskCache j) : Invariant (cached s' id e) where
  devices := hd.trans (h.devices.trans hs.devices.symm)
  tables := hs.tables
  cache j e' he' := by
    by_cases hj : j = id
    · subst hj
      simp only [cached, Function.update_self, Option.some.injEq] at he'
      exact he' ▸ hs.entry
    · simp only [cached, Function.update_of_ne hj, hc j hj] at he'
      obtain ⟨row, hrow, he⟩ := h.cache j e' he'
      have hsame := hs.others j hj
      exact ⟨row, hsame.task.trans hrow,
        he.mono hs.extend (mem_of_row hrow) fun ha => hsame.active.symm ▸ ha⟩

theorem task_sound {env : Env} {op : Op} {s : Server} {id : Uuid} {e : TaskEntry}
    {r : Except Stop Unit} {g : Guarded} (h : Invariant s) (hl : Loaded env s id e)
    (hb : BodyOutcome env op id ⟨e, cached s id e⟩ r g) :
    GuardedSound id ⟨e, cached s id e⟩ g := by
  obtain ⟨row, hrow, he⟩ := loaded_entry h hl
  exact body_sound (g := ⟨e, cached s id e⟩) h.tables hrow he hb

omit [External] in
theorem invariant_restore {db : Database} (h : Tables db) : Invariant (Server.restore db) :=
  ⟨rfl, h, fun _ _ he => by simp [Server.restore] at he⟩

omit [External] in
theorem invariant_aside {s s' : Server} (h : Invariant s) (ha : Aside s s') : Invariant s' where
  devices := by rw [ha.devices, ha.db, h.devices]
  tables := by
    rw [ha.db]
    exact h.tables
  cache := by
    rw [ha.taskCache, ha.db]
    exact h.cache

theorem move_invariant {env : Env} {op : Op} {s s' : Server} {r : Except Stop Unit}
    (h : Invariant s) (m : Move env op s r s') : Invariant s' ∧ Extends s.db s'.db := by
  cases m with
  | refused => exact ⟨h, .refl _⟩
  | aside ha =>
    refine ⟨invariant_aside h ha, ?_⟩
    rw [ha.db]
    exact .refl _
  | @addDevice device db w =>
    have hx := extends_addDevice h.tables.constraints w.write
    refine ⟨⟨?_, tables_addDevice h.tables w.write, fun id e he => ?_⟩, hx⟩
    · obtain ⟨hnone, rfl⟩ := addDevice_ok w.write
      funext d
      rw [findDevice_addDevice hnone, h.devices]
    · obtain ⟨row, hrow, he⟩ := h.cache id e he
      have hsame := sameTask_addDevice w.write id
      exact ⟨row, hsame.task.trans hrow,
        he.mono hx (mem_of_row hrow) fun ha => hsame.active.symm ▸ ha⟩
  | @addTask v db admitted w =>
    have hs := admitted_sound h admitted w.write
    exact ⟨invariant_cached h hs rfl fun _ _ => rfl, hs.extend⟩
  | restart => exact ⟨invariant_restore h.tables, .refl _⟩
  | @task id e _ g loaded body =>
    have hs := task_sound h loaded body
    refine ⟨invariant_cached h hs.toSound hs.server_devices fun j hj => ?_, hs.extend⟩
    rw [hs.taskCache]
    exact Function.update_of_ne hj _ _

theorem runs_invariant {env : Env} {op : Op} {s s' : Server} {r : Except Stop Unit}
    (h : Invariant s) (hr : Runs env op s r s') : Invariant s' ∧ Extends s.db s'.db := by
  refine hr.keeps (P := fun t => Invariant t ∧ Extends s.db t.db) (fun t _ t' ht m => ?_)
    ⟨h, .refl _⟩
  obtain ⟨hi, hx⟩ := move_invariant ht.1 m
  exact ⟨hi, ht.2.trans hx⟩

variable (env : Env)

omit [External] in
theorem acknowledgeEntry_outcome (id : Uuid) (d : Bytes) (g : Guarded) :
    post (acknowledgeEntry env id d) g (AcknowledgeOutcome env id d g) := by
  simp only [acknowledgeEntry, post_bind, post_get]
  split
  · rename_i f h
    simp only [setEntry, post_bind, post_modify]
    exact written_post fun r db e st => .acknowledged h rfl st
  · rename_i h
    exact .notFinished h

variable {env} in
theorem runs_task {op : Op} {id : Uuid} {s s' : Server} {r : Except Stop Unit}
    {Body : Guarded → Except Stop Unit → Guarded → Prop}
    (hb : ∀ g r g', g.server.db = s.db → Body g r g' → BodyOutcome env op id g r g')
    (h : TaskOutcome env id Body s r s') : Move env op s r s' := by
  cases h with
  | notLoaded _ => exact .refused
  | @loaded e _ g loaded body => exact .task loaded (hb ⟨e, cached s id e⟩ _ _ rfl body)

omit [External] in
theorem addTask_post {v : VotingTask} {s : Server} {Q : Except Stop ProtoTask → Server → Prop}
    (hfail : ∀ stop, WriteFails env .createTask v.taskInfo.id (createRows v) s.db stop →
      Q (.error stop) s)
    (hunread : ∀ db stop, WriteServed env .createTask v.taskInfo.id (createRows v) s.db db →
      ReadFails env .hydrateTasks v.taskInfo.id stop →
      Q (.error stop) (cached { s with db } v.taskInfo.id (.voting v)))
    (hok : ∀ db, WriteServed env .createTask v.taskInfo.id (createRows v) s.db db →
      env.fault .hydrateTasks v.taskInfo.id = .served →
      Q (.ok ((TaskEntry.voting v).format none none))
        (cached { s with db } v.taskInfo.id (.voting v))) :
    post (addTask env v) s Q := by
  simp only [addTask, persistTask, post_bind]
  refine repoWrite_post hfail fun db w => ?_
  simp only [post_modify, withTaskMut, ensureCachedTask, post_bind, post_get]
  refine repoRead_post (fun stop hf => hunread db stop w hf) fun hf => ?_
  -- the new task is in the cache
  simpa [cached] using hok db w hf

omit [External] in
theorem discard_post {α : Type} {m : EStateM Stop Server α} {s : Server}
    {Q : Except Stop Unit → Server → Prop} : post (discard m) s Q ↔
      post m s (fun r t => Q (r.map fun _ => ()) t) := by
  change post ((fun _ => ()) <$> m) s Q ↔ _
  rw [post_map]
  unfold post
  cases (outcome m s).1 <;> rfl

theorem addTask_moves {op : Op} {v : VotingTask} {s : Server} (ha : Admitted env s v) :
    post (addTask env v) s (fun r t => Move env op s (r.map fun _ => ()) t) :=
  addTask_post env (fun _ _ => .refused) (fun _ _ w hf => .addTask ha w (.unread hf))
    fun _ w hf => .addTask ha w (.read hf)

theorem addGroupTask_post {name : String} {deviceIds : GroupDevices} {threshold : ℕ}
    {protocolType : ProtocolType} {keyType : KeyType} {note : Option String} {s : Server}
    {Q : Except Stop ProtoTask → Server → Prop} (hrefused : ∀ stop, Q (.error stop) s)
    (hadd : post (addTask env
      (newGroupTask env s name deviceIds threshold protocolType keyType note)) s Q) :
    post (addGroupTask env name deviceIds threshold protocolType keyType note) s Q := by
  unfold addGroupTask
  split_ifs
  · exact hrefused _
  · rw [post_bind, post_get]
    exact hadd

/-- A request for a signature is refused or adds a task on the group as it is found. -/
theorem addSignTask_post {groupId data : Bytes} {name : String} {s : Server}
    {Q : Except Stop ProtoTask → Server → Prop} (hrefused : ∀ stop, Q (.error stop) s)
    (hadd : ∀ group context, s.db.getGroup groupId = some group →
      votingContext (taskTypeOf group.keyType) group data = .ok context →
      post (addTask env (newThresholdTask env group (s.db.getGroupParticipants groupId) name
        (taskTypeOf group.keyType) [] (External.encodeSignRequest ⟨name, group.id, data⟩)
        context)) s Q) :
    post (addSignTask env groupId name data) s Q := by
  simp only [addSignTask, post_bind, post_get]
  refine repoRead_post (fun stop _ => hrefused stop) fun _ => ?_
  cases hg : s.db.getGroup groupId with
  | none => exact hrefused _
  | some group =>
    simp only [post_bind, post_get]
    refine repoRead_post (fun stop _ => hrefused stop) fun _ => ?_
    have hadd := fun context => hadd group context hg
    cases hk : group.keyType with
    | signPdf | signChallenge =>
      rw [hk] at hadd
      exact hadd _ rfl
    | decrypt => exact hrefused _

theorem addDecryptTask_post {groupId data : Bytes} {name dataType : String}
    {creator : Option Bytes} {s : Server} {Q : Except Stop ProtoTask → Server → Prop}
    (hrefused : ∀ stop, Q (.error stop) s)
    (hadd : ∀ group context, s.db.getGroup groupId = some group → group.keyType = .decrypt →
      votingContext (taskTypeOf group.keyType) group data = .ok context →
      post (addTask env (newThresholdTask env group (s.db.getGroupParticipants groupId) name
        (taskTypeOf group.keyType) (decryptObservers (s.db.getGroupParticipants groupId) creator)
        (External.encodeDecryptRequest ⟨name, group.id, data, dataType⟩) context)) s Q) :
    post (addDecryptTask env groupId name data dataType creator) s Q := by
  simp only [addDecryptTask, post_bind, post_get]
  refine repoRead_post (fun stop _ => hrefused stop) fun _ => ?_
  cases hg : s.db.getGroup groupId with
  | none => exact hrefused _
  | some group =>
    simp only [post_bind, post_get]
    refine repoRead_post (fun stop _ => hrefused stop) fun _ => ?_
    have hadd := fun context => hadd group context hg
    cases hk : group.keyType with
    | decrypt =>
      rw [hk] at hadd
      exact hadd _ rfl rfl
    | signPdf | signChallenge => exact hrefused _

omit [External] in
theorem Aside.refl (s : Server) : Aside s s := ⟨rfl, rfl, rfl, rfl⟩

omit [External] in
theorem Aside.trans {a b c : Server} (h : Aside a b) (h' : Aside b c) : Aside a c :=
  ⟨h'.db.trans h.db, h'.devices.trans h.devices, h'.taskCache.trans h.taskCache,
    h'.pdfHelpers.trans h.pdfHelpers⟩

omit [External] in
/-- A task without a timestamp gets the current one, so it is not stale. -/
theorem staleTasks_post (now : ℕ) (l : List Uuid) (s : Server) :
    post (staleTasks env now l) s (fun r t => Aside s t ∧
      (∀ id last, s.taskLastUpdates id = some last → t.taskLastUpdates id = some last) ∧
      ∃ stale, r = .ok stale ∧ stale.Sublist l ∧ ∀ id ∈ stale, ∃ last,
        t.taskLastUpdates id = some last ∧ 30 < now - last) := by
  induction l generalizing s with
  | nil => exact ⟨.refl s, fun _ _ h => h, [], rfl, .slnil, fun _ hid => by cases hid⟩
  | cons id l ih =>
    rw [staleTasks]
    have hfirst : post (getTaskLastUpdate env id) s (fun r t => Aside s t ∧
        (∀ id last, s.taskLastUpdates id = some last → t.taskLastUpdates id = some last) ∧
        ∃ last, r = .ok last ∧ t.taskLastUpdates id = some last) := by
      simp only [getTaskLastUpdate, post_bind, post_get]
      cases hlast : s.taskLastUpdates id with
      | some last => exact ⟨.refl s, fun _ _ h => h, last, rfl, hlast⟩
      | none =>
        refine ⟨⟨rfl, rfl, rfl, rfl⟩, fun j last hj => ?_, env.now, rfl, Function.update_self ..⟩
        have hne : j ≠ id := by
          rintro rfl
          rw [hlast] at hj
          cases hj
        exact (Function.update_of_ne hne ..).trans hj
    refine post_seq hfirst ?_ (by rintro _ _ ⟨-, -, _, ⟨⟩, -⟩)
    rintro last s₁ ⟨h₁, hkeep₁, _, ⟨⟩, hlast⟩
    refine post_seq (ih s₁) ?_ (by rintro _ _ ⟨-, -, _, ⟨⟩, -⟩)
    rintro _ s₂ ⟨h₂, hkeep₂, stale, ⟨⟩, hsub, hold⟩
    refine ⟨h₁.trans h₂, fun j x hj => hkeep₂ j x (hkeep₁ j x hj), _, rfl, ?_⟩
    split_ifs with hage
    · refine ⟨hsub.cons_cons id, fun j hj => ?_⟩
      rcases List.mem_cons.mp hj with rfl | hj
      · exact ⟨last, hkeep₂ _ _ hlast, hage⟩
      · exact hold j hj
    · exact ⟨hsub.cons id, hold⟩

omit [External] in
theorem isRestartCandidate_congr {db db' : Database} {id : Uuid} (h : SameTask db db' id) :
    db'.isRestartCandidate id = db.isRestartCandidate id := by
  simp only [Database.isRestartCandidate, h.task, h.result]

/-- The loop over the stale tasks: it goes on while the restarts succeed. -/
inductive Sweep (env : Env) : List Uuid → Server → Except Stop Unit → Server → Prop where
  | done {s : Server} : Sweep env [] s (.ok ()) s
  | stopped {id : Uuid} {l : List Uuid} {s t : Server} {stop : Stop}
      (h : TaskOutcome env id (RestartEntryOutcome env id) s (.error stop) t) :
      Sweep env (id :: l) s (.error stop) t
  | next {id : Uuid} {l : List Uuid} {s s' t : Server} {r : Except Stop Unit}
      (h : TaskOutcome env id (RestartEntryOutcome env id) s (.ok ()) s')
      (rest : Sweep env l s' r t) : Sweep env (id :: l) s r t

theorem restartTasks_sweep (l : List Uuid) (s : Server) :
    post (restartTasks env l) s (Sweep env l s) := by
  induction l generalizing s with
  | nil => exact .done
  | cons id l ih =>
    rw [restartTasks]
    refine post_seq (restartTask_outcome env id s) ?_ ?_
    · intro _ s' ho
      exact post_mono (ih s') fun r t => .next ho
    · intro stop s' ho
      exact .stopped ho

variable {env} in
/-- A restarted task does not disturb the other candidates. -/
theorem sweep_runs {l : List Uuid} {s t : Server} {r : Except Stop Unit} (hw : Sweep env l s r t)
    (h : Invariant s) (hn : l.Nodup) (hc : ∀ id ∈ l, s.db.isRestartCandidate id) :
    Runs env .restartStaleTasks s r t := by
  induction hw with
  | done => exact .last (.aside (.refl _))
  | @stopped id l s t stop ho =>
    exact .last (runs_task (fun g r g' hdb hb => .restart (hdb ▸ hc id (by simp)) hb) ho)
  | @next id l s s' t r ho _ ih =>
    rw [List.nodup_cons] at hn
    cases ho with
    | @loaded e _ g hl hb =>
      have body : BodyOutcome env .restartStaleTasks id ⟨e, cached s id e⟩ (.ok ()) g :=
        .restart (hc id (by simp)) hb
      have hs := task_sound h hl body
      refine .cons (.task hl body) (ih (move_invariant h (.task hl body)).1 hn.2 fun j hj => ?_)
      have hne : j ≠ id := fun he => hn.1 (he ▸ hj)
      exact (isRestartCandidate_congr (hs.others j hne)).trans (hc j (by simp [hj]))

omit [External] in
theorem candidates_nodup (db : Database) : db.getRestartCandidates.Nodup :=
  (List.perm_insertionSort _ _).nodup_iff.mpr (db.task.keys_nodup.filter _)

omit [External] in
theorem candidate_of_mem {db : Database} {id : Uuid} (h : id ∈ db.getRestartCandidates) :
    db.isRestartCandidate id :=
  (List.mem_filter.mp ((List.perm_insertionSort _ _).mem_iff.mp h)).2

omit [External] in
theorem restartCandidates_post (s : Server) : post (restartCandidates env) s (fun r t =>
    ((∃ stop, r = .error stop) ∧ t = s) ∨ ∃ stale, r = .ok stale ∧ Aside s t ∧
      stale.Sublist s.db.getRestartCandidates) := by
  simp only [restartCandidates, post_bind]
  refine repoRead_post (fun stop _ => .inl ⟨⟨stop, rfl⟩, rfl⟩) fun _ => ?_
  simp only [post_get]
  refine post_mono (staleTasks_post env _ _ s) ?_
  rintro r t ⟨ha, -, stale, hr, hsub, -⟩
  exact .inr ⟨stale, hr, ha, hsub⟩

theorem restartStaleTasks_sweep (s : Server) : post (restartStaleTasks env) s (fun r t =>
    ((∃ stop, r = .error stop) ∧ t = s) ∨ ∃ s' stale, Aside s s' ∧
      stale.Sublist s.db.getRestartCandidates ∧ Sweep env stale s' r t) := by
  refine post_seq (restartCandidates_post env s) ?_ ?_
  · rintro stale s' (⟨⟨stop, herr⟩, -⟩ | ⟨_, ⟨⟩, ha, hsub⟩)
    · cases herr
    · exact post_mono (restartTasks_sweep env stale s') fun r t hw =>
        .inr ⟨s', stale, ha, hsub, hw⟩
  · rintro stop s' (⟨-, rfl⟩ | ⟨_, herr, -⟩)
    · exact .inl ⟨⟨stop, rfl⟩, rfl⟩
    · cases herr

theorem restartStaleTasks_runs (s : Server) (h : Invariant s) :
    post (restartStaleTasks env) s (Runs env .restartStaleTasks s) := by
  refine post_mono (restartStaleTasks_sweep env s) ?_
  rintro r t (⟨⟨stop, rfl⟩, rfl⟩ | ⟨s', stale, ha, hsub, hw⟩)
  · exact .last .refused
  · refine .cons (.aside ha) (sweep_runs hw (invariant_aside h ha)
      (hsub.nodup (candidates_nodup _)) fun id hid => ?_)
    rw [ha.db]
    exact candidate_of_mem (hsub.subset hid)

/-- Every operation but the sweep is one move. -/
theorem exec_move {op : Op} (hop : op ≠ .restartStaleTasks) (s : Server) :
    post (exec env op) s (Move env op s) := by
  cases op with
  | addDevice device =>
    simp only [exec, addDevice, post_bind]
    exact repoWrite_post (fun _ _ => .refused) fun db w => .addDevice w
  | activateDevice d => exact .aside ⟨rfl, rfl, rfl, rfl⟩
  | addGroupTask name deviceIds threshold protocolType keyType note =>
    exact discard_post.mpr (addGroupTask_post env (fun _ => .refused) (addTask_moves env .group))
  | addSignTask groupId name data =>
    exact discard_post.mpr (addSignTask_post env (fun _ => .refused) fun _ _ hg hc =>
      addTask_moves env (.threshold hg hc))
  | addDecryptTask groupId name data dataType creator =>
    exact discard_post.mpr (addDecryptTask_post env (fun _ => .refused) fun _ _ hg _ hc =>
      addTask_moves env (.threshold hg hc))
  | decideTask id d accept =>
    exact post_mono (decideTask_outcome env id d accept s) fun r t ho =>
      runs_task (fun _ _ _ _ => .decide) ho
  | updateTask id d messages attempt =>
    exact post_mono (updateTask_outcome env id d messages attempt s) fun r t ho =>
      runs_task (fun _ _ _ _ => .update) ho
  | acknowledgeTask id d =>
    exact post_mono (withTaskMut_outcome (acknowledgeEntry_outcome env id d) s) fun r t ho =>
      runs_task (fun _ _ _ _ => .acknowledge) ho
  | restartStaleTasks => exact absurd rfl hop
  | getFormattedTask id d =>
    have hread : ∀ g, post (do
        let task := (← get).entry
        return task.format d (some task.taskInfo.request) : EStateM Stop Guarded ProtoTask) g
        (fun r g' => (r.map fun _ => ()) = .ok () ∧ g' = g) := fun g => ⟨rfl, rfl⟩
    refine discard_post.mpr (post_mono (withTaskMut_outcome hread s) fun r t ho => ?_)
    cases ho with
    | notLoaded _ => exact .refused
    | loaded hl hb =>
      obtain ⟨hr, rfl⟩ := hb
      exact hr ▸ .task hl .read
  | restartServer => exact .restart rfl

theorem exec_runs (op : Op) (s : Server) (h : Invariant s) :
    post (exec env op) s (Runs env op s) := by
  by_cases hop : op = .restartStaleTasks
  · subst hop
    exact restartStaleTasks_runs env s h
  · exact post_mono (exec_move env hop s) fun r t => .last

theorem next_runs (op : Op) (s : Server) (h : Invariant s) :
    ∃ t, Runs env op s (result env op s) t ∧
      next env op s = if result env op s = .error .crash then Server.restore t.db else t :=
  ⟨_, exec_runs env op s h, next_eq env op s⟩

theorem next_invariant (op : Op) (s : Server) (h : Invariant s) :
    Invariant (next env op s) ∧ Extends s.db (next env op s).db := by
  obtain ⟨t, hr, hn⟩ := next_runs env op s h
  obtain ⟨hi, hx⟩ := runs_invariant h hr
  rw [hn]
  split_ifs
  · exact ⟨invariant_restore hi.tables, hx⟩
  · exact ⟨hi, hx⟩

omit [External] in
theorem tables_empty : Tables .empty := by
  refine ⟨⟨?_, ?_, ?_, ?_, fun _ _ => ⟨rfl, rfl, rfl⟩⟩, ?_, ?_, ?_⟩ <;>
    simp [Database.empty, Database.getGroup]

theorem reachable_invariant {s : Server} (h : Reachable s) : Invariant s := by
  induction h with
  | initial => exact invariant_restore tables_empty
  | step env op _ ih => exact (next_invariant env op _ ih).1

theorem later_invariant {s t : Server} (h : Invariant s) (hl : Later s t) :
    Invariant t ∧ Extends s.db t.db := by
  induction hl with
  | refl => exact ⟨h, .refl _⟩
  | tail _ step ih =>
    obtain ⟨env, op, rfl⟩ := step
    obtain ⟨hi, hx⟩ := next_invariant env op _ ih.1
    exact ⟨hi, ih.2.trans hx⟩

end ServerMoves
