import MeesignServer.ServerModel
import MeesignServer.TaskOutcomes

/-!
# What the operations of the server can do

The exits of `decide_task`, `update_task` and of the sweep's restart, each with
the tables and the cached task that it leaves behind.
-/
namespace ServerOutcomes

open FallibleProgram FiniteMap DataModel CommunicatorModel ProtocolModel VotingModel
open RunningTaskModel DatabaseModel HydrationModel ServerModel TaskOutcomes

inductive ReadFails (env : Env) (call : RepoCall) (id : Uuid) : Stop → Prop where
  | fails (h : env.fault call id = .fails) : ReadFails env call id (.err (.persistence .execution))
  | stops (h : env.fault call id = .stops) : ReadFails env call id .crash

theorem ReadFails.not_served {env : Env} {call : RepoCall} {id : Uuid} {stop : Stop}
    (h : ReadFails env call id stop) : env.fault call id ≠ .served := by
  cases h with
  | fails h | stops h => simp [h]

theorem repoRead_served {env : Env} {call : RepoCall} {id : Uuid}
    (h : env.fault call id = .served) : repoRead env call id = pure () := by
  simp only [repoRead, h]

theorem repoRead_fails {env : Env} {call : RepoCall} {id : Uuid} {stop : Stop}
    (h : ReadFails env call id stop) : repoRead env call id = throw stop := by
  cases h with
  | fails h | stops h => simp only [repoRead, h]

theorem repoRead_post {env : Env} {call : RepoCall} {id : Uuid} {s : Server}
    {Q : Except Stop Unit → Server → Prop}
    (hfail : ∀ stop, ReadFails env call id stop → Q (.error stop) s)
    (hok : env.fault call id = .served → Q (.ok ()) s) : post (repoRead env call id) s Q := by
  unfold repoRead
  cases h : env.fault call id with
  | served => exact hok h
  | fails => exact hfail _ (.fails h)
  | stops => exact hfail _ (.stops h)

abbrev Write := Database → Except PersistenceError Database

inductive WriteFails (env : Env) (call : RepoCall) (id : Uuid) (f : Write) (db : Database) :
    Stop → Prop where
  | fails (h : env.fault call id = .fails) :
      WriteFails env call id f db (.err (.persistence .execution))
  | stops (h : env.fault call id = .stops) : WriteFails env call id f db .crash
  | refused {e : PersistenceError} (h : env.fault call id = .served) (he : f db = .error e) :
      WriteFails env call id f db (.err (.persistence e))

structure WriteServed (env : Env) (call : RepoCall) (id : Uuid) (f : Write) (db db' : Database) :
    Prop where
  served : env.fault call id = .served
  write : f db = .ok db'

inductive Stored (env : Env) (call : RepoCall) (id : Uuid) (f : Write) (db : Database)
    (e e' : TaskEntry) : Except Stop Unit → Database → TaskEntry → Prop where
  | served {db' : Database} (w : WriteServed env call id f db db') :
      Stored env call id f db e e' (.ok ()) db' e'
  | fails {stop : Stop} (w : WriteFails env call id f db stop) :
      Stored env call id f db e e' (.error stop) db e

theorem repoWrite_post {env : Env} {call : RepoCall} {id : Uuid} {f : Write} {s : Server}
    {Q : Except Stop Unit → Server → Prop}
    (hfail : ∀ stop, WriteFails env call id f s.db stop → Q (.error stop) s)
    (hok : ∀ db, WriteServed env call id f s.db db → Q (.ok ()) { s with db }) :
    post (repoWrite env call id f) s Q := by
  simp only [repoWrite, repoRead, post_bind]
  cases h : env.fault call id with
  | fails => exact hfail _ (.fails h)
  | stops => exact hfail _ (.stops h)
  | served =>
    simp only [post_pure, post_get, post_fromExcept]
    cases he : f s.db with
    | error e => exact hfail _ (.refused h he)
    | ok db => exact hok db ⟨h, he⟩

def cached (s : Server) (id : Uuid) (e : TaskEntry) : Server :=
  { s with taskCache := Function.update s.taskCache id (some e) }

@[simp] theorem cached_self (s : Server) (id : Uuid) (e : TaskEntry) :
    (cached s id e).taskCache id = some e := Function.update_self ..

theorem cached_of_ne {s : Server} {id j : Uuid} {e : TaskEntry} (h : j ≠ id) :
    (cached s id e).taskCache j = s.taskCache j := Function.update_of_ne h ..

/-- The task that a caller of `get_task_mut` finds under the lock. -/
inductive Loaded (env : Env) (s : Server) (id : Uuid) : TaskEntry → Prop where
  | hit {e : TaskEntry} (h : s.taskCache id = some e)
      (served : env.fault .hydrateTasks id = .served) : Loaded env s id e
  | hydrated {e : TaskEntry} (miss : s.taskCache id = none)
      (served : env.fault .hydrateTasks id = .served) (h : hydrateTask s.db id = .ok e) :
      Loaded env s id e

inductive NotLoaded (env : Env) (s : Server) (id : Uuid) : Stop → Prop where
  | unread {stop : Stop} (h : ReadFails env .hydrateTasks id stop) : NotLoaded env s id stop
  | notHydrated {stop : Stop} (miss : s.taskCache id = none)
      (served : env.fault .hydrateTasks id = .served) (h : hydrateTask s.db id = .error stop) :
      NotLoaded env s id stop

/-- An operation on one task: it is not found, or `Body` relates the locked task with what is
left under the lock. -/
inductive TaskOutcome {α : Type} (env : Env) (id : Uuid)
    (Body : Guarded → Except Stop α → Guarded → Prop) (s : Server) :
    Except Stop α → Server → Prop where
  | notLoaded {stop : Stop} (h : NotLoaded env s id stop) :
      TaskOutcome env id Body s (.error stop) s
  | loaded {e : TaskEntry} {r : Except Stop α} {g : Guarded} (h : Loaded env s id e)
      (body : Body ⟨e, cached s id e⟩ r g) :
      TaskOutcome env id Body s r (cached g.server id g.entry)

theorem withTaskMut_outcome {α : Type} {env : Env} {id : Uuid} {m : EStateM Stop Guarded α}
    {Body : Guarded → Except Stop α → Guarded → Prop} (h : ∀ g, post m g (Body g)) (s : Server) :
    post (withTaskMut env id m) s (TaskOutcome env id Body s) := by
  simp only [withTaskMut, ensureCachedTask, post_bind, post_get]
  refine repoRead_post (fun stop hf => .notLoaded (.unread hf)) fun hf => ?_
  cases hc : s.taskCache id with
  | some e =>
    simp only [post_pure, hc, post_zoom]
    refine post_mono (h ⟨e, s⟩) fun r g hb => .loaded (.hit hc hf) ?_
    rwa [cached, ← hc, Function.update_eq_self]
  | none =>
    simp only [post_bind, post_fromExcept]
    cases hh : hydrateTask s.db id with
    | error stop => exact .notLoaded (.notHydrated hc hf hh)
    | ok e =>
      simp only [post_set, Function.update_self, post_zoom]
      exact post_mono (h _) fun r g hb => .loaded (.hydrated hc hf hh) hb

def lockedTask (env : Env) (s : Server) (id : Uuid) : Except Stop TaskEntry :=
  (outcome (withTaskMut env id (do return (← get).entry)) s).1

theorem loaded_unique {env : Env} {s : Server} {id : Uuid} {e e' : TaskEntry}
    (h : Loaded env s id e) (h' : Loaded env s id e') : e = e' := by
  cases h with
  | hit h =>
    cases h' with
    | hit h' => exact Option.some.inj (h.symm.trans h')
    | hydrated miss => simp [miss] at h
  | hydrated miss served h =>
    cases h' with
    | hit h' => simp [miss] at h'
    | hydrated _ _ h' => exact Except.ok.inj (h.symm.trans h')

theorem lockedTask_post (env : Env) (s : Server) (id : Uuid) :
    (∃ stop, lockedTask env s id = .error stop ∧ NotLoaded env s id stop) ∨
      ∃ e, lockedTask env s id = .ok e ∧ Loaded env s id e := by
  have hread : ∀ g, post (do return (← get).entry : EStateM Stop Guarded TaskEntry) g
      (fun r g' => r = .ok g.entry ∧ g' = g) := fun g => ⟨rfl, rfl⟩
  have ho : post (withTaskMut env id (do return (← get).entry)) s (TaskOutcome env id _ s) :=
    withTaskMut_outcome hread s
  unfold post at ho
  unfold lockedTask
  generalize outcome _ s = p at ho ⊢
  obtain ⟨r, t⟩ := p
  cases ho with
  | notLoaded h => exact .inl ⟨_, rfl, h⟩
  | loaded h body => exact .inr ⟨_, body.1, h⟩

theorem Loaded.served {env : Env} {s : Server} {id : Uuid} {e : TaskEntry}
    (h : Loaded env s id e) : env.fault .hydrateTasks id = .served := by
  cases h with
  | hit _ served => exact served
  | hydrated _ served _ => exact served

theorem Loaded.of_served {env env' : Env} {s : Server} {id : Uuid} {e : TaskEntry}
    (h : Loaded env' s id e) (served : env.fault .hydrateTasks id = .served) :
    Loaded env s id e := by
  cases h with
  | hit hc => exact .hit hc served
  | hydrated miss _ hh => exact .hydrated miss served hh

theorem Loaded.not_notLoaded {env : Env} {s : Server} {id : Uuid} {e : TaskEntry} {stop : Stop}
    (h : Loaded env s id e) (hn : NotLoaded env s id stop) : False := by
  cases hn with
  | unread hf => exact hf.not_served h.served
  | notHydrated miss _ hh =>
    cases h with
    | hit hc => simp [miss] at hc
    | hydrated _ _ hh' => simp [hh] at hh'

theorem lockedTask_error {env : Env} {s : Server} {id : Uuid} {stop : Stop}
    (h : NotLoaded env s id stop) : ∃ stop, lockedTask env s id = .error stop := by
  rcases lockedTask_post env s id with ⟨stop, hs, -⟩ | ⟨e, -, hl⟩
  · exact ⟨stop, hs⟩
  · exact (hl.not_notLoaded h).elim

theorem lockedTask_ok {env : Env} {s : Server} {id : Uuid} {e : TaskEntry} :
    lockedTask env s id = .ok e ↔ Loaded env s id e := by
  rcases lockedTask_post env s id with ⟨stop, hs, hn⟩ | ⟨e', he, hl⟩
  · rw [hs]
    exact ⟨nofun, fun hl => (hl.not_notLoaded hn).elim⟩
  · rw [he]
    refine ⟨fun h => Except.ok.inj h ▸ hl, fun h => ?_⟩
    rw [loaded_unique h hl]

theorem ensureCachedTask_loaded {env : Env} {s : Server} {id : Uuid} {e : TaskEntry}
    (h : Loaded env s id e) : ensureCachedTask env id s = .ok () (cached s id e) := by
  simp only [ensureCachedTask, repoRead_served h.served, bind, EStateM.bind, get, getThe,
    MonadStateOf.get, EStateM.get, pure, EStateM.pure]
  cases h with
  | hit hc =>
    have hs : cached s id e = s := by rw [cached, ← hc, Function.update_eq_self]
    simp only [hc, hs]
    rfl
  | hydrated miss _ hh =>
    simp only [miss, hh]
    rfl

theorem ensureCachedTask_notLoaded {env : Env} {s : Server} {id : Uuid} {stop : Stop}
    (h : NotLoaded env s id stop) : ensureCachedTask env id s = .error stop s := by
  cases h with
  | unread hf =>
    simp only [ensureCachedTask, repoRead_fails hf, bind, EStateM.bind, get, getThe,
      MonadStateOf.get, EStateM.get]
    rfl
  | notHydrated miss served hh =>
    simp only [ensureCachedTask, repoRead_served served, bind, EStateM.bind, get, getThe,
      MonadStateOf.get, EStateM.get, pure, EStateM.pure, miss, fromExcept, hh]

theorem withTaskMut_loaded {α : Type} {env : Env} {s : Server} {id : Uuid} {e : TaskEntry}
    (h : Loaded env s id e) (m : EStateM Stop Guarded α) : withTaskMut env id m s =
      zoom (fun s => ⟨e, s⟩) (fun _ g => cached g.server id g.entry) m (cached s id e) := by
  simp only [withTaskMut, bind, EStateM.bind, ensureCachedTask_loaded h, get, getThe,
    MonadStateOf.get, EStateM.get, cached_self]
  rfl

theorem withTaskMut_notLoaded {α : Type} {env : Env} {s : Server} {id : Uuid} {stop : Stop}
    (h : NotLoaded env s id stop) (m : EStateM Stop Guarded α) :
    withTaskMut env id m s = .error stop s := by
  simp only [withTaskMut, bind, EStateM.bind, ensureCachedTask_notLoaded h]

/-- What a caller does under the lock matters only for the task it finds. -/
theorem withTaskMut_congr {α : Type} {env : Env} {s : Server} {id : Uuid}
    {m m' : EStateM Stop Guarded α}
    (h : ∀ e, Loaded env s id e → m ⟨e, cached s id e⟩ = m' ⟨e, cached s id e⟩) :
    withTaskMut env id m s = withTaskMut env id m' s := by
  rcases lockedTask_post env s id with ⟨stop, -, hn⟩ | ⟨e, -, hl⟩
  · rw [withTaskMut_notLoaded hn, withTaskMut_notLoaded hn]
  · rw [withTaskMut_loaded hl, withTaskMut_loaded hl, zoom, zoom, h e hl]

/-- The server apart from its tables, activation times and PDF helpers. -/
structure Rest (s : Server) (db : Database) (s' : Server) : Prop where
  db : s'.db = db
  devices : s'.devices = s.devices
  taskCache : s'.taskCache = s.taskCache
  taskLastUpdates : s'.taskLastUpdates = s.taskLastUpdates

def touched (env : Env) (id : Uuid) (s : Server) : Server :=
  { s with taskLastUpdates := Function.update s.taskLastUpdates id (some env.now) }

theorem Rest.refl (s : Server) : Rest s s.db s := ⟨rfl, rfl, rfl, rfl⟩

def accepting (task : VotingTask) : List Participant :=
  task.taskInfo.participants.filter (fun p => task.deviceAccepted p.device.id)

/-- Seen in the last five seconds, or never asked for before. -/
def isConnected (env : Env) (activations : Bytes → Option ℕ) (p : Participant) : Bool :=
  env.now - 5 < (activations p.device.id).getD env.now

def candidates (env : Env) (activations : Bytes → Option ℕ) (task : VotingTask) :
    List Participant :=
  let connected := (accepting task).filter (isConnected env activations)
  if task.acceptThreshold ≤ totalShares connected then connected else accepting task

def chosenDevices (env : Env) (activations : Bytes → Option ℕ) (task : VotingTask) :
    List Device :=
  env.chooseMultiple.pick
    ((candidates env activations task).flatMap fun p => List.replicate p.shares p.device)
    task.acceptThreshold

/-- Asking for a missing activation time stores the current one, which no later question of
the same call notices. -/
structure Asked (env : Env) (s s' : Server) : Prop extends Rest s s.db s' where
  times : ∀ d, (s'.deviceLastActivations d).getD env.now =
    (s.deviceLastActivations d).getD env.now
  helpers : s'.pdfHelpers = s.pdfHelpers

theorem Asked.trans {env : Env} {s s' s'' : Server} (h : Asked env s s') (h' : Asked env s' s'') :
    Asked env s s'' where
  db := h'.db.trans h.db
  devices := h'.devices.trans h.devices
  taskCache := h'.taskCache.trans h.taskCache
  taskLastUpdates := h'.taskLastUpdates.trans h.taskLastUpdates
  times d := (h'.times d).trans (h.times d)
  helpers := h'.helpers.trans h.helpers

theorem getDeviceLastActivation_post (env : Env) (d : Bytes) (s : Server) :
    post (getDeviceLastActivation env d) s (fun r s' =>
      r = .ok ((s.deviceLastActivations d).getD env.now) ∧ Asked env s s') := by
  simp only [getDeviceLastActivation, post_bind, post_get]
  cases hd : s.deviceLastActivations d with
  | some last => exact ⟨rfl, .refl s, fun _ => rfl, rfl⟩
  | none =>
    simp only [post_bind, post_set, post_pure]
    refine ⟨rfl, ⟨rfl, rfl, rfl, rfl⟩, fun d' => ?_, rfl⟩
    by_cases h : d' = d
    · subst h
      simp [hd]
    · simp [Function.update_of_ne h]

theorem connectedParticipants_post (env : Env) (ps : List Participant) (s : Server) :
    post (connectedParticipants env ps) s (fun r s' =>
      r = .ok (ps.filter (isConnected env s.deviceLastActivations)) ∧ Asked env s s') := by
  induction ps generalizing s with
  | nil => exact ⟨rfl, .refl s, fun _ => rfl, rfl⟩
  | cons p ps ih =>
    rw [connectedParticipants]
    refine post_seq (getDeviceLastActivation_post env p.device.id s) ?_ (by rintro _ _ ⟨⟨⟩, _⟩)
    rintro _ s₁ ⟨⟨⟩, h₁⟩
    refine post_seq (ih s₁) ?_ (by rintro _ _ ⟨⟨⟩, _⟩)
    rintro _ s₂ ⟨⟨⟩, h₂⟩
    have hsame : isConnected env s₁.deviceLastActivations =
        isConnected env s.deviceLastActivations := by
      funext q
      simp only [isConnected, h₁.times]
    refine ⟨?_, h₁.trans h₂⟩
    rw [hsame, List.filter_cons]
    by_cases h : isConnected env s.deviceLastActivations p
    · rw [if_pos h, if_pos (by simpa [isConnected] using h)]
      rfl
    · rw [if_neg h, if_neg (by simpa [isConnected] using h)]
      rfl

def activeSharesWrite (id : Uuid) (chosen : List Device) : Write :=
  fun db => db.setTaskActiveShares id (countDevices chosen)

theorem chooseActiveShares_post {env : Env} {task : VotingTask} {s : Server}
    {Q : Except Stop (Map ℕ Device) → Server → Prop}
    (hfail : ∀ stop s', WriteFails env .setTaskActiveShares task.taskInfo.id
      (activeSharesWrite task.taskInfo.id (chosenDevices env s.deviceLastActivations task)) s.db
      stop → Rest s s.db s' → s'.pdfHelpers = s.pdfHelpers → Q (.error stop) s')
    (hok : ∀ db s', WriteServed env .setTaskActiveShares task.taskInfo.id
      (activeSharesWrite task.taskInfo.id (chosenDevices env s.deviceLastActivations task)) s.db
      db → Rest s db s' → s'.pdfHelpers = s.pdfHelpers →
      Q (assignShareIndices task.taskInfo.participants
        (chosenDevices env s.deviceLastActivations task)) s') :
    post (chooseActiveShares env task) s Q := by
  rw [chooseActiveShares]
  refine post_seq (connectedParticipants_post env _ s) ?_ (by rintro _ _ ⟨⟨⟩, _⟩)
  rintro _ s' ⟨⟨⟩, h⟩
  rw [post_bind]
  refine repoWrite_post (fun stop w => ?_) (fun db w => ?_)
  · rw [h.db] at w
    exact hfail stop s' w h.toRest h.helpers
  · rw [h.db] at w
    rw [post_fromExcept]
    exact hok db _ w ⟨rfl, h.devices, h.taskCache, h.taskLastUpdates⟩ h.helpers

section Outcomes

variable [External] (env : Env) (id : Uuid)

def certificatesWrite : Write := fun db => .ok (db.setTaskGroupCertificatesSent id (some true))

def roundWrite (round : ℕ) : Write := fun db => db.setTaskRound id round

def resultWrite (result : Except String Bytes) : Write := fun db => db.setTaskResult id result

def construct (task : VotingTask) (chosen : List Device) : Except Stop RunningTask := do
  let activeShares ← assignShareIndices task.taskInfo.participants chosen
  RunningTaskContext.createRunningTask task.runningTaskContext task activeShares

/-- How an approved task gets from the stored active shares to its first message. -/
inductive BuildOutcome (task : VotingTask) (chosen : List Device) (db : Database)
    (e : TaskEntry) : Except Stop Unit → Database → TaskEntry → Prop where
  | notConstructed {stop : Stop} (h : construct task chosen = .error stop) :
      BuildOutcome task chosen db e (.error stop) db e
  | notInitialized {stop : Stop} {t t' : RunningTask} (h : construct task chosen = .ok t)
      (init : InitializeOutcome t (.error stop) t') :
      BuildOutcome task chosen db e (.error stop) db e
  | certificates {t t' : RunningTask} {r : Except Stop Unit} {db' : Database} {e' : TaskEntry}
      (h : construct task chosen = .ok t)
      (init : InitializeOutcome t (.ok .groupCertificatesSent) t')
      (stored : Stored env .setTaskGroupCertificatesSent id (certificatesWrite id) db e
        (.running t') r db' e') : BuildOutcome task chosen db e r db' e'
  | nextRound {t t' : RunningTask} {round : ℕ} {r : Except Stop Unit} {db' : Database}
      {e' : TaskEntry} (h : construct task chosen = .ok t)
      (init : InitializeOutcome t (.ok (.nextRound round)) t')
      (stored : Stored env .setTaskRound id (roundWrite id round) db e (.running t') r db' e') :
      BuildOutcome task chosen db e r db' e'
  | failed {t t' : RunningTask} {f : FailedTask} {r : Except Stop Unit} {db' : Database}
      {e' : TaskEntry} (h : construct task chosen = .ok t)
      (init : InitializeOutcome t (.ok (.failed f)) t')
      (stored : Stored env .setTaskResult id (resultWrite id (.error f.reason)) db e
        (.failed f) r db' e') : BuildOutcome task chosen db e r db' e'

/-- The first call of a new task, with the PDF helpers that it finds and leaves, and the entry
that is left under the lock. -/
inductive FirstCall (task : VotingTask) (chosen : List Device) (db : Database)
    (helpers : PdfHelpers) (e : TaskEntry) : TaskEntry → PdfHelpers → Prop where
  | notConstructed {stop : Stop} (h : construct task chosen = .error stop) :
      FirstCall task chosen db helpers e e helpers
  | stopped {t t' : RunningTask} {stop : Stop} {helpers' : PdfHelpers}
      (h : construct task chosen = .ok t)
      (ran : outcome (RunningTask.initializeTask env.helper) ⟨t, helpers⟩ =
        (.error stop, ⟨t', helpers'⟩)) : FirstCall task chosen db helpers e e helpers'
  | notRecorded {t t' : RunningTask} {u : RoundUpdate} {helpers' : PdfHelpers}
      (h : construct task chosen = .ok t)
      (ran : outcome (RunningTask.initializeTask env.helper) ⟨t, helpers⟩ =
        (.ok u, ⟨t', helpers'⟩))
      (w : ∀ round, u = .nextRound round → ∃ stop,
        WriteFails env .setTaskRound id (roundWrite id round) db stop) :
      FirstCall task chosen db helpers e e helpers'
  | started {t t' : RunningTask} {u : RoundUpdate} {helpers' : PdfHelpers}
      (h : construct task chosen = .ok t)
      (ran : outcome (RunningTask.initializeTask env.helper) ⟨t, helpers⟩ =
        (.ok u, ⟨t', helpers'⟩))
      (update : u = .groupCertificatesSent ∨ ∃ round, u = .nextRound round) :
      FirstCall task chosen db helpers e (.running t') helpers'
  | failed {t t' : RunningTask} {f : FailedTask} {helpers' : PdfHelpers}
      (h : construct task chosen = .ok t)
      (ran : outcome (RunningTask.initializeTask env.helper) ⟨t, helpers⟩ =
        (.ok (.failed f), ⟨t', helpers'⟩)) :
      FirstCall task chosen db helpers e (.failed f) helpers'

inductive StartEntryOutcome (task : VotingTask) (g : Guarded) :
    Except Stop Unit → Guarded → Prop where
  | notStored {stop : Stop} {s : Server}
      (w : WriteFails env .setTaskActiveShares task.taskInfo.id (activeSharesWrite task.taskInfo.id
        (chosenDevices env g.server.deviceLastActivations task)) g.server.db stop)
      (rest : Rest g.server g.server.db s) (helpers : s.pdfHelpers = g.server.pdfHelpers) :
      StartEntryOutcome task g (.error stop) ⟨g.entry, s⟩
  | built {r : Except Stop Unit} {db db' : Database} {e : TaskEntry} {s : Server}
      (w : WriteServed env .setTaskActiveShares task.taskInfo.id (activeSharesWrite
        task.taskInfo.id (chosenDevices env g.server.deviceLastActivations task)) g.server.db db)
      (build : BuildOutcome env id task (chosenDevices env g.server.deviceLastActivations task) db
        g.entry r db' e)
      (rest : Rest g.server db' s)
      (first : FirstCall env id task (chosenDevices env g.server.deviceLastActivations task) db
        g.server.pdfHelpers g.entry e s.pdfHelpers) : StartEntryOutcome task g r ⟨e, s⟩

inductive DecideOutcome (d : Bytes) (accept : Bool) (g : Guarded) :
    Except Stop Unit → Guarded → Prop where
  | notVoting (h : ∀ v, g.entry ≠ .voting v) :
      DecideOutcome d accept g (.error (protocolError "Cannot decide non-voting task")) g
  | notParticipant {v : VotingTask} (h : g.entry = .voting v)
      (find : v.taskInfo.participants.find? (fun p => p.device.id = d) = none) :
      DecideOutcome d accept g (.error (protocolError "Invalid task participant id"))
        ⟨g.entry, touched env id g.server⟩
  | notStored {v : VotingTask} {p : Participant} {stop : Stop} (h : g.entry = .voting v)
      (find : v.taskInfo.participants.find? (fun p => p.device.id = d) = some p)
      (w : WriteFails env .setTaskDecision id (fun db => .ok (db.setTaskDecision id d accept))
        g.server.db stop) : DecideOutcome d accept g (.error stop)
          ⟨.voting (v.vote d (voteOf p.shares accept)), touched env id g.server⟩
  | undecided {v : VotingTask} {p : Participant} (h : g.entry = .voting v)
      (find : v.taskInfo.participants.find? (fun p => p.device.id = d) = some p)
      (served : env.fault .setTaskDecision id = .served)
      (tally : (v.vote d (voteOf p.shares accept)).decisionUpdate = .undecided) :
      DecideOutcome d accept g (.ok ()) ⟨.voting (v.vote d (voteOf p.shares accept)),
        { touched env id g.server with db := g.server.db.setTaskDecision id d accept }⟩
  | declined {v : VotingTask} {p : Participant} {t : DeclinedTask} {r : Except Stop Unit}
      {db : Database} {e : TaskEntry} (h : g.entry = .voting v)
      (find : v.taskInfo.participants.find? (fun p => p.device.id = d) = some p)
      (served : env.fault .setTaskDecision id = .served)
      (tally : (v.vote d (voteOf p.shares accept)).decisionUpdate = .declined t)
      (stored : Stored env .setTaskResult id (resultWrite id (.error "Task declined"))
        (g.server.db.setTaskDecision id d accept)
        (.voting (v.vote d (voteOf p.shares accept))) (.declined t) r db e) :
      DecideOutcome d accept g r ⟨e, { touched env id g.server with db }⟩
  | accepted {v : VotingTask} {p : Participant} {r : Except Stop Unit} {g' : Guarded}
      (h : g.entry = .voting v)
      (find : v.taskInfo.participants.find? (fun p => p.device.id = d) = some p)
      (served : env.fault .setTaskDecision id = .served)
      (tally : (v.vote d (voteOf p.shares accept)).decisionUpdate = .accepted)
      (start : StartEntryOutcome env id (v.vote d (voteOf p.shares accept))
        ⟨.voting (v.vote d (voteOf p.shares accept)),
          { touched env id g.server with db := g.server.db.setTaskDecision id d accept }⟩ r g') :
      DecideOutcome d accept g r g'

/-- The writes after a task is finished: the round, the new group and the result. -/
inductive FinishOutcome (t : RunningTask) (round : ℕ) (f : FinishedTask) (db : Database) :
    Except Stop Unit → Database → TaskEntry → Prop where
  | roundNotStored {stop : Stop}
      (w : WriteFails env .setTaskRound id (roundWrite id round) db stop) :
      FinishOutcome t round f db (.error stop) db (.running t)
  | groupNotStored {stop : Stop} {db' : Database} {group : Group}
      (w : WriteServed env .setTaskRound id (roundWrite id round) db db')
      (result : f.result = .groupEstablished group)
      (w' : WriteFails env .addGroup id (fun db => db.addGroup id group.id group.name
        (asU32 group.threshold) group.protocol group.keyType group.certificate group.note) db'
        stop) : FinishOutcome t round f db (.error stop) db' (.running t)
  | group {db' db'' db''' : Database} {group : Group} {r : Except Stop Unit} {e : TaskEntry}
      (w : WriteServed env .setTaskRound id (roundWrite id round) db db')
      (result : f.result = .groupEstablished group)
      (w' : WriteServed env .addGroup id (fun db => db.addGroup id group.id group.name
        (asU32 group.threshold) group.protocol group.keyType group.certificate group.note) db' db'')
      (stored : Stored env .setTaskResult id (resultWrite id (.ok f.result.asBytes)) db''
        (.running t) (.finished f) r db''' e) : FinishOutcome t round f db r db''' e
  | threshold {db' db'' : Database} {r : Except Stop Unit} {e : TaskEntry}
      (w : WriteServed env .setTaskRound id (roundWrite id round) db db')
      (result : ∀ group, f.result ≠ .groupEstablished group)
      (stored : Stored env .setTaskResult id (resultWrite id (.ok f.result.asBytes)) db'
        (.running t) (.finished f) r db'' e) : FinishOutcome t round f db r db'' e

inductive RecordOutcome (t : RunningTask) (db : Database) :
    Except Stop RoundUpdate → Except Stop Unit → Database → TaskEntry → Prop where
  | stopped {stop : Stop} : RecordOutcome t db (.error stop) (.error stop) db (.running t)
  | listen : RecordOutcome t db (.ok .listen) (.ok ()) db (.running t)
  | nextRound {round : ℕ} {r : Except Stop Unit} {db' : Database} {e : TaskEntry}
      (stored : Stored env .setTaskRound id (roundWrite id round) db (.running t) (.running t)
        r db' e) : RecordOutcome t db (.ok (.nextRound round)) r db' e
  | failed {f : FailedTask} {r : Except Stop Unit} {db' : Database} {e : TaskEntry}
      (stored : Stored env .setTaskResult id (resultWrite id (.error f.reason)) db (.running t)
        (.failed f) r db' e) : RecordOutcome t db (.ok (.failed f)) r db' e
  | finished {round : ℕ} {f : FinishedTask} {r : Except Stop Unit} {db' : Database}
      {e : TaskEntry} (finish : FinishOutcome env id t round f db r db' e) :
      RecordOutcome t db (.ok (.finished round f)) r db' e

inductive UpdateEntryOutcome (d : Bytes) (messages : List ClientMessage) (attempt : ℕ)
    (g : Guarded) : Except Stop Unit → Guarded → Prop where
  | notRunning (h : ∀ t, g.entry ≠ .running t) : UpdateEntryOutcome d messages attempt g
      (.error (protocolError "Cannot update non-running task")) g
  | stale {t : RunningTask} (h : g.entry = .running t) (ne : attempt ≠ t.taskInfo.attempts) :
      UpdateEntryOutcome d messages attempt g (.error (protocolError "Stale update"))
        ⟨g.entry, touched env id g.server⟩
  | updated {t t' : RunningTask} {u : Except Stop RoundUpdate} {r : Except Stop Unit}
      {db : Database} {e : TaskEntry} {s : Server} (h : g.entry = .running t)
      (current : attempt = t.taskInfo.attempts) (update : UpdateOutcome d messages t u t')
      (record : RecordOutcome env id t' g.server.db u r db e)
      (rest : Rest (touched env id g.server) db s)
      (ran : outcome (RunningTask.update env.helper d messages) ⟨t, g.server.pdfHelpers⟩ =
        (u, ⟨t', s.pdfHelpers⟩)) :
      UpdateEntryOutcome d messages attempt g r ⟨e, s⟩

inductive RestartEntryOutcome (g : Guarded) : Except Stop Unit → Guarded → Prop where
  | notRunning (h : ∀ t, g.entry ≠ .running t) : RestartEntryOutcome g
      (.error (inconsistent "non-running task in candidates for restart")) g
  | notStored {t : RunningTask} {stop : Stop} (h : g.entry = .running t)
      (w : WriteFails env .incrementTaskAttemptCount id
        (fun db => db.incrementTaskAttemptCount id) g.server.db stop) :
      RestartEntryOutcome g (.error stop) ⟨g.entry, touched env id g.server⟩
  | restarted {t t' : RunningTask} {u : Except Stop RoundUpdate} {r : Except Stop Unit}
      {db db' : Database} {e : TaskEntry} {s : Server} (h : g.entry = .running t)
      (w : WriteServed env .incrementTaskAttemptCount id
        (fun db => db.incrementTaskAttemptCount id) g.server.db db)
      (restart : RestartOutcome t u t') (record : RecordOutcome env id t' db u r db' e)
      (rest : Rest (touched env id g.server) db' s)
      (ran : outcome (RunningTask.restart env.helper) ⟨t, g.server.pdfHelpers⟩ =
        (u, ⟨t', s.pdfHelpers⟩)) : RestartEntryOutcome g r ⟨e, s⟩

omit [External] in
theorem written_post {env : Env} {id : Uuid} {call : RepoCall} {f : Write} {g : Guarded}
    {Q : Except Stop Unit → Guarded → Prop}
    (h : ∀ r db e, Stored env call id f g.server.db g.entry g.entry r db e →
      Q r ⟨e, { g.server with db }⟩) : post (onServer (repoWrite env call id f)) g Q := by
  rw [onServer, post_zoom]
  exact repoWrite_post (fun stop w => h _ _ _ (.fails w)) (fun db w => h _ _ _ (.served w))

omit [External] in
theorem stored_post {env : Env} {id : Uuid} {call : RepoCall} {f : Write} {g : Guarded}
    {e' : TaskEntry} {Q : Except Stop Unit → Guarded → Prop}
    (h : ∀ r db e, Stored env call id f g.server.db g.entry e' r db e →
      Q r ⟨e, { g.server with db }⟩) :
    post (do
      onServer (repoWrite env call id f)
      setEntry e') g Q := by
  simp only [onServer, setEntry, post_bind, post_zoom, post_modify]
  exact repoWrite_post (fun stop w => h _ _ _ (.fails w)) (fun db w => h _ _ _ (.served w))

theorem startEntry_outcome (task : VotingTask) (g : Guarded) :
    post (startEntry env id task) g (StartEntryOutcome env id task g) := by
  rw [startEntry, post_bind, onServer, post_zoom]
  refine chooseActiveShares_post (fun stop s w rest hh => .notStored w rest hh)
    (fun db s w rest hh => ?_)
  cases ha : assignShareIndices task.taskInfo.participants
      (chosenDevices env g.server.deviceLastActivations task) with
  | error stop =>
    have hbuild : construct task (chosenDevices env g.server.deviceLastActivations task) =
        .error stop := by simp [construct, ha, bind, Except.bind]
    exact .built w (.notConstructed hbuild) rest (hh ▸ .notConstructed hbuild)
  | ok m =>
    simp only [post_bind, post_fromExcept]
    cases hc : RunningTaskContext.createRunningTask task.runningTaskContext task m with
    | error stop =>
      have hbuild : construct task (chosenDevices env g.server.deviceLastActivations task) =
          .error stop := by simp [construct, ha, hc, bind, Except.bind]
      exact .built w (.notConstructed hbuild) rest (hh ▸ .notConstructed hbuild)
    | ok t =>
      have hbuild : construct task (chosenDevices env g.server.deviceLastActivations task) =
          .ok t := by simp [construct, ha, hc, bind, Except.bind]
      simp only [onServer, post_zoom, post_bind, post_get, post_pure]
      refine post_mono (post_and (initialize_outcome env.helper ⟨t, s.pdfHelpers⟩)
        (post_outcome _ _)) fun u r' hrun => ?_
      obtain ⟨init, ran⟩ := hrun
      rw [hh] at ran
      -- the running task stays aside, so the guard holds the voting task until the write is served
      cases u with
      | error stop =>
        exact .built w (.notInitialized hbuild init)
          ⟨rest.db, rest.devices, rest.taskCache, rest.taskLastUpdates⟩ (.stopped hbuild ran)
      | ok u =>
        cases u with
        | listen =>
          cases init with
          | start _ h => cases h
        | finished round f =>
          cases init with
          | start _ h => cases h
        | groupCertificatesSent =>
          refine stored_post fun r db' e st => ?_
          refine .built w (.certificates hbuild init (by rwa [rest.db] at st))
            ⟨rfl, rest.devices, rest.taskCache, rest.taskLastUpdates⟩ ?_
          cases st with
          | fails =>
            refine .notRecorded hbuild ran fun round hround => ?_
            cases hround
          | served => exact .started hbuild ran (.inl rfl)
        | nextRound round =>
          refine stored_post fun r db' e st => ?_
          refine .built w (.nextRound hbuild init (by rwa [rest.db] at st))
            ⟨rfl, rest.devices, rest.taskCache, rest.taskLastUpdates⟩ ?_
          cases st with
          | fails w =>
            refine .notRecorded hbuild ran fun round hround => ?_
            cases hround
            rw [rest.db] at w
            exact ⟨_, w⟩
          | served => exact .started hbuild ran (.inr ⟨round, rfl⟩)
        | failed f =>
          refine stored_post fun r db' e st => ?_
          refine .built w (.failed hbuild init (by rwa [rest.db] at st))
            ⟨rfl, rest.devices, rest.taskCache, rest.taskLastUpdates⟩ ?_
          cases st with
          | fails =>
            refine .notRecorded hbuild ran fun round hround => ?_
            cases hround
          | served => exact .failed hbuild ran

theorem decideEntry_outcome (d : Bytes) (accept : Bool) (g : Guarded) :
    post (decideEntry env id d accept) g (DecideOutcome env id d accept g) := by
  simp only [decideEntry, post_bind, post_get]
  split
  · rename_i v h
    simp only [post_bind, onServer, post_zoom, setTaskLastUpdate, post_modify, post_fromExcept]
    cases hf : v.taskInfo.participants.find? (fun p => p.device.id = d) with
    | none =>
      rw [VotingTask.decide, hf]
      exact .notParticipant h hf
    | some p =>
      rw [VotingTask.decide, hf]
      simp only [Except.mapError, setEntry, post_modify]
      refine repoWrite_post (fun stop w => .notStored h hf w) (fun db w => ?_)
      obtain ⟨served, hw⟩ := w
      cases hw
      cases hu : (v.vote d (voteOf p.shares accept)).decisionUpdate with
      | undecided => exact .undecided h hf served hu
      | accepted =>
        exact post_mono (startEntry_outcome env id _ _) fun _ _ => .accepted h hf served hu
      | declined t => exact stored_post fun r db e st => .declined h hf served hu st
  · rename_i h
    exact .notVoting h

omit [External] in
theorem finish_post {t : RunningTask} {round : ℕ} {f : FinishedTask} {s : Server}
    {Q : Except Stop Unit → Guarded → Prop}
    (h : ∀ r db e, FinishOutcome env id t round f s.db r db e → Q r ⟨e, { s with db }⟩) :
    post (do
      onServer (repoWrite env .setTaskRound id (roundWrite id round))
      match f.result with
      | .groupEstablished group =>
        onServer (repoWrite env .addGroup id fun db => db.addGroup id group.id group.name
          (asU32 group.threshold) group.protocol group.keyType group.certificate group.note)
      | _ => pure ()
      onServer (repoWrite env .setTaskResult id (resultWrite id (.ok f.result.asBytes)))
      setEntry (.finished f)) ⟨.running t, s⟩ Q := by
  rw [post_bind, onServer, post_zoom]
  refine repoWrite_post (fun stop w => h _ _ _ (.roundNotStored w)) (fun db w => ?_)
  simp only
  split
  · rename_i group hr
    rw [post_bind, onServer, post_zoom]
    refine repoWrite_post (fun stop w' => h _ _ _ (.groupNotStored w hr w')) (fun db' w' => ?_)
    exact stored_post fun r db'' e st => h _ _ _ (.group w hr w' st)
  · rename_i hr
    exact stored_post fun r db'' e st => h _ _ _ (.threshold w hr st)

theorem updateEntry_outcome (d : Bytes) (messages : List ClientMessage) (attempt : ℕ)
    (g : Guarded) : post (updateEntry env id d messages attempt) g
      (UpdateEntryOutcome env id d messages attempt g) := by
  simp only [updateEntry, post_bind, post_get]
  split
  · rename_i t h
    simp only [post_bind, onServer, post_zoom, setTaskLastUpdate, post_modify]
    split_ifs with ha
    · exact .stale h ha
    · rw [not_ne_iff] at ha
      simp only [onRunning, post_bind, post_zoom]
      refine post_mono (post_and (update_outcome env.helper d messages _) (post_outcome _ _))
        fun u r' hrun => ?_
      obtain ⟨hu, ran⟩ := hrun
      cases u with
      | error stop => exact .updated h ha hu .stopped ⟨rfl, rfl, rfl, rfl⟩ ran
      | ok u =>
        cases u with
        | listen => exact .updated h ha hu .listen ⟨rfl, rfl, rfl, rfl⟩ ran
        | groupCertificatesSent =>
          cases hu with
          | received _ _ _ _ _ round =>
            cases round with
            | start _ _ h => cases h
            | final _ _ h => cases h
        | nextRound round =>
          exact written_post fun r db e st =>
            .updated h ha hu (.nextRound st) ⟨rfl, rfl, rfl, rfl⟩ ran
        | failed f =>
          exact stored_post fun r db e st =>
            .updated h ha hu (.failed st) ⟨rfl, rfl, rfl, rfl⟩ ran
        | finished round f =>
          exact finish_post env id fun r db e st =>
            .updated h ha hu (.finished st) ⟨rfl, rfl, rfl, rfl⟩ ran
  · rename_i h
    exact .notRunning h

theorem restartEntry_outcome (g : Guarded) :
    post (restartEntry env id) g (RestartEntryOutcome env id g) := by
  simp only [restartEntry, post_bind, post_get]
  split
  · rename_i t h
    simp only [post_bind, onServer, post_zoom, setTaskLastUpdate, post_modify]
    refine repoWrite_post (fun stop w => .notStored h w) (fun db w => ?_)
    simp only [onRunning, post_zoom]
    refine post_mono (post_and (restart_outcome env.helper _) (post_outcome _ _))
      fun u r' hrun => ?_
    obtain ⟨hu, ran⟩ := hrun
    cases u with
    | error stop => exact .restarted h w hu .stopped ⟨rfl, rfl, rfl, rfl⟩ ran
    | ok u =>
      cases u with
      | listen =>
        cases hu with
        | again _ _ _ _ h => cases h
      | groupCertificatesSent =>
        cases hu with
        | again _ _ _ _ h => cases h
      | finished round f =>
        cases hu with
        | again _ _ _ _ h => cases h
      | nextRound round =>
        exact written_post fun r db e st =>
          .restarted h w hu (.nextRound st) ⟨rfl, rfl, rfl, rfl⟩ ran
      | failed f =>
        exact stored_post fun r db e st =>
          .restarted h w hu (.failed st) ⟨rfl, rfl, rfl, rfl⟩ ran
  · rename_i h
    exact .notRunning h

theorem decideTask_outcome (d : Bytes) (accept : Bool) (s : Server) :
    post (decideTask env id d accept) s
      (TaskOutcome env id (DecideOutcome env id d accept) s) :=
  withTaskMut_outcome (decideEntry_outcome env id d accept) s

theorem updateTask_outcome (d : Bytes) (messages : List ClientMessage) (attempt : ℕ) (s : Server) :
    post (updateTask env id d messages attempt) s
      (TaskOutcome env id (UpdateEntryOutcome env id d messages attempt) s) :=
  withTaskMut_outcome (updateEntry_outcome env id d messages attempt) s

theorem restartTask_outcome (s : Server) : post (withTaskMut env id (restartEntry env id)) s
    (TaskOutcome env id (RestartEntryOutcome env id) s) :=
  withTaskMut_outcome (restartEntry_outcome env id) s

theorem exec_decideTask (d : Bytes) (accept : Bool) (s : Server) :
    ∃ t, outcome (exec env (.decideTask id d accept)) s =
        (result env (.decideTask id d accept) s, t) ∧
      TaskOutcome env id (DecideOutcome env id d accept) s
        (result env (.decideTask id d accept) s) t ∧
      next env (.decideTask id d accept) s =
        if result env (.decideTask id d accept) s = .error .crash then Server.restore t.db
        else t :=
  ⟨_, rfl, decideTask_outcome env id d accept s, next_eq env _ s⟩

end Outcomes

end ServerOutcomes
