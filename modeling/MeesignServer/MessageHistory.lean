import MeesignServer.MessageBuffers
import MeesignServer.GroupWellFormed

/-!
# The messages that have been taken

Beside the server runs a log of the calls of `update_task` whose messages were put into
the buffers of a task, with the attempt and the round that the task was in. The buffers
of a running task are the calls of its current round. They are lost when the server
process ends, so the log also counts the processes.
-/
namespace MessageHistory

open FallibleProgram FiniteMap DataModel CommunicatorModel ProtocolModel VotingModel
open RunningTaskModel DatabaseModel HydrationModel ServerModel TaskOutcomes ServerOutcomes
open TableFrames ServerInvariant TaskStart HydrationOutcomes InvariantSteps ServerMoves PhaseOrder
open TableSync TaskAdmission GroupWellFormed MessageBuffers

structure Taken extends Call where
  process : ℕ
  task : Uuid
  attempt : ℕ
  round : ℕ

def callsAt (entries : List Taken) (attempt round : ℕ) : List Call :=
  (entries.filter fun e => e.attempt = attempt ∧ e.round = round).map Taken.toCall

theorem callsAt_append (entries entries' : List Taken) (attempt round : ℕ) :
    callsAt (entries ++ entries') attempt round =
      callsAt entries attempt round ++ callsAt entries' attempt round := by
  rw [callsAt, List.filter_append, List.map_append]
  rfl

theorem callsAt_nil {entries : List Taken} {attempt round : ℕ}
    (h : ∀ e ∈ entries, e.attempt = attempt → e.round ≠ round) :
    callsAt entries attempt round = [] := by
  have hnone : entries.filter (fun e => e.attempt = attempt ∧ e.round = round) = [] := by
    rw [List.filter_eq_nil_iff]
    intro e he hmatch
    obtain ⟨ha, hr⟩ := of_decide_eq_true hmatch
    exact h e he ha hr
  rw [callsAt, hnone]
  rfl

def isPdf : RunningTask → Bool
  | .signPdf _ => true
  | _ => false

theorem isPdf_congr {t t' : RunningTask} (h : contextOf t' = contextOf t) : isPdf t' = isPdf t := by
  cases t <;> cases t' <;> first | rfl | cases h

section Tasks

variable [External]

/-- The buffers of a running task and the log of its calls. A PDF task whose restart breaks keeps
the messages of the previous attempt, so these tasks are included only on demand. -/
structure RunningLogged (pdf : Prop) (entries : List Taken) (t : RunningTask) : Prop where
  past : ∀ e ∈ entries, e.attempt < t.taskInfo.attempts ∨
    e.attempt = t.taskInfo.attempts ∧ e.round ≤ t.session.protocol.round
  buffered : (isPdf t → pdf) → t.session.protocol.round ≤ t.session.protocol.lastRound →
    Buffered t.session.communicator (callsAt entries t.taskInfo.attempts t.session.protocol.round)

variable {pdf : Prop} {entries : List Taken} {t t' t'' : RunningTask} {d : Bytes}
  {messages : List ClientMessage}

theorem RunningLogged.begin (h : RunningLogged pdf entries t)
    (hlater : t.taskInfo.attempts < t'.taskInfo.attempts ∨
      t'.taskInfo.attempts = t.taskInfo.attempts ∧
        t.session.protocol.round < t'.session.protocol.round)
    (hinput : t'.session.communicator.input = ∅) : RunningLogged pdf entries t' := by
  constructor
  · intro e he
    rcases h.past e he with hlt | ⟨heq, hle⟩
    · left
      omega
    · omega
  · intro _ _
    rw [callsAt_nil]
    · exact buffered_empty hinput
    · intro e he ha hr
      rcases h.past e he with hlt | ⟨heq, hle⟩ <;> omega

theorem RunningLogged.over (h : RunningLogged pdf entries t)
    (hat : t'.taskInfo.attempts = t.taskInfo.attempts)
    (hround : t.session.protocol.round ≤ t'.session.protocol.round)
    (hlast : t'.session.protocol.lastRound < t'.session.protocol.round) :
    RunningLogged pdf entries t' := by
  constructor
  · intro e he
    rcases h.past e he with hlt | ⟨heq, hle⟩
    · left
      omega
    · right
      omega
  · intro _ hle
    omega

theorem runningLogged_empty (h : t.session.communicator.input = ∅) : RunningLogged pdf [] t :=
  ⟨fun _ he => absurd he List.not_mem_nil, fun _ _ => buffered_empty h⟩

theorem start_logged {u : Except Stop RoundUpdate} (h : RunningLogged pdf entries t)
    (ho : StartOutcome t u t') (hround : t.session.protocol.round = 0) :
    RunningLogged pdf entries t' := by
  cases ho with
  | started data kept session =>
    apply h.begin
    · right
      rw [kept.taskInfo, session, hround]
      exact ⟨rfl, Nat.zero_lt_one⟩
    · rw [session]
      rfl
  | failed => exact h
  | broke => exact h

theorem round_logged {u : Except Stop RoundUpdate} (h : RunningLogged pdf entries t)
    (ho : RoundOutcome t u t') : RunningLogged pdf entries t' := by
  cases ho with
  | listen => exact h
  | start _ hround start => exact start_logged h start hround
  | advance _ _ _ kept session =>
    apply h.begin
    · right
      rw [kept.taskInfo, session]
      exact ⟨rfl, Nat.lt_succ_self _⟩
    · rw [session]
      rfl
  | final _ hlast final =>
    have hover : ∀ c : Communicator, Kept t t' →
        t'.session = ⟨c, t.session.incrementRound.protocol⟩ → RunningLogged pdf entries t' := by
      intro c kept session
      apply h.over
      · rw [kept.taskInfo]
      · rw [session]
        exact Nat.le_succ _
      · rw [session]
        exact Nat.lt_succ_of_le hlast.ge
    cases final with
    | finished kept session => exact hover _ kept session
    | failed _ kept session => exact hover _ kept session
    | broke _ kept session =>
      rcases session with session | session
      · exact hover _ kept session
      · exact hover _ kept session

/-- The call of `update_task` that fills the buffers, if the messages are taken. -/
def takenFrom (process : ℕ) (id : Uuid) (d : Bytes) (messages : List ClientMessage)
    (t : RunningTask) : List Taken :=
  if t.waitingFor d && ready t then
    match t.session.communicator.receiveMessages d messages with
    | .ok (true, _) =>
      [{ callOf t.session.communicator d messages with
        process := process
        task := id
        attempt := t.taskInfo.attempts
        round := t.session.protocol.round }]
    | _ => []
  else []

omit [External] in
theorem mem_takenFrom {process : ℕ} {id : Uuid} {e : Taken}
    (h : e ∈ takenFrom process id d messages t) : e.process = process ∧ e.task = id ∧
      e.attempt = t.taskInfo.attempts ∧ e.round = t.session.protocol.round := by
  unfold takenFrom at h
  split_ifs at h
  · split at h
    · rw [List.mem_singleton] at h
      subst h
      exact ⟨rfl, rfl, rfl, rfl⟩
    · cases h
  · cases h

theorem receive_logged {process : ℕ} {id : Uuid} {taken : Bool} {c : Communicator}
    (h : RunningLogged pdf entries t) (waiting : t.waitingFor d) (is_ready : ready t)
    (receive : t.session.communicator.receiveMessages d messages = .ok (taken, c))
    (kept : Kept t t') (session : t'.session = ⟨c, t.session.protocol⟩) :
    RunningLogged pdf (entries ++ takenFrom process id d messages t) t' := by
  have hpdf : isPdf t' = isPdf t := isPdf_congr kept.context
  obtain ⟨hs, hp, -, -, htaken⟩ := receiveMessages_ok receive
  cases taken with
  | false =>
    have hnone : takenFrom process id d messages t = [] := by
      simp only [takenFrom, waiting, is_ready, receive, Bool.and_self, ↓reduceIte]
    rw [hnone, List.append_nil]
    constructor
    · rw [kept.taskInfo, session]
      exact h.past
    · rw [hpdf, kept.taskInfo, session, show c = t.session.communicator from htaken]
      exact h.buffered
  | true =>
    have hsome : takenFrom process id d messages t =
      [{ callOf t.session.communicator d messages with
        process := process
        task := id
        attempt := t.taskInfo.attempts
        round := t.session.protocol.round }] := by
      simp only [takenFrom, waiting, is_ready, receive, Bool.and_self, ↓reduceIte]
    constructor
    · rw [kept.taskInfo, session]
      intro e he
      rcases List.mem_append.mp he with hold | hnew
      · exact h.past e hold
      · right
        obtain ⟨-, -, ha, hr⟩ := mem_takenFrom hnew
        exact ⟨ha, hr.le⟩
    · rw [hpdf, kept.taskInfo, session, hsome]
      intro hp' hle
      have hcall : callsAt [{ callOf t.session.communicator d messages with
          process := process
          task := id
          attempt := t.taskInfo.attempts
          round := t.session.protocol.round }] t.taskInfo.attempts t.session.protocol.round =
          [callOf t.session.communicator d messages] := by
        simp [callsAt]
      rw [callsAt_append, hcall]
      exact (h.buffered hp' hle).receive waiting receive

theorem update_logged {process : ℕ} {id : Uuid} {u : Except Stop RoundUpdate}
    (h : RunningLogged pdf entries t) (ho : UpdateOutcome d messages t u t') :
    RunningLogged pdf (entries ++ takenFrom process id d messages t) t' := by
  cases ho with
  | notWaiting hw =>
    have hnone : takenFrom process id d messages t = [] := by
      simp only [takenFrom, hw, Bool.false_and, Bool.false_eq_true, ↓reduceIte]
    rw [hnone, List.append_nil]
    exact h
  | broke _ why =>
    have hnone : takenFrom process id d messages t = [] := by
      rcases why with hr | hr
      · simp only [takenFrom, hr, Bool.and_false, Bool.false_eq_true, ↓reduceIte]
      · simp only [takenFrom, hr, ite_self]
    rw [hnone, List.append_nil]
    exact h
  | received waiting is_ready receive kept session round =>
    exact round_logged (receive_logged h waiting is_ready receive kept session) round

theorem pdfStart_safe {helper : Helper} {s : PdfState}
    (hcert : s.task.signTask.group.certificate.isSome) (hhelper : helper.pdfStart ≠ .broken)
    (hclean : s.helpers.poisoned = false) : post (SignPDFTask.startTask helper) s
      (fun u _ => u = .ok (.nextRound 1) ∨ ∃ f, u = .ok (.failed f)) := by
  have hsome : s.task.signTask.group.certificate.isNone = false := by
    rw [Option.isNone_eq_false_iff]
    exact hcert
  cases hstart : helper.pdfStart with
  | noTempFile | notWritten | notSpawned =>
    simp only [SignPDFTask.startTask, post_bind, post_get, hstart]
    exact .inr ⟨_, rfl⟩
  | broken => exact absurd hstart hhelper
  | hash hash =>
    simp only [SignPDFTask.startTask, post_bind, post_get, hstart, hsome, Bool.false_eq_true,
      ↓reduceIte]
    cases hash with
    | nil => exact .inr ⟨_, rfl⟩
    | cons b hash =>
      simp only [SignPDFTask.lockHelpers, SignPDFTask.onSignTask, SignTask.startTask,
        SignTask.onSession, post_bind, post_get, post_zoom, post_modify, post_pure, hclean,
        Bool.false_eq_true, ↓reduceIte]
      exact .inl rfl

/-- A restart starts the task again or fails it, or it breaks before it changes the task. -/
theorem restart_safe {helper : Helper} {helpers helpers' : PdfHelpers}
    {u : Except Stop RoundUpdate}
    (ran : outcome (RunningTask.restart helper) ⟨t, helpers⟩ = (u, ⟨t', helpers'⟩))
    (hsafe : ∀ task, t = .signPdf task →
      task.signTask.group.certificate.isSome ∧ helper.pdfStart ≠ .broken) :
    (t' = t ∧ ∃ stop, u = .error stop) ∨ u = .ok (.nextRound 1) ∨
      isPdf t ∧ ∃ f, u = .ok (.failed f) := by
  have hpost : post (RunningTask.restart helper) ⟨t, helpers⟩ (fun u r' =>
      (r'.task = t ∧ ∃ stop, u = .error stop) ∨ u = .ok (.nextRound 1) ∨
        isPdf t ∧ ∃ f, u = .ok (.failed f)) := by
    cases t with
    | group t => exact .inr (.inl rfl)
    | sign t => exact .inr (.inl rfl)
    | decrypt t => exact .inr (.inl rfl)
    | signPdf t =>
      obtain ⟨hcert, hhelper⟩ := hsafe t rfl
      simp only [RunningTask.restart, RunningTask.runPdf, SignPDFTask.restart,
        SignPDFTask.lockHelpers, post_bind, post_get, post_zoom]
      by_cases hpoisoned : helpers.poisoned
      · rw [if_pos hpoisoned]
        exact .inl ⟨rfl, _, rfl⟩
      · rw [if_neg hpoisoned]
        simp only [post_pure]
        split_ifs
        · exact .inl ⟨rfl, _, rfl⟩
        · simp only [post_bind, post_set, SignPDFTask.onSignTask, post_zoom, post_modify]
          refine post_mono (pdfStart_safe ?_ hhelper ?_) fun u s hu => ?_
          · exact hcert
          · exact Bool.eq_false_iff.mpr hpoisoned
          · rcases hu with hu | hu
            · exact .inr (.inl hu)
            · exact .inr (.inr ⟨rfl, hu⟩)
  rw [post, ran] at hpost
  exact hpost

/-- What a sweep leaves of a running task when the repository serves it and the helper of a PDF
task answers. -/
inductive SweptTask (helper : Helper) (t : RunningTask) : TaskEntry → Prop where
  | same : SweptTask helper t (.running t)
  | again {t' : RunningTask} {helpers helpers' : PdfHelpers} (data : Bytes)
      (context : contextOf t' = contextOf t) (is_ready : ready t' = ready t)
      (taskInfo : t'.taskInfo = attempted t.taskInfo)
      (session : t'.session = t.session.initializeProtocol data)
      (ran : outcome (RunningTask.restart helper) ⟨t, helpers⟩ =
        (.ok (.nextRound 1), ⟨t', helpers'⟩)) : SweptTask helper t (.running t')
  | failed (f : FailedTask) : SweptTask helper t (.failed f)

theorem restart_swept {env : Env} {id : Uuid} {r : Except Stop Unit} {g g' : Guarded}
    (ho : RestartEntryOutcome env id g r g') (ht : g.entry = .running t)
    (hserves : env.RepositoryServes) (hhelper : env.helper.pdfStart ≠ .broken)
    (hcert : ∀ task, t = .signPdf task → task.signTask.group.certificate.isSome) :
    SweptTask env.helper t g'.entry := by
  cases ho with
  | notRunning hnot => exact absurd ht (hnot t)
  | notStored =>
    rw [ht]
    exact .same
  | @restarted t₀ t₁ _ _ db _ _ _ ht₀ w restart record _ ran =>
    rw [ht] at ht₀
    cases ht₀
    have hall : ∀ task, t = .signPdf task →
        task.signTask.group.certificate.isSome ∧ env.helper.pdfStart ≠ .broken :=
      fun task htask => ⟨hcert task htask, hhelper⟩
    rcases restart_safe ran hall with ⟨rfl, stop, rfl⟩ | rfl | ⟨-, f, rfl⟩
    · cases record
      exact .same
    · have hentry : SweptTask env.helper t (.running t₁) := by
        cases restart with
        | again hcontext hready hinfo hsession start =>
          cases start with
          | started data kept session =>
            refine .again data (kept.context.trans hcontext) (kept.ready.trans hready)
              (kept.taskInfo.trans hinfo) ?_ ran
            rw [session, hsession]
      cases record with
      | nextRound stored => cases stored <;> exact hentry
    · obtain ⟨row, hrow⟩ := incrementTaskAttemptCount_row w.write
      cases record with
      | failed stored =>
        obtain ⟨-, rfl⟩ := stored_ok (resultWrite_served hrow _) stored (.inl hserves)
        exact .failed f

theorem restarted_logged {helper : Helper} {helpers helpers' : PdfHelpers}
    {u : Except Stop RoundUpdate} (h : RunningLogged pdf entries t) (ho : RestartOutcome t u t')
    (ran : outcome (RunningTask.restart helper) ⟨t, helpers⟩ = (u, ⟨t', helpers'⟩))
    (hsafe : pdf → ∀ task, t = .signPdf task →
      task.signTask.group.certificate.isSome ∧ helper.pdfStart ≠ .broken) :
    RunningLogged pdf entries t' ∨ pdf ∧ ∃ f, u = .ok (.failed f) := by
  have hpast : ∀ e ∈ entries, e.attempt < t'.taskInfo.attempts ∨
      e.attempt = t'.taskInfo.attempts ∧ e.round ≤ t'.session.protocol.round := by
    intro e he
    have hp := h.past e he
    cases ho with
    | broke => exact hp
    | @again t₁ _ _ _ _ hinfo hsession start =>
      have hat : t₁.taskInfo.attempts = t.taskInfo.attempts + 1 := by
        rw [hinfo]
        rfl
      cases start with
      | started _ kept =>
        rw [kept.taskInfo]
        omega
      | failed | broke => omega
  by_cases hcovered : isPdf t → pdf
  · have hall : ∀ task, t = .signPdf task →
        task.signTask.group.certificate.isSome ∧ helper.pdfStart ≠ .broken := by
      rintro task rfl
      exact hsafe (hcovered rfl) task rfl
    rcases restart_safe ran hall with ⟨rfl, -⟩ | rfl | ⟨hpdf, f, rfl⟩
    · exact .inl h
    · left
      cases ho with
      | @again t₁ _ _ _ _ hinfo hsession start =>
        cases start with
        | started _ kept session =>
          apply h.begin
          · left
            rw [kept.taskInfo, hinfo]
            exact Nat.lt_succ_self _
          · rw [session]
            rfl
    · exact .inr ⟨hcovered hpdf, f, rfl⟩
  · left
    refine ⟨hpast, fun hcovered' => absurd ?_ hcovered⟩
    have hsame : isPdf t' = isPdf t := by
      cases ho with
      | broke => rfl
      | again hcontext _ _ _ start =>
        cases start with
        | started _ kept => exact isPdf_congr (kept.context.trans hcontext)
        | failed | broke => exact isPdf_congr hcontext
    rwa [hsame] at hcovered'

def TaskLogged (pdf : Prop) (entries : List Taken) : TaskEntry → Prop
  | .voting _ => entries = []
  | .running t => RunningLogged pdf entries t
  | _ => True

variable {env : Env} {op : Op} {id : Uuid} {r : Except Stop Unit} {g g' : Guarded}

theorem initialize_input {u : Except Stop RoundUpdate}
    (h : InitializeOutcome t u t') (hu : u = .ok .groupCertificatesSent ∨
      ∃ round, u = .ok (.nextRound round)) : t'.session.communicator.input = ∅ := by
  cases h with
  | certificates f _ _ _ _ session =>
    rw [session]
    rfl
  | start _ start =>
    cases start with
    | started data kept session =>
      rw [session]
      rfl
    | failed reason =>
      rcases hu with hu | ⟨round, hu⟩ <;> cases hu
    | broke =>
      rcases hu with hu | ⟨round, hu⟩ <;> cases hu

theorem build_logged {v : VotingTask} {chosen : List Device} {db db' : Database}
    {e e' : TaskEntry} (h : BuildOutcome env id v chosen db e r db' e')
    (he : TaskLogged pdf [] e) : TaskLogged pdf [] e' := by
  cases h with
  | notConstructed => exact he
  | notInitialized => exact he
  | certificates _ init stored =>
    cases stored with
    | served => exact runningLogged_empty (initialize_input init (.inl rfl))
    | fails => exact he
  | nextRound _ init stored =>
    cases stored with
    | served => exact runningLogged_empty (initialize_input init (.inr ⟨_, rfl⟩))
    | fails => exact he
  | failed _ _ stored =>
    cases stored with
    | served => trivial
    | fails => exact he

theorem decide_logged {accept : Bool} (h : DecideOutcome env id d accept g r g')
    (hg : TaskLogged pdf entries g.entry) : TaskLogged pdf entries g'.entry := by
  cases h with
  | notVoting => exact hg
  | notParticipant => exact hg
  | notStored hv =>
    rw [hv] at hg
    exact hg
  | undecided hv =>
    rw [hv] at hg
    exact hg
  | declined hv _ _ _ stored =>
    rw [hv] at hg
    cases stored with
    | served => trivial
    | fails => exact hg
  | accepted hv _ _ _ start =>
    rw [hv] at hg
    have hnil : entries = [] := hg
    subst hnil
    cases start with
    | notStored => rfl
    | built _ build => exact build_logged build rfl

theorem record_logged {u : Except Stop RoundUpdate} {db db' : Database}
    {e : TaskEntry} (h : RecordOutcome env id t db u r db' e) (ht : RunningLogged pdf entries t) :
    TaskLogged pdf entries e := by
  rcases record_phase h with rfl | ⟨f, rfl⟩ | ⟨f, rfl⟩
  · exact ht
  · trivial
  · trivial

theorem restart_logged (ho : RestartEntryOutcome env id g r g')
    (hg : TaskLogged pdf entries g.entry)
    (hsafe : pdf → env.RepositoryServes ∧ env.helper.pdfStart ≠ .broken)
    (hcert : ∀ task, g.entry = .running (.signPdf task) →
      task.signTask.group.certificate.isSome) : TaskLogged pdf entries g'.entry := by
  cases ho with
  | notRunning => exact hg
  | notStored => exact hg
  | @restarted t _ _ _ db _ _ _ ht w restart record rest ran =>
    rw [ht] at hg
    have hall : pdf → ∀ task, t = .signPdf task →
        task.signTask.group.certificate.isSome ∧ env.helper.pdfStart ≠ .broken := by
      rintro hpdf task rfl
      exact ⟨hcert task ht, (hsafe hpdf).2⟩
    rcases restarted_logged hg restart ran hall with hlogged | ⟨hpdf, f, rfl⟩
    · exact record_logged record hlogged
    · -- the task has failed, and its result is stored
      obtain ⟨row', hrow'⟩ := incrementTaskAttemptCount_row w.write
      cases record with
      | failed stored =>
        obtain ⟨-, rfl⟩ := stored_ok (resultWrite_served hrow' _) stored (.inl (hsafe hpdf).1)
        trivial

theorem body_logged (h : BodyOutcome env op id g r g') (hg : TaskLogged pdf entries g.entry)
    (hop : ∀ d messages attempt, op ≠ .updateTask id d messages attempt)
    (hsafe : pdf → op = .restartStaleTasks →
      env.RepositoryServes ∧ env.helper.pdfStart ≠ .broken)
    (hcert : ∀ task, g.entry = .running (.signPdf task) →
      task.signTask.group.certificate.isSome) : TaskLogged pdf entries g'.entry := by
  cases h with
  | decide h => exact decide_logged h hg
  | update => exact absurd rfl (hop _ _ _)
  | restart _ h => exact restart_logged h hg (fun hpdf => hsafe hpdf rfl) hcert
  | acknowledge h =>
    cases h with
    | notFinished => exact hg
    | acknowledged _ _ stored => cases stored <;> trivial
  | read => exact hg

def entriesOf (log : List Taken) (process : ℕ) (id : Uuid) : List Taken :=
  log.filter fun e => e.process = process ∧ e.task = id

structure CacheLogged (pdf : Prop) (log : List Taken) (process : ℕ) (s : Server) : Prop where
  cached : ∀ id e, s.taskCache id = some e → TaskLogged pdf (entriesOf log process id) e
  missing : ∀ id, s.taskCache id = none → entriesOf log process id = []

variable {log new : List Taken} {process : ℕ} {s s' : Server} {e : TaskEntry}

omit [External] in
theorem entriesOf_append_of_ne {j : Uuid} (h : ∀ x ∈ new, x.task = id) (hj : j ≠ id) :
    entriesOf (log ++ new) process j = entriesOf log process j := by
  have hnone : entriesOf new process j = [] := by
    rw [entriesOf, List.filter_eq_nil_iff]
    intro x hx hmatch
    obtain ⟨-, htask⟩ := of_decide_eq_true hmatch
    exact hj (htask.symm.trans (h x hx))
  rw [entriesOf, List.filter_append]
  change _ ++ entriesOf new process j = _
  rw [hnone, List.append_nil]
  rfl

omit [External] in
theorem entriesOf_append_self (h : ∀ x ∈ new, x.process = process ∧ x.task = id) :
    entriesOf (log ++ new) process id = entriesOf log process id ++ new := by
  have hall : entriesOf new process id = new := by
    rw [entriesOf, List.filter_eq_self]
    intro x hx
    exact decide_eq_true (h x hx)
  rw [entriesOf, List.filter_append]
  change _ ++ entriesOf new process id = _
  rw [hall]
  rfl

theorem hydrated_logged {db : Database} (h : Tables db) (hh : hydrateTask db id = .ok e) :
    TaskLogged pdf [] e := by
  obtain ⟨row, hrow⟩ := hydrate_row hh
  have ho := hydrate_outcome h hrow
  rw [hh] at ho
  cases ho with
  | voting => rfl
  | running _ _ communicator =>
    apply runningLogged_empty
    obtain ⟨m, -, -, hnew⟩ := hydrateCommunicator_spec h hrow
    rw [hnew] at communicator
    exact (Communicator.new_ok communicator).2.2.2
  | finished | declined | failed => trivial

theorem loaded_logged (hi : Invariant s) (h : CacheLogged pdf log process s)
    (hl : Loaded env s id e) : TaskLogged pdf (entriesOf log process id) e := by
  cases hl with
  | hit hc => exact h.cached id e hc
  | hydrated miss _ hh =>
    rw [h.missing id miss]
    exact hydrated_logged hi.tables hh

theorem CacheLogged.task (new : List Taken) (h : CacheLogged pdf log process s)
    (hc : ∀ j, j ≠ id → s'.taskCache j = s.taskCache j) (hnew : ∀ x ∈ new, x.task = id)
    (he : TaskLogged pdf (entriesOf (log ++ new) process id) e) :
    CacheLogged pdf (log ++ new) process (ServerOutcomes.cached s' id e) := by
  constructor
  · intro j e' he'
    by_cases hj : j = id
    · subst hj
      rw [cached_self] at he'
      cases he'
      exact he
    · rw [cached_of_ne hj, hc j hj] at he'
      rw [entriesOf_append_of_ne hnew hj]
      exact h.cached j e' he'
  · intro j hnone
    by_cases hj : j = id
    · subst hj
      rw [cached_self] at hnone
      cases hnone
    · rw [cached_of_ne hj, hc j hj] at hnone
      rw [entriesOf_append_of_ne hnew hj]
      exact h.missing j hnone

theorem CacheLogged.task_same (h : CacheLogged pdf log process s)
    (hc : ∀ j, j ≠ id → s'.taskCache j = s.taskCache j)
    (he : TaskLogged pdf (entriesOf log process id) e) :
    CacheLogged pdf log process (ServerOutcomes.cached s' id e) := by
  have htask := h.task [] hc (fun x hx => absurd hx List.not_mem_nil)
    (by rwa [List.append_nil])
  rwa [List.append_nil] at htask

theorem move_logged (hi : Invariant s) (h : CacheLogged pdf log process s)
    (m : Move env op s r s') (hop : ∀ id d messages attempt, op ≠ .updateTask id d messages attempt)
    (hrestart : op ≠ .restartServer)
    (hsafe : pdf → op = .restartStaleTasks →
      env.RepositoryServes ∧ env.helper.pdfStart ≠ .broken) : CacheLogged pdf log process s' := by
  cases m with
  | refused => exact h
  | aside ha =>
    constructor
    · rw [ha.taskCache]
      exact h.cached
    · rw [ha.taskCache]
      exact h.missing
  | addDevice w => exact ⟨h.cached, h.missing⟩
  | @addTask v db admitted w =>
    have hnew : s.taskCache v.taskInfo.id = none := by
      obtain ⟨hnew, -⟩ := insertTask_ok (createRows_ok w.write).2.2
      cases hc : s.taskCache v.taskInfo.id with
      | none => rfl
      | some e =>
        obtain ⟨row, hrow, -⟩ := hi.cache _ e hc
        exact absurd (mem_of_row hrow) hnew
    exact h.task_same (fun _ _ => rfl) (h.missing _ hnew)
  | restart hr => exact absurd hr hrestart
  | @task id e _ g loaded body =>
    have hs := task_sound hi loaded body
    apply h.task_same
    · intro j hj
      rw [hs.taskCache]
      exact Function.update_of_ne hj _ _
    · refine body_logged body (loaded_logged hi h loaded) (hop id) hsafe fun task htask => ?_
      obtain ⟨row, hrow, he⟩ := loaded_entry hi loaded
      rw [show e = .running (.signPdf task) from htask] at he
      exact certificate_of_signPdf hi.tables hrow he.runningOf.context rfl

end Tasks

/-- A server, the number of processes that have ended so far, and the log. -/
structure History where
  server : Server
  process : ℕ
  log : List Taken

section Histories

variable [External]

def takenBy (env : Env) (s : Server) (process : ℕ) : Op → List Taken
  | .updateTask id d messages attempt =>
    match lockedTask env s id with
    | .ok (.running t) =>
      if attempt = t.taskInfo.attempts then takenFrom process id d messages t else []
    | _ => []
  | _ => []

def isRestart : Op → Bool
  | .restartServer => true
  | _ => false

def History.next (env : Env) (op : Op) (h : History) : History where
  server := ServerModel.next env op h.server
  process :=
    if isRestart op ∨ result env op h.server = .error .crash then h.process + 1 else h.process
  log := h.log ++ takenBy env h.server h.process op

inductive Recorded : History → Prop where
  | initial : Recorded ⟨initial, 0, []⟩
  | step {h : History} (env : Env) (op : Op) : Recorded h → Recorded (h.next env op)

def History.run (h : History) (ops : List (Env × Op)) : History :=
  ops.foldl (fun h p => h.next p.1 p.2) h

theorem Recorded.run {h : History} (hh : Recorded h) (ops : List (Env × Op)) :
    Recorded (h.run ops) := by
  induction ops generalizing h with
  | nil => exact hh
  | cons p ops ih => exact ih (.step p.1 p.2 hh)

structure HistoryLogged (pdf : Prop) (h : History) : Prop where
  invariant : Invariant h.server
  cache : CacheLogged pdf h.log h.process h.server
  past : ∀ e ∈ h.log, e.process ≤ h.process

variable {pdf : Prop} {env : Env} {op : Op} {s : Server} {process : ℕ} {log : List Taken}
  {id : Uuid} {d : Bytes} {messages : List ClientMessage} {attempt : ℕ}

omit [External] in
theorem mem_takenBy {e : Taken} (h : e ∈ takenBy env s process op) : e.process = process := by
  unfold takenBy at h
  split at h
  · split at h
    · split_ifs at h
      · exact (mem_takenFrom h).1
      · cases h
    · cases h
  · cases h

omit [External] in
theorem takenBy_loaded {t : RunningTask} (hl : Loaded env s id (.running t))
    (ha : attempt = t.taskInfo.attempts) :
    takenBy env s process (.updateTask id d messages attempt) =
      takenFrom process id d messages t := by
  simp only [takenBy, lockedTask_ok.mpr hl, ha, ↓reduceIte]

theorem exec_update_logged (hi : Invariant s) (h : CacheLogged pdf log process s) :
    post (exec env (.updateTask id d messages attempt)) s (fun _ s' => CacheLogged pdf
      (log ++ takenBy env s process (.updateTask id d messages attempt)) process s') := by
  refine post_mono (updateTask_outcome env id d messages attempt s) fun r s' ho => ?_
  cases ho with
  | notLoaded hn =>
    have hnone : takenBy env s process (.updateTask id d messages attempt) = [] := by
      obtain ⟨stop, hs⟩ := lockedTask_error hn
      simp only [takenBy, hs]
    rw [hnone, List.append_nil]
    exact h
  | @loaded e _ g hl body =>
    have hs := task_sound hi hl (.update body)
    have hcache : ∀ j, j ≠ id → g.server.taskCache j = s.taskCache j := by
      intro j hj
      rw [hs.taskCache]
      exact Function.update_of_ne hj _ _
    have hlogged := loaded_logged hi h hl
    cases body with
    | notRunning hnot =>
      have hnone : takenBy env s process (.updateTask id d messages attempt) = [] := by
        simp only [takenBy, lockedTask_ok.mpr hl]
        cases e with
        | running t => exact absurd rfl (hnot t)
        | _ => rfl
      rw [hnone, List.append_nil]
      exact h.task_same hcache hlogged
    | stale ht hne =>
      have hnone : takenBy env s process (.updateTask id d messages attempt) = [] := by
        have he : e = .running _ := ht
        subst he
        simp only [takenBy, lockedTask_ok.mpr hl, hne, ↓reduceIte]
      rw [hnone, List.append_nil]
      exact h.task_same hcache hlogged
    | updated ht hcurrent update record =>
      have he : e = .running _ := ht
      subst he
      rw [takenBy_loaded hl hcurrent]
      apply h.task _ hcache
      · intro x hx
        exact (mem_takenFrom hx).2.1
      · rw [entriesOf_append_self fun x hx => ⟨(mem_takenFrom hx).1, (mem_takenFrom hx).2.1⟩]
        exact record_logged record (update_logged hlogged update)

omit [External] in
theorem takenBy_other (hop : ∀ id d messages attempt, op ≠ .updateTask id d messages attempt) :
    takenBy env s process op = [] := by
  unfold takenBy
  split
  · exact absurd rfl (hop _ _ _ _)
  · rfl

theorem exec_logged (hi : Invariant s) (h : CacheLogged pdf log process s)
    (hrestart : op ≠ .restartServer)
    (hsafe : pdf → op = .restartStaleTasks →
      env.RepositoryServes ∧ env.helper.pdfStart ≠ .broken) :
    post (exec env op) s (fun _ s' =>
      CacheLogged pdf (log ++ takenBy env s process op) process s') := by
  by_cases hop : ∃ id d messages attempt, op = .updateTask id d messages attempt
  · obtain ⟨id, d, messages, attempt, rfl⟩ := hop
    exact exec_update_logged hi h
  · push Not at hop
    rw [takenBy_other hop, List.append_nil]
    refine post_mono (exec_runs env op s hi) fun r s' hruns => ?_
    have hkeep : Invariant s' ∧ CacheLogged pdf log process s' := by
      refine hruns.keeps (P := fun t => Invariant t ∧ CacheLogged pdf log process t) ?_ ⟨hi, h⟩
      rintro a _ b ⟨ha, hca⟩ m
      exact ⟨(move_invariant ha m).1, move_logged ha hca m hop hrestart hsafe⟩
    exact hkeep.2

theorem cacheLogged_restore (db : Database) (h : ∀ e ∈ log, e.process ≤ process) :
    CacheLogged pdf log (process + 1) (Server.restore db) := by
  constructor
  · intro id e he
    cases he
  · intro id _
    rw [entriesOf, List.filter_eq_nil_iff]
    intro e he hmatch
    obtain ⟨hp, -⟩ := of_decide_eq_true hmatch
    have hle := h e he
    omega

theorem next_logged {h : History} (hh : HistoryLogged pdf h)
    (hsafe : pdf → op = .restartStaleTasks →
      env.RepositoryServes ∧ env.helper.pdfStart ≠ .broken) :
    HistoryLogged pdf (h.next env op) := by
  have hpast : ∀ e ∈ h.log ++ takenBy env h.server h.process op, e.process ≤ h.process := by
    intro e he
    rcases List.mem_append.mp he with hold | hnew
    · exact hh.past e hold
    · exact (mem_takenBy hnew).le
  have hpast' : ∀ e ∈ (h.next env op).log, e.process ≤ (h.next env op).process := by
    intro e he
    have hle := hpast e he
    simp only [History.next]
    split_ifs
    · omega
    · exact hle
  refine ⟨(next_invariant env op _ hh.invariant).1, ?_, hpast'⟩
  by_cases hrestart : op = .restartServer
  · subst hrestart
    exact cacheLogged_restore _ hpast
  · have hexec := exec_logged hh.invariant hh.cache hrestart hsafe
    have hno : isRestart op = false := by
      cases op <;> first | rfl | exact absurd rfl hrestart
    simp only [History.next, hno, next_eq, Bool.false_eq_true, false_or]
    by_cases hcrash : result env op h.server = .error .crash
    · rw [if_pos hcrash, if_pos hcrash]
      exact cacheLogged_restore _ hpast
    · rw [if_neg hcrash, if_neg hcrash]
      exact hexec

theorem recorded_logged {h : History} (hh : Recorded h) : HistoryLogged False h := by
  induction hh with
  | initial =>
    refine ⟨reachable_invariant .initial, ⟨fun _ _ he => ?_, fun _ _ => rfl⟩, fun _ he => ?_⟩
    · cases he
    · cases he
  | step env op _ ih => exact next_logged ih False.elim

end Histories

end MessageHistory
