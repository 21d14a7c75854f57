import MeesignServer.FoundTasks
import MeesignServer.ResultAgreement
import MeesignServer.MessageDelivery
import MeesignServer.ClientMessages

/-!
# The work that clients are handed

A running task hands each active share the message that its protocol has produced in the
current attempt and round. The outgoing messages are not stored, so a task that is loaded
from the tables hands out empty bytes until it is restarted.
-/
namespace WorkMessages

open FallibleProgram FiniteMap DataModel CommunicatorModel ProtocolModel VotingModel
open RunningTaskModel DatabaseModel HydrationModel ServerModel TaskOutcomes ServerOutcomes
open ServerInvariant TableFrames HydrationOutcomes TaskStart InvariantSteps ServerMoves PhaseOrder
open MessageBuffers BufferInvariant MessageDelivery MessageHistory ResultAgreement ClientMessages
open ProcessStops FoundTasks

variable [External]

/-- The data that goes into the first message of an attempt. -/
def firstData : RunningTask → Bytes
  | .group _ => []
  | .sign task => task.preprocessed.getD task.data
  | .signPdf task => task.signTask.preprocessed.getD task.signTask.data
  | .decrypt task => task.data

/-- What is relayed to an index out of the messages of the given calls. -/
def relayedFrom (c : Communicator) (calls : List Call) (idx : ℕ) : ServerMessage :=
  { c with input := collect (calls.flatMap Call.messages) : Communicator }.relayed idx

/-- The message for an index in the current attempt and round: the certificates of the group's
members, the initial message, or what the calls of the previous round have brought. -/
inductive Produced (entries : List Taken) (t : RunningTask) (idx : ℕ) : Bytes → Prop where
  | certificates {task : GroupTask} (group : t = .group task) (round : task.protocol.round = 0) :
      Produced entries t idx (External.encodeServerMessage task.certificates)
  | first (round : t.session.protocol.round = 1) :
      Produced entries t idx (t.session.initMessage (firstData t) idx)
  | relayed {round : ℕ} (pos : 0 < round) (later : t.session.protocol.round = round + 1) :
      Produced entries t idx (External.encodeServerMessage (relayedFrom t.session.communicator
        (callsAt entries t.taskInfo.attempts round) idx))

section First

variable {helper : Helper} {helpers helpers' : PdfHelpers} {t t' : RunningTask}
  {u : Except Stop RoundUpdate}

def JustBegun (t : RunningTask) : Prop :=
  ∃ s : Session, t.session = s.initializeProtocol (firstData t)

theorem pdfStart_begun (helper : Helper) (s : PdfState) : post (SignPDFTask.startTask helper) s
    (fun u s' => ∀ n, u = .ok (.nextRound n) → JustBegun (.signPdf s'.task)) := by
  simp only [SignPDFTask.startTask, post_bind, post_get]
  cases helper.pdfStart with
  | noTempFile | notWritten | notSpawned =>
    intro n hn
    cases hn
  | broken =>
    simp only
    split_ifs
    · intro n hn
      cases hn
    · intro n hn
      cases hn
  | hash hash =>
    simp only
    split_ifs
    · intro n hn
      cases hn
    · cases hash with
      | nil =>
        intro n hn
        cases hn
      | cons b hash =>
        simp only [SignPDFTask.lockHelpers, SignPDFTask.onSignTask, SignTask.startTask,
          SignTask.onSession, post_bind, post_get, post_zoom, post_modify, post_pure]
        split_ifs
        · intro n hn
          cases hn
        · intro n _
          exact ⟨_, rfl⟩

theorem restart_begun (ran : outcome (RunningTask.restart helper) ⟨t, helpers⟩ =
    (.ok (.nextRound 1), ⟨t', helpers'⟩)) : JustBegun t' := by
  have hpost : post (RunningTask.restart helper) ⟨t, helpers⟩
      (fun u r' => ∀ n, u = .ok (.nextRound n) → JustBegun r'.task) := by
    cases t with
    | group t => exact fun _ _ => ⟨_, rfl⟩
    | sign t => exact fun _ _ => ⟨_, rfl⟩
    | decrypt t => exact fun _ _ => ⟨_, rfl⟩
    | signPdf t =>
      simp only [RunningTask.restart, RunningTask.runPdf, SignPDFTask.restart,
        SignPDFTask.lockHelpers, post_bind, post_get, post_zoom]
      split_ifs
      · intro n hn
        cases hn
      · simp only [post_pure]
        split_ifs
        · intro n hn
          cases hn
        · simp only [post_bind, post_set, SignPDFTask.onSignTask, post_zoom, post_modify]
          exact pdfStart_begun helper _
  rw [post, ran] at hpost
  exact hpost 1 rfl

theorem initialize_begun {u : RoundUpdate}
    (ran : outcome (RunningTask.initializeTask helper) ⟨t, helpers⟩ = (.ok u, ⟨t', helpers'⟩))
    (hu : u = .groupCertificatesSent ∨ ∃ n, u = .nextRound n) :
    JustBegun t' ∧ ready t' ∨ ∃ task task' : GroupTask, t = .group task ∧ t' = .group task' ∧
      task' = { task with
        communicator := task.communicator.sendAll
          (fun _ => External.encodeServerMessage task.certificates)
        certificatesSent := true } := by
  have hpost : post (RunningTask.initializeTask helper) ⟨t, helpers⟩ (fun u r' =>
      (u = .ok .groupCertificatesSent ∨ ∃ n, u = .ok (.nextRound n)) →
        JustBegun r'.task ∧ ready r'.task ∨ ∃ task task' : GroupTask, t = .group task ∧
          r'.task = .group task' ∧ task' = { task with
            communicator := task.communicator.sendAll
              (fun _ => External.encodeServerMessage task.certificates)
            certificatesSent := true }) := by
    cases t with
    | group t => exact fun _ => .inr ⟨t, _, rfl, rfl, rfl⟩
    | sign t => exact fun _ => .inl ⟨⟨_, rfl⟩, rfl⟩
    | decrypt t => exact fun _ => .inl ⟨⟨_, rfl⟩, rfl⟩
    | signPdf t =>
      simp only [RunningTask.initializeTask, RunningTask.runPdf, post_bind, post_get, post_zoom]
      refine post_mono (post_and (pdfStart_begun helper _) (signPDFTask_start helper _))
        fun u s' hs hu => .inl ⟨?_, rfl⟩
      rcases hu with rfl | ⟨n, rfl⟩
      · cases hs.2
      · exact hs.1 n rfl
  rw [post, ran] at hpost
  apply hpost
  rcases hu with rfl | ⟨n, rfl⟩
  · exact .inl rfl
  · exact .inr ⟨n, rfl⟩

section Update

variable {d : Bytes} {messages : List ClientMessage} {is_taken : Bool} {c : Communicator}

theorem update_listens (hw : t.waitingFor d) (hr : ready t)
    (hreceive : t.session.communicator.receiveMessages d messages = .ok (is_taken, c))
    (hnot : (Session.mk c t.session.protocol).roundComplete = false) :
    post (RunningTask.update helper d messages) ⟨t, helpers⟩
      (fun _ r' => r'.task = withSession t ⟨c, t.session.protocol⟩) := by
  rw [← post_updateIn_same, post_updateIn]
  simp only [hw, hr, hreceive, reorder_same, session_withSession, hnot, Bool.not_true,
    Bool.false_eq_true, ↓reduceIte]

theorem update_begins {task : GroupTask} (hw : task.waitingFor d) (hr : task.certificatesSent)
    (hreceive : task.communicator.receiveMessages d messages = .ok (is_taken, c))
    (hcomplete : (Session.mk c task.protocol).roundComplete) (hround : task.protocol.round = 0) :
    post (RunningTask.update helper d messages) ⟨.group task, helpers⟩
      (fun _ r' => JustBegun r'.task) := by
  have hw' : RunningTask.waitingFor (.group task) d := hw
  have hr' : ready (.group task) := hr
  have hreceive' : (RunningTask.session (.group task)).communicator.receiveMessages d messages =
      .ok (is_taken, c) := hreceive
  have hcomplete' : (Session.mk c (RunningTask.session (.group task)).protocol).roundComplete :=
    hcomplete
  have hnot : ¬ (!task.certificatesSent) = true := by simp [hr]
  rw [← post_updateIn_same, post_updateIn]
  simp only [hw', hr', hreceive', reorder_same, session_withSession, hcomplete', Bool.not_true,
    Bool.false_eq_true, ↓reduceIte]
  rw [withSession, post_nextRoundOf_group]
  simp only [GroupTask.nextRound, post_bind, post_get, hnot, RunningTask.session, hround,
    Bool.false_eq_true, ↓reduceIte]
  exact ⟨_, rfl⟩

end Update

end First

section Tasks

/-- A running task whose outgoing messages are those of its attempt and round. -/
structure Serving (entries : List Taken) (t : RunningTask) : Prop where
  is_ready : ready t
  group : t.session.protocol.round = 0 → ∃ task, t = .group task
  output : t.session.protocol.round ≤ t.session.protocol.lastRound →
    ∀ idx ∈ t.session.communicator.getProtocolIndices, ∃ m,
      t.session.communicator.output.lookup idx = some m ∧ Produced entries t idx m

variable {entries entries' : List Taken} {t t' : RunningTask} {d : Bytes}
  {messages : List ClientMessage} {is_taken : Bool} {c : Communicator} {u : Except Stop RoundUpdate}

theorem JustBegun.serving (h : JustBegun t) (hr : ready t) : Serving entries t := by
  obtain ⟨s, hs⟩ := h
  have hround : t.session.protocol.round = 1 := by
    rw [hs]
    rfl
  refine ⟨hr, fun hzero => ?_, fun _ idx hidx => ?_⟩
  · omega
  · have hmessage : t.session.initMessage (firstData t) idx = s.initMessage (firstData t) idx := by
      rw [hs]
      rfl
    refine ⟨_, ?_, .first hround⟩
    rw [hs] at hidx
    rw [hmessage, hs]
    exact lookup_sendAll hidx

omit [External] in
theorem relayedFrom_congr {c c' : Communicator} (h : c'.protocolType = c.protocolType)
    (calls : List Call) (idx : ℕ) : relayedFrom c' calls idx = relayedFrom c calls idx := by
  simp only [relayedFrom, Communicator.relayed, h]

omit [External] in
theorem firstData_withSession (t : RunningTask) (s : Session) :
    firstData (withSession t s) = firstData t := by
  cases t <;> rfl

omit [External] in
theorem taskInfo_withSession (t : RunningTask) (s : Session) :
    (withSession t s).taskInfo = t.taskInfo := by
  cases t <;> rfl

omit [External] in
theorem certificates_congr (task : GroupTask) (hs : c.activeShares = task.communicator.activeShares)
    (hp : c.protocolType = task.communicator.protocolType) :
    { task with communicator := c : GroupTask }.certificates = task.certificates := by
  simp only [GroupTask.certificates, identifierToIndices_congr hs hp]

theorem initMessage_congr (s : Session) (hs : c.activeShares = s.communicator.activeShares)
    (hp : c.protocolType = s.communicator.protocolType) (data : Bytes) (idx : ℕ) :
    { s with communicator := c : Session }.initMessage data idx = s.initMessage data idx := by
  simp only [Session.initMessage, getProtocolIndices_congr hs hp]

theorem Produced.receive {idx : ℕ} {m : Bytes} (h : Produced entries t idx m)
    (hreceive : t.session.communicator.receiveMessages d messages = .ok (is_taken, c))
    (hcalls : ∀ r, r < t.session.protocol.round → callsAt entries' t.taskInfo.attempts r =
      callsAt entries t.taskInfo.attempts r) :
    Produced entries' (withSession t ⟨c, t.session.protocol⟩) idx m := by
  obtain ⟨hs, hp, -⟩ := receiveMessages_ok hreceive
  cases h with
  | @certificates task hgroup hround =>
    subst hgroup
    rw [← certificates_congr task hs hp]
    exact .certificates rfl hround
  | first hround =>
    have hmessage : (withSession t ⟨c, t.session.protocol⟩).session.initMessage
        (firstData (withSession t ⟨c, t.session.protocol⟩)) idx =
          t.session.initMessage (firstData t) idx := by
      rw [session_withSession, firstData_withSession]
      exact initMessage_congr t.session hs hp _ _
    rw [← hmessage]
    apply Produced.first
    rw [session_withSession]
    exact hround
  | @relayed round pos hlater =>
    have hmessage : relayedFrom (withSession t ⟨c, t.session.protocol⟩).session.communicator
        (callsAt entries' (withSession t ⟨c, t.session.protocol⟩).taskInfo.attempts round) idx =
          relayedFrom t.session.communicator (callsAt entries t.taskInfo.attempts round) idx := by
      rw [session_withSession, taskInfo_withSession, hcalls round (by omega)]
      exact relayedFrom_congr hp _ _
    rw [← hmessage]
    apply Produced.relayed pos
    rw [session_withSession]
    exact hlater

theorem Serving.receive (h : Serving entries t)
    (hreceive : t.session.communicator.receiveMessages d messages = .ok (is_taken, c))
    (hcalls : ∀ r, r < t.session.protocol.round → callsAt entries' t.taskInfo.attempts r =
      callsAt entries t.taskInfo.attempts r) :
    Serving entries' (withSession t ⟨c, t.session.protocol⟩) := by
  obtain ⟨hs, hp, -, hout, -⟩ := receiveMessages_ok hreceive
  refine ⟨?_, ?_, ?_⟩
  · rw [ready_withSession]
    exact h.is_ready
  · rw [session_withSession]
    intro hzero
    obtain ⟨task, rfl⟩ := h.group hzero
    exact ⟨_, rfl⟩
  · rw [session_withSession]
    intro hle idx hidx
    rw [getProtocolIndices_congr hs hp] at hidx
    obtain ⟨m, hm, hproduced⟩ := h.output hle idx hidx
    exact ⟨m, hout ▸ hm, hproduced.receive hreceive hcalls⟩

theorem Serving.append (h : Serving entries t) (hcalls : ∀ r, r < t.session.protocol.round →
    callsAt entries' t.taskInfo.attempts r = callsAt entries t.taskInfo.attempts r) :
    Serving entries' t := by
  refine ⟨h.is_ready, h.group, fun hle idx hidx => ?_⟩
  obtain ⟨m, hm, hproduced⟩ := h.output hle idx hidx
  refine ⟨m, hm, ?_⟩
  cases hproduced with
  | certificates hgroup hround => exact .certificates hgroup hround
  | first hround => exact .first hround
  | @relayed round pos hlater =>
    rw [← hcalls round (by omega)]
    exact .relayed pos hlater

omit [External] in
theorem callsAt_takenFrom (entries : List Taken) (process : ℕ) (id : Uuid) {r : ℕ}
    (hr : r < t.session.protocol.round) :
    callsAt (entries ++ takenFrom process id d messages t) t.taskInfo.attempts r =
      callsAt entries t.taskInfo.attempts r := by
  have hnone : callsAt (takenFrom process id d messages t) t.taskInfo.attempts r = [] := by
    apply callsAt_nil
    intro e he _ hround
    obtain ⟨-, -, -, hcurrent⟩ := mem_takenFrom he
    omega
  rw [callsAt_append, hnone, List.append_nil]

/-- The messages of a complete round are relayed. -/
theorem advance_serving {t₁ : RunningTask} (hlog : RunningLogged True entries t₁)
    (hr : ready t₁) (pos : 0 < t₁.session.protocol.round)
    (last : t₁.session.protocol.round < t₁.session.protocol.lastRound) (kept : Kept t₁ t')
    (session : t'.session =
      ⟨t₁.session.communicator.relay, t₁.session.incrementRound.protocol⟩) :
    Serving entries t' := by
  have hinput := (hlog.buffered (fun _ => trivial) last.le).input
  refine ⟨kept.ready.trans hr, fun hzero => ?_, fun _ idx hidx => ?_⟩
  · rw [session] at hzero
    cases hzero
  · have hmessage : relayedFrom t'.session.communicator
        (callsAt entries t'.taskInfo.attempts t₁.session.protocol.round) idx =
          t₁.session.communicator.relayed idx := by
      rw [kept.taskInfo, session]
      simp only [relayedFrom, Communicator.relayed, Communicator.relay, Communicator.sendAll,
        ← hinput]
    refine ⟨_, ?_, .relayed pos ?_⟩
    · rw [session] at hidx ⊢
      rw [session] at hmessage
      rw [hmessage]
      exact lookup_sendAll hidx
    · rw [session]
      rfl

theorem update_serving {helper : Helper} {helpers helpers' : PdfHelpers} {process : ℕ} {id : Uuid}
    (h : Serving entries t) (hlog : RunningLogged True entries t)
    (ho : UpdateOutcome d messages t u t')
    (ran : outcome (RunningTask.update helper d messages) ⟨t, helpers⟩ = (u, ⟨t', helpers'⟩)) :
    Serving (entries ++ takenFrom process id d messages t) t' := by
  have hcalls : ∀ r, r < t.session.protocol.round →
      callsAt (entries ++ takenFrom process id d messages t) t.taskInfo.attempts r =
        callsAt entries t.taskInfo.attempts r := fun r hr => callsAt_takenFrom entries process id hr
  cases ho with
  | notWaiting => exact h.append hcalls
  | broke => exact h.append hcalls
  | @received t₁ _ _ c _ waiting is_ready receive kept session round =>
    have hready : ready t₁ := kept.ready.trans is_ready
    cases hcomplete : (Session.mk c t.session.protocol).roundComplete with
    | false =>
      have hlisten : post (RunningTask.update helper d messages) ⟨t, helpers⟩
          (fun _ r' => r'.task = withSession t ⟨c, t.session.protocol⟩) :=
        update_listens waiting is_ready receive hcomplete
      rw [post, ran] at hlisten
      rw [show t' = _ from hlisten]
      exact h.receive receive hcalls
    | true =>
      cases round with
      | listen hnot =>
        rw [session, hcomplete] at hnot
        cases hnot
      | start _ hround start =>
        rw [session] at hround
        obtain ⟨task, rfl⟩ := h.group hround
        have hbegun : post (RunningTask.update helper d messages) ⟨.group task, helpers⟩
            (fun _ r' => JustBegun r'.task) :=
          update_begins waiting is_ready receive hcomplete hround
        rw [post, ran] at hbegun
        apply JustBegun.serving hbegun
        cases start with
        | started _ kept' => exact kept'.ready.trans hready
        | failed | broke => exact hready
      | advance _ pos last kept' session' =>
        have hlogged : RunningLogged True (entries ++ takenFrom process id d messages t) t₁ :=
          receive_logged hlog waiting is_ready receive kept session
        exact advance_serving hlogged hready pos last kept' session'
      | final _ hlast final =>
        -- no round is left to send messages for
        have hover : ∀ c : Communicator, Kept t₁ t' →
            t'.session = ⟨c, t₁.session.incrementRound.protocol⟩ →
            Serving (entries ++ takenFrom process id d messages t) t' := by
          intro c kept' session'
          have hround : t'.session.protocol.round = t₁.session.protocol.round + 1 := by
            rw [session']
            rfl
          have hsame : t'.session.protocol.lastRound = t₁.session.protocol.lastRound := by
            rw [session']
            rfl
          refine ⟨kept'.ready.trans hready, fun hzero => ?_, fun hle => ?_⟩
          · omega
          · omega
        cases final with
        | finished kept' session' => exact hover _ kept' session'
        | failed _ kept' session' => exact hover _ kept' session'
        | broke _ kept' session' =>
          rcases session' with session' | session'
          · exact hover _ kept' session'
          · exact hover _ kept' session'

def WorkEntry (entries : List Taken) : TaskEntry → Prop
  | .running t => Serving entries t
  | _ => True

variable {env : Env} {op : Op} {id : Uuid} {r : Except Stop Unit} {g g' : Guarded} {e : TaskEntry}

theorem firstCall_work {v : VotingTask} {chosen : List Device} {helpers helpers' : PdfHelpers}
    {db : Database} {e e' : TaskEntry} (h : FirstCall env id v chosen db helpers e e' helpers')
    (he : WorkEntry entries e) : WorkEntry entries e' := by
  cases h with
  | notConstructed => exact he
  | stopped => exact he
  | notRecorded => exact he
  | failed => trivial
  | started hcon ran hu =>
    rcases initialize_begun ran hu with ⟨hbegun, hready⟩ | ⟨task, task', rfl, rfl, hsent⟩
    · exact hbegun.serving hready
    · obtain ⟨m, -, hconstructed⟩ := construct_ok hcon
      have hcertificates : task'.certificates = task.certificates := by
        rw [hsent]
        exact certificates_congr task rfl rfl
      refine ⟨by rw [hsent]; rfl, fun _ => ⟨task', rfl⟩, fun _ idx hidx => ?_⟩
      refine ⟨External.encodeServerMessage task.certificates, ?_, ?_⟩
      · rw [hsent] at hidx ⊢
        exact lookup_sendAll hidx
      · rw [← hcertificates]
        apply Produced.certificates rfl
        rw [hsent]
        exact hconstructed.round

theorem swept_work {helper : Helper} (h : SweptTask helper t e) (ht : Serving entries t) :
    WorkEntry entries e := by
  cases h with
  | same => exact ht
  | failed => trivial
  | again _ _ hready _ _ ran => exact (restart_begun ran).serving (hready.trans ht.is_ready)

theorem decide_work {accept : Bool} (h : DecideOutcome env id d accept g r g')
    (hg : WorkEntry entries g.entry) : WorkEntry entries g'.entry := by
  cases h with
  | notVoting => exact hg
  | notParticipant => exact hg
  | notStored | undecided => trivial
  | declined _ _ _ _ stored => cases stored <;> trivial
  | accepted _ _ _ _ start =>
    cases start with
    | notStored => trivial
    | built _ _ _ first => exact firstCall_work first trivial

theorem body_work (hop : ∀ id d messages attempt, op ≠ .updateTask id d messages attempt)
    (hsafe : op = .restartStaleTasks → env.RepositoryServes ∧ env.helper.pdfStart ≠ .broken) :
    KeptByBody env op (fun j e => j = id → WorkEntry entries e) := by
  intro s j e r g hi loaded body he hj
  have hwork := he hj
  cases body with
  | decide h => exact decide_work h hwork
  | update => exact absurd rfl (hop _ _ _ _)
  | restart _ h =>
    obtain ⟨hserves, hhelper⟩ := hsafe rfl
    cases e with
    | running t =>
      refine swept_work (restart_swept h rfl hserves hhelper fun task htask => ?_) hwork
      obtain ⟨row, hrow, he⟩ := loaded_entry hi loaded
      subst htask
      exact GroupWellFormed.certificate_of_signPdf hi.tables hrow he.runningOf.context rfl
    | voting | declined | finished | failed =>
      cases h with
      | notRunning => exact hwork
      | notStored ht => cases ht
      | restarted ht => cases ht
  | acknowledge h =>
    cases h with
    | notFinished => exact hwork
    | acknowledged _ _ stored => cases stored <;> trivial
  | read => exact hwork

end Tasks

section Runs

variable {env : Env} {op : Op} {id : Uuid} {h : History} {t : RunningTask} {d : Bytes}
  {messages : List ClientMessage} {attempt : ℕ}

/-- A step that leaves the outgoing messages of a task alone: the process does not die, it is
restarted only if the task is not running, and a sweep restarts each task that it finds. -/
structure KeepsWork (id : Uuid) (env : Env) (op : Op) (s : Server) : Prop where
  up : ∀ call j, env.fault call j ≠ .stops
  restart : op = .restartServer → ∀ t, hydrateTask s.db id ≠ .ok (.running t)
  sweep : op = .restartStaleTasks → env.RepositoryServes ∧ env.helper.pdfStart ≠ .broken

inductive WorkRun (id : Uuid) : History → Prop where
  | initial : WorkRun id ⟨initial, 0, []⟩
  | step {h : History} (env : Env) (op : Op) (quiet : WorkRun id h)
      (undisturbed : KeepsWork id env op h.server) : WorkRun id (h.next env op)

/-- The task hands out the messages of its attempt and round wherever it is found. -/
structure WorkServed (id : Uuid) (h : History) : Prop where
  logged : HistoryLogged True h
  found : AllFound (fun j e => j = id → WorkEntry (entriesOf h.log h.process id) e) h.server

theorem updated_served (hh : WorkServed id h) (hup : ∀ call j, env.fault call j ≠ .stops) :
    AllFound (fun j e => j = id → WorkEntry (entriesOf (h.log ++
      takenBy env h.server h.process (.updateTask id d messages attempt)) h.process id) e)
      (next env (.updateTask id d messages attempt) h.server) := by
  have hi := hh.logged.invariant
  have hpost : post (exec env (.updateTask id d messages attempt)) h.server (fun _ s' =>
      AllFound (fun j e => j = id → WorkEntry (entriesOf (h.log ++
        takenBy env h.server h.process (.updateTask id d messages attempt)) h.process id) e)
          s') := by
    refine post_mono (updateTask_outcome env id d messages attempt h.server) fun r s' ho => ?_
    cases ho with
    | notLoaded hn =>
      have hnone : takenBy env h.server h.process (.updateTask id d messages attempt) = [] := by
        obtain ⟨stop, hs⟩ := lockedTask_error hn
        simp only [takenBy, hs]
      rw [hnone, List.append_nil]
      exact hh.found
    | @loaded e _ g hl body =>
      have hs := task_sound hi hl (.update body)
      have hwork := hh.found id e (loaded_found hl) rfl
      have hlogged := loaded_logged hi hh.logged.cache hl
      intro j e' hfound hj
      subst hj
      have hentry : e' = g.entry := by
        rcases hfound with hfound | ⟨hnone, -⟩
        · rw [cached_self] at hfound
          exact (Option.some.inj hfound).symm
        · rw [cached_self] at hnone
          cases hnone
      subst hentry
      cases body with
      | notRunning hnot =>
        cases he : e with
        | running t => exact absurd he (hnot t)
        | voting | declined | finished | failed => trivial
      | stale ht hne =>
        have he : e = .running _ := ht
        subst he
        have hnone : takenBy env h.server h.process (.updateTask j d messages attempt) = [] := by
          simp only [takenBy, lockedTask_ok.mpr hl, hne, ↓reduceIte]
        rw [hnone, List.append_nil]
        exact hwork
      | updated ht hcurrent update record rest ran =>
        have he : e = .running _ := ht
        subst he
        rw [takenBy_loaded hl hcurrent,
          entriesOf_append_self fun x hx => ⟨(mem_takenFrom hx).1, (mem_takenFrom hx).2.1⟩]
        have hserving :
            Serving (entriesOf h.log h.process j ++ takenFrom h.process j d messages _) _ :=
          update_serving hwork hlogged update ran
        rcases record_phase record with rfl | ⟨f, rfl⟩ | ⟨f, rfl⟩
        · exact hserving
        · trivial
        · trivial
  rw [next_eq, if_neg (result_ne_crash hup _ _)]
  exact hpost

omit [External] in
theorem task_of_takenBy {j : Uuid} {process : ℕ} {s : Server} {e : Taken}
    (he : e ∈ takenBy env s process (.updateTask j d messages attempt)) : e.task = j := by
  simp only [takenBy] at he
  split at he
  · split_ifs at he
    · exact (mem_takenFrom he).2.1
    · cases he
  · cases he

theorem otherUpdate_served {j : Uuid} (hh : WorkServed id h) (hj : j ≠ id)
    (hup : ∀ call j, env.fault call j ≠ .stops) :
    AllFound (fun j e => j = id → WorkEntry (entriesOf h.log h.process id) e)
      (next env (.updateTask j d messages attempt) h.server) := by
  refine next_found hh.logged.invariant hh.found ?_ hup (fun v _ _ => trivial) ?_
  · intro hop
    cases hop
  · intro s i e r g _ _ body he hi
    cases body with
    | update => exact absurd hi hj
    | read => exact he hi

theorem next_served (hh : WorkServed id h) (hu : KeepsWork id env op h.server) :
    WorkServed id (h.next env op) := by
  refine ⟨next_logged hh.logged fun _ => hu.sweep, ?_⟩
  by_cases hrestart : op = .restartServer
  · subst hrestart
    intro j e hfound hj
    subst hj
    rcases hfound with hcached | ⟨-, hhydrated⟩
    · cases hcached
    · cases e with
      | running t => exact absurd hhydrated (hu.restart rfl t)
      | voting | declined | finished | failed => trivial
  · have hprocess : (h.next env op).process = h.process := by
      have hno : isRestart op = false := by
        cases op <;> first | rfl | exact absurd rfl hrestart
      simp only [History.next, hno, Bool.false_eq_true, false_or, result_ne_crash hu.up, ↓reduceIte]
    rw [hprocess]
    by_cases hop : ∃ j d messages attempt, op = .updateTask j d messages attempt
    · obtain ⟨j, d, messages, attempt, rfl⟩ := hop
      by_cases hj : j = id
      · subst hj
        exact updated_served hh hu.up
      · have hsame : entriesOf (h.next env (.updateTask j d messages attempt)).log h.process id =
            entriesOf h.log h.process id :=
          entriesOf_append_of_ne (fun _ => task_of_takenBy) (Ne.symm hj)
        rw [hsame]
        exact otherUpdate_served hh hj hu.up
    · push Not at hop
      have hlog : (h.next env op).log = h.log := by
        simp only [History.next, takenBy_other hop, List.append_nil]
      rw [hlog]
      exact next_found hh.logged.invariant hh.found hrestart hu.up (fun _ _ _ => trivial)
        (body_work hop hu.sweep)

theorem workRun_served (hh : WorkRun id h) : WorkServed id h := by
  induction hh with
  | initial =>
    refine ⟨⟨reachable_invariant .initial, ⟨fun _ _ he => ?_, fun _ _ => rfl⟩, fun _ he => ?_⟩, ?_⟩
    · cases he
    · cases he
    · rintro j e (hcached | ⟨-, hhydrated⟩)
      · cases hcached
      · obtain ⟨row, hrow⟩ := hydrate_row hhydrated
        cases hrow
  | step env op _ hu ih => exact next_served ih hu

/-- One message for each active share of the device, in the order of the indices, as the task has
produced it in its attempt and round. -/
def WorkOf (entries : List Taken) (t : RunningTask) (d : Bytes) (data : List Bytes) : Prop :=
  ∃ indices : List ℕ, indices.Pairwise (· < ·) ∧
    (∀ i, i ∈ indices ↔ ∃ share device,
      t.session.communicator.activeShares.lookup share = some device ∧
      device.id = d ∧ i = share + t.session.communicator.protocolType.indexOffset) ∧
    List.Forall₂ (Produced entries t) indices data

/-- A round of the protocol is open. It is not if the last step could not be recorded. -/
def RoundOpen (t : RunningTask) : Prop := t.session.protocol.round ≤ t.session.protocol.lastRound

theorem Serving.work {entries : List Taken} (ht : Serving entries t) (hround : RoundOpen t)
    (d : Bytes) :
    WorkOf entries t d (t.session.communicator.getMessages d) := by
  refine ⟨t.session.communicator.identifierToIndices d, identifierToIndices_sorted _ d,
    fun i => mem_identifierToIndices, ?_⟩
  rw [Communicator.getMessages, List.forall₂_map_right_iff, List.forall₂_same]
  intro idx hidx
  obtain ⟨m, hm, hproduced⟩ := ht.output hround idx (identifierToIndices_subset hidx)
  rw [hm]
  exact hproduced

instance (t : RunningTask) : Decidable (RoundOpen t) :=
  inferInstanceAs (Decidable (t.session.protocol.round ≤ t.session.protocol.lastRound))

def handedOut (env : Env) (s : Server) (id : Uuid) (d : Bytes) : Option (List Bytes × Bool) :=
  (foundRunning (lockedTask env s id)).bind fun t =>
    match (outcome (getFormattedTask env id (some d)) s).1 with
    | .ok task => some (task.data, decide (RoundOpen t))
    | .error _ => none

theorem handedOut_some {s : Server} {data : List Bytes}
    (hread : handedOut env s id d = some (data, true)) :
    ∃ t task, lockedTask env s id = .ok (.running t) ∧ RoundOpen t ∧
      (outcome (getFormattedTask env id (some d)) s).1 = .ok task ∧ task.data = data := by
  obtain ⟨t, ht, hread⟩ := Option.bind_eq_some_iff.mp hread
  split at hread
  · rename_i task htask
    simp only [Option.some.injEq, Prod.mk.injEq, decide_eq_true_eq] at hread
    exact ⟨t, task, foundRunning_some ht, hread.2, htask, hread.1⟩
  · cases hread

def isQuiet : Op → Bool
  | .restartServer => false
  | .restartStaleTasks => false
  | _ => true

theorem workRun_ops (hh : WorkRun id h) {ops : List (Env × Op)}
    (hops : ∀ p ∈ ops, p.1.RepositoryServes ∧ isQuiet p.2) : WorkRun id (h.run ops) := by
  induction ops generalizing h with
  | nil => exact hh
  | cons p ops ih =>
    rw [List.forall_mem_cons] at hops
    obtain ⟨⟨hserves, hquiet⟩, hops⟩ := hops
    refine ih (.step p.1 p.2 hh ⟨fun call j => ?_, fun hop => ?_, fun hop => ?_⟩) hops
    · rw [hserves call j]
      exact nofun
    · rw [hop] at hquiet
      cases hquiet
    · rw [hop] at hquiet
      cases hquiet

@[reducible] def markedExternal : External :=
  { plainExternal with
    encodeServerMessage := fun _ => [1]
    encodeProtocolGroupInit := fun _ => [1]
    encodeProtocolInit := fun _ => [1] }

omit [External] in
theorem produced_marked {entries : List Taken} {idx : ℕ} {m : Bytes}
    (hm : @Produced markedExternal entries t idx m) : m = [1] := by
  cases hm with
  | certificates => rfl
  | relayed => rfl
  | first =>
    simp only [Session.initMessage]
    split
    · rfl
    · rfl

def groupApproved : List Op := groupRequested ++ [.decideTask 0 bob.id true]

def recordedOf (ops : List Op) : History :=
  @History.run markedExternal ⟨initial, 0, []⟩ (servedOps 0 0 ops)

/-- In a run that leaves the outgoing messages of a task alone, a device that is handed work
for a round of the protocol is handed the messages of the attempt and round. -/
theorem handed_work_produced {task : ProtoTask} (hh : WorkRun id h)
    (hl : lockedTask env h.server id = .ok (.running t))
    (hround : RoundOpen t)
    (hread : (outcome (getFormattedTask env id (some d)) h.server).1 = .ok task)
    (hdata : task.data ≠ []) : WorkOf (entriesOf h.log h.process id) t d task.data := by
  have hloaded := lockedTask_ok.mp hl
  have hserving : Serving (entriesOf h.log h.process id) t :=
    (workRun_served hh).found id _ (loaded_found hloaded) rfl
  rw [getFormattedTask_loaded hloaded] at hread
  cases hread
  change t.getWork d ≠ [] at hdata
  change WorkOf _ _ _ (t.getWork d)
  unfold RunningTask.getWork at hdata ⊢
  split_ifs at hdata ⊢ with hwaiting
  · exact absurd rfl hdata
  · exact hserving.work hround d

omit [External] in
/-- Alice is handed the certificates. -/
theorem handed_work_produced_certificates : ∃ h t task, @WorkRun markedExternal 0 h ∧
    lockedTask (servingEnv 0 0) h.server 0 = .ok (.running t) ∧
    (outcome (getFormattedTask (servingEnv 0 0) 0 (some alice.id)) h.server).1 = .ok task ∧
    task.data = [[1]] ∧
    @WorkOf markedExternal (entriesOf h.log h.process 0) t alice.id task.data := by
  have hread : @handedOut markedExternal (servingEnv 0 0) (recordedOf groupApproved).server 0
      alice.id = some ([[1]], true) := by decide +kernel
  have hops : ∀ op ∈ groupApproved, isQuiet op := by decide
  have hquiet : @WorkRun markedExternal 0 (recordedOf groupApproved) := by
    apply @workRun_ops markedExternal _ _ (@WorkRun.initial markedExternal 0)
    intro p hp
    obtain ⟨op, hop, rfl⟩ := List.mem_map.mp hp
    exact ⟨servingEnv_serves 0 0, hops op hop⟩
  obtain ⟨t, task, hl, hround, hformatted, hdata⟩ := @handedOut_some markedExternal _ _ _ _ _ hread
  have hne : task.data ≠ [] := by
    rw [hdata]
    exact nofun
  exact ⟨_, t, task, hquiet, hl, hformatted, hdata,
    @handed_work_produced markedExternal _ _ _ _ _ _ hquiet hl hround hformatted hne⟩

omit [External] in
/-- After a restart of the process Alice is handed empty bytes in place of the certificates. -/
theorem restarted_task_hands_out_nothing : ∃ h t task, @Recorded markedExternal h ∧
    lockedTask (servingEnv 0 0) h.server 0 = .ok (.running t) ∧ @RoundOpen markedExternal t ∧
    (outcome (getFormattedTask (servingEnv 0 0) 0 (some alice.id)) h.server).1 = .ok task ∧
    task.data = [[]] ∧
    ¬ @WorkOf markedExternal (entriesOf h.log h.process 0) t alice.id task.data := by
  have hread : @handedOut markedExternal (servingEnv 0 0)
      (recordedOf (groupApproved ++ [.restartServer])).server 0 alice.id = some ([[]], true) := by
    decide +kernel
  have hrecorded : @Recorded markedExternal (recordedOf (groupApproved ++ [.restartServer])) :=
    @Recorded.run markedExternal _ (@Recorded.initial markedExternal) _
  obtain ⟨t, task, hl, hround, hformatted, hdata⟩ := @handedOut_some markedExternal _ _ _ _ _ hread
  refine ⟨_, t, task, hrecorded, hl, hround, hformatted, hdata, ?_⟩
  rintro ⟨indices, -, -, hproduced⟩
  rw [hdata] at hproduced
  cases hproduced with
  | cons hfirst _ => cases produced_marked hfirst

end Runs

end WorkMessages
