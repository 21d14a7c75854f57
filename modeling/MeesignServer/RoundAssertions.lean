import MeesignServer.ClientMessages
import MeesignServer.TaskStart
import MeesignServer.VotingRuns

/-!
# The assertions about rounds

`advance`, `finalize` and `GroupTask::update` assert that they are called in the right round.
A task that has been created and initialised meets these assertions in all further calls,
also after it was rebuilt from the round and the flag that its calls stored. A rebuilt task
whose first round was never stored is a different matter: its group flag is still unset.
-/
namespace RoundAssertions

open FallibleProgram FiniteMap DataModel CommunicatorModel ProtocolModel VotingModel
open RunningTaskModel DatabaseModel HydrationModel TaskOutcomes TaskStart ClientMessages
open ServerModel MessageHistory

def isGroup : RunningTask → Bool
  | .group _ => true
  | _ => false

theorem isGroup_congr {t t' : RunningTask} (h : contextOf t' = contextOf t) :
    isGroup t' = isGroup t := by
  cases t <;> cases t' <;> first | rfl | cases h

variable [External]

section Stops

/-- The assertions of `advance`, `finalize` and `GroupTask::update`. -/
def RoundStop : Stop → Prop
  | .panic .advanceOutOfRange => True
  | .panic .finalizeBeforeLastRound => True
  | .panic .certificatesNotSent => True
  | _ => False

def Passes (r : Except Stop RoundUpdate) : Prop := ∀ stop, r = .error stop → ¬ RoundStop stop

omit [External] in
theorem passes_ok (u : RoundUpdate) : Passes (.ok u) := nofun

omit [External] in
theorem passes_error {stop : Stop} (h : ¬ RoundStop stop) : Passes (.error stop) := by
  intro stop' heq
  cases heq
  exact h

variable {c : Communicator} {helper : Helper} {helpers : PdfHelpers}

omit [External] in
theorem receiveMessages_passes {d : Bytes} {messages : List ClientMessage} {stop : Stop}
    (h : c.receiveMessages d messages = .error stop) : ¬ RoundStop stop := by
  unfold Communicator.receiveMessages at h
  simp only at h
  split_ifs at h
  cases h
  exact id

theorem finalMessageLoop_passes {l : List (Sigma fun _ : ℕ => ClientMessage)}
    {last : Option Bytes} {stop : Stop} (h : c.finalMessageLoop l last = .error stop) :
    ¬ RoundStop stop := by
  induction l generalizing last with
  | nil => cases h
  | cons e l ih =>
    rw [Communicator.finalMessageLoop] at h
    split_ifs at h
    · cases h
      exact id
    · split at h
      · cases h
        exact id
      · split at h
        · cases h
          exact id
        · split at h
          · cases h
          · split_ifs at h
            · exact ih h
            · cases h
              exact id

omit [External] in
theorem FinalAnswer.passes {asked : Bool} {final : Except Stop (Option Bytes)}
    {r : Except Stop RoundUpdate} (h : FinalAnswer asked final r)
    (hfinal : ∀ stop, final = .error stop → ¬ RoundStop stop) : Passes r := by
  cases h with
  | stopped => exact passes_error (hfinal _ rfl)
  | failed => exact passes_ok _
  | finished => exact passes_ok _
  | notIssued => exact passes_error id
  | badKey => exact passes_error id

theorem signPDFTask_start_passes (helper : Helper) (s : PdfState) :
    post (SignPDFTask.startTask helper) s fun r _ => Passes r := by
  simp only [SignPDFTask.startTask, post_bind, post_get]
  split
  · exact passes_ok _
  · exact passes_ok _
  · exact passes_ok _
  · split_ifs
    · exact passes_error id
    · split
      · exact passes_ok _
      · simp only [SignPDFTask.lockHelpers, SignPDFTask.onSignTask, SignTask.startTask,
          SignTask.onSession, post_bind, post_get, post_zoom, post_modify, post_pure]
        split_ifs
        · exact passes_error id
        · exact passes_ok _
      · exact passes_error id

theorem signPDFTask_final_passes (helper : Helper) (s : PdfState)
    (last : s.task.signTask.protocol.round = s.task.signTask.protocol.lastRound) :
    post (SignPDFTask.finalizeTask helper) s fun r _ => Passes r := by
  simp only [SignPDFTask.finalizeTask, SignPDFTask.onSignTask, post_bind, post_zoom,
    SignTask.finalizeTask, SignTask.onSession, post_get, post_finalize last]
  cases hf : s.task.signTask.communicator.getFinalMessage with
  | error stop => exact passes_error (finalMessageLoop_passes hf)
  | ok final =>
    cases final with
    | none => exact passes_ok _
    | some final =>
      simp only [post_bind, post_zoom, post_modify, post_pure, SignPDFTask.lockHelpers, post_get]
      split_ifs
      · exact passes_error id
      · simp only [post_pure]
        split_ifs
        · simp only [post_bind, post_set]
          cases helper.signedPdf with
          | none => exact passes_error id
          | some signed => exact passes_ok _
        · exact passes_error id

theorem signPDFTask_round_passes (helper : Helper) (s : PdfState)
    (h : s.task.signTask.toSession.roundComplete) :
    post (SignPDFTask.nextRound helper) s fun r _ => Passes r := by
  simp only [SignPDFTask.nextRound, post_bind, post_get]
  rcases round_cases h with h0 | ⟨h0, hl⟩ | ⟨h0, hl, he⟩
  · rw [if_pos h0]
    exact signPDFTask_start_passes helper s
  · rw [if_neg h0.ne', if_pos hl]
    simp only [SignPDFTask.onSignTask, SignTask.advanceTask, SignTask.onSession, post_bind,
      post_zoom, post_advance hl, post_get, post_pure]
    exact passes_ok _
  · rw [if_neg h0, if_neg hl]
    exact signPDFTask_final_passes helper s he

omit [External] in
theorem RoundAnswer.passes [External] {t : RunningTask} {r : Except Stop RoundUpdate}
    (h : RoundAnswer t r) (hcomplete : t.session.roundComplete) : Passes r := by
  rw [Session.roundComplete, Bool.and_eq_true, decide_eq_true_eq] at hcomplete
  rcases lt_or_eq_of_le hcomplete.2 with hlt | hlast
  · obtain ⟨round, rfl⟩ := h.goes_on hlt
    exact passes_ok _
  · exact FinalAnswer.passes (h.ends hlast) fun stop => finalMessageLoop_passes

/-- A complete round never meets an assertion about rounds. -/
theorem nextRoundOf_passes {t : RunningTask} (helper : Helper) (helpers : PdfHelpers)
    (hready : ready t) (hcomplete : t.session.roundComplete) :
    post (nextRoundOf helper) ⟨t, helpers⟩ fun r _ => Passes r := by
  by_cases hpdf : isPdf t
  · cases t with
    | signPdf t =>
      rw [post_nextRoundOf_signPdf]
      exact signPDFTask_round_passes helper ⟨t, helpers⟩ hcomplete
    | group | sign | decrypt => cases hpdf
  · rw [Bool.not_eq_true] at hpdf
    exact post_mono (nextRoundOf_answer helper helpers hpdf hready hcomplete) fun r _ hanswer =>
      RoundAnswer.passes hanswer hcomplete

theorem update_passes {t : RunningTask} (helper : Helper) (helpers : PdfHelpers) (d : Bytes)
    (messages : List ClientMessage) (hready : ready t) :
    post (RunningTask.update helper d messages) ⟨t, helpers⟩ fun r _ => Passes r := by
  rw [← post_updateIn_same, post_updateIn]
  by_cases hw : t.waitingFor d
  · simp only [hw, hready, Bool.not_true, Bool.false_eq_true, ↓reduceIte]
    cases hr : t.session.communicator.receiveMessages d messages with
    | error stop => exact passes_error (receiveMessages_passes hr)
    | ok p =>
      dsimp only
      split_ifs with hcomplete
      · apply nextRoundOf_passes helper helpers _ hcomplete
        rw [ready_withSession]
        exact hready
      · exact passes_ok _
  · simp only [hw, Bool.not_false, ↓reduceIte]
    exact passes_error id

theorem restart_passes (t : RunningTask) (helper : Helper) (helpers : PdfHelpers) :
    post (RunningTask.restart helper) ⟨t, helpers⟩ fun r _ => Passes r := by
  simp only [RunningTask.restart, post_bind, post_get]
  cases t with
  | group t =>
    simp only [RunningTask.run, post_zoom]
    exact passes_ok _
  | sign t =>
    simp only [RunningTask.run, post_zoom]
    exact passes_ok _
  | signPdf t =>
    simp only [RunningTask.runPdf, post_zoom, SignPDFTask.restart, SignPDFTask.lockHelpers,
      post_bind, post_get]
    split_ifs
    · exact passes_error id
    · simp only [post_pure]
      split_ifs
      · exact passes_error id
      · simp only [post_bind, post_set, SignPDFTask.onSignTask, post_zoom, post_modify]
        exact signPDFTask_start_passes helper _
  | decrypt t =>
    simp only [RunningTask.run, post_zoom]
    exact passes_ok _

end Stops

section Lives

/-- The columns of a task's row that its rounds are stored in. -/
structure StoredRound where
  round : ℕ
  certificatesSent : Option Bool

def StoredRound.new (t : RunningTask) : StoredRound where
  round := 0
  certificatesSent := if isGroup t then some false else none

def StoredRound.write (stored : StoredRound) : RoundUpdate → StoredRound
  | .groupCertificatesSent => { stored with certificatesSent := some true }
  | .nextRound round => { stored with round }
  | .finished round _ => { stored with round }
  | .listen => stored
  | .failed _ => stored

inductive Rebuilt (t : RunningTask) (stored : StoredRound) : RunningTask → Prop where
  | group {info : TaskInfo} {row : TaskRow} {c : Communicator} {task : GroupTask} (kind : isGroup t)
      (protocol : row.protocolType = t.session.protocol.protocolType)
      (round : row.protocolRound = stored.round)
      (flag : row.groupCertificatesSent = stored.certificatesSent)
      (h : GroupTask.fromModel info row c = .ok task) : Rebuilt t stored (.group task)
  | threshold {info : TaskInfo} {row : TaskRow} {c : Communicator} {group : Group}
      {task : RunningTask} (kind : isGroup t = false)
      (protocol : group.protocol = t.session.protocol.protocolType)
      (round : row.protocolRound = stored.round)
      (h : runningFromModel info row c group = .ok task) : Rebuilt t stored task

/-- A running task and the columns of its row, at some point of its life. The first write of
the task is stored. A later write can be lost, and the calls can end in any way. -/
inductive Life : RunningTask → StoredRound → Prop where
  | created {v : VotingTask} {shares : Map ℕ Device} {t t' : RunningTask} {helper : Helper}
      {helpers helpers' : PdfHelpers} {u : RoundUpdate}
      (create : RunningTaskContext.createRunningTask v.runningTaskContext v shares = .ok t)
      (initialized : outcome (RunningTask.initializeTask helper) ⟨t, helpers⟩ =
        (.ok u, ⟨t', helpers'⟩))
      (running : ∀ task, u ≠ .failed task) : Life t' ((StoredRound.new t).write u)
  | updated {t t' : RunningTask} {stored stored' : StoredRound} {helper : Helper} {d : Bytes}
      {messages : List ClientMessage} {helpers helpers' : PdfHelpers}
      {r : Except Stop RoundUpdate} (life : Life t stored)
      (update : outcome (RunningTask.update helper d messages) ⟨t, helpers⟩ =
        (r, ⟨t', helpers'⟩))
      (write : stored' = stored ∨ ∃ u, r = .ok u ∧ stored' = stored.write u) : Life t' stored'
  | restarted {t t' : RunningTask} {stored stored' : StoredRound} {helper : Helper}
      {helpers helpers' : PdfHelpers} {r : Except Stop RoundUpdate} (life : Life t stored)
      (restart : outcome (RunningTask.restart helper) ⟨t, helpers⟩ = (r, ⟨t', helpers'⟩))
      (write : stored' = stored ∨ ∃ u, r = .ok u ∧ stored' = stored.write u) : Life t' stored'
  | rebuilt {t t' : RunningTask} {stored : StoredRound} (life : Life t stored)
      (rebuilt : Rebuilt t stored t') : Life t' stored

def firstRound (t : RunningTask) : ℕ := if isGroup t then 0 else 1

def lastRoundOf (t : RunningTask) : ℕ :=
  if isGroup t then External.keygenRounds t.session.protocol.protocolType
  else External.thresholdRounds t.session.protocol.protocolType

def InRange (t : RunningTask) (round : ℕ) : Prop :=
  firstRound t ≤ round ∧ round ≤ t.session.protocol.lastRound + 1

structure OnCourse (t : RunningTask) (stored : StoredRound) : Prop where
  is_ready : ready t
  last : t.session.protocol.lastRound = lastRoundOf t
  range : InRange t t.session.protocol.round
  stored_range : InRange t stored.round
  flag : isGroup t → stored.certificatesSent = some true

/-- What a call keeps of a task, and the rounds it asks to store. -/
structure Follows (t : RunningTask) (r : Except Stop RoundUpdate) (t' : RunningTask) : Prop where
  context : contextOf t' = contextOf t
  is_ready : ready t' = ready t
  protocolType : t'.session.protocol.protocolType = t.session.protocol.protocolType
  last : t'.session.protocol.lastRound = t.session.protocol.lastRound
  range : InRange t t.session.protocol.round → InRange t t'.session.protocol.round
  writes : ∀ (u : RoundUpdate) (stored : StoredRound), r = .ok u → InRange t stored.round →
    InRange t (stored.write u).round

variable {t t' : RunningTask} {r : Except Stop RoundUpdate}

theorem inRange_succ {n : ℕ} (h : n ≤ t.session.protocol.lastRound) : InRange t (n + 1) := by
  unfold InRange firstRound
  split_ifs <;> omega

theorem inRange_one (t : RunningTask) : InRange t 1 := inRange_succ (Nat.zero_le _)

theorem follows_kept (kept : Kept t t')
    (hprotocol : t'.session.protocol =
      { t.session.protocol with round := t'.session.protocol.round })
    (hrange : InRange t t.session.protocol.round → InRange t t'.session.protocol.round)
    (hwrites : ∀ (u : RoundUpdate) (stored : StoredRound), r = .ok u → InRange t stored.round →
      InRange t (stored.write u).round) : Follows t r t' where
  context := kept.context
  is_ready := kept.ready
  protocolType := by rw [hprotocol]
  last := by
    rw [hprotocol]
    rfl
  range := hrange
  writes := hwrites

theorem writes_error {stop : Stop} (u : RoundUpdate) (stored : StoredRound)
    (h : (.error stop : Except Stop RoundUpdate) = .ok u) (_ : InRange t stored.round) :
    InRange t (stored.write u).round := by
  cases h

theorem writes_failed {task : FailedTask} (u : RoundUpdate) (stored : StoredRound)
    (h : (.ok (.failed task) : Except Stop RoundUpdate) = .ok u) (hrange : InRange t stored.round) :
    InRange t (stored.write u).round := by
  cases h
  exact hrange

theorem follows_start (h : StartOutcome t r t') : Follows t r t' := by
  cases h with
  | started data kept session =>
    have hround : t'.session.protocol.round = 1 := by rw [session, Session.initializeProtocol]
    apply follows_kept kept
    · rw [session]
      rfl
    · intro _
      rw [hround]
      exact inRange_one t
    · intro u stored hu _
      cases hu
      exact inRange_one t
  | failed reason => exact follows_kept (.refl t) rfl id writes_failed
  | broke => exact follows_kept (.refl t) rfl id writes_error

theorem follows_final (last : t.session.protocol.round = t.session.protocol.lastRound)
    (h : FinalOutcome t r t') : Follows t r t' := by
  have hnext : InRange t (t.session.protocol.round + 1) := inRange_succ last.le
  cases h with
  | finished kept session =>
    apply follows_kept kept
    · rw [session]
      rfl
    · intro _
      rw [session]
      exact hnext
    · intro u stored hu _
      cases hu
      exact hnext
  | failed reason kept session =>
    apply follows_kept kept
    · rw [session]
      rfl
    · intro _
      rw [session]
      exact hnext
    · exact writes_failed
  | broke _ kept session =>
    have hprotocol : t'.session.protocol = t.session.incrementRound.protocol := by
      rcases session with session | session <;> rw [session]
    apply follows_kept kept
    · rw [hprotocol]
      rfl
    · intro _
      rw [hprotocol]
      exact hnext
    · exact writes_error

theorem follows_round (h : RoundOutcome t r t') : Follows t r t' := by
  cases h with
  | listen =>
    apply follows_kept (.refl t) rfl id
    intro u stored hu hrange
    cases hu
    exact hrange
  | start _ _ start => exact follows_start start
  | advance _ _ last kept session =>
    apply follows_kept kept
    · rw [session]
      rfl
    · intro _
      rw [session]
      exact inRange_succ last.le
    · intro u stored hu _
      cases hu
      exact inRange_succ last.le
  | final _ last final => exact follows_final last final

theorem inRange_congr {n : ℕ} (hcontext : contextOf t' = contextOf t)
    (hlast : t'.session.protocol.lastRound = t.session.protocol.lastRound) :
    InRange t' n ↔ InRange t n := by
  unfold InRange firstRound
  rw [isGroup_congr hcontext, hlast]

theorem Follows.after {t₁ : RunningTask} (h : Follows t₁ r t')
    (hcontext : contextOf t₁ = contextOf t) (hready : ready t₁ = ready t)
    (hprotocol : t₁.session.protocol = t.session.protocol) : Follows t r t' := by
  have hlast : t₁.session.protocol.lastRound = t.session.protocol.lastRound := by rw [hprotocol]
  have hcongr : ∀ n, InRange t₁ n ↔ InRange t n := fun n => inRange_congr hcontext hlast
  constructor
  · exact h.context.trans hcontext
  · exact h.is_ready.trans hready
  · rw [h.protocolType, hprotocol]
  · rw [h.last, hlast]
  · intro hrange
    apply (hcongr _).mp
    apply h.range
    rw [hcongr, hprotocol]
    exact hrange
  · intro u stored hu hrange
    exact (hcongr _).mp (h.writes u stored hu ((hcongr _).mpr hrange))

theorem follows_update {d : Bytes} {messages : List ClientMessage}
    (h : UpdateOutcome d messages t r t') : Follows t r t' := by
  cases h with
  | notWaiting => exact follows_kept (.refl t) rfl id writes_error
  | broke => exact follows_kept (.refl t) rfl id writes_error
  | received _ _ _ kept session round =>
    apply (follows_round round).after kept.context kept.ready
    rw [session]

theorem follows_restart (h : RestartOutcome t r t') : Follows t r t' := by
  cases h with
  | broke => exact follows_kept (.refl t) rfl id writes_error
  | again context is_ready taskInfo session start =>
    apply (follows_start start).after context is_ready
    rw [session]

omit [External] in
theorem write_flag {stored : StoredRound} (u : RoundUpdate)
    (h : stored.certificatesSent = some true) : (stored.write u).certificatesSent = some true := by
  cases u <;> first | exact h | rfl

theorem OnCourse.follows {stored stored' : StoredRound}
    (h : OnCourse t stored) (hf : Follows t r t')
    (write : stored' = stored ∨ ∃ u, r = .ok u ∧ stored' = stored.write u) :
    OnCourse t' stored' := by
  have hcongr : ∀ n, InRange t' n ↔ InRange t n := fun n => inRange_congr hf.context hf.last
  have hkind := isGroup_congr hf.context
  constructor
  · rw [hf.is_ready]
    exact h.is_ready
  · rw [hf.last, h.last, lastRoundOf, lastRoundOf, hkind, hf.protocolType]
  · exact (hcongr _).mpr (hf.range h.range)
  · rw [hcongr]
    rcases write with rfl | ⟨u, hu, rfl⟩
    · exact h.stored_range
    · exact hf.writes u stored hu h.stored_range
  · rw [hkind]
    intro hgroup
    rcases write with rfl | ⟨u, -, rfl⟩
    · exact h.flag hgroup
    · exact write_flag u (h.flag hgroup)

omit [External] in
theorem groupTask_fromModel {info : TaskInfo} {row : TaskRow} {c : Communicator}
    {task : GroupTask} (h : GroupTask.fromModel info row c = .ok task) :
    row.groupCertificatesSent = some task.certificatesSent ∧
      ∃ n k, task.protocol = ⟨row.protocolType, .keygen n k, row.protocolRound⟩ := by
  unfold GroupTask.fromModel at h
  by_cases hs : Supported row.protocolType row.keyType
  · obtain ⟨k, hk⟩ := createKeygenProtocol_ok hs info.totalShares (asU32 row.threshold)
      row.protocolRound
    rw [hk] at h
    cases hflag : row.groupCertificatesSent with
    | none =>
      rw [hflag] at h
      cases h
    | some flag =>
      rw [hflag] at h
      cases h
      exact ⟨rfl, _, k, rfl⟩
  · rw [createKeygenProtocol_error hs] at h
    cases h

omit [External] in
theorem runningFromModel_ok {info : TaskInfo} {row : TaskRow} {c : Communicator} {group : Group}
    {task : RunningTask} (h : runningFromModel info row c group = .ok task) :
    isGroup task = false ∧ ready task ∧
      task.session.protocol = ⟨group.protocol, .threshold, row.protocolRound⟩ := by
  have hprotocol : Supported group.protocol group.keyType := by
    by_contra hs
    unfold runningFromModel SignPDFTask.fromModel SignTask.fromModel DecryptTask.fromModel at h
    rw [createThresholdProtocol_error hs] at h
    cases hk : row.taskType <;> rw [hk] at h <;> cases h
  unfold runningFromModel SignPDFTask.fromModel SignTask.fromModel DecryptTask.fromModel at h
  rw [createThresholdProtocol_ok hprotocol] at h
  cases hdata : row.taskData with
  | none =>
    rw [hdata] at h
    cases hk : row.taskType <;> rw [hk] at h <;> cases h
  | some data =>
    rw [hdata] at h
    cases hk : row.taskType <;> rw [hk] at h <;> cases h <;> exact ⟨rfl, rfl, rfl⟩

theorem OnCourse.again {stored : StoredRound}
    (h : OnCourse t stored) (hkind : isGroup t' = isGroup t)
    (hready : ready t') (hlast : t'.session.protocol.lastRound = lastRoundOf t')
    (htype : t'.session.protocol.protocolType = t.session.protocol.protocolType)
    (hround : t'.session.protocol.round = stored.round) : OnCourse t' stored := by
  have hrange : InRange t' stored.round := by
    have hold := h.stored_range
    unfold InRange firstRound at hold ⊢
    rw [hlast, lastRoundOf, hkind, htype]
    rw [h.last, lastRoundOf] at hold
    exact hold
  refine ⟨hready, hlast, ?_, hrange, ?_⟩
  · rw [hround]
    exact hrange
  · rw [hkind]
    exact h.flag

theorem OnCourse.rebuilt {stored : StoredRound} (h : OnCourse t stored) (hr : Rebuilt t stored t') :
    OnCourse t' stored := by
  cases hr with
  | @group info row c task kind protocol round flag hmodel =>
    obtain ⟨hflag, n, k, hprotocol⟩ := groupTask_fromModel hmodel
    have hsession : (RunningTask.group task).session.protocol =
        ⟨row.protocolType, .keygen n k, row.protocolRound⟩ := hprotocol
    have hsent : some task.certificatesSent = some true := by rw [← hflag, flag, h.flag kind]
    apply h.again
    · rw [kind]
      rfl
    · exact Option.some.inj hsent
    · rw [lastRoundOf, hsession]
      rfl
    · rw [hsession, protocol]
    · rw [hsession, round]
  | threshold kind protocol round hmodel =>
    obtain ⟨hgroup, hready, hprotocol⟩ := runningFromModel_ok hmodel
    apply h.again
    · rw [hgroup, kind]
    · exact hready
    · rw [lastRoundOf, hgroup, hprotocol]
      rfl
    · rw [hprotocol, protocol]
    · rw [hprotocol, round]

theorem groupTask_tryNew_last {info : TaskInfo} {threshold : ℕ} {note : Option String}
    {c : Communicator} {task : GroupTask} (h : GroupTask.tryNew info threshold note c = .ok task) :
    task.protocol.lastRound = External.keygenRounds task.protocol.protocolType := by
  unfold GroupTask.tryNew at h
  by_cases hs : Supported info.protocolType info.keyType
  · obtain ⟨k, hk⟩ := createKeygenProtocol_ok hs info.totalShares threshold 0
    rw [hk] at h
    dsimp only at h
    split_ifs at h
    cases h
    rfl
  · rw [createKeygenProtocol_error hs] at h
    cases h

theorem signTask_tryNew_last {info : TaskInfo} {group : Group} {data : Bytes} {c : Communicator}
    {task : SignTask} (h : SignTask.tryNew info group data c = .ok task) :
    task.protocol.lastRound = External.thresholdRounds task.protocol.protocolType := by
  rw [signTask_tryNew] at h
  split_ifs at h
  cases h
  rfl

theorem created_last {v : VotingTask} {shares : Map ℕ Device}
    (h : RunningTaskContext.createRunningTask v.runningTaskContext v shares = .ok t) :
    t.session.protocol.lastRound = lastRoundOf t := by
  simp only [RunningTaskContext.createRunningTask, bind, Except.bind] at h
  split at h
  · cases h
  · cases hcontext : v.runningTaskContext with
    | group threshold note =>
      simp only [hcontext] at h
      cases htask : GroupTask.tryNew v.taskInfo threshold note _ with
      | error message =>
        rw [htask] at h
        cases h
      | ok task =>
        rw [htask] at h
        cases h
        exact groupTask_tryNew_last htask
    | signChallenge group data =>
      simp only [hcontext] at h
      cases htask : SignTask.tryNew v.taskInfo group data _ with
      | error message =>
        rw [htask] at h
        cases h
      | ok task =>
        rw [htask] at h
        cases h
        exact signTask_tryNew_last htask
    | signPdf group data =>
      simp only [hcontext, SignPDFTask.tryNew] at h
      split_ifs at h
      · cases h
      · cases htask : SignTask.tryNew v.taskInfo group data _ with
        | error message =>
          rw [htask] at h
          cases h
        | ok task =>
          rw [htask] at h
          cases h
          exact signTask_tryNew_last htask
    | decrypt group data =>
      simp only [hcontext] at h
      cases h
      rfl

omit [External] in
theorem ready_of_not_group (h : isGroup t = false) : ready t := by
  cases t with
  | group => cases h
  | sign | signPdf | decrypt => rfl

omit [External] in
theorem isGroup_iff : isGroup t ↔ ∃ threshold note, contextOf t = .group threshold note := by
  cases t with
  | group t => exact ⟨fun _ => ⟨_, _, rfl⟩, fun _ => rfl⟩
  | sign | signPdf | decrypt =>
    constructor
    · intro h
      cases h
    · rintro ⟨threshold, note, h⟩
      cases h

theorem onCourse_created {v : VotingTask} {shares : Map ℕ Device} {u : RoundUpdate}
    (create : RunningTaskContext.createRunningTask v.runningTaskContext v shares = .ok t)
    (h : InitializeOutcome t (.ok u) t') (running : ∀ task, u ≠ .failed task) :
    OnCourse t' ((StoredRound.new t).write u) := by
  have hround := (create_constructed create).round
  have hlast := created_last create
  cases h with
  | certificates f group context is_ready taskInfo session =>
    have hgroup : isGroup t' := isGroup_iff.mpr ⟨_, _, context.trans group⟩
    have hzero : InRange t' 0 := by
      unfold InRange firstRound
      rw [hgroup]
      exact ⟨le_rfl, Nat.zero_le _⟩
    constructor
    · exact is_ready
    · rw [lastRoundOf, isGroup_congr context, session]
      exact hlast
    · rw [session]
      change InRange t' t.session.protocol.round
      rw [hround]
      exact hzero
    · exact hzero
    · intro _
      rfl
  | start threshold start =>
    have hgroup : isGroup t = false := by
      rw [Bool.eq_false_iff]
      intro h
      obtain ⟨k, note, hcontext⟩ := isGroup_iff.mp h
      exact threshold k note hcontext
    cases start with
    | started data kept session =>
      have hkind : isGroup t' = false := (isGroup_congr kept.context).trans hgroup
      constructor
      · exact ready_of_not_group hkind
      · rw [lastRoundOf, isGroup_congr kept.context, session]
        exact hlast
      · rw [session]
        exact inRange_one t'
      · exact inRange_one t'
      · intro h
        rw [hkind] at h
        cases h
    | failed reason => exact absurd rfl (running _)

theorem life_onCourse {stored : StoredRound} (h : Life t stored) : OnCourse t stored := by
  induction h with
  | @created v shares t t' helper helpers helpers' u create initialized running =>
    have houtcome := initialize_outcome helper ⟨t, helpers⟩
    rw [post, initialized] at houtcome
    exact onCourse_created create houtcome running
  | @updated t t' stored stored' helper d messages helpers helpers' r life update write ih =>
    have houtcome := update_outcome helper d messages ⟨t, helpers⟩
    rw [post, update] at houtcome
    exact ih.follows (follows_update houtcome) write
  | @restarted t t' stored stored' helper helpers helpers' r life restart write ih =>
    have houtcome := restart_outcome helper ⟨t, helpers⟩
    rw [post, restart] at houtcome
    exact ih.follows (follows_restart houtcome) write
  | rebuilt life rebuilt ih => exact ih.rebuilt rebuilt

def BeginsAttempt : Except Stop RoundUpdate → Prop
  | .ok .listen => False
  | .ok (.finished _ _) => False
  | _ => True

theorem beginsAttempt_start (h : StartOutcome t r t') : BeginsAttempt r := by
  cases h <;> trivial

theorem initialize_beginsAttempt (t : RunningTask) (helper : Helper) (helpers : PdfHelpers) :
    post (RunningTask.initializeTask helper) ⟨t, helpers⟩ fun r _ => BeginsAttempt r := by
  refine post_mono (initialize_outcome helper ⟨t, helpers⟩) fun r _ h => ?_
  cases h with
  | certificates => trivial
  | start _ start => exact beginsAttempt_start start

theorem restart_beginsAttempt (t : RunningTask) (helper : Helper) (helpers : PdfHelpers) :
    post (RunningTask.restart helper) ⟨t, helpers⟩ fun r _ => BeginsAttempt r := by
  refine post_mono (restart_outcome helper ⟨t, helpers⟩) fun r _ h => ?_
  cases h with
  | broke => trivial
  | again _ _ _ _ start => exact beginsAttempt_start start

theorem update_sends_no_certificates (t : RunningTask) (helper : Helper) (helpers : PdfHelpers)
    (d : Bytes) (messages : List ClientMessage) :
    post (RunningTask.update helper d messages) ⟨t, helpers⟩ fun r _ =>
      r ≠ .ok .groupCertificatesSent := by
  refine post_mono (update_outcome helper d messages ⟨t, helpers⟩) fun r _ h => ?_
  intro heq
  subst heq
  cases h with
  | received _ _ _ _ _ round =>
    cases round with
    | start _ _ start => cases start
    | final _ _ final => cases final

/-- No call of a task in its life meets an assertion about rounds or an `unreachable` arm, and
the round stays in its range. -/
theorem round_assertions_hold :
    (∀ (v : VotingTask) (shares : Map ℕ Device) (t : RunningTask),
      RunningTaskContext.createRunningTask v.runningTaskContext v shares = .ok t →
      ∀ helper helpers, post (RunningTask.initializeTask helper) ⟨t, helpers⟩ fun r _ =>
        BeginsAttempt r) ∧
    ∀ (t : RunningTask) (stored : StoredRound), Life t stored →
      (∀ helper helpers d messages,
        post (RunningTask.update helper d messages) ⟨t, helpers⟩ fun r _ =>
          Passes r ∧ r ≠ .ok .groupCertificatesSent) ∧
      (∀ helper helpers, post (RunningTask.restart helper) ⟨t, helpers⟩ fun r _ =>
        Passes r ∧ BeginsAttempt r) ∧
      (if isGroup t then 0 else 1) ≤ t.session.protocol.round ∧
      t.session.protocol.round ≤ t.session.protocol.lastRound + 1 := by
  constructor
  · intro v shares t _ helper helpers
    exact initialize_beginsAttempt t helper helpers
  · intro t stored hlife
    have h := life_onCourse hlife
    refine ⟨?_, ?_, h.range⟩
    · intro helper helpers d messages
      exact post_and (update_passes helper helpers d messages h.is_ready)
        (update_sends_no_certificates t helper helpers d messages)
    · intro helper helpers
      exact post_and (restart_passes t helper helpers) (restart_beginsAttempt t helper helpers)

omit [External] in
/-- A group of Alice and Bob, after its certificates are sent. -/
theorem round_assertions_hold_group : ∃ t stored, @Life plainExternal t stored ∧
    stored.certificatesSent = some true ∧
    ∀ helper helpers d messages,
      post (@RunningTask.update plainExternal helper d messages) ⟨t, helpers⟩ fun r _ =>
        Passes r ∧ r ≠ .ok .groupCertificatesSent := by
  have create : RunningTaskContext.createRunningTask VotingRuns.pollOfTwo.runningTaskContext
      VotingRuns.pollOfTwo (collect [(0, alice), (1, alice), (2, bob)]) = .ok (.group _) := rfl
  have hlife := @Life.created plainExternal _ _ _ _ (servingEnv 0 0).helper
    .empty _ _ create rfl nofun
  exact ⟨_, _, hlife, rfl, (@round_assertions_hold plainExternal).2 _ _ hlife |>.1⟩

end Lives

end RoundAssertions
