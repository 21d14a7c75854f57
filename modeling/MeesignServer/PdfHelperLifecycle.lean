import MeesignServer.FoundTasks
import MeesignServer.TableSync
import MeesignServer.GroupWellFormed
import MeesignServer.ResultAgreement
import MeesignServer.ClientMessages

/-!
# The life of a PDF helper

The process that signs a document is started with its task, replaced when the task is
restarted, and taken out of the process-wide map when the task ends. The map is not stored,
so a running task that is loaded from the tables has no helper, and a task that ends without
a signature leaves its helper behind.
-/
namespace PdfHelperLifecycle

open FallibleProgram FiniteMap DataModel CommunicatorModel ProtocolModel VotingModel
open RunningTaskModel DatabaseModel HydrationModel ServerModel TaskOutcomes ServerOutcomes
open ServerInvariant TableFrames TableWrites HydrationOutcomes TaskStart InvariantSteps ServerMoves
open MessageHistory ResultAgreement ClientMessages ProcessStops FoundTasks TableSync TaskAdmission

variable [External]

section Methods

variable {helper : Helper} {s s' : PdfState} {u : Except Stop RoundUpdate}

structure InRound (round : ℕ) (t t' : SignPDFTask) : Prop where
  taskInfo : t'.signTask.taskInfo = t.signTask.taskInfo
  protocol : t'.signTask.protocol = { t.signTask.protocol with round }

inductive PdfStartOutcome (helper : Helper) (s : PdfState) :
    Except Stop RoundUpdate → PdfState → Prop where
  | started {task : SignPDFTask} (task_started : InRound 1 s.task task) :
      PdfStartOutcome helper s (.ok (.nextRound 1))
        ⟨task, s.helpers.insert s.task.signTask.taskInfo.id⟩
  | failed (f : FailedTask) : PdfStartOutcome helper s (.ok (.failed f)) s
  | broke {stop : Stop} (why : s.task.signTask.group.certificate = none ∨ s.helpers.poisoned ∨
      helper.pdfStart = .broken) : PdfStartOutcome helper s (.error stop) s

theorem startTask_pdf (helper : Helper) (s : PdfState) :
    post (SignPDFTask.startTask helper) s (PdfStartOutcome helper s) := by
  simp only [SignPDFTask.startTask, post_bind, post_get]
  split
  · exact .failed _
  · exact .failed _
  · exact .failed _
  · rename_i hfile hwritten hspawned
    split_ifs with hcert
    · exact .broke (.inl (Option.isNone_iff_eq_none.mp hcert))
    · split
      · exact .failed _
      · simp only [SignPDFTask.lockHelpers, SignPDFTask.onSignTask, SignTask.startTask,
          SignTask.onSession, post_bind, post_get, post_zoom, post_modify, post_pure]
        split_ifs with hpoisoned
        · exact .broke (.inr (.inl hpoisoned))
        · exact .started ⟨rfl, rfl⟩
      · rename_i hempty hhash
        refine .broke (.inr (.inr ?_))
        cases hstart : helper.pdfStart with
        | broken => rfl
        | noTempFile => exact absurd hstart hfile
        | notWritten => exact absurd hstart hwritten
        | notSpawned => exact absurd hstart hspawned
        | hash hash => exact absurd hstart (hhash hash)

/-- The last round. The round is counted in every case, and the helper is asked for only if the
messages agree on a signature. -/
inductive PdfFinal (s : PdfState) : Except Stop RoundUpdate → PdfState → Prop where
  | stopped {stop : Stop} {task : SignPDFTask}
      (counted : InRound (s.task.signTask.protocol.round + 1) s.task task)
      (message : s.task.signTask.communicator.getFinalMessage = .error stop) :
      PdfFinal s (.error stop) ⟨task, s.helpers⟩
  | unsigned {f : FailedTask} {task : SignPDFTask}
      (counted : InRound (s.task.signTask.protocol.round + 1) s.task task)
      (message : s.task.signTask.communicator.getFinalMessage = .ok none) :
      PdfFinal s (.ok (.failed f)) ⟨task, s.helpers⟩
  | poisoned {task : SignPDFTask}
      (counted : InRound (s.task.signTask.protocol.round + 1) s.task task) :
      PdfFinal s (.error (.panic .pdfHelpersPoisoned)) ⟨task, s.helpers⟩
  | missing {task : SignPDFTask}
      (counted : InRound (s.task.signTask.protocol.round + 1) s.task task)
      (free : s.helpers.helper s.task.signTask.taskInfo.id = false) :
      PdfFinal s (.error (.panic .pdfHelperMissing)) ⟨task, s.helpers.poison⟩
  | broke {task : SignPDFTask}
      (counted : InRound (s.task.signTask.protocol.round + 1) s.task task) :
      PdfFinal s (.error (.panic .pdfHelperFailed))
        ⟨task, s.helpers.remove s.task.signTask.taskInfo.id⟩
  | finished {round : ℕ} {f : FinishedTask} {task : SignPDFTask}
      (counted : InRound (s.task.signTask.protocol.round + 1) s.task task) :
      PdfFinal s (.ok (.finished round f)) ⟨task, s.helpers.remove s.task.signTask.taskInfo.id⟩

theorem finalizeTask_pdf (helper : Helper) (s : PdfState)
    (last : s.task.signTask.protocol.round = s.task.signTask.protocol.lastRound) :
    post (SignPDFTask.finalizeTask helper) s (PdfFinal s) := by
  simp only [SignPDFTask.finalizeTask, SignPDFTask.onSignTask, post_bind, post_zoom,
    SignTask.finalizeTask, SignTask.onSession, post_get, post_finalize last]
  cases hmessage : s.task.signTask.communicator.getFinalMessage with
  | error stop => exact .stopped ⟨rfl, rfl⟩ hmessage
  | ok signature =>
    cases signature with
    | none => exact .unsigned ⟨rfl, rfl⟩ hmessage
    | some signature =>
      simp only [post_bind, post_zoom, post_modify, post_pure, SignPDFTask.lockHelpers, post_get]
      split_ifs with hpoisoned
      · exact .poisoned ⟨rfl, rfl⟩
      · simp only [post_pure]
        split_ifs with hheld
        · simp only [post_bind, post_set]
          cases helper.signedPdf with
          | none => exact .broke ⟨rfl, rfl⟩
          | some signed => exact .finished ⟨rfl, rfl⟩
        · exact .missing ⟨rfl, rfl⟩ (Bool.eq_false_iff.mpr hheld)

inductive PdfRound (helper : Helper) (s : PdfState) :
    Except Stop RoundUpdate → PdfState → Prop where
  | start {u : Except Stop RoundUpdate} {s' : PdfState} (first : s.task.signTask.protocol.round = 0)
      (start : PdfStartOutcome helper s u s') : PdfRound helper s u s'
  | advance {task : SignPDFTask} {round : ℕ}
      (later : InRound (s.task.signTask.protocol.round + 1) s.task task)
      (lt : s.task.signTask.protocol.round < s.task.signTask.protocol.lastRound) :
      PdfRound helper s (.ok (.nextRound round)) ⟨task, s.helpers⟩
  | final {u : Except Stop RoundUpdate} {s' : PdfState}
      (last : s.task.signTask.protocol.round = s.task.signTask.protocol.lastRound)
      (final : PdfFinal s u s') : PdfRound helper s u s'

theorem nextRound_pdf (helper : Helper) (s : PdfState)
    (h : s.task.signTask.toSession.roundComplete) :
    post (SignPDFTask.nextRound helper) s (PdfRound helper s) := by
  simp only [SignPDFTask.nextRound, post_bind, post_get]
  rcases round_cases h with hfirst | ⟨hpos, hlt⟩ | ⟨hpos, hnot, hlast⟩
  · rw [if_pos hfirst]
    exact post_mono (startTask_pdf helper s) fun _ _ => .start hfirst
  · rw [if_neg hpos.ne', if_pos hlt]
    simp only [SignPDFTask.onSignTask, SignTask.advanceTask, SignTask.onSession, post_bind,
      post_zoom, post_advance hlt, post_get, post_pure]
    exact .advance ⟨rfl, rfl⟩ hlt
  · rw [if_neg hpos, if_neg hnot]
    exact post_mono (finalizeTask_pdf helper s hlast) fun _ _ => .final hlast

/-- An update stores messages, and a complete round goes on with them. -/
inductive PdfUpdate (helper : Helper) (d : Bytes) (messages : List ClientMessage) (t : SignPDFTask)
    (helpers : PdfHelpers) : Except Stop RoundUpdate → Runner → Prop where
  | refused {stop : Stop} (other : stop ≠ .panic .pdfHelperMissing) :
      PdfUpdate helper d messages t helpers (.error stop) ⟨.signPdf t, helpers⟩
  | listen {c : Communicator} : PdfUpdate helper d messages t helpers (.ok .listen)
      ⟨withSession (.signPdf t) ⟨c, t.signTask.protocol⟩, helpers⟩
  | round {is_taken : Bool} {c : Communicator} {u : Except Stop RoundUpdate} {s' : PdfState}
      (receive : t.signTask.communicator.receiveMessages d messages = .ok (is_taken, c))
      (received : c.roundReceived)
      (round : PdfRound helper
        ⟨⟨{ t.signTask with communicator := c }⟩, helpers⟩ u s') :
      PdfUpdate helper d messages t helpers u ⟨.signPdf s'.task, s'.helpers⟩

omit [External] in
theorem receiveMessages_ne_missing {c : Communicator} {d : Bytes} {messages : List ClientMessage}
    {stop : Stop} (h : c.receiveMessages d messages = .error stop) :
    stop ≠ .panic .pdfHelperMissing := by
  simp only [Communicator.receiveMessages] at h
  split_ifs at h
  cases h
  intro hpanic
  cases hpanic

theorem update_pdf (helper : Helper) (d : Bytes) (messages : List ClientMessage) (t : SignPDFTask)
    (helpers : PdfHelpers) : post (RunningTask.update helper d messages) ⟨.signPdf t, helpers⟩
      (PdfUpdate helper d messages t helpers) := by
  rw [← post_updateIn_same, post_updateIn]
  have hready : ready (.signPdf t) := rfl
  by_cases hwaiting : RunningTask.waitingFor (.signPdf t) d
  · simp only [hwaiting, hready, Bool.not_true, Bool.false_eq_true, ↓reduceIte]
    cases hreceive : (RunningTask.session (.signPdf t)).communicator.receiveMessages d messages with
    | error stop => exact .refused (receiveMessages_ne_missing hreceive)
    | ok p =>
      obtain ⟨is_taken, c⟩ := p
      dsimp only
      rw [reorder_same, session_withSession]
      split_ifs with hcomplete
      · have hparts := hcomplete
        rw [Session.roundComplete, Bool.and_eq_true] at hparts
        refine (post_nextRoundOf_signPdf _).mpr ?_
        exact post_mono (nextRound_pdf helper _ hcomplete) fun u s' => .round hreceive hparts.1
      · exact .listen
  · simp only [hwaiting, Bool.not_false, ↓reduceIte]
    apply PdfUpdate.refused
    intro hstop
    cases hstop

inductive PdfRestart (helper : Helper) (s : PdfState) :
    Except Stop RoundUpdate → PdfState → Prop where
  | poisoned : PdfRestart helper s (.error (.panic .pdfHelpersPoisoned)) s
  | notKilled (alive : helper.killed = false) : PdfRestart helper s
      (.error (.panic .pdfHelperFailed))
      ⟨s.task, (s.helpers.remove s.task.signTask.taskInfo.id).poison⟩
  | again {u : Except Stop RoundUpdate} {s' : PdfState} (clean : s.helpers.poisoned = false)
      (start : PdfStartOutcome helper ⟨⟨s.task.signTask.incrementAttemptCount⟩,
        s.helpers.remove s.task.signTask.taskInfo.id⟩ u s') : PdfRestart helper s u s'

theorem restart_pdf (helper : Helper) (s : PdfState) :
    post (SignPDFTask.restart helper) s (PdfRestart helper s) := by
  simp only [SignPDFTask.restart, SignPDFTask.lockHelpers, post_bind, post_get]
  by_cases hpoisoned : s.helpers.poisoned
  · rw [if_pos hpoisoned]
    exact .poisoned
  · rw [if_neg hpoisoned]
    simp only [post_pure]
    split_ifs with hkill
    · rw [Bool.and_eq_true, Bool.not_eq_true'] at hkill
      exact .notKilled hkill.2
    · simp only [post_bind, post_set, SignPDFTask.onSignTask, post_zoom, post_modify]
      refine post_mono (startTask_pdf helper _) fun u s' hstart => ?_
      exact .again (Bool.eq_false_iff.mpr hpoisoned) hstart

end Methods

section Elsewhere

def SameElsewhere (id : Uuid) (h h' : PdfHelpers) : Prop := ∀ j, j ≠ id → h'.helper j = h.helper j

variable {id : Uuid} {h h' : PdfHelpers} {helper : Helper} {s s' : PdfState} {t t' : RunningTask}
  {u : Except Stop RoundUpdate} {d : Bytes} {messages : List ClientMessage}

omit [External] in
theorem sameElsewhere_refl (id : Uuid) (h : PdfHelpers) : SameElsewhere id h h := fun _ _ => rfl

omit [External] in
theorem sameElsewhere_insert (id : Uuid) (h : PdfHelpers) : SameElsewhere id h (h.insert id) :=
  fun _ hj => Function.update_of_ne hj _ _

omit [External] in
theorem sameElsewhere_remove (id : Uuid) (h : PdfHelpers) : SameElsewhere id h (h.remove id) :=
  fun _ hj => Function.update_of_ne hj _ _

omit [External] in
theorem PdfStartOutcome.elsewhere (ho : PdfStartOutcome helper s u s') :
    SameElsewhere s.task.signTask.taskInfo.id s.helpers s'.helpers := by
  cases ho with
  | started => exact sameElsewhere_insert _ _
  | failed => exact sameElsewhere_refl _ _
  | broke => exact sameElsewhere_refl _ _

theorem PdfRound.elsewhere (ho : PdfRound helper s u s') :
    SameElsewhere s.task.signTask.taskInfo.id s.helpers s'.helpers := by
  cases ho with
  | start _ start => exact start.elsewhere
  | advance => exact sameElsewhere_refl _ _
  | final _ final =>
    cases final with
    | stopped | unsigned | poisoned | missing => exact sameElsewhere_refl _ _
    | broke | finished => exact sameElsewhere_remove _ _

theorem PdfUpdate.elsewhere {task : SignPDFTask} {r' : Runner}
    (ho : PdfUpdate helper d messages task h u r') :
    SameElsewhere task.signTask.taskInfo.id h r'.helpers := by
  cases ho with
  | refused => exact sameElsewhere_refl _ _
  | listen => exact sameElsewhere_refl _ _
  | round _ _ round => exact round.elsewhere

omit [External] in
theorem PdfRestart.elsewhere (ho : PdfRestart helper s u s') :
    SameElsewhere s.task.signTask.taskInfo.id s.helpers s'.helpers := by
  cases ho with
  | poisoned => exact sameElsewhere_refl _ _
  | notKilled => exact sameElsewhere_remove _ _
  | again _ start =>
    intro j hj
    rw [start.elsewhere j hj]
    exact sameElsewhere_remove _ _ j hj

def Plain (h : PdfHelpers) (r' : Runner) : Prop := isPdf r'.task = false ∧ r'.helpers = h

omit [External] in
theorem run_plain {τ α : Type} {wrap : τ → RunningTask} (hwrap : ∀ task, isPdf (wrap task) = false)
    (task : τ) (m : EStateM Stop τ α) :
    post (RunningTask.run wrap task m) ⟨t, h⟩ (fun _ r' => Plain h r') := by
  rw [RunningTask.run, post_zoom]
  exact ⟨hwrap _, rfl⟩

theorem initialize_plain (hpdf : isPdf t = false) :
    post (RunningTask.initializeTask helper) ⟨t, h⟩ (fun _ r' => Plain h r') := by
  simp only [RunningTask.initializeTask, post_bind, post_get]
  cases t with
  | group | sign | decrypt => exact run_plain (fun _ => rfl) _ _
  | signPdf => cases hpdf

theorem update_plain (hpdf : isPdf t = false) :
    post (RunningTask.update helper d messages) ⟨t, h⟩ (fun _ r' => Plain h r') := by
  simp only [RunningTask.update, post_bind, post_get]
  cases t with
  | group | sign | decrypt => exact run_plain (fun _ => rfl) _ _
  | signPdf => cases hpdf

theorem restart_plain (hpdf : isPdf t = false) :
    post (RunningTask.restart helper) ⟨t, h⟩ (fun _ r' => Plain h r') := by
  simp only [RunningTask.restart, post_bind, post_get]
  cases t with
  | group | sign | decrypt => exact run_plain (fun _ => rfl) _ _
  | signPdf => cases hpdf

theorem initialize_signPdf (task : SignPDFTask) :
    post (RunningTask.initializeTask helper) ⟨.signPdf task, h⟩ (fun u r' => ∃ s',
      r' = ⟨.signPdf s'.task, s'.helpers⟩ ∧ PdfStartOutcome helper ⟨task, h⟩ u s') := by
  simp only [RunningTask.initializeTask, RunningTask.runPdf, post_bind, post_get, post_zoom]
  exact post_mono (startTask_pdf helper _) fun u s' hs => ⟨s', rfl, hs⟩

theorem restart_signPdf (task : SignPDFTask) :
    post (RunningTask.restart helper) ⟨.signPdf task, h⟩ (fun u r' => ∃ s',
      r' = ⟨.signPdf s'.task, s'.helpers⟩ ∧ PdfRestart helper ⟨task, h⟩ u s') := by
  simp only [RunningTask.restart, RunningTask.runPdf, post_bind, post_get, post_zoom]
  exact post_mono (restart_pdf helper _) fun u s' hs => ⟨s', rfl, hs⟩

theorem initialize_elsewhere
    (ran : outcome (RunningTask.initializeTask helper) ⟨t, h⟩ = (u, ⟨t', h'⟩)) :
    SameElsewhere t.taskInfo.id h h' := by
  have hpost : post (RunningTask.initializeTask helper) ⟨t, h⟩
      (fun _ r' => SameElsewhere t.taskInfo.id h r'.helpers) := by
    cases t with
    | signPdf task =>
      refine post_mono (initialize_signPdf task) ?_
      rintro u _ ⟨s', rfl, hs⟩
      exact hs.elsewhere
    | group | sign | decrypt =>
      refine post_mono (initialize_plain rfl) fun _ r' hr => ?_
      rw [hr.2]
      exact sameElsewhere_refl _ _
  rw [post, ran] at hpost
  exact hpost

theorem update_elsewhere
    (ran : outcome (RunningTask.update helper d messages) ⟨t, h⟩ = (u, ⟨t', h'⟩)) :
    SameElsewhere t.taskInfo.id h h' := by
  have hpost : post (RunningTask.update helper d messages) ⟨t, h⟩
      (fun _ r' => SameElsewhere t.taskInfo.id h r'.helpers) := by
    cases t with
    | signPdf task =>
      exact post_mono (update_pdf helper d messages task h) fun _ _ hs => hs.elsewhere
    | group | sign | decrypt =>
      refine post_mono (update_plain rfl) fun _ r' hr => ?_
      rw [hr.2]
      exact sameElsewhere_refl _ _
  rw [post, ran] at hpost
  exact hpost

theorem restart_elsewhere
    (ran : outcome (RunningTask.restart helper) ⟨t, h⟩ = (u, ⟨t', h'⟩)) :
    SameElsewhere t.taskInfo.id h h' := by
  have hpost : post (RunningTask.restart helper) ⟨t, h⟩
      (fun _ r' => SameElsewhere t.taskInfo.id h r'.helpers) := by
    cases t with
    | signPdf task =>
      refine post_mono (restart_signPdf task) ?_
      rintro u _ ⟨s', rfl, hs⟩
      exact hs.elsewhere
    | group | sign | decrypt =>
      refine post_mono (restart_plain rfl) fun _ r' hr => ?_
      rw [hr.2]
      exact sameElsewhere_refl _ _
  rw [post, ran] at hpost
  exact hpost

end Elsewhere

section Held

/-- A PDF task in a round of its protocol has a helper, and a task of another kind has none. -/
structure HeldTask (h : PdfHelpers) (id : Uuid) (t : RunningTask) : Prop where
  plain : isPdf t = false → h.helper id = false
  started : isPdf t → 0 < t.session.protocol.round
  held : isPdf t → t.session.protocol.round ≤ t.session.protocol.lastRound → h.helper id

def HeldEntry (h : PdfHelpers) (id : Uuid) : TaskEntry → Prop
  | .running t => HeldTask h id t
  | _ => h.helper id = false

variable {id : Uuid} {h h' : PdfHelpers} {helper : Helper} {t t' : RunningTask} {e : TaskEntry}
  {u : Except Stop RoundUpdate} {d : Bytes} {messages : List ClientMessage}

theorem heldTask_plain (hpdf : isPdf t = false) (hfree : h.helper id = false) :
    HeldTask h id t := by
  refine ⟨fun _ => hfree, fun hyes => ?_, fun hyes => ?_⟩
  · rw [hpdf] at hyes
    cases hyes
  · rw [hpdf] at hyes
    cases hyes

theorem heldTask_pdf {task : SignPDFTask} (hpos : 0 < task.signTask.protocol.round)
    (hheld : task.signTask.protocol.round ≤ task.signTask.protocol.lastRound → h.helper id) :
    HeldTask h id (.signPdf task) :=
  ⟨nofun, fun _ => hpos, fun _ => hheld⟩

theorem HeldEntry.congr (he : HeldEntry h id e) (hsame : h'.helper id = h.helper id) :
    HeldEntry h' id e := by
  cases e with
  | running t =>
    refine ⟨fun hpdf => hsame.trans (he.plain hpdf), he.started, fun hpdf hle => ?_⟩
    rw [hsame]
    exact he.held hpdf hle
  | voting | declined | finished | failed => exact hsame.trans he

theorem initialize_held (ran : outcome (RunningTask.initializeTask helper) ⟨t, h⟩ = (u, ⟨t', h'⟩))
    (hid : t.taskInfo.id = id) (hfree : h.helper id = false) :
    u = .ok (.nextRound 1) ∧ HeldTask h' id t' ∨
      h'.helper id = false ∧ (isPdf t' = false ∨ ∀ v, u = .ok v → ∃ f, v = .failed f) := by
  have hpost : post (RunningTask.initializeTask helper) ⟨t, h⟩ (fun u r' =>
      u = .ok (.nextRound 1) ∧ HeldTask r'.helpers id r'.task ∨ r'.helpers.helper id = false ∧
        (isPdf r'.task = false ∨ ∀ v, u = .ok v → ∃ f, v = .failed f)) := by
    cases t with
    | signPdf task =>
      refine post_mono (initialize_signPdf task) ?_
      rintro u _ ⟨s', rfl, hs⟩
      cases hs with
      | started hin =>
        refine .inl ⟨rfl, heldTask_pdf ?_ fun _ => ?_⟩
        · rw [hin.protocol]
          exact Nat.one_pos
        · subst hid
          exact Function.update_self _ _ _
      | failed f =>
        refine .inr ⟨hfree, .inr ?_⟩
        rintro _ ⟨⟩
        exact ⟨f, rfl⟩
      | broke =>
        refine .inr ⟨hfree, .inr ?_⟩
        intro v hv
        cases hv
    | group | sign | decrypt =>
      refine post_mono (initialize_plain rfl) fun u r' hr => ?_
      right
      rw [hr.2]
      exact ⟨hfree, .inl hr.1⟩
  rw [post, ran] at hpost
  exact hpost

variable {env : Env} {op : Op} {r : Except Stop Unit} {g g' : Guarded} {db db' : Database}
  {row : TaskRow}

omit [External] in
theorem roundWrite_not_refused {round : ℕ} {stop : Stop} (hserves : env.RepositoryServes)
    (hrow : db.task.lookup id = some row) :
    ¬ WriteFails env .setTaskRound id (roundWrite id round) db stop := by
  intro hw
  cases hw with
  | fails hfault =>
    rw [hserves] at hfault
    cases hfault
  | stops hfault =>
    rw [hserves] at hfault
    cases hfault
  | refused _ herror =>
    obtain ⟨db', hok⟩ := roundWrite_served hrow round
    rw [herror] at hok
    cases hok

omit [External] in
theorem constructed_id {v : VotingTask} {chosen : List Device} (h : construct v chosen = .ok t) :
    t.taskInfo.id = v.taskInfo.id := by
  obtain ⟨m, -, hc⟩ := construct_ok h
  obtain ⟨ps, -, hinfo⟩ := hc.info
  rw [hinfo]

theorem firstCall_elsewhere {v : VotingTask} {chosen : List Device} {e' : TaskEntry}
    (ho : FirstCall env id v chosen db h e e' h') (hid : v.taskInfo.id = id) :
    SameElsewhere id h h' := by
  cases ho with
  | notConstructed => exact sameElsewhere_refl _ _
  | stopped hcon ran | notRecorded hcon ran | started hcon ran | failed hcon ran =>
    rw [← hid, ← constructed_id hcon]
    exact initialize_elsewhere ran

theorem firstCall_held {v : VotingTask} {chosen : List Device} {e' : TaskEntry}
    (ho : FirstCall env id v chosen db h (.voting v) e' h') (hid : v.taskInfo.id = id)
    (hfree : h.helper id = false) (hserves : env.RepositoryServes)
    (hrow : db.task.lookup id = some row) : HeldEntry h' id e' := by
  have hinfo : ∀ {t}, construct v chosen = .ok t → t.taskInfo.id = id :=
    fun ht => (constructed_id ht).trans hid
  cases ho with
  | notConstructed => exact hfree
  | stopped hcon ran =>
    rcases initialize_held ran (hinfo hcon) hfree with ⟨hu, -⟩ | ⟨hfree', -⟩
    · cases hu
    · exact hfree'
  | notRecorded hcon ran w =>
    rcases initialize_held ran (hinfo hcon) hfree with ⟨hu, -⟩ | ⟨hfree', -⟩
    · cases hu
      obtain ⟨stop, hw⟩ := w 1 rfl
      exact absurd hw (roundWrite_not_refused hserves hrow)
    · exact hfree'
  | started hcon ran hu =>
    rcases initialize_held ran (hinfo hcon) hfree with ⟨-, hheld⟩ | ⟨hfree', hkind⟩
    · exact hheld
    · rcases hkind with hpdf | hfailed
      · exact heldTask_plain hpdf hfree'
      · obtain ⟨f, hf⟩ := hfailed _ rfl
        subst hf
        rcases hu with hu | ⟨round, hu⟩
        · cases hu
        · cases hu
  | failed hcon ran =>
    rcases initialize_held ran (hinfo hcon) hfree with ⟨hu, -⟩ | ⟨hfree', -⟩
    · cases hu
    · exact hfree'

def BroadcastsVerify (c : Communicator) : Prop :=
  ∀ i msg device broadcast, c.input.lookup i = some msg →
    c.activeShares.lookup (i - c.protocolType.indexOffset) = some device →
    msg.broadcast = some broadcast →
    External.verifyBroadcast broadcast device.certificate ≠ none

theorem loop_verified {c : Communicator} (hverify : BroadcastsVerify c)
    (l : List (Sigma fun _ : ℕ => ClientMessage)) (hl : ∀ e ∈ l, c.input.lookup e.1 = some e.2)
    (last : Option Bytes) (hlast : l = [] → last ≠ none) :
    c.finalMessageLoop l last ≠ .ok none := by
  induction l generalizing last with
  | nil =>
    intro hnone
    exact hlast rfl (Except.ok.inj hnone)
  | cons e l ih =>
    obtain ⟨sender, msg⟩ := e
    rw [List.forall_mem_cons] at hl
    intro hnone
    rw [Communicator.finalMessageLoop] at hnone
    split_ifs at hnone
    split at hnone
    · cases hnone
    · rename_i device hdevice
      split at hnone
      · cases hnone
      · rename_i broadcast hbroadcast
        split at hnone
        · rename_i hunverified
          exact hverify sender msg device broadcast hl.1 hdevice hbroadcast hunverified
        · split_ifs at hnone
          exact ih hl.2 _ (fun _ => Option.some_ne_none _) hnone

theorem getFinalMessage_verified {c : Communicator} (hverify : BroadcastsVerify c)
    (hreceived : c.roundReceived) : c.getFinalMessage ≠ .ok none := by
  apply loop_verified hverify
  · intro e he
    exact mem_entries_iff.mp he
  · intro hnil
    exact absurd hnil (entries_ne_nil hreceived)

theorem getFinalMessage_ne_missing {c : Communicator} {stop : Stop}
    (hstop : c.getFinalMessage = .error stop) : stop ≠ .panic .pdfHelperMissing := by
  have hloop : ∀ l last, c.finalMessageLoop l last ≠ .error (.panic .pdfHelperMissing) := by
    intro l
    induction l with
    | nil =>
      intro last hmissing
      cases hmissing
    | cons e l ih =>
      intro last hmissing
      rw [Communicator.finalMessageLoop] at hmissing
      split_ifs at hmissing
      · cases hmissing
      · split at hmissing
        · cases hmissing
        · split at hmissing
          · cases hmissing
          · split at hmissing
            · cases hmissing
            · split_ifs at hmissing
              · exact ih _ hmissing
              · cases hmissing
  rintro rfl
  exact hloop _ _ hstop

theorem PdfUpdate.ne_missing {task : SignPDFTask} {r' : Runner}
    (ho : PdfUpdate helper d messages task h u r') (hid : task.signTask.taskInfo.id = id)
    (held : HeldTask h id (.signPdf task)) : u ≠ .error (.panic .pdfHelperMissing) := by
  have hpos : 0 < task.signTask.protocol.round := held.started rfl
  cases ho with
  | refused hother => exact fun hu => hother (Except.error.inj hu)
  | listen => exact nofun
  | round _ _ round =>
    cases round with
    | start hfirst => exact absurd hfirst hpos.ne'
    | advance => exact nofun
    | final hlast final =>
      cases final with
      | stopped _ hmessage =>
        exact fun hu => getFinalMessage_ne_missing hmessage (Except.error.inj hu)
      | missing _ hfree =>
        have hheld : h.helper id := held.held rfl hlast.le
        subst hid
        rw [show h.helper task.signTask.taskInfo.id = false from hfree] at hheld
        cases hheld
      | unsigned | poisoned | broke | finished => exact nofun

/-- The task keeps its helper until it ends. -/
theorem PdfUpdate.kept {task : SignPDFTask} {r' : Runner}
    (ho : PdfUpdate helper d messages task h u r') (hid : task.signTask.taskInfo.id = id)
    (held : HeldTask h id (.signPdf task))
    (hfinal : ∀ is_taken c, task.signTask.communicator.receiveMessages d messages =
      .ok (is_taken, c) → task.signTask.protocol.round = task.signTask.protocol.lastRound →
        BroadcastsVerify c) :
    HeldTask r'.helpers id r'.task ∧ ((∃ f, u = .ok (.failed f)) ∨
      (∃ n f, u = .ok (.finished n f)) → r'.helpers.helper id = false) := by
  have hpos : 0 < task.signTask.protocol.round := held.started rfl
  -- once the last round is counted no helper is needed
  have hover : ∀ {h' : PdfHelpers} {task' : SignPDFTask},
      InRound (task.signTask.protocol.round + 1) task task' →
      task.signTask.protocol.round = task.signTask.protocol.lastRound →
      HeldTask h' id (.signPdf task') := by
    intro h' task' hin hlast
    apply heldTask_pdf
    · rw [hin.protocol]
      exact Nat.succ_pos _
    · rw [hin.protocol]
      intro hle
      change task.signTask.protocol.round + 1 ≤ task.signTask.protocol.lastRound at hle
      omega
  cases ho with
  | refused => exact ⟨held, by rintro (⟨f, ⟨⟩⟩ | ⟨n, f, ⟨⟩⟩)⟩
  | listen => exact ⟨heldTask_pdf hpos (held.held rfl), by rintro (⟨f, ⟨⟩⟩ | ⟨n, f, ⟨⟩⟩)⟩
  | round hreceive hreceived round =>
    cases round with
    | start hfirst => exact absurd hfirst hpos.ne'
    | advance hin hlt =>
      refine ⟨heldTask_pdf ?_ fun _ => held.held rfl hlt.le, by rintro (⟨f, ⟨⟩⟩ | ⟨n, f, ⟨⟩⟩)⟩
      rw [hin.protocol]
      exact Nat.succ_pos _
    | final hlast final =>
      cases final with
      | unsigned _ hmessage =>
        have hverify := hfinal _ _ hreceive hlast
        exact absurd hmessage (getFinalMessage_verified hverify hreceived)
      | stopped hin | poisoned hin | missing hin | broke hin =>
        exact ⟨hover ⟨hin.taskInfo, hin.protocol⟩ hlast, by rintro (⟨f, ⟨⟩⟩ | ⟨n, f, ⟨⟩⟩)⟩
      | finished hin =>
        refine ⟨hover ⟨hin.taskInfo, hin.protocol⟩ hlast, fun _ => ?_⟩
        subst hid
        exact Function.update_self _ _ _

theorem update_held (ran : outcome (RunningTask.update helper d messages) ⟨t, h⟩ = (u, ⟨t', h'⟩))
    (hid : t.taskInfo.id = id) (held : HeldTask h id t)
    (hfinal : ∀ task is_taken c, t = .signPdf task →
      task.signTask.communicator.receiveMessages d messages = .ok (is_taken, c) →
      task.signTask.protocol.round = task.signTask.protocol.lastRound → BroadcastsVerify c) :
    HeldTask h' id t' ∧ ((∃ f, u = .ok (.failed f)) ∨ (∃ n f, u = .ok (.finished n f)) →
      h'.helper id = false) := by
  have hpost : post (RunningTask.update helper d messages) ⟨t, h⟩ (fun u r' =>
      HeldTask r'.helpers id r'.task ∧ ((∃ f, u = .ok (.failed f)) ∨
        (∃ n f, u = .ok (.finished n f)) → r'.helpers.helper id = false)) := by
    cases t with
    | signPdf task =>
      refine post_mono (update_pdf helper d messages task h) fun u r' ho => ?_
      exact ho.kept hid held fun is_taken c => hfinal task is_taken c rfl
    | group | sign | decrypt =>
      refine post_mono (update_plain rfl) fun u r' hr => ?_
      have hfree := held.plain rfl
      rw [hr.2]
      exact ⟨heldTask_plain hr.1 hfree, fun _ => hfree⟩
  rw [post, ran] at hpost
  exact hpost

omit [External] in
theorem record_held [External] (ho : RecordOutcome env id t db u r db' e) (held : HeldTask h id t)
    (hend : (∃ f, u = .ok (.failed f)) ∨ (∃ n f, u = .ok (.finished n f)) → h.helper id = false) :
    HeldEntry h id e := by
  cases ho with
  | stopped => exact held
  | listen => exact held
  | nextRound stored => cases stored <;> exact held
  | failed stored =>
    cases stored with
    | served => exact hend (.inl ⟨_, rfl⟩)
    | fails => exact held
  | finished finish =>
    cases finish with
    | roundNotStored | groupNotStored => exact held
    | group _ _ _ stored | threshold _ _ stored =>
      cases stored with
      | served => exact hend (.inr ⟨_, _, rfl⟩)
      | fails => exact held

theorem PdfRestart.held {s s' : PdfState} (ho : PdfRestart helper s u s')
    (hid : s.task.signTask.taskInfo.id = id) (held : HeldTask s.helpers id (.signPdf s.task))
    (hcert : s.task.signTask.group.certificate.isSome) (hstart : helper.pdfStart ≠ .broken)
    (hkilled : helper.killed) :
    ((∃ stop, u = .error stop) ∨ u = .ok (.nextRound 1)) ∧
      HeldTask s'.helpers id (.signPdf s'.task) ∨
      (∃ f, u = .ok (.failed f)) ∧ s'.helpers.helper id = false := by
  cases ho with
  | poisoned => exact .inl ⟨.inl ⟨_, rfl⟩, held⟩
  | notKilled halive =>
    rw [hkilled] at halive
    cases halive
  | again hclean start =>
    cases start with
    | started hin =>
      refine .inl ⟨.inr rfl, heldTask_pdf ?_ fun _ => ?_⟩
      · rw [hin.protocol]
        exact Nat.one_pos
      · subst hid
        exact Function.update_self _ _ _
    | failed f =>
      refine .inr ⟨⟨f, rfl⟩, ?_⟩
      subst hid
      exact Function.update_self _ _ _
    | broke why =>
      rcases why with hnone | hpoisoned | hbroken
      · rw [show s.task.signTask.group.certificate = none from hnone] at hcert
        cases hcert
      · rw [show s.helpers.poisoned = true from hpoisoned] at hclean
        cases hclean
      · exact absurd hbroken hstart

theorem restart_held (ran : outcome (RunningTask.restart helper) ⟨t, h⟩ = (u, ⟨t', h'⟩))
    (hid : t.taskInfo.id = id) (held : HeldTask h id t)
    (hcert : ∀ task, t = .signPdf task → task.signTask.group.certificate.isSome)
    (hstart : helper.pdfStart ≠ .broken) (hkilled : helper.killed) :
    ((∃ stop, u = .error stop) ∨ u = .ok (.nextRound 1)) ∧ HeldTask h' id t' ∨
      (∃ f, u = .ok (.failed f)) ∧ h'.helper id = false := by
  by_cases hpdf : isPdf t
  · have hpost : post (RunningTask.restart helper) ⟨t, h⟩ (fun u r' =>
        ((∃ stop, u = .error stop) ∨ u = .ok (.nextRound 1)) ∧ HeldTask r'.helpers id r'.task ∨
          (∃ f, u = .ok (.failed f)) ∧ r'.helpers.helper id = false) := by
      cases t with
      | signPdf task =>
        refine post_mono (restart_signPdf task) ?_
        rintro u _ ⟨s', rfl, hs⟩
        exact hs.held hid held (hcert task rfl) hstart hkilled
      | group | sign | decrypt => cases hpdf
    rw [post, ran] at hpost
    exact hpost
  · have hplain := Bool.eq_false_iff.mpr hpdf
    have hpost : post (RunningTask.restart helper) ⟨t, h⟩ (fun _ r' => Plain h r') :=
      restart_plain hplain
    rw [post, ran] at hpost
    obtain ⟨hpdf', rfl⟩ := hpost
    have hheld := heldTask_plain hpdf' (held.plain hplain)
    rcases restart_safe ran (fun task ht => ⟨hcert task ht, hstart⟩) with
      ⟨-, hstop⟩ | hround | ⟨hyes, -⟩
    · exact .inl ⟨.inl hstop, hheld⟩
    · exact .inl ⟨.inr hround, hheld⟩
    · exact absurd hyes hpdf

theorem decide_held {accept : Bool} (ho : DecideOutcome env id d accept g r g')
    (hrow : g.server.db.task.lookup id = some row) (he : EntryOf g.server.db id row g.entry)
    (held : HeldEntry g.server.pdfHelpers id g.entry) (hserves : env.RepositoryServes) :
    HeldEntry g'.server.pdfHelpers id g'.entry := by
  have hfree : ∀ {v}, g.entry = .voting v → g.server.pdfHelpers.helper id = false := by
    intro v hv
    rw [hv] at held
    exact held
  cases ho with
  | notVoting => exact held
  | notParticipant => exact held
  | notStored hv => exact hfree hv
  | undecided hv => exact hfree hv
  | declined hv _ _ _ stored => cases stored <;> exact hfree hv
  | @accepted v _ _ _ hv _ _ _ start =>
    cases start with
    | notStored _ _ helpers =>
      refine HeldEntry.congr ?_ (congrFun (congrArg PdfHelpers.helper helpers) id)
      exact hfree hv
    | @built _ db _ _ _ w _ _ first =>
      have hid : v.taskInfo.id = id := by
        rw [hv] at he
        exact he.votingOf.info.id
      have hrow' : db.task.lookup id = some row := by
        rw [(setTaskActiveShares_ok w.write).2]
        exact hrow
      exact firstCall_held first hid (hfree hv) hserves hrow'

theorem restartEntry_held (ho : RestartEntryOutcome env id g r g')
    (hrow : g.server.db.task.lookup id = some row) (he : EntryOf g.server.db id row g.entry)
    (htables : Tables g.server.db) (held : HeldEntry g.server.pdfHelpers id g.entry)
    (hserves : env.RepositoryServes) (hstart : env.helper.pdfStart ≠ .broken)
    (hkilled : env.helper.killed) : HeldEntry g'.server.pdfHelpers id g'.entry := by
  cases ho with
  | notRunning => exact held
  | notStored => exact held
  | @restarted t t' u _ db _ _ _ ht w restart record _ ran =>
    rw [ht] at he held
    have hcert : ∀ task, t = .signPdf task → task.signTask.group.certificate.isSome := by
      rintro task rfl
      exact GroupWellFormed.certificate_of_signPdf htables hrow he.runningOf.context rfl
    rcases restart_held ran he.runningOf.info.id held hcert hstart hkilled with
      ⟨hu, hheld⟩ | ⟨⟨f, rfl⟩, hfree⟩
    · apply record_held record hheld
      rintro (⟨f, rfl⟩ | ⟨n, f, rfl⟩)
      · rcases hu with ⟨stop, hu⟩ | hu
        · cases hu
        · cases hu
      · rcases hu with ⟨stop, hu⟩ | hu
        · cases hu
        · cases hu
    · -- the result of a failed restart is stored, so the task is left without its helper
      obtain ⟨row', hrow'⟩ := incrementTaskAttemptCount_row w.write
      cases record with
      | failed stored =>
        obtain ⟨-, rfl⟩ := stored_ok (resultWrite_served hrow' _) stored (.inl hserves)
        exact hfree

theorem body_elsewhere (ho : BodyOutcome env op id g r g')
    (he : EntryOf g.server.db id row g.entry) :
    SameElsewhere id g.server.pdfHelpers g'.server.pdfHelpers := by
  cases ho with
  | decide ho =>
    cases ho with
    | notVoting | notParticipant | notStored | undecided | declined => exact sameElsewhere_refl _ _
    | @accepted v _ _ _ hv _ _ _ start =>
      rw [hv] at he
      have hid : v.taskInfo.id = id := he.votingOf.info.id
      cases start with
      | notStored _ _ helpers =>
        rw [helpers]
        exact sameElsewhere_refl _ _
      | built _ _ _ first =>
        exact firstCall_elsewhere first hid
  | update ho =>
    cases ho with
    | notRunning | stale => exact sameElsewhere_refl _ _
    | updated ht _ _ _ _ ran =>
      rw [ht] at he
      have hsame := update_elsewhere ran
      rw [he.runningOf.info.id] at hsame
      exact hsame
  | restart _ ho =>
    cases ho with
    | notRunning | notStored => exact sameElsewhere_refl _ _
    | restarted ht _ _ _ _ ran =>
      rw [ht] at he
      have hsame := restart_elsewhere ran
      rw [he.runningOf.info.id] at hsame
      exact hsame
  | acknowledge ho =>
    cases ho with
    | notFinished | acknowledged => exact sameElsewhere_refl _ _
  | read => exact sameElsewhere_refl _ _

end Held

section Runs

variable {id : Uuid} {env : Env} {op : Op} {s s' : Server} {r : Except Stop Unit} {e : TaskEntry}
  {g : Guarded}

/-- A step that leaves the helper of a task where it belongs. -/
structure SparesHelper (id : Uuid) (env : Env) (op : Op) (s : Server) : Prop where
  up : ∀ call j, env.fault call j ≠ .stops
  /-- A new process starts only while the task is not a running PDF task. -/
  restart : op = .restartServer → ∀ task, hydrateTask s.db id ≠ .ok (.running (.signPdf task))
  decide : ∀ d accept, op = .decideTask id d accept → env.RepositoryServes
  sweep : op = .restartStaleTasks →
    env.RepositoryServes ∧ env.helper.pdfStart ≠ .broken ∧ env.helper.killed
  /-- The broadcasts that complete the last round are signed by their devices. -/
  final : ∀ d messages attempt task is_taken c, op = .updateTask id d messages attempt →
    lockedTask env s id = .ok (.running (.signPdf task)) →
    task.signTask.communicator.receiveMessages d messages = .ok (is_taken, c) →
    task.signTask.protocol.round = task.signTask.protocol.lastRound → BroadcastsVerify c

inductive SparingRun (id : Uuid) : Server → Prop where
  | initial : SparingRun id initial
  | step {s : Server} (env : Env) (op : Op)
      (run : SparingRun id s) (careful : SparesHelper id env op s) :
      SparingRun id (next env op s)

/-- The helper is there while the task needs it and only then. -/
structure Tended (id : Uuid) (s : Server) : Prop where
  invariant : Invariant s
  found : ∀ e, Found s id e → HeldEntry s.pdfHelpers id e
  uncached : s.taskCache id = none → s.pdfHelpers.helper id = false

theorem Tended.task {j : Uuid} (h : Tended id s) (hl : Loaded env s j e)
    (body : BodyOutcome env op j ⟨e, cached s j e⟩ r g)
    (hown : j = id → HeldEntry s.pdfHelpers id e → HeldEntry g.server.pdfHelpers id g.entry) :
    Tended id (cached g.server j g.entry) := by
  have hs := task_sound h.invariant hl body
  have hinv := (move_invariant h.invariant (.task hl body)).1
  by_cases hj : j = id
  · subst hj
    have hheld := hown rfl (h.found e (loaded_found hl))
    refine ⟨hinv, ?_, fun hnone => ?_⟩
    · rintro e' (hcached | ⟨hnone, -⟩)
      · rw [cached_self] at hcached
        cases hcached
        exact hheld
      · rw [cached_self] at hnone
        cases hnone
    · rw [cached_self] at hnone
      cases hnone
  · obtain ⟨row, -, he⟩ := loaded_entry h.invariant hl
    have hsame : g.server.pdfHelpers.helper id = s.pdfHelpers.helper id :=
      body_elsewhere body he id (Ne.symm hj)
    have hcache : ∀ i, i ≠ j → g.server.taskCache i = s.taskCache i := by
      intro i hi
      rw [hs.taskCache]
      exact Function.update_of_ne hi _ _
    have hall : AllFound (fun i e => i = id → HeldEntry g.server.pdfHelpers id e) s := by
      rintro _ e' hfound rfl
      exact (h.found e' hfound).congr hsame
    have hall' : AllFound (fun i e => i = id → HeldEntry g.server.pdfHelpers id e)
        (cached g.server j g.entry) :=
      hall.insert h.invariant hs.extend hs.others hcache fun hji => absurd hji hj
    refine ⟨hinv, fun e' hfound => hall' id e' hfound rfl, fun hnone => ?_⟩
    rw [cached_of_ne (Ne.symm hj), hcache id (Ne.symm hj)] at hnone
    exact hsame.trans (h.uncached hnone)

theorem Tended.same (h : Tended id s) (hinv : Invariant s') (hx : Extends s.db s'.db)
    (hs : SameTask s.db s'.db id) (hc : s'.taskCache id = s.taskCache id)
    (hh : s'.pdfHelpers = s.pdfHelpers) : Tended id s' := by
  refine ⟨hinv, fun e hfound => ?_, fun hnone => ?_⟩
  · rw [hh]
    apply h.found
    refine found_of_same h.invariant hx ?_ hs hc hfound
    intro hmem
    rw [← AList.lookup_isSome] at hmem ⊢
    exact hs.task ▸ hmem
  · rw [hh]
    rw [hc] at hnone
    exact h.uncached hnone

theorem Tended.addTask {v : VotingTask} {db : Database} (h : Tended id s)
    (admitted : Admitted env s v) (hw : createRows v s.db = .ok db)
    (hinv : Invariant (cached { s with db } v.taskInfo.id (.voting v))) :
    Tended id (cached { s with db } v.taskInfo.id (.voting v)) := by
  have hs := admitted_sound h.invariant admitted hw
  have hall : AllFound (fun i e => i = id → HeldEntry s.pdfHelpers id e) s := by
    rintro _ e hfound rfl
    exact h.found e hfound
  have hfree : v.taskInfo.id = id → s.pdfHelpers.helper id = false := by
    rintro rfl
    apply h.uncached
    cases hc : s.taskCache v.taskInfo.id with
    | none => rfl
    | some e =>
      obtain ⟨row, hrow, -⟩ := h.invariant.cache _ e hc
      exact absurd (mem_of_row hrow) (insertTask_ok (createRows_ok hw).2.2).1
  have hall' : AllFound (fun i e => i = id → HeldEntry s.pdfHelpers id e)
      (cached { s with db } v.taskInfo.id (.voting v)) :=
    hall.insert h.invariant hs.extend hs.others (fun _ _ => rfl) hfree
  refine ⟨hinv, fun e hfound => hall' id e hfound rfl, fun hnone => ?_⟩
  by_cases hid : v.taskInfo.id = id
  · exact hfree hid
  · rw [cached_of_ne (Ne.symm hid)] at hnone
    exact h.uncached hnone

theorem move_tended (h : Tended id s) (m : Move env op s r s') (hrestart : op ≠ .restartServer)
    (hupdate : ∀ d messages attempt, op ≠ .updateTask id d messages attempt)
    (hdecide : ∀ d accept, op = .decideTask id d accept → env.RepositoryServes)
    (hsweep : op = .restartStaleTasks →
      env.RepositoryServes ∧ env.helper.pdfStart ≠ .broken ∧ env.helper.killed) :
    Tended id s' := by
  obtain ⟨hinv, hx⟩ := move_invariant h.invariant m
  cases m with
  | refused => exact h
  | aside ha =>
    refine h.same hinv hx ?_ (congrFun ha.taskCache id) ha.pdfHelpers
    rw [ha.db]
    exact .refl _ _
  | addDevice w => exact h.same hinv hx (sameTask_addDevice w.write id) rfl rfl
  | addTask admitted w => exact h.addTask admitted w.write hinv
  | restart hop => exact absurd hop hrestart
  | @task j e _ g hl body =>
    apply h.task hl body
    rintro rfl held
    obtain ⟨row, hrow, he⟩ := loaded_entry h.invariant hl
    cases body with
    | decide ho => exact decide_held ho hrow he held (hdecide _ _ rfl)
    | update => exact absurd rfl (hupdate _ _ _)
    | restart _ ho =>
      obtain ⟨hserves, hstart, hkilled⟩ := hsweep rfl
      exact restartEntry_held ho hrow he h.invariant.tables held hserves hstart hkilled
    | acknowledge ho =>
      cases ho with
      | notFinished => exact held
      | acknowledged hf _ stored =>
        rw [show e = .finished _ from hf] at held
        cases stored <;> exact held
    | read => exact held

theorem update_tended {d : Bytes} {messages : List ClientMessage} {attempt : ℕ} (h : Tended id s)
    (hc : SparesHelper id env (.updateTask id d messages attempt) s) :
    post (exec env (.updateTask id d messages attempt)) s (fun _ s' => Tended id s') := by
  refine post_mono (updateTask_outcome env id d messages attempt s) fun r s' ho => ?_
  cases ho with
  | notLoaded => exact h
  | @loaded e _ g hl body =>
    apply h.task hl (.update body)
    rintro - held
    cases body with
    | notRunning => exact held
    | stale => exact held
    | updated ht _ _ record _ ran =>
      have he : e = .running _ := ht
      subst he
      obtain ⟨row, -, he⟩ := loaded_entry h.invariant hl
      obtain ⟨hheld, hend⟩ := update_held ran he.runningOf.info.id held fun task is_taken c htask =>
        hc.final d messages attempt task is_taken c rfl
          (by rw [← htask]; exact lockedTask_ok.mpr hl)
      exact record_held record hheld hend

theorem next_tended (h : Tended id s) (hc : SparesHelper id env op s) :
    Tended id (next env op s) := by
  by_cases hrestart : op = .restartServer
  · subst hrestart
    refine ⟨(next_invariant env _ s h.invariant).1, ?_, fun _ => rfl⟩
    rintro e (hcached | ⟨-, hhydrated⟩)
    · cases hcached
    · cases e with
      | running t =>
        cases t with
        | signPdf task => exact absurd hhydrated (hc.restart rfl task)
        | group | sign | decrypt => exact heldTask_plain rfl rfl
      | voting | declined | finished | failed => rfl
  · rw [next_eq, if_neg (result_ne_crash hc.up op s)]
    by_cases hop : ∃ d messages attempt, op = .updateTask id d messages attempt
    · obtain ⟨d, messages, attempt, rfl⟩ := hop
      exact update_tended h hc
    · push Not at hop
      refine (exec_runs env op s h.invariant).keeps (P := Tended id) ?_ h
      intro a _ b ha m
      exact move_tended ha m hrestart hop hc.decide hc.sweep

theorem sparingRun_tended (h : SparingRun id s) : Tended id s := by
  induction h with
  | initial =>
    refine ⟨reachable_invariant .initial, ?_, fun _ => rfl⟩
    rintro e (hcached | ⟨-, hhydrated⟩)
    · cases hcached
    · obtain ⟨row, hrow⟩ := hydrate_row hhydrated
      cases hrow
  | step env op _ hc ih => exact next_tended ih hc

/-- The signature that `finalize_task` of a PDF task obtains during an operation: an update
completes the last round, and the messages agree. -/
def signatureObtained (env : Env) (s : Server) : Op → Option (Uuid × Bytes)
  | .updateTask id d messages attempt =>
    match lockedTask env s id with
    | .ok (.running (.signPdf task)) =>
      if attempt = task.signTask.taskInfo.attempts ∧ task.signTask.waitingFor d then
        match task.signTask.communicator.receiveMessages d messages with
        | .ok (_, c) =>
          if (Session.mk c task.signTask.protocol).roundComplete ∧
              task.signTask.protocol.round = task.signTask.protocol.lastRound then
            match c.getFinalMessage with
            | .ok (some signature) => some (id, signature)
            | _ => none
          else none
        | _ => none
      else none
    | _ => none
  | _ => none

theorem signatureObtained_some {signature : Bytes}
    (h : signatureObtained env s op = some (id, signature)) : ∃ d messages attempt task,
      op = .updateTask id d messages attempt ∧ Loaded env s id (.running (.signPdf task)) ∧
      task.signTask.protocol.round = task.signTask.protocol.lastRound := by
  unfold signatureObtained at h
  split at h
  · rename_i j d messages attempt
    split at h
    · rename_i task hlocked
      split_ifs at h
      split at h
      · split_ifs at h with hcomplete
        split at h
        · cases h
          exact ⟨d, messages, attempt, task, rfl, lockedTask_ok.mp hlocked, hcomplete.2⟩
        · cases h
      · cases h
    · cases h
  · cases h

def Ended : TaskEntry → Prop
  | .declined _ => True
  | .failed _ => True
  | .finished _ => True
  | _ => False

omit [External] in
theorem writeFails_ne_panic {call : RepoCall} {f : Write} {db : Database} {stop : Stop}
    {panic : Panic} (h : WriteFails env call id f db stop) : stop ≠ .panic panic := by
  cases h <;> exact nofun

omit [External] in
theorem stored_ne_panic {call : RepoCall} {f : Write} {db db' : Database} {e e' e'' : TaskEntry}
    {panic : Panic} (h : Stored env call id f db e e' r db' e'') : r ≠ .error (.panic panic) := by
  cases h with
  | served => exact nofun
  | fails w => exact fun hr => writeFails_ne_panic w (Except.error.inj hr)

omit [External] in
theorem record_ne_panic {t : RunningTask} {db db' : Database} {u : Except Stop RoundUpdate}
    {panic : Panic} (ho : RecordOutcome env id t db u r db' e) (hu : u ≠ .error (.panic panic)) :
    r ≠ .error (.panic panic) := by
  cases ho with
  | stopped => exact fun hr => hu (congrArg Except.error (Except.error.inj hr))
  | listen => exact nofun
  | nextRound stored => exact stored_ne_panic stored
  | failed stored => exact stored_ne_panic stored
  | finished finish =>
    cases finish with
    | roundNotStored w => exact fun hr => writeFails_ne_panic w (Except.error.inj hr)
    | groupNotStored _ _ w => exact fun hr => writeFails_ne_panic w (Except.error.inj hr)
    | group _ _ _ stored => exact stored_ne_panic stored
    | threshold _ _ stored => exact stored_ne_panic stored

theorem Tended.ne_missing {d : Bytes} {messages : List ClientMessage} {attempt : ℕ}
    {task : SignPDFTask} (h : Tended id s) (hl : Loaded env s id (.running (.signPdf task))) :
    result env (.updateTask id d messages attempt) s ≠ .error (.panic .pdfHelperMissing) := by
  have hpost : post (exec env (.updateTask id d messages attempt)) s
      (fun r _ => r ≠ .error (.panic .pdfHelperMissing)) := by
    refine post_mono (updateTask_outcome env id d messages attempt s) fun r s' ho => ?_
    have hlocked := lockedTask_ok.mpr hl
    cases ho with
    | notLoaded hn => exact (hl.not_notLoaded hn).elim
    | @loaded e _ g hl' body =>
      rw [lockedTask_ok.mpr hl'] at hlocked
      cases hlocked
      cases body with
      | notRunning hnot => exact absurd rfl (hnot _)
      | stale => exact nofun
      | updated ht _ _ record _ ran =>
        cases ht
        obtain ⟨row, -, he⟩ := loaded_entry h.invariant hl
        have hupdate : post (RunningTask.update env.helper d messages)
            ⟨.signPdf task, s.pdfHelpers⟩ (PdfUpdate env.helper d messages task s.pdfHelpers) :=
          update_pdf env.helper d messages task s.pdfHelpers
        have hran : outcome (RunningTask.update env.helper d messages)
            ⟨.signPdf task, s.pdfHelpers⟩ = _ := ran
        rw [post, hran] at hupdate
        refine record_ne_panic record ?_
        exact hupdate.ne_missing he.runningOf.info.id (h.found _ (loaded_found hl))
  exact hpost

def pdfEnv (newUuid : ℕ) : Env :=
  { servingEnv 0 newUuid with helper := ⟨some [1], .hash [1], some [2], true⟩ }

omit [External] in
theorem pdfEnv_serves (newUuid : ℕ) : (pdfEnv newUuid).RepositoryServes := fun _ _ => rfl

def groupKey : Bytes := List.replicate 65 7

def bothAnswer (id : Uuid) (broadcast : Bytes) : List Op :=
  [.updateTask id alice.id (answer broadcast) 0, .updateTask id bob.id (answer broadcast) 0]

def documentGroup : List Op :=
  [.addDevice alice, .addDevice bob,
    .addGroupTask "Group" ⟨[alice.id, bob.id], pair_fits⟩ 2 .gg18 .signPdf none,
    .decideTask 0 alice.id true, .decideTask 0 bob.id true] ++
    (List.replicate 3 (bothAnswer 0 groupKey)).flatten

def documentSigning : List Op :=
  [.addSignTask groupKey "Document" [5], .decideTask 1 alice.id true, .decideTask 1 bob.id true] ++
    bothAnswer 1 [8]

def documentStarted : List (Env × Op) :=
  documentGroup.map (fun op => (pdfEnv 0, op)) ++ documentSigning.map fun op => (pdfEnv 1, op)

def aliceAnswers : Env × Op := (pdfEnv 1, .updateTask 1 alice.id (answer [9]) 0)

def bobAnswers : Op := .updateTask 1 bob.id (answer [9]) 0

omit [External] in
theorem sparingRun_ops {ops : List (Env × Op)} (h : @SparingRun plainExternal id s)
    (hops : ∀ p ∈ ops, (∃ newUuid, p.1 = pdfEnv newUuid) ∧ isRestart p.2 = false) :
    @SparingRun plainExternal id (@runOps plainExternal s ops) := by
  induction ops generalizing s with
  | nil => exact h
  | cons p ops ih =>
    rw [List.forall_mem_cons] at hops
    obtain ⟨⟨⟨newUuid, henv⟩, hop⟩, hops⟩ := hops
    have hserves : p.1.RepositoryServes := by
      rw [henv]
      exact pdfEnv_serves newUuid
    have hcareful : @SparesHelper plainExternal id p.1 p.2 s := by
      refine @SparesHelper.mk plainExternal _ _ _ _ (fun call j => ?_) (fun hrestart => ?_)
        (fun _ _ _ => hserves) (fun _ => ⟨hserves, ?_, ?_⟩) ?_
      · rw [hserves call j]
        exact nofun
      · rw [hrestart] at hop
        cases hop
      · rw [henv]
        exact nofun
      · rw [henv]
        rfl
      · intro _ _ _ _ _ c _ _ _ _ i msg device broadcast _ _ _
        exact nofun
    exact ih (@SparingRun.step plainExternal _ _ p.1 p.2 h hcareful) hops

@[reducible] def strictExternal : External :=
  { plainExternal with
    verifyBroadcast := fun broadcast _ => if broadcast = [9] then none else some broadcast }

def isFailed : Except Stop TaskEntry → Bool
  | .ok (.failed _) => true
  | _ => false

omit [External] in
theorem found_of_isFailed (h : isFailed (lockedTask env s id)) :
    ∃ f, Found s id (.failed f) := by
  unfold isFailed at h
  split at h
  · rename_i f hlocked
    exact ⟨f, loaded_found (lockedTask_ok.mp hlocked)⟩
  · cases h

def missesHelper : Except Stop Unit → Bool
  | .error (.panic .pdfHelperMissing) => true
  | _ => false

omit [External] in
theorem eq_of_missesHelper (h : missesHelper r) : r = .error (.panic .pdfHelperMissing) := by
  unfold missesHelper at h
  split at h
  · rfl
  · cases h

/-- In a careful run, a PDF task whose messages give a signature has its helper, so that the helper
is not missed, and a task that has ended has none. -/
theorem helper_while_needed (h : SparingRun id s) :
    (∀ env op signature, signatureObtained env s op = some (id, signature) →
      s.pdfHelpers.helper id ∧ result env op s ≠ .error (.panic .pdfHelperMissing)) ∧
    ∀ e, Found s id e → Ended e → s.pdfHelpers.helper id = false := by
  have htended := sparingRun_tended h
  constructor
  · intro env op signature hobtained
    obtain ⟨d, messages, attempt, task, rfl, hl, hlast⟩ := signatureObtained_some hobtained
    have hheld : HeldTask s.pdfHelpers id (.signPdf task) := htended.found _ (loaded_found hl)
    exact ⟨hheld.held rfl hlast.le, htended.ne_missing hl⟩
  · intro e hfound hended
    have hheld := htended.found e hfound
    cases e with
    | voting | running => exact hended.elim
    | declined | finished | failed => exact hheld

omit [External] in
/-- Bob's last message gives a signature, and the helper is there. -/
theorem helper_while_needed_document : ∃ s signature, @SparingRun plainExternal 1 s ∧
    @signatureObtained plainExternal (pdfEnv 1) s bobAnswers = some (1, signature) ∧
    s.pdfHelpers.helper 1 := by
  have hobtained : @signatureObtained plainExternal (pdfEnv 1)
      (@runOps plainExternal initial (documentStarted ++ [aliceAnswers])) bobAnswers =
        some (1, [9]) := by decide +kernel
  have hgroup : ∀ op ∈ documentGroup, isRestart op = false := by decide
  have hsigning : ∀ op ∈ documentSigning, isRestart op = false := by decide
  have hrun : @SparingRun plainExternal 1
      (@runOps plainExternal initial (documentStarted ++ [aliceAnswers])) := by
    refine sparingRun_ops (@SparingRun.initial plainExternal 1) fun p hp => ?_
    rcases List.mem_append.mp hp with hp | hp
    · rcases List.mem_append.mp hp with hp | hp
      · obtain ⟨op, hop, rfl⟩ := List.mem_map.mp hp
        exact ⟨⟨0, rfl⟩, hgroup op hop⟩
      · obtain ⟨op, hop, rfl⟩ := List.mem_map.mp hp
        exact ⟨⟨1, rfl⟩, hsigning op hop⟩
    · cases List.mem_singleton.mp hp
      exact ⟨⟨1, rfl⟩, rfl⟩
  have hneeded := @helper_while_needed plainExternal 1 _ hrun
  exact ⟨_, _, hrun, hobtained, (hneeded.1 _ _ _ hobtained).1⟩

omit [External] in
/-- After a restart of the process the signature finds no helper. A task whose last broadcasts do
not verify fails and keeps its helper. -/
theorem helper_lost_and_left :
    (∃ s signature, @Reachable plainExternal s ∧
      @signatureObtained plainExternal (pdfEnv 1) s bobAnswers = some (1, signature) ∧
      s.pdfHelpers.helper 1 = false ∧
      @result plainExternal (pdfEnv 1) bobAnswers s = .error (.panic .pdfHelperMissing)) ∧
    ∃ s f, @Reachable strictExternal s ∧ Found s 1 (.failed f) ∧ s.pdfHelpers.helper 1 := by
  constructor
  · have hobtained : @signatureObtained plainExternal (pdfEnv 1) (@runOps plainExternal initial
        (documentStarted ++ [(pdfEnv 1, .restartServer), aliceAnswers])) bobAnswers =
          some (1, [9]) := by decide +kernel
    have hfree : (@runOps plainExternal initial
        (documentStarted ++ [(pdfEnv 1, .restartServer), aliceAnswers])).pdfHelpers.helper 1 =
          false := by decide +kernel
    have hmissed : missesHelper (@result plainExternal (pdfEnv 1) bobAnswers (@runOps plainExternal
        initial (documentStarted ++ [(pdfEnv 1, .restartServer), aliceAnswers]))) := by
      decide +kernel
    exact ⟨_, _, @reachable_later plainExternal _ _ (@Reachable.initial plainExternal)
      (@later_runOps plainExternal _ _), hobtained, hfree, eq_of_missesHelper hmissed⟩
  · have hfailed : isFailed (lockedTask (pdfEnv 1) (@runOps strictExternal initial
        (documentStarted ++ [aliceAnswers, (pdfEnv 1, bobAnswers)])) 1) := by decide +kernel
    have hleft : (@runOps strictExternal initial
        (documentStarted ++ [aliceAnswers, (pdfEnv 1, bobAnswers)])).pdfHelpers.helper 1 := by
      decide +kernel
    obtain ⟨f, hf⟩ := found_of_isFailed hfailed
    exact ⟨_, f, @reachable_later strictExternal _ _ (@Reachable.initial strictExternal)
      (@later_runOps strictExternal _ _), hf, hleft⟩

end Runs

end PdfHelperLifecycle
