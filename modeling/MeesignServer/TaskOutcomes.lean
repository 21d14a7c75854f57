import MeesignServer.RunningTaskModel

/-!
# What the methods of a running task can do

One relation for each method of the trait object lists its exits. The proofs of
invariants work with these relations and do not unfold the four implementations.
-/
namespace TaskOutcomes

open FallibleProgram FiniteMap DataModel CommunicatorModel ProtocolModel VotingModel
open RunningTaskModel

/-- The exits that no check of the task's phase or of the sender explains. -/
def Breaks : Stop → Prop
  | .panic _ => True
  | .err .io => True
  | _ => False

/-- The part of a running task that its rounds and attempts do not change. -/
def contextOf : RunningTask → RunningTaskContext
  | .group task => .group task.threshold task.note
  | .sign task => .signChallenge task.group task.data
  | .signPdf task => .signPdf task.signTask.group task.signTask.data
  | .decrypt task => .decrypt task.group task.data

def contextGroup : RunningTaskContext → Option Group
  | .group _ _ => none
  | .signChallenge group _ => some group
  | .signPdf group _ => some group
  | .decrypt group _ => some group

def groupOf (t : RunningTask) : Option Group :=
  contextGroup (contextOf t)

/-- Group tasks exchange certificates first. The other tasks have nothing to wait for. -/
def ready : RunningTask → Bool
  | .group task => task.certificatesSent
  | _ => true

def isRunning : TaskEntry → Bool
  | .running _ => true
  | _ => false

structure Kept (t t' : RunningTask) : Prop where
  context : contextOf t' = contextOf t
  ready : ready t' = ready t
  taskInfo : t'.taskInfo = t.taskInfo

theorem Kept.refl (t : RunningTask) : Kept t t := ⟨rfl, rfl, rfl⟩

theorem Kept.trans {t t' t'' : RunningTask} (h : Kept t t') (h' : Kept t' t'') : Kept t t'' :=
  ⟨h'.context.trans h.context, h'.ready.trans h.ready, h'.taskInfo.trans h.taskInfo⟩

theorem post_receive {d : Bytes} {messages : List ClientMessage} {s : Session}
    {Q : Except Stop Unit → Session → Prop} : post (Session.receive d messages) s Q ↔
      match s.communicator.receiveMessages d messages with
      | .ok p => Q (.ok ()) ⟨p.2, s.protocol⟩
      | .error e => Q (.error e) s := by
  simp only [Session.receive, post_bind, post_get, post_fromExcept]
  cases s.communicator.receiveMessages d messages <;> rfl

theorem receiveMessages_error {c : Communicator} {d : Bytes} {messages : List ClientMessage}
    {stop : Stop} (h : c.receiveMessages d messages = .error stop) : Breaks stop := by
  unfold Communicator.receiveMessages at h
  simp only at h
  split_ifs at h
  cases h
  trivial

variable [External]

def ResultOf (t : RunningTask) (final : Bytes) (result : TaskResult) : Prop :=
  match t with
  | .group task => ∃ certificate : Option Bytes,
      (certificate.isSome ↔ task.protocol.protocolType = .gg18) ∧
      result = .groupEstablished (task.establishedGroup final certificate)
  | .sign _ => result = .signed final
  | .signPdf _ => ∃ signed, result = .signedPdf signed
  | .decrypt _ => result = .decrypted final

/-- How the first round begins. Only PDF tasks can fail here. -/
inductive StartOutcome (t : RunningTask) : Except Stop RoundUpdate → RunningTask → Prop where
  | started {t' : RunningTask} (data : Bytes) (kept : Kept t t')
      (session : t'.session = t.session.initializeProtocol data) :
      StartOutcome t (.ok (.nextRound 1)) t'
  | failed (reason : String) : StartOutcome t (.ok (.failed ⟨t.taskInfo, reason⟩)) t
  | broke {stop : Stop} (h : Breaks stop) : StartOutcome t (.error stop) t

/-- How the last round ends, once all messages are in. -/
inductive FinalOutcome (t : RunningTask) : Except Stop RoundUpdate → RunningTask → Prop where
  | finished {t' : RunningTask} {final : Bytes} {result : TaskResult} (kept : Kept t t')
      (session : t'.session =
        ⟨t.session.communicator.clearInput, t.session.incrementRound.protocol⟩)
      (agreed : t.session.communicator.getFinalMessage = .ok (some final))
      (result_of : ResultOf t final result) :
      FinalOutcome t (.ok (.finished (t.session.protocol.round + 1) (.new t.taskInfo result))) t'
  | failed {t' : RunningTask} (reason : String) (kept : Kept t t')
      (session : t'.session = t.session.incrementRound) :
      FinalOutcome t (.ok (.failed ⟨t.taskInfo, reason⟩)) t'
  | broke {t' : RunningTask} {stop : Stop} (h : Breaks stop) (kept : Kept t t')
      (session : t'.session = t.session.incrementRound ∨ t'.session =
        ⟨t.session.communicator.clearInput, t.session.incrementRound.protocol⟩) :
      FinalOutcome t (.error stop) t'

/-- What `update` does once the messages of the sender are in the buffers. -/
inductive RoundOutcome (t : RunningTask) : Except Stop RoundUpdate → RunningTask → Prop where
  | listen (h : t.session.roundComplete = false) : RoundOutcome t (.ok .listen) t
  | start {r : Except Stop RoundUpdate} {t' : RunningTask} (h : t.session.roundComplete)
      (round : t.session.protocol.round = 0) (start : StartOutcome t r t') : RoundOutcome t r t'
  | advance {t' : RunningTask} (h : t.session.roundComplete) (round : 0 < t.session.protocol.round)
      (last : t.session.protocol.round < t.session.protocol.lastRound) (kept : Kept t t')
      (session : t'.session = ⟨t.session.communicator.relay, t.session.incrementRound.protocol⟩) :
      RoundOutcome t (.ok (.nextRound (t.session.protocol.round + 1))) t'
  | final {r : Except Stop RoundUpdate} {t' : RunningTask} (h : t.session.roundComplete)
      (last : t.session.protocol.round = t.session.protocol.lastRound)
      (final : FinalOutcome t r t') : RoundOutcome t r t'

inductive UpdateOutcome (d : Bytes) (messages : List ClientMessage) (t : RunningTask) :
    Except Stop RoundUpdate → RunningTask → Prop where
  | notWaiting (h : t.waitingFor d = false) : UpdateOutcome d messages t (.error notWaiting) t
  | broke {stop : Stop} (h : Breaks stop) (why : ready t = false ∨
      t.session.communicator.receiveMessages d messages = .error stop) :
      UpdateOutcome d messages t (.error stop) t
  | received {t' t'' : RunningTask} {taken : Bool} {c : Communicator}
      {r : Except Stop RoundUpdate} (waiting : t.waitingFor d) (is_ready : ready t)
      (receive : t.session.communicator.receiveMessages d messages = .ok (taken, c))
      (kept : Kept t t') (session : t'.session = ⟨c, t.session.protocol⟩)
      (round : RoundOutcome t' r t'') : UpdateOutcome d messages t r t''

def attempted (info : TaskInfo) : TaskInfo := { info with attempts := info.attempts + 1 }

inductive RestartOutcome (t : RunningTask) : Except Stop RoundUpdate → RunningTask → Prop where
  | broke {stop : Stop} (h : Breaks stop) : RestartOutcome t (.error stop) t
  | again {t' t'' : RunningTask} {r : Except Stop RoundUpdate}
      (context : contextOf t' = contextOf t) (is_ready : ready t' = ready t)
      (taskInfo : t'.taskInfo = attempted t.taskInfo) (session : t'.session = t.session)
      (start : StartOutcome t' r t'') : RestartOutcome t r t''

inductive InitializeOutcome (t : RunningTask) : Except Stop RoundUpdate → RunningTask → Prop where
  | certificates {t' : RunningTask} {threshold : ℕ} {note : Option String} (f : ℕ → Bytes)
      (group : contextOf t = .group threshold note) (context : contextOf t' = contextOf t)
      (is_ready : ready t') (taskInfo : t'.taskInfo = t.taskInfo)
      (session : t'.session = ⟨t.session.communicator.sendAll f, t.session.protocol⟩) :
      InitializeOutcome t (.ok .groupCertificatesSent) t'
  | start {t' : RunningTask} {r : Except Stop RoundUpdate}
      (threshold : ∀ threshold note, contextOf t ≠ .group threshold note)
      (start : StartOutcome t r t') : InitializeOutcome t r t'

omit [External] in
/-- The round that clients see: group tasks count the exchange of certificates as one. -/
theorem getRound_eq (t : RunningTask) : t.getRound =
    match contextOf t with
    | .group _ _ => if ready t then t.session.protocol.round + 1 else 0
    | _ => t.session.protocol.round := by
  cases t with
  | group t =>
    change GroupTask.getRound t = if t.certificatesSent then t.protocol.round + 1 else 0
    unfold GroupTask.getRound
    cases t.certificatesSent <;> rfl
  | sign | signPdf | decrypt => rfl

theorem finalMessageLoop_error {c : Communicator}
    {l : List (Sigma fun _ : ℕ => ClientMessage)} {final : Option Bytes} {stop : Stop}
    (h : c.finalMessageLoop l final = .error stop) : Breaks stop := by
  induction l generalizing final with
  | nil => simp [Communicator.finalMessageLoop] at h
  | cons e l ih =>
    rw [Communicator.finalMessageLoop] at h
    split_ifs at h
    · cases h
      trivial
    · split at h
      · cases h
        trivial
      · split at h
        · cases h
          trivial
        · split at h
          · cases h
          · split_ifs at h
            · exact ih h
            · cases h
              trivial

theorem post_advance {s : Session} (h : s.protocol.round < s.protocol.lastRound)
    {Q : Except Stop Unit → Session → Prop} : post Session.advance s Q ↔
      Q (.ok ()) ⟨s.communicator.relay, s.incrementRound.protocol⟩ := by
  simp only [Session.advance, post_bind, post_get, h, ↓reduceIte, post_set]
  rfl

theorem post_finalize {s : Session} (h : s.protocol.round = s.protocol.lastRound)
    {Q : Except Stop (Option Bytes) → Session → Prop} : post Session.finalize s Q ↔
      Q s.communicator.getFinalMessage s.incrementRound := by
  simp only [Session.finalize, post_bind, post_get, h, ↓reduceIte, post_set, post_fromExcept]

theorem groupTask_start (t : GroupTask) : post GroupTask.startTask t
    (fun r t' => StartOutcome (.group t) r (.group t')) := by
  simp only [GroupTask.startTask, GroupTask.onSession, post_bind, post_zoom, post_modify, post_get,
    post_pure]
  exact .started [] ⟨rfl, rfl, rfl⟩ rfl

theorem signTask_start (t : SignTask) : post SignTask.startTask t
    (fun r t' => StartOutcome (.sign t) r (.sign t')) := by
  simp only [SignTask.startTask, SignTask.onSession, post_bind, post_zoom, post_modify, post_get,
    post_pure]
  exact .started _ ⟨rfl, rfl, rfl⟩ rfl

theorem decryptTask_start (t : DecryptTask) : post DecryptTask.startTask t
    (fun r t' => StartOutcome (.decrypt t) r (.decrypt t')) := by
  simp only [DecryptTask.startTask, DecryptTask.onSession, post_bind, post_zoom, post_modify,
    post_get, post_pure]
  exact .started _ ⟨rfl, rfl, rfl⟩ rfl

theorem signPDFTask_start (helper : Helper) (s : PdfState) :
    post (SignPDFTask.startTask helper) s
      (fun r s' => StartOutcome (.signPdf s.task) r (.signPdf s'.task)) := by
  simp only [SignPDFTask.startTask, post_bind, post_get]
  split
  · exact .failed _
  · exact .failed _
  · exact .failed _
  · split_ifs
    · exact .broke trivial
    · split
      · exact .failed _
      · simp only [SignPDFTask.lockHelpers, SignPDFTask.onSignTask, SignTask.startTask,
          SignTask.onSession, post_bind, post_get, post_zoom, post_modify, post_pure]
        split_ifs
        · exact .broke trivial
        · exact .started _ ⟨rfl, rfl, rfl⟩ rfl
      · exact .broke trivial

omit [External] in
theorem issueCertificate_error {helper : Helper} {key : Bytes} {stop : Stop}
    (h : (GroupTask.issueCertificate helper key).map some = .error stop) : Breaks stop := by
  unfold GroupTask.issueCertificate at h
  split_ifs at h
  · cases hc : helper.issuedCertificate with
    | none =>
      rw [hc] at h
      cases h
      trivial
    | some c =>
      rw [hc] at h
      cases h
  · cases h
    trivial

omit [External] in
theorem issuedCertificate_isSome {helper : Helper} {p : ProtocolType} {identifier : Bytes}
    {certificate : Option Bytes}
    (h : (if p = .gg18 then (GroupTask.issueCertificate helper identifier).map some
      else .ok none) = .ok certificate) : certificate.isSome ↔ p = .gg18 := by
  split_ifs at h with hp
  · cases hi : GroupTask.issueCertificate helper identifier with
    | error stop => simp [hi, Except.map] at h
    | ok c =>
      rw [hi] at h
      cases h
      exact ⟨fun _ => hp, fun _ => rfl⟩
  · cases h
    exact ⟨nofun, fun he => absurd he hp⟩

theorem groupTask_final (helper : Helper) (t : GroupTask)
    (last : t.protocol.round = t.protocol.lastRound) : post (GroupTask.finalizeTask helper) t
      (fun r t' => FinalOutcome (.group t) r (.group t')) := by
  simp only [GroupTask.finalizeTask, GroupTask.onSession, post_bind, post_zoom, post_get,
    post_finalize last]
  cases hf : t.communicator.getFinalMessage with
  | error stop => exact .broke (finalMessageLoop_error hf) ⟨rfl, rfl, rfl⟩ (.inl rfl)
  | ok final =>
    cases final with
    | none => exact .failed _ ⟨rfl, rfl, rfl⟩ rfl
    | some final =>
      simp only [post_bind, post_fromExcept]
      split
      · rename_i hx
        exact .finished ⟨rfl, rfl, rfl⟩ rfl hf ⟨_, issuedCertificate_isSome hx, rfl⟩
      · rename_i hx
        split_ifs at hx
        exact .broke (issueCertificate_error hx) ⟨rfl, rfl, rfl⟩ (.inl rfl)

theorem signTask_final (t : SignTask) (last : t.protocol.round = t.protocol.lastRound) :
    post SignTask.finalizeTask t (fun r t' => FinalOutcome (.sign t) r (.sign t')) := by
  simp only [SignTask.finalizeTask, SignTask.onSession, post_bind, post_zoom, post_get,
    post_finalize last]
  cases hf : t.communicator.getFinalMessage with
  | error stop => exact .broke (finalMessageLoop_error hf) ⟨rfl, rfl, rfl⟩ (.inl rfl)
  | ok final =>
    cases final with
    | none => exact .failed _ ⟨rfl, rfl, rfl⟩ rfl
    | some final => exact .finished ⟨rfl, rfl, rfl⟩ rfl hf rfl

theorem decryptTask_final (t : DecryptTask) (last : t.protocol.round = t.protocol.lastRound) :
    post DecryptTask.finalizeTask t (fun r t' => FinalOutcome (.decrypt t) r (.decrypt t')) := by
  simp only [DecryptTask.finalizeTask, DecryptTask.onSession, post_bind, post_zoom, post_get,
    post_finalize last]
  cases hf : t.communicator.getFinalMessage with
  | error stop => exact .broke (finalMessageLoop_error hf) ⟨rfl, rfl, rfl⟩ (.inl rfl)
  | ok final =>
    cases final with
    | none => exact .failed _ ⟨rfl, rfl, rfl⟩ rfl
    | some final => exact .finished ⟨rfl, rfl, rfl⟩ rfl hf rfl

theorem signPDFTask_final (helper : Helper) (s : PdfState)
    (last : s.task.signTask.protocol.round = s.task.signTask.protocol.lastRound) :
    post (SignPDFTask.finalizeTask helper) s
      (fun r s' => FinalOutcome (.signPdf s.task) r (.signPdf s'.task)) := by
  simp only [SignPDFTask.finalizeTask, SignPDFTask.onSignTask, post_bind, post_zoom,
    SignTask.finalizeTask, SignTask.onSession, post_get, post_finalize last]
  cases hf : s.task.signTask.communicator.getFinalMessage with
  | error stop => exact .broke (finalMessageLoop_error hf) ⟨rfl, rfl, rfl⟩ (.inl rfl)
  | ok final =>
    cases final with
    | none => exact .failed _ ⟨rfl, rfl, rfl⟩ rfl
    | some final =>
      simp only [post_bind, post_zoom, post_modify, post_pure, SignPDFTask.lockHelpers, post_get]
      split_ifs
      · exact .broke trivial ⟨rfl, rfl, rfl⟩ (.inr rfl)
      · simp only [post_pure]
        split_ifs
        · simp only [post_bind, post_set]
          cases helper.signedPdf with
          | none => exact .broke trivial ⟨rfl, rfl, rfl⟩ (.inr rfl)
          | some signed => exact .finished ⟨rfl, rfl, rfl⟩ rfl hf ⟨signed, rfl⟩
        · exact .broke trivial ⟨rfl, rfl, rfl⟩ (.inr rfl)

theorem round_cases {s : Session} (h : s.roundComplete) : s.protocol.round = 0 ∨
    0 < s.protocol.round ∧ s.protocol.round < s.protocol.lastRound ∨
    s.protocol.round ≠ 0 ∧ ¬ s.protocol.round < s.protocol.lastRound ∧
      s.protocol.round = s.protocol.lastRound := by
  simp only [Session.roundComplete, Bool.and_eq_true, decide_eq_true_eq] at h
  have := s.protocol.lastRound_pos
  omega

theorem groupTask_round (helper : Helper) (t : GroupTask) (hc : t.certificatesSent)
    (h : t.toSession.roundComplete) : post (GroupTask.nextRound helper) t
      (fun r t' => RoundOutcome (.group t) r (.group t')) := by
  simp only [GroupTask.nextRound, post_bind, post_get, hc, Bool.not_true, Bool.false_eq_true,
    ↓reduceIte]
  rcases round_cases h with h0 | ⟨h0, hl⟩ | ⟨h0, hl, he⟩
  · rw [if_pos h0]
    exact post_mono (groupTask_start t) fun _ _ => .start h h0
  · rw [if_neg h0.ne', if_pos hl]
    simp only [GroupTask.advanceTask, GroupTask.onSession, post_bind, post_zoom, post_advance hl,
      post_get, post_pure]
    exact .advance h h0 hl ⟨rfl, rfl, rfl⟩ rfl
  · rw [if_neg h0, if_neg hl]
    exact post_mono (groupTask_final helper t he) fun _ _ => .final h he

theorem signTask_round (t : SignTask) (h : t.toSession.roundComplete) :
    post SignTask.nextRound t (fun r t' => RoundOutcome (.sign t) r (.sign t')) := by
  simp only [SignTask.nextRound, post_bind, post_get]
  rcases round_cases h with h0 | ⟨h0, hl⟩ | ⟨h0, hl, he⟩
  · rw [if_pos h0]
    exact post_mono (signTask_start t) fun _ _ => .start h h0
  · rw [if_neg h0.ne', if_pos hl]
    simp only [SignTask.advanceTask, SignTask.onSession, post_bind, post_zoom, post_advance hl,
      post_get, post_pure]
    exact .advance h h0 hl ⟨rfl, rfl, rfl⟩ rfl
  · rw [if_neg h0, if_neg hl]
    exact post_mono (signTask_final t he) fun _ _ => .final h he

theorem decryptTask_round (t : DecryptTask) (h : t.toSession.roundComplete) :
    post DecryptTask.nextRound t (fun r t' => RoundOutcome (.decrypt t) r (.decrypt t')) := by
  simp only [DecryptTask.nextRound, post_bind, post_get]
  rcases round_cases h with h0 | ⟨h0, hl⟩ | ⟨h0, hl, he⟩
  · rw [if_pos h0]
    exact post_mono (decryptTask_start t) fun _ _ => .start h h0
  · rw [if_neg h0.ne', if_pos hl]
    simp only [DecryptTask.advanceTask, DecryptTask.onSession, post_bind, post_zoom,
      post_advance hl, post_get, post_pure]
    exact .advance h h0 hl ⟨rfl, rfl, rfl⟩ rfl
  · rw [if_neg h0, if_neg hl]
    exact post_mono (decryptTask_final t he) fun _ _ => .final h he

theorem signPDFTask_round (helper : Helper) (s : PdfState)
    (h : s.task.signTask.toSession.roundComplete) : post (SignPDFTask.nextRound helper) s
      (fun r s' => RoundOutcome (.signPdf s.task) r (.signPdf s'.task)) := by
  simp only [SignPDFTask.nextRound, post_bind, post_get]
  rcases round_cases h with h0 | ⟨h0, hl⟩ | ⟨h0, hl, he⟩
  · rw [if_pos h0]
    exact post_mono (signPDFTask_start helper s) fun _ _ => .start h h0
  · rw [if_neg h0.ne', if_pos hl]
    simp only [SignPDFTask.onSignTask, SignTask.advanceTask, SignTask.onSession, post_bind,
      post_zoom, post_advance hl, post_get, post_pure]
    exact .advance h h0 hl ⟨rfl, rfl, rfl⟩ rfl
  · rw [if_neg h0, if_neg hl]
    exact post_mono (signPDFTask_final helper s he) fun _ _ => .final h he

theorem groupTask_update (helper : Helper) (d : Bytes) (messages : List ClientMessage)
    (t : GroupTask) : post (GroupTask.update helper d messages) t
      (fun r t' => UpdateOutcome d messages (.group t) r (.group t')) := by
  simp only [GroupTask.update, post_bind, post_get]
  by_cases hw : t.waitingFor d
  · by_cases hc : t.certificatesSent
    · rw [if_neg (by simp [hw]), if_neg (by simp [hc])]
      simp only [GroupTask.onSession, post_bind, post_zoom, post_receive, post_get]
      cases hr : t.communicator.receiveMessages d messages with
      | error stop => exact .broke (receiveMessages_error hr) (.inr hr)
      | ok p =>
        simp only
        split_ifs with h
        · exact post_mono (groupTask_round helper _ hc h) fun _ _ =>
            .received hw hc hr ⟨rfl, rfl, rfl⟩ rfl
        · rw [post_pure]
          refine .received hw hc hr ?_ ?_ (.listen (Bool.eq_false_iff.mpr h))
          · exact ⟨rfl, rfl, rfl⟩
          · rfl
    · simp only [hw, hc, Bool.not_true, Bool.not_false, Bool.false_eq_true, ↓reduceIte]
      exact .broke trivial (.inl (Bool.eq_false_iff.mpr hc))
  · rw [Bool.not_eq_true] at hw
    simp only [hw, Bool.not_false, ↓reduceIte]
    exact .notWaiting hw

theorem signTask_update (d : Bytes) (messages : List ClientMessage) (t : SignTask) :
    post (SignTask.update d messages) t
      (fun r t' => UpdateOutcome d messages (.sign t) r (.sign t')) := by
  simp only [SignTask.update, SignTask.updateInternal, post_bind, post_get]
  by_cases hw : t.waitingFor d
  · simp only [hw, Bool.not_true, Bool.false_eq_true, ↓reduceIte, SignTask.onSession, post_bind,
      post_zoom, post_receive, post_get]
    cases hr : t.communicator.receiveMessages d messages with
    | error stop => exact .broke (receiveMessages_error hr) (.inr hr)
    | ok p =>
      simp only [post_pure]
      split_ifs with h
      · exact post_mono (signTask_round _ h) fun _ _ => .received hw rfl hr ⟨rfl, rfl, rfl⟩ rfl
      · rw [post_pure]
        refine .received hw rfl hr ?_ ?_ (.listen (Bool.eq_false_iff.mpr h))
        · exact ⟨rfl, rfl, rfl⟩
        · rfl
  · rw [Bool.not_eq_true] at hw
    simp only [hw, Bool.not_false, ↓reduceIte]
    exact .notWaiting hw

theorem decryptTask_update (d : Bytes) (messages : List ClientMessage) (t : DecryptTask) :
    post (DecryptTask.update d messages) t
      (fun r t' => UpdateOutcome d messages (.decrypt t) r (.decrypt t')) := by
  simp only [DecryptTask.update, DecryptTask.updateInternal, post_bind, post_get]
  by_cases hw : t.waitingFor d
  · simp only [hw, Bool.not_true, Bool.false_eq_true, ↓reduceIte, DecryptTask.onSession, post_bind,
      post_zoom, post_receive, post_get]
    cases hr : t.communicator.receiveMessages d messages with
    | error stop => exact .broke (receiveMessages_error hr) (.inr hr)
    | ok p =>
      simp only [post_pure]
      split_ifs with h
      · exact post_mono (decryptTask_round _ h) fun _ _ => .received hw rfl hr ⟨rfl, rfl, rfl⟩ rfl
      · rw [post_pure]
        refine .received hw rfl hr ?_ ?_ (.listen (Bool.eq_false_iff.mpr h))
        · exact ⟨rfl, rfl, rfl⟩
        · rfl
  · rw [Bool.not_eq_true] at hw
    simp only [hw, Bool.not_false, ↓reduceIte]
    exact .notWaiting hw

theorem signPDFTask_update (helper : Helper) (d : Bytes) (messages : List ClientMessage)
    (s : PdfState) : post (SignPDFTask.update helper d messages) s
      (fun r s' => UpdateOutcome d messages (.signPdf s.task) r (.signPdf s'.task)) := by
  simp only [SignPDFTask.update, SignPDFTask.onSignTask, SignTask.updateInternal, post_bind,
    post_zoom, post_get]
  by_cases hw : s.task.signTask.waitingFor d
  · simp only [hw, Bool.not_true, Bool.false_eq_true, ↓reduceIte, SignTask.onSession, post_bind,
      post_zoom, post_receive, post_get]
    cases hr : s.task.signTask.communicator.receiveMessages d messages with
    | error stop => exact .broke (receiveMessages_error hr) (.inr hr)
    | ok p =>
      simp only [post_pure]
      split_ifs with h
      · exact post_mono (signPDFTask_round helper _ h) fun _ _ =>
          .received hw rfl hr ⟨rfl, rfl, rfl⟩ rfl
      · rw [post_pure]
        refine .received hw rfl hr ?_ ?_ (.listen (Bool.eq_false_iff.mpr h))
        · exact ⟨rfl, rfl, rfl⟩
        · rfl
  · rw [Bool.not_eq_true] at hw
    simp only [hw, Bool.not_false, ↓reduceIte]
    exact .notWaiting hw

theorem update_outcome (helper : Helper) (d : Bytes) (messages : List ClientMessage)
    (r : Runner) : post (RunningTask.update helper d messages) r
      (fun res r' => UpdateOutcome d messages r.task res r'.task) := by
  simp only [RunningTask.update, post_bind, post_get]
  split
  all_goals rename_i heq
  all_goals simp only [RunningTask.run, RunningTask.runPdf, post_zoom, heq]
  · exact groupTask_update ..
  · exact signTask_update ..
  · exact signPDFTask_update ..
  · exact decryptTask_update ..

theorem signPDFTask_restart (helper : Helper) (s : PdfState) :
    post (SignPDFTask.restart helper) s
      (fun r s' => RestartOutcome (.signPdf s.task) r (.signPdf s'.task)) := by
  simp only [SignPDFTask.restart, SignPDFTask.lockHelpers, post_bind, post_get]
  split_ifs
  · exact .broke trivial
  · simp only [post_pure]
    split_ifs
    · exact .broke trivial
    · simp only [post_bind, post_set, SignPDFTask.onSignTask, post_zoom, post_modify]
      refine post_mono (signPDFTask_start helper _) fun _ _ => .again ?_ ?_ ?_ ?_ <;> rfl

theorem restart_outcome (helper : Helper) (r : Runner) : post (RunningTask.restart helper) r
    (fun res r' => RestartOutcome r.task res r'.task) := by
  simp only [RunningTask.restart, post_bind, post_get]
  split
  all_goals rename_i heq
  all_goals simp only [RunningTask.run, RunningTask.runPdf, post_zoom, heq]
  · simp only [GroupTask.restart, post_bind, post_modify]
    refine post_mono (groupTask_start _) fun _ _ => .again ?_ ?_ ?_ ?_ <;> rfl
  · simp only [SignTask.restart, post_bind, post_modify]
    refine post_mono (signTask_start _) fun _ _ => .again ?_ ?_ ?_ ?_ <;> rfl
  · exact signPDFTask_restart ..
  · simp only [DecryptTask.restart, post_bind, post_modify]
    refine post_mono (decryptTask_start _) fun _ _ => .again ?_ ?_ ?_ ?_ <;> rfl

theorem initialize_outcome (helper : Helper) (r : Runner) :
    post (RunningTask.initializeTask helper) r
      (fun res r' => InitializeOutcome r.task res r'.task) := by
  simp only [RunningTask.initializeTask, post_bind, post_get]
  split
  all_goals rename_i heq
  all_goals simp only [RunningTask.run, RunningTask.runPdf, post_zoom, heq]
  · exact .certificates _ rfl rfl rfl rfl rfl
  · exact post_mono (signTask_start _) fun _ _ => .start fun _ _ hgroup => by cases hgroup
  · exact post_mono (signPDFTask_start helper _) fun _ _ => .start fun _ _ hgroup => by cases hgroup
  · exact post_mono (decryptTask_start _) fun _ _ => .start fun _ _ hgroup => by cases hgroup

end TaskOutcomes
