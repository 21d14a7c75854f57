import MeesignServer.ClientMessages
import MeesignServer.PhaseOrder
import MeesignServer.SweepSchedule

/-!
# Devices that follow the protocol

In every round each active device of a running task sends one acceptable list of
messages. The updates arrive in any order, and calls that concern other tasks go on in
between. Every update is accepted, each round ends with its last update, and the last
round finishes the task.
-/
namespace HonestRounds

open FallibleProgram FiniteMap DataModel CommunicatorModel ProtocolModel VotingModel
open RunningTaskModel DatabaseModel HydrationModel ServerModel TaskOutcomes ServerOutcomes
open TableFrames ServerInvariant TaskAdmission ServerMoves TableSync MessageBuffers
open BufferInvariant MessageDelivery CachedBuffers MessageHistory AcknowledgedUpdates
open ClientMessages SweepSchedule PhaseOrder InvariantSteps ResultAgreement

variable [External]

section Rounds

variable {t t' : RunningTask} {d : Bytes} {messages : List ClientMessage} {c : Communicator}
  {helper : Helper} {helpers helpers' : PdfHelpers} {u : Except Stop RoundUpdate} {final : Bytes}

/-- The task has gone on to its next round and nobody has been heard in it. -/
structure Advanced (t t' : RunningTask) : Prop where
  kept : Kept t t'
  shares : SameShares t.session.communicator t'.session.communicator
  input : t'.session.communicator.input = ∅
  round : t'.session.protocol.round = t.session.protocol.round + 1
  last : t'.session.protocol.lastRound = t.session.protocol.lastRound
  protocol : t'.session.protocol.protocolType = t.session.protocol.protocolType

theorem ran_update (ran : outcome (RunningTask.update helper d messages) ⟨t, helpers⟩ =
    (u, ⟨t', helpers'⟩)) : UpdateOutcome d messages t u t' := by
  have ho := update_outcome helper d messages ⟨t, helpers⟩
  rw [post, ran] at ho
  exact ho

theorem round_listens (hready : ready t) (hw : t.waitingFor d)
    (hr : t.session.communicator.receiveMessages d messages = .ok (true, c))
    (hopen : c.roundReceived = false)
    (ran : outcome (RunningTask.update helper d messages) ⟨t, helpers⟩ = (u, ⟨t', helpers'⟩)) :
    u = .ok .listen ∧ Kept t t' ∧ t'.session = ⟨c, t.session.protocol⟩ := by
  cases ran_update ran with
  | notWaiting hnot =>
    rw [hw] at hnot
    cases hnot
  | broke _ why =>
    rcases why with hnot | herr
    · rw [hready] at hnot
      cases hnot
    · rw [hr] at herr
      cases herr
  | @received t₁ _ _ _ _ _ _ receive kept session round =>
    rw [hr] at receive
    cases receive
    have hincomplete : t₁.session.roundComplete = false := by
      rw [session, Session.roundComplete, hopen]
      rfl
    cases round with
    | listen => exact ⟨rfl, kept, session⟩
    | start h | advance h | final h =>
      rw [hincomplete] at h
      cases h

theorem round_goes_on (hready : ready t) (hw : t.waitingFor d)
    (hr : t.session.communicator.receiveMessages d messages = .ok (true, c))
    (hreceived : c.roundReceived)
    (hlt : t.session.protocol.round < t.session.protocol.lastRound)
    (hpdf : isPdf t → 0 < t.session.protocol.round)
    (ran : outcome (RunningTask.update helper d messages) ⟨t, helpers⟩ = (u, ⟨t', helpers'⟩)) :
    (∃ round, u = .ok (.nextRound round)) ∧ Advanced t t' := by
  have hsame := receive_sameShares hr
  have hcomplete : (⟨c, t.session.protocol⟩ : Session).roundComplete := by
    rw [Session.roundComplete, hreceived, Bool.true_and, decide_eq_true_eq]
    exact hlt.le
  have hanswer : isPdf t = false → ∃ round, u = .ok (.nextRound round) := by
    intro hkind
    have hpost : post (RunningTask.update helper d messages) ⟨t, helpers⟩ fun r _ =>
        ∃ round, r = .ok (.nextRound round) := by
      rw [← post_updateIn_same, post_updateIn]
      simp only [hw, hready, hr, Bool.not_true, Bool.false_eq_true, ↓reduceIte,
        session_withSession, reorder_same, hcomplete]
      have hcomplete' : (⟨WalkOrder.same.reorder c, t.session.protocol⟩ : Session).roundComplete :=
        hcomplete
      exact post_mono (complete_answer hkind hready hcomplete') fun r _ hanswer => hanswer.1 hlt
    rw [post, ran] at hpost
    exact hpost
  cases ran_update ran with
  | notWaiting hnot =>
    rw [hw] at hnot
    cases hnot
  | broke _ why =>
    rcases why with hnot | herr
    · rw [hready] at hnot
      cases hnot
    · rw [hr] at herr
      cases herr
  | received _ _ receive kept session round =>
    rw [hr] at receive
    cases receive
    cases round with
    | listen h =>
      rw [session, hcomplete] at h
      cases h
    | start _ hround start =>
      rw [session] at hround
      have hkind : isPdf t = false := by
        rw [Bool.eq_false_iff]
        intro h
        exact absurd hround (hpdf h).ne'
      cases start with
      | started data kept' session' =>
        refine ⟨⟨_, rfl⟩, kept.trans kept', ?_, ?_, ?_, ?_, ?_⟩
        · rw [session', session]
          exact ⟨hsame.activeShares, hsame.protocolType, hsame.threshold⟩
        · rw [session']
          rfl
        · rw [session']
          exact (congrArg (· + 1) hround).symm
        · rw [session', session]
          rfl
        · rw [session', session]
          rfl
      | failed reason =>
        obtain ⟨round, h⟩ := hanswer hkind
        cases h
      | broke =>
        obtain ⟨round, h⟩ := hanswer hkind
        cases h
    | advance _ _ _ kept' session' =>
      refine ⟨⟨_, rfl⟩, kept.trans kept', ?_, ?_, ?_, ?_, ?_⟩
      · rw [session', session]
        exact ⟨hsame.activeShares, hsame.protocolType, hsame.threshold⟩
      · rw [session']
        rfl
      · rw [session', session]
        rfl
      · rw [session', session]
        rfl
      · rw [session', session]
        rfl
    | final _ hlast =>
      rw [session] at hlast
      exact absurd hlast hlt.ne

/-- The programs beside the server do their part in the last round. -/
structure HelperServes (helper : Helper) (helpers : PdfHelpers) (t : RunningTask) : Prop where
  certificate : keyed t → helper.issuedCertificate.isSome
  prepared : isPdf t → helpers.helper t.taskInfo.id ∧ helpers.poisoned = false
  signed : isPdf t → helper.signedPdf.isSome

omit [External] in
theorem HelperServes.withSession (h : HelperServes helper helpers t) :
    HelperServes helper helpers (withSession t ⟨c, t.session.protocol⟩) := by
  obtain ⟨hcertificate, hprepared, hsigned⟩ := h
  cases t <;> exact ⟨hcertificate, hprepared, hsigned⟩

omit [External] in
theorem resultOf_withSession {result : TaskResult} :
    ResultOf (withSession t ⟨c, t.session.protocol⟩) final result ↔ ResultOf t final result := by
  cases t <;> rfl

omit [External] in
theorem resultOf_kept {result : TaskResult} (hkept : Kept t t')
    (hprotocol : t'.session.protocol.protocolType = t.session.protocol.protocolType)
    (h : ResultOf t' final result) : ResultOf t final result := by
  obtain ⟨hcontext, -, hinfo⟩ := hkept
  cases t <;> cases t'
  case group.group t t' =>
    obtain ⟨hthreshold, hnote⟩ := RunningTaskContext.group.inj hcontext
    change t'.taskInfo = t.taskInfo at hinfo
    change t'.protocol.getType = t.protocol.getType at hprotocol
    obtain ⟨certificate, hissued, rfl⟩ := h
    refine ⟨certificate, ?_, ?_⟩
    · rw [hissued]
      exact iff_of_eq (congrArg (· = _) hprotocol)
    · simp only [GroupTask.establishedGroup, hinfo, hthreshold, hnote, hprotocol]
  case sign.sign => exact h
  case signPdf.signPdf => exact h
  case decrypt.decrypt => exact h
  all_goals cases hcontext

theorem nextRoundOf_finishes (hready : ready t) (hcomplete : t.session.roundComplete)
    (hlast : t.session.protocol.round = t.session.protocol.lastRound)
    (hfinal : t.session.communicator.getFinalMessage = .ok (some final))
    (hkey : keyed t → final.length = 65) (hserves : HelperServes helper helpers t) :
    post (nextRoundOf helper) ⟨t, helpers⟩ fun r _ => ∃ result, ResultOf t final result ∧
      r = .ok (.finished (t.session.protocol.round + 1) (.new t.taskInfo result)) := by
  have hpos := t.session.protocol.lastRound_pos
  have hzero : t.session.protocol.round ≠ 0 := by omega
  have hnot : ¬ t.session.protocol.round < t.session.protocol.lastRound := by omega
  cases t with
  | group t =>
    change t.protocol.round = t.protocol.lastRound at hlast
    change t.protocol.round ≠ 0 at hzero
    change ¬ t.protocol.round < t.protocol.lastRound at hnot
    change t.communicator.getFinalMessage = _ at hfinal
    rw [post_nextRoundOf_group]
    simp only [GroupTask.nextRound, post_bind, post_get]
    rw [if_neg (by rw [show t.certificatesSent = true from hready]; decide), if_neg hzero,
      if_neg hnot]
    simp only [GroupTask.finalizeTask, GroupTask.onSession, post_bind, post_zoom, post_get,
      post_finalize hlast, hfinal, post_fromExcept]
    by_cases hgg : t.incrementRound.protocol.getType = .gg18
    · have hasked : keyed (.group t) := decide_eq_true hgg
      obtain ⟨certificate, hc⟩ := Option.isSome_iff_exists.mp (hserves.certificate hasked)
      simp only [GroupTask.issueCertificate, hgg, hkey hasked, hc, ↓reduceIte, Except.map]
      refine ⟨_, ⟨some certificate, ?_, rfl⟩, rfl⟩
      exact ⟨fun _ => hgg, fun _ => rfl⟩
    · simp only [hgg, ↓reduceIte]
      refine ⟨_, ⟨none, ?_, rfl⟩, rfl⟩
      exact ⟨fun h => (by cases h), fun h => absurd h hgg⟩
  | sign t =>
    change t.protocol.round = t.protocol.lastRound at hlast
    change t.protocol.round ≠ 0 at hzero
    change ¬ t.protocol.round < t.protocol.lastRound at hnot
    change t.communicator.getFinalMessage = _ at hfinal
    rw [post_nextRoundOf_sign]
    simp only [SignTask.nextRound, post_bind, post_get]
    rw [if_neg hzero, if_neg hnot]
    simp only [SignTask.finalizeTask, SignTask.onSession, post_bind, post_zoom, post_get,
      post_finalize hlast, hfinal]
    exact ⟨_, rfl, rfl⟩
  | signPdf t =>
    change t.signTask.protocol.round = t.signTask.protocol.lastRound at hlast
    change t.signTask.protocol.round ≠ 0 at hzero
    change ¬ t.signTask.protocol.round < t.signTask.protocol.lastRound at hnot
    change t.signTask.communicator.getFinalMessage = _ at hfinal
    obtain ⟨hhelper, hpoisoned⟩ := hserves.prepared rfl
    change helpers.helper t.signTask.taskInfo.id = true at hhelper
    obtain ⟨signed, hsigned⟩ := Option.isSome_iff_exists.mp (hserves.signed rfl)
    rw [post_nextRoundOf_signPdf]
    simp only [SignPDFTask.nextRound, post_bind, post_get]
    rw [if_neg hzero, if_neg hnot]
    simp only [SignPDFTask.finalizeTask, SignPDFTask.onSignTask, post_bind, post_zoom,
      SignTask.finalizeTask, SignTask.onSession, post_get, post_finalize hlast, hfinal,
      post_modify, post_pure, SignPDFTask.lockHelpers, hpoisoned, Bool.false_eq_true, ↓reduceIte,
      hhelper, post_set, hsigned]
    exact ⟨_, ⟨signed, rfl⟩, rfl⟩
  | decrypt t =>
    change t.protocol.round = t.protocol.lastRound at hlast
    change t.protocol.round ≠ 0 at hzero
    change ¬ t.protocol.round < t.protocol.lastRound at hnot
    change t.communicator.getFinalMessage = _ at hfinal
    rw [post_nextRoundOf_decrypt]
    simp only [DecryptTask.nextRound, post_bind, post_get]
    rw [if_neg hzero, if_neg hnot]
    simp only [DecryptTask.finalizeTask, DecryptTask.onSession, post_bind, post_zoom, post_get,
      post_finalize hlast, hfinal]
    exact ⟨_, rfl, rfl⟩

theorem round_finishes (hready : ready t) (hw : t.waitingFor d)
    (hr : t.session.communicator.receiveMessages d messages = .ok (true, c))
    (hreceived : c.roundReceived)
    (hlast : t.session.protocol.round = t.session.protocol.lastRound)
    (hfinal : c.getFinalMessage = .ok (some final)) (hkey : keyed t → final.length = 65)
    (hserves : HelperServes helper helpers t)
    (ran : outcome (RunningTask.update helper d messages) ⟨t, helpers⟩ = (u, ⟨t', helpers'⟩)) :
    ∃ result, ResultOf t final result ∧
      u = .ok (.finished (t.session.protocol.round + 1) (.new t.taskInfo result)) := by
  have hcomplete : (⟨c, t.session.protocol⟩ : Session).roundComplete := by
    rw [Session.roundComplete, hreceived, Bool.true_and, decide_eq_true_eq]
    exact hlast.le
  have hpost : post (RunningTask.update helper d messages) ⟨t, helpers⟩ fun r _ =>
      ∃ result, ResultOf t final result ∧
        r = .ok (.finished (t.session.protocol.round + 1) (.new t.taskInfo result)) := by
    rw [← post_updateIn_same, post_updateIn]
    simp only [hw, hready, hr, Bool.not_true, Bool.false_eq_true, ↓reduceIte,
      session_withSession, reorder_same, hcomplete]
    have hfinishes := nextRoundOf_finishes (t := withSession t ⟨c, t.session.protocol⟩)
      (by rw [ready_withSession]; exact hready) (by rw [session_withSession]; exact hcomplete)
      (by rw [session_withSession]; exact hlast) (by rw [session_withSession]; exact hfinal)
      (by rw [keyed_withSession]; exact hkey) hserves.withSession
    have hinfo : (withSession t ⟨c, t.session.protocol⟩).taskInfo = t.taskInfo := by
      cases t <;> rfl
    rw [session_withSession, hinfo] at hfinishes
    refine post_mono hfinishes ?_
    rintro r _ ⟨result, hresult, hr⟩
    exact ⟨result, resultOf_withSession.mp hresult, hr⟩
  rw [post, ran] at hpost
  exact hpost

end Rounds

section Between

variable {env : Env} {op : Op} {s : Server} {id : Uuid} {t : RunningTask}

/-- The call is not an update of the task, the process survives it, and a sweep does not find
the task too old. -/
structure LeavesTask (env : Env) (op : Op) (s : Server) (id : Uuid) : Prop where
  update : ∀ d messages attempt, op ≠ .updateTask id d messages attempt
  restart : op ≠ .restartServer
  survives : result env op s ≠ .error .crash
  recent : op = .restartStaleTasks → ∀ last, s.taskLastUpdates id = some last → env.now - last ≤ 30

/-- The last update of the task is known, and it is too long ago for a sweep. -/
def TooOld (env : Env) (s : Server) (id : Uuid) : Prop :=
  ∃ last, s.taskLastUpdates id = some last ∧ 30 < env.now - last

omit [External] in
theorem getTaskLastUpdate_old : post (getTaskLastUpdate env id) s fun r s' => Aside s s' ∧
    (∀ j, TooOld env s' j ↔ TooOld env s j) ∧
    ∃ last, r = .ok last ∧ (30 < env.now - last ↔ TooOld env s id) := by
  simp only [getTaskLastUpdate, post_bind, post_get]
  cases hlast : s.taskLastUpdates id with
  | some last =>
    refine ⟨.refl s, fun _ => .rfl, last, rfl, fun hage => ⟨last, hlast, hage⟩, ?_⟩
    rintro ⟨last', hlast', hage⟩
    rw [hlast] at hlast'
    cases hlast'
    exact hage
  | none =>
    have hnow : ¬ 30 < env.now - env.now := by omega
    have hnot : ¬ TooOld env s id := by
      rintro ⟨last, hsome, -⟩
      rw [hlast] at hsome
      cases hsome
    refine ⟨⟨rfl, rfl, rfl, rfl⟩, fun j => ?_, env.now, rfl, iff_of_false hnow hnot⟩
    by_cases hj : j = id
    · subst hj
      refine iff_of_false ?_ hnot
      rintro ⟨last, hset, hage⟩
      change Function.update s.taskLastUpdates j (some env.now) j = some last at hset
      rw [Function.update_self] at hset
      cases hset
      exact hnow hage
    · change (∃ last, Function.update s.taskLastUpdates id (some env.now) j = some last ∧ _) ↔ _
      rw [Function.update_of_ne hj]
      exact .rfl

omit [External] in
theorem staleTasks_old (l : List Uuid) : post (staleTasks env env.now l) s fun r s' => Aside s s' ∧
    ∃ stale, r = .ok stale ∧ stale.Sublist l ∧ ∀ id, id ∈ stale ↔ id ∈ l ∧ TooOld env s id := by
  induction l generalizing s with
  | nil => exact ⟨.refl s, [], rfl, .slnil, by simp⟩
  | cons j l ih =>
    rw [staleTasks]
    refine post_seq getTaskLastUpdate_old ?_ (by rintro _ _ ⟨-, -, _, ⟨⟩, -⟩)
    rintro last s₁ ⟨haside₁, hsame, _, ⟨⟩, hold⟩
    refine post_seq ih ?_ (by rintro _ _ ⟨-, _, ⟨⟩, -⟩)
    rintro _ s₂ ⟨haside₂, stale, ⟨⟩, hsub, hstale⟩
    simp only [hsame] at hstale
    refine ⟨haside₁.trans haside₂, _, rfl, ?_⟩
    split_ifs with hage
    · refine ⟨hsub.cons_cons j, fun id => ?_⟩
      rw [hold] at hage
      rw [List.mem_cons, List.mem_cons, hstale]
      constructor
      · rintro (rfl | ⟨hid, hid'⟩)
        · exact ⟨.inl rfl, hage⟩
        · exact ⟨.inr hid, hid'⟩
      · rintro ⟨rfl | hid, hid'⟩
        · exact .inl rfl
        · exact .inr ⟨hid, hid'⟩
    · refine ⟨hsub.cons j, fun id => ?_⟩
      rw [hold] at hage
      rw [List.mem_cons, hstale]
      constructor
      · rintro ⟨hid, hid'⟩
        exact ⟨.inr hid, hid'⟩
      · rintro ⟨rfl | hid, hid'⟩
        · exact absurd hid' hage
        · exact ⟨hid, hid'⟩

theorem restartStaleTasks_old : post (restartStaleTasks env) s fun r s' =>
    (∃ stop, ReadFails env .getRestartCandidates 0 stop ∧ r = .error stop ∧ s' = s) ∨
    ∃ s₁ stale, Aside s s₁ ∧ stale.Sublist s.db.getRestartCandidates ∧
      (∀ id, id ∈ stale ↔ id ∈ s.db.getRestartCandidates ∧ TooOld env s id) ∧
      Sweep env stale s₁ r s' := by
  simp only [restartStaleTasks, restartCandidates, post_bind]
  refine repoRead_post (fun stop hf => .inl ⟨stop, hf, rfl, rfl⟩) fun _ => ?_
  simp only [post_get]
  refine post_mono (staleTasks_old _) ?_
  rintro _ s₁ ⟨haside, stale, rfl, hsub, hstale⟩
  exact post_mono (restartTasks_sweep env stale s₁) fun r s' hsweep =>
    .inr ⟨s₁, stale, haside, hsub, hstale, hsweep⟩

theorem sweep_leavesTask (hrunning : s.taskCache id = some (.running t))
    (h : ∀ last, s.taskLastUpdates id = some last → env.now - last ≤ 30) :
    post (restartStaleTasks env) s fun _ s' => s'.taskCache id = some (.running t) := by
  refine post_mono restartStaleTasks_old ?_
  rintro r s' (⟨-, -, -, rfl⟩ | ⟨s₁, stale, haside, hsub, hstale, hsweep⟩)
  · exact hrunning
  · have hnot : id ∉ stale := by
      rw [hstale]
      rintro ⟨-, last, hlast, hage⟩
      exact absurd (h last hlast) (not_le.mpr hage)
    have hcached : s₁.taskCache id = some (.running t) := by
      rw [haside.taskCache]
      exact hrunning
    obtain ⟨e, he, -, hsame⟩ := sweep_phase hsweep (hsub.nodup (candidates_nodup s.db)) hcached
    rw [he, hsame hnot]

theorem leavesTask_cached (hs : Reachable s) (hrunning : s.taskCache id = some (.running t))
    (h : LeavesTask env op s id) : (next env op s).taskCache id = some (.running t) := by
  have hinv := reachable_invariant hs
  have hexec : post (exec env op) s fun _ s' => s'.taskCache id = some (.running t) := by
    by_cases hsweep : op = .restartStaleTasks
    · subst hsweep
      exact sweep_leavesTask hrunning (h.recent rfl)
    · refine post_mono (exec_move env hsweep s) fun r s' hmove => ?_
      cases hmove with
      | refused => exact hrunning
      | aside haside =>
        rw [haside.taskCache]
        exact hrunning
      | addDevice => exact hrunning
      | @addTask v db admitted w =>
        obtain ⟨row, hrow, -⟩ := hinv.cache _ _ hrunning
        have hne := createRows_new w.write (mem_of_row hrow)
        rw [cached_of_ne hne]
        exact hrunning
      | restart hop => exact absurd hop h.restart
      | @task j e _ g loaded body =>
        by_cases hj : id = j
        · subst hj
          have he := loaded_unique loaded (.hit hrunning loaded.served)
          subst he
          rw [cached_self]
          rcases running_body body hsweep with rfl | ⟨d, messages, attempt, hop, -⟩
          · rfl
          · exact absurd hop (h.update d messages attempt)
        · rw [cached_of_ne hj, (task_sound hinv loaded body).taskCache, cached_of_ne hj]
          exact hrunning
  rw [next_eq, if_neg h.survives]
  exact hexec

end Between

section Updates

variable {env : Env} {s : Server} {id : Uuid} {t t' : RunningTask} {d : Bytes}
  {messages : List ClientMessage} {c : Communicator} {final : Bytes}

theorem update_ran (hserves : env.RepositoryServes) (d : Bytes) (messages : List ClientMessage)
    (hrunning : s.taskCache id = some (.running t)) : ∃ (t' : RunningTask)
      (u : Except Stop RoundUpdate) (db : Database) (e : TaskEntry) (s' : Server),
      outcome (RunningTask.update env.helper d messages) ⟨t, s.pdfHelpers⟩ =
        (u, ⟨t', s'.pdfHelpers⟩) ∧
      RecordOutcome env id t' s.db u (result env (.updateTask id d messages t.taskInfo.attempts) s)
        db e ∧ s'.db = db ∧
      (outcome (exec env (.updateTask id d messages t.taskInfo.attempts)) s).2 =
        cached s' id e := by
  have hlocked : lockedTask env s id = .ok (.running t) :=
    lockedTask_ok.mpr (.hit hrunning (hserves _ _))
  obtain ⟨g, ho, hexec⟩ := exec_update_found d messages t.taskInfo.attempts hlocked
  generalize result env (.updateTask id d messages t.taskInfo.attempts) s = r at ho ⊢
  cases ho with
  | notRunning hnot => exact absurd rfl (hnot t)
  | stale ht hne =>
    cases ht
    exact absurd rfl hne
  | @updated _ t' u _ db e s' ht _ _ record rest ran =>
    cases ht
    exact ⟨t', u, db, e, s', ran, record, rest.db, hexec⟩

omit [External] in
theorem stored_serves {call : RepoCall} {f : Write} {db db' : Database} {e e' e'' : TaskEntry}
    {r : Except Stop Unit} (hserves : env.RepositoryServes) (hok : ∃ db', f db = .ok db')
    (h : Stored env call id f db e e' r db' e'') : r = .ok () ∧ f db = .ok db' ∧ e'' = e' := by
  cases h with
  | served w => exact ⟨rfl, w.write, rfl⟩
  | fails w =>
    obtain ⟨⟨x, hx⟩, -⟩ := fails_refused (.inl hserves) w
    obtain ⟨y, hy⟩ := hok
    rw [hx] at hy
    cases hy

theorem update_listens (hserves : env.RepositoryServes)
    (hrunning : s.taskCache id = some (.running t)) (hready : ready t) (hw : t.waitingFor d)
    (hr : t.session.communicator.receiveMessages d messages = .ok (true, c))
    (hopen : c.roundReceived = false) :
    result env (.updateTask id d messages t.taskInfo.attempts) s = .ok () ∧
      ∃ t', (next env (.updateTask id d messages t.taskInfo.attempts) s).taskCache id =
          some (.running t') ∧ Kept t t' ∧ t'.session = ⟨c, t.session.protocol⟩ := by
  obtain ⟨t', u, db, e, s', ran, record, hdb, hexec⟩ := update_ran hserves d messages hrunning
  obtain ⟨rfl, hkept, hsession⟩ := round_listens hready hw hr hopen ran
  generalize hresult : result env _ s = r at record ⊢
  cases record
  refine ⟨rfl, t', ?_, hkept, hsession⟩
  rw [next_of_ok hresult, hexec]
  exact cached_self ..

theorem update_goes_on (hs : Reachable s) (hserves : env.RepositoryServes)
    (hrunning : s.taskCache id = some (.running t)) (hready : ready t) (hw : t.waitingFor d)
    (hr : t.session.communicator.receiveMessages d messages = .ok (true, c))
    (hreceived : c.roundReceived)
    (hlt : t.session.protocol.round < t.session.protocol.lastRound)
    (hpdf : isPdf t → 0 < t.session.protocol.round) :
    result env (.updateTask id d messages t.taskInfo.attempts) s = .ok () ∧
      ∃ t', (next env (.updateTask id d messages t.taskInfo.attempts) s).taskCache id =
          some (.running t') ∧ Advanced t t' := by
  obtain ⟨row, hrow, -⟩ := (reachable_invariant hs).cache id _ hrunning
  obtain ⟨t', u, db, e, s', ran, record, hdb, hexec⟩ := update_ran hserves d messages hrunning
  obtain ⟨⟨round, rfl⟩, hadvanced⟩ := round_goes_on hready hw hr hreceived hlt hpdf ran
  generalize hresult : result env _ s = r at record ⊢
  cases record with
  | nextRound stored =>
    obtain ⟨rfl, -, rfl⟩ := stored_serves hserves (roundWrite_served hrow round) stored
    refine ⟨rfl, t', ?_, hadvanced⟩
    rw [next_of_ok hresult, hexec]
    exact cached_self ..

def NewGroup (db : Database) (t : RunningTask) (final : Bytes) : Prop :=
  groupOf t = none → final ≠ [] ∧ db.getGroup final = none

omit [External] in
theorem addGroup_served {row : TaskRow} {group : Group} {db db' : Database} {round : ℕ}
    (hfixed : TaskFixed db id (fixed row))
    (hthreshold : group.threshold = asI32 (asU32 row.threshold))
    (hnew : group.id ≠ []) (hnone : db.getGroup group.id = none)
    (hround : roundWrite id round db = .ok db') :
    ∃ db'', db'.addGroup id group.id group.name (asU32 group.threshold) group.protocol
      group.keyType group.certificate group.note = .ok db'' := by
  obtain ⟨hpositive, hmax⟩ := hfixed.threshold
  change 0 < row.threshold at hpositive
  change row.threshold ≤ maxI32 at hmax
  obtain ⟨n, hn⟩ := Int.eq_ofNat_of_zero_le hpositive.le
  have hle : n ≤ maxI32 := by omega
  have hasU32 : asU32 group.threshold = n := by
    rw [hthreshold, hn, asU32_natCast hle, asU32_asI32 hle]
  obtain ⟨-, -, rfl⟩ := setTaskRound_ok hround
  have hfree : db.group.find? (fun row => row.id = group.id) = none := by
    simpa [Database.getGroup] using hnone
  rw [hasU32, Database.addGroup, if_neg (not_lt.mpr hle), if_neg (by simpa using hnew), if_neg]
  · exact ⟨_, rfl⟩
  · rw [hfree, Option.isSome_none, Bool.false_or, decide_eq_true_eq]
    omega

omit [External] in
theorem resultOf_group {final : Bytes} {result : TaskResult} {group : Group}
    (h : ResultOf t final result) (hgroup : result = .groupEstablished group) :
    groupOf t = none ∧ group.id = final := by
  cases t with
  | group =>
    obtain ⟨certificate, -, hestablished⟩ := h
    cases hestablished.symm.trans hgroup
    exact ⟨rfl, rfl⟩
  | sign | decrypt => cases h.symm.trans hgroup
  | signPdf =>
    obtain ⟨signed, hsigned⟩ := h
    cases hsigned.symm.trans hgroup

omit [External] in
/-- With a serving repository every write of a finished task goes through. -/
theorem finish_stored {row : TaskRow} {t' : RunningTask} {round : ℕ} {final : Bytes}
    {task_result : TaskResult} {r : Except Stop Unit} {db : Database} {e : TaskEntry}
    (hinv : Invariant s) (hserves : env.RepositoryServes) (hrow : s.db.task.lookup id = some row)
    (hentry : EntryOf s.db id row (.running t)) (hresult : ResultOf t final task_result)
    (hnew : NewGroup s.db t final)
    (finish : FinishOutcome env id t' round (.new t.taskInfo task_result) s.db r db e) :
    r = .ok () ∧ e = .finished (.new t.taskInfo task_result) ∧
      db.taskResult id = some (NewTaskResult.ofResult (.ok task_result.asBytes)) := by
  cases finish with
  | roundNotStored w =>
    obtain ⟨⟨x, hx⟩, -⟩ := fails_refused (.inl hserves) w
    obtain ⟨y, hy⟩ := roundWrite_served hrow round
    rw [hx] at hy
    cases hy
  | @groupNotStored _ _ group w hgroup w' =>
    obtain ⟨⟨x, hx⟩, -⟩ := fails_refused (.inl hserves) w'
    obtain ⟨-, hanswer⟩ := resultOf_answer hentry.runningOf hresult
    obtain ⟨-, hthreshold, -⟩ := hanswer group hgroup
    obtain ⟨hkind, hid⟩ := resultOf_group hresult hgroup
    obtain ⟨hne, hnone⟩ := hnew hkind
    obtain ⟨y, hy⟩ := addGroup_served (hinv.tables.fixed id row hrow) hthreshold
      (hid ▸ hne) (hid ▸ hnone) w.write
    rw [hx] at hy
    cases hy
  | @group db₁ db₂ _ _ _ _ w _ w' stored =>
    obtain ⟨hrow', -, -⟩ := roundWrite_ok hrow w.write
    obtain ⟨-, -, -, hgroups⟩ := addGroup_ok (mem_of_row hrow') w'.write
    have htask : db₂.task = db₁.task := by
      rw [hgroups]
      rfl
    rw [← htask] at hrow'
    obtain ⟨rfl, hwrite, rfl⟩ := stored_serves hserves (resultWrite_served hrow' _) stored
    exact ⟨rfl, rfl, (resultWrite_ok hwrite).2.2⟩
  | threshold w _ stored =>
    obtain ⟨hrow', -, -⟩ := roundWrite_ok hrow w.write
    obtain ⟨rfl, hwrite, rfl⟩ := stored_serves hserves (resultWrite_served hrow' _) stored
    exact ⟨rfl, rfl, (resultWrite_ok hwrite).2.2⟩

theorem update_finishes (hs : Reachable s) (hserves : env.RepositoryServes)
    (hrunning : s.taskCache id = some (.running t)) (hready : ready t) (hw : t.waitingFor d)
    (hr : t.session.communicator.receiveMessages d messages = .ok (true, c))
    (hreceived : c.roundReceived)
    (hlast : t.session.protocol.round = t.session.protocol.lastRound)
    (hfinal : c.getFinalMessage = .ok (some final)) (hkey : keyed t → final.length = 65)
    (hhelper : HelperServes env.helper s.pdfHelpers t) (hnew : NewGroup s.db t final) :
    result env (.updateTask id d messages t.taskInfo.attempts) s = .ok () ∧
      ∃ f, (next env (.updateTask id d messages t.taskInfo.attempts) s).taskCache id =
          some (.finished f) ∧ f.taskInfo = t.taskInfo ∧ ResultOf t final f.result ∧
        (next env (.updateTask id d messages t.taskInfo.attempts) s).db.taskResult id =
          some (NewTaskResult.ofResult (.ok f.result.asBytes)) := by
  have hinv := reachable_invariant hs
  obtain ⟨row, hrow, hentry⟩ := hinv.cache id _ hrunning
  obtain ⟨t', u, db, e, s', ran, record, hdb, hexec⟩ := update_ran hserves d messages hrunning
  obtain ⟨task_result, hresultOf, rfl⟩ :=
    round_finishes hready hw hr hreceived hlast hfinal hkey hhelper ran
  generalize hresult : result env _ s = r at record ⊢
  cases record with
  | finished finish =>
    obtain ⟨rfl, rfl, hstored⟩ := finish_stored hinv hserves hrow hentry hresultOf hnew finish
    refine ⟨rfl, .new t.taskInfo task_result, ?_, rfl, hresultOf, ?_⟩
    · rw [next_of_ok hresult, hexec]
      exact cached_self ..
    · rw [next_of_ok hresult, hexec]
      exact hdb ▸ hstored

end Updates

abbrev Arrival := Bytes × List ClientMessage

/-- The active devices and nobody else send, each once and acceptably. -/
structure Honest (c : Communicator) (l : List Arrival) : Prop extends Arrivals c l where
  active : ∀ p ∈ l, Active c p.1

def Agreed (c : Communicator) (l : List Arrival) (final : Bytes) : Prop :=
  ∀ i msg, Sent c l i msg → verified c ⟨i, msg⟩ = some final

/-- The calls of `before` are in the buffers of the task, those of `now` are still to come in
this round, and `rounds` are to follow. -/
structure Progress (t : RunningTask) (final : Bytes) (before now : List Arrival)
    (rounds : List (List Arrival)) : Prop where
  is_ready : ready t
  first : isPdf t → 0 < t.session.protocol.round
  buffered : Buffered t.session.communicator (callsOf t.session.communicator before)
  honest : ∀ l ∈ (before ++ now) :: rounds, Honest t.session.communicator l
  count : t.session.protocol.round + rounds.length = t.session.protocol.lastRound
  agreed : ∀ l ∈ ((before ++ now) :: rounds).getLast?, Agreed t.session.communicator l final
  key : keyed t → final.length = 65

section Progress

variable {c c' : Communicator} {l before now : List Arrival} {rounds : List (List Arrival)}
  {p : Arrival} {t t' : RunningTask} {final : Bytes}

omit [External] in
theorem Honest.same (hsame : SameShares c c') (h : Honest c l) : Honest c' l where
  once d hd := h.once d (hsame.active.mp hd)
  accepted d messages hmem hd := hsame.accepts.mpr (h.accepted d messages hmem (hsame.active.mp hd))
  active p hp := hsame.active.mpr (h.active p hp)

theorem Agreed.same (hsame : SameShares c c') (h : Agreed c l final) : Agreed c' l final := by
  rintro i msg ⟨d, messages, j, hmem, hindex, hmsg⟩
  rw [hsame.indices] at hindex
  have hverified := h i msg ⟨d, messages, j, hmem, hindex, hmsg⟩
  rw [verified, hsame.activeShares, hsame.protocolType]
  exact hverified

omit [External] in
theorem Honest.ne_nil (h : Honest c l) : l ≠ [] := by
  have htwo := c.two_shares
  obtain ⟨⟨share, device⟩, hentry⟩ := List.exists_mem_of_ne_nil c.activeShares.entries (by
    intro hnil
    rw [len, hnil] at htwo
    cases htwo)
  have hactive : Active c device.id := ⟨share, device, mem_entries_iff.mp hentry, rfl⟩
  rintro rfl
  have hcount := h.once device.id hactive
  rw [List.map_nil, List.count_nil] at hcount
  cases hcount

omit [External] in
theorem keyed_kept (hkept : Kept t t')
    (hprotocol : t'.session.protocol.protocolType = t.session.protocol.protocolType) :
    keyed t' = keyed t := by
  obtain ⟨hcontext, -, -⟩ := hkept
  cases t <;> cases t'
  case group.group t t' =>
    change t'.protocol.getType = t.protocol.getType at hprotocol
    rw [keyed, keyed, hprotocol]
  case sign.sign => rfl
  case signPdf.signPdf => rfl
  case decrypt.decrypt => rfl
  all_goals cases hcontext

/-- The next device in line is waited for. Its messages complete the round if it is the last. -/
theorem Progress.arrives (h : Progress t final before (p :: now) rounds)
    (hwhole : Whole t.session.communicator) : t.waitingFor p.1 ∧
    ∃ c', t.session.communicator.receiveMessages p.1 p.2 = .ok (true, c') ∧
      SameShares t.session.communicator c' ∧
      Buffered c' (callsOf t.session.communicator (before ++ [p])) ∧
      (c'.roundReceived ↔ now = []) := by
  obtain ⟨d, messages⟩ := p
  have hround := h.honest _ List.mem_cons_self
  have hin : (d, messages) ∈ before ++ (d, messages) :: now :=
    List.mem_append_right before List.mem_cons_self
  have hactive : Active t.session.communicator d := hround.active _ hin
  have hmissing : d ∉ (callsOf t.session.communicator before).map Call.device := by
    intro hd
    have hbefore := List.count_pos_iff.mpr (mem_callsOf_device.mp hd).2
    have hcount := hround.once d hactive
    rw [List.map_append, List.count_append, List.map_cons, List.count_cons_self] at hcount
    omega
  have hwaiting := waiting_of_missing h.buffered hactive hmissing
  obtain ⟨c', hreceive⟩ := hround.accepted d messages hin hactive
  have hsame := receive_sameShares hreceive
  have hbuffered : Buffered c' (callsOf t.session.communicator (before ++ [(d, messages)])) := by
    rw [callsOf, List.filter_append, List.filter_cons_of_pos (by exact decide_eq_true hactive),
      List.filter_nil, List.map_append]
    exact h.buffered.receive hwaiting hreceive
  refine ⟨hwaiting, c', hreceive, hsame, hbuffered, ?_⟩
  rw [received_iff hsame (hwhole.receive hreceive) hbuffered]
  constructor
  · intro hall
    cases now with
    | nil => rfl
    | cons q now =>
      have hq : q ∈ before ++ (d, messages) :: q :: now := by simp
      have hactive' := hround.active q hq
      have hheard := List.count_pos_iff.mpr (hall q.1 hactive')
      have hcount := hround.once q.1 hactive'
      rw [List.append_cons, List.map_append, List.count_append, List.map_cons,
        List.count_cons_self] at hcount
      omega
  · rintro rfl d' hd'
    have hcount := hround.once d' hd'
    exact List.count_pos_iff.mp (by omega)

theorem Progress.listens (h : Progress t final before (p :: now) rounds) (hkept : Kept t t')
    (hsession : t'.session = ⟨c, t.session.protocol⟩)
    (hsame : SameShares t.session.communicator c)
    (hbuffered : Buffered c (callsOf t.session.communicator (before ++ [p]))) :
    Progress t' final (before ++ [p]) now rounds := by
  have hprotocol : t'.session.protocol.protocolType = t.session.protocol.protocolType := by
    rw [hsession]
  have happend : before ++ [p] ++ now = before ++ p :: now := by simp
  constructor
  · rw [hkept.ready]
    exact h.is_ready
  · rw [isPdf_congr hkept.context, hsession]
    exact h.first
  · rw [hsession, hsame.callsOf]
    exact hbuffered
  · rw [happend, hsession]
    exact fun l hl => (h.honest l hl).same hsame
  · rw [hsession]
    exact h.count
  · rw [happend, hsession]
    exact fun l hl => (h.agreed l hl).same hsame
  · rw [keyed_kept hkept hprotocol]
    exact h.key

theorem Progress.goes_on (h : Progress t final before [p] (l :: rounds))
    (hadvanced : Advanced t t') :
    Progress t' final [] l rounds := by
  have hsame := hadvanced.shares
  have hcount := h.count
  rw [List.length_cons] at hcount
  constructor
  · rw [hadvanced.kept.ready]
    exact h.is_ready
  · intro _
    rw [hadvanced.round]
    omega
  · exact buffered_empty hadvanced.input
  · exact fun l' hl' => (h.honest l' (List.mem_cons_of_mem _ hl')).same hsame
  · rw [hadvanced.round, hadvanced.last]
    omega
  · intro l' hl'
    refine (h.agreed l' ?_).same hsame
    rw [List.getLast?_cons_cons]
    exact hl'
  · rw [keyed_kept hadvanced.kept hadvanced.protocol]
    exact h.key

theorem Progress.final_message (h : Progress t final before [p] [])
    (hwhole : Whole c) (hsame : SameShares t.session.communicator c)
    (hbuffered : Buffered c (callsOf t.session.communicator (before ++ [p])))
    (hreceived : c.roundReceived) : c.getFinalMessage = .ok (some final) := by
  have hagreed : Agreed t.session.communicator (before ++ [p]) final := h.agreed _ rfl
  have hverified : ∀ e ∈ c.input.entries, verified c e = some final := by
    rintro ⟨i, msg⟩ he
    have hsent := (lookup_sent hbuffered).mp (mem_entries_iff.mp he)
    rw [verified, hsame.activeShares, hsame.protocolType]
    exact hagreed i msg hsent
  apply loop_agreed (known_of_whole hwhole)
  · exact fun e he => broadcast_of_verified (hverified e he)
  · exact hverified
  · intro v hv
    cases hv
  · exact fun hnil => absurd hnil (entries_ne_nil hreceived)

end Progress

/-- What the last update needs beside its messages. -/
structure Obliging (env : Env) (s : Server) (id : Uuid) (final : Bytes) : Prop where
  helper : ∀ t, s.taskCache id = some (.running t) → HelperServes env.helper s.pdfHelpers t
  group : ∀ t, s.taskCache id = some (.running t) → NewGroup s.db t final

/-- The arrivals reach the server in their order, with other calls in between, and get these
answers. -/
inductive Schedule (id : Uuid) (attempt : ℕ) (final : Bytes) :
    Server → List Arrival → List (Except Stop Unit) → Server → Prop where
  | other {env : Env} {op : Op} {s s' : Server} {l : List Arrival}
      {answers : List (Except Stop Unit)} (undisturbed : LeavesTask env op s id)
      (rest : Schedule id attempt final (next env op s) l answers s') :
      Schedule id attempt final s l answers s'
  | update {env : Env} {s s' : Server} {p q : Arrival} {l : List Arrival}
      {answers : List (Except Stop Unit)} (serves : env.RepositoryServes)
      (rest : Schedule id attempt final (next env (.updateTask id p.1 p.2 attempt) s) (q :: l)
        answers s') :
      Schedule id attempt final s (p :: q :: l)
        (result env (.updateTask id p.1 p.2 attempt) s :: answers) s'
  | last {env : Env} {s : Server} {p : Arrival} (serves : env.RepositoryServes)
      (obliging : Obliging env s id final) :
      Schedule id attempt final s [p] [result env (.updateTask id p.1 p.2 attempt) s]
        (next env (.updateTask id p.1 p.2 attempt) s)

def FinishedWith (s : Server) (id : Uuid) (t : RunningTask) (final : Bytes) : Prop :=
  ∃ f, s.taskCache id = some (.finished f) ∧ f.taskInfo = t.taskInfo ∧ ResultOf t final f.result ∧
    s.db.taskResult id = some (NewTaskResult.ofResult (.ok f.result.asBytes))

section Runs

variable {s s' : Server} {id : Uuid} {t t' : RunningTask} {final : Bytes} {attempt : ℕ}
  {l before now : List Arrival} {rounds : List (List Arrival)} {answers : List (Except Stop Unit)}

omit [External] in
theorem FinishedWith.of_kept (hkept : Kept t t')
    (hprotocol : t'.session.protocol.protocolType = t.session.protocol.protocolType)
    (h : FinishedWith s' id t' final) : FinishedWith s' id t final := by
  obtain ⟨f, hcached, hinfo, hresult, hstored⟩ := h
  exact ⟨f, hcached, hinfo.trans hkept.taskInfo, resultOf_kept hkept hprotocol hresult, hstored⟩

/-- The induction is on the calls. `Progress` says where in which round they are. -/
theorem Schedule.finishes (h : Schedule id attempt final s l answers s') (hs : Reachable s)
    (hrunning : s.taskCache id = some (.running t)) (hattempt : attempt = t.taskInfo.attempts)
    (hprogress : Progress t final before now rounds) (hl : l = now ++ rounds.flatten)
    (hne : now ≠ []) : (∀ r ∈ answers, r = .ok ()) ∧ FinishedWith s' id t final := by
  induction h generalizing t before now rounds with
  | @other env op s s' l answers undisturbed rest ih =>
    exact ih (.step env op hs) (leavesTask_cached hs hrunning undisturbed) hattempt hprogress hl hne
  | @update env s s' p q l answers serves rest ih =>
    subst hattempt
    obtain ⟨p', now, rfl⟩ := List.exists_cons_of_ne_nil hne
    rw [List.cons_append, List.cons.injEq] at hl
    obtain ⟨rfl, hrest⟩ := hl
    have hloaded : Loaded env s id (.running t) := .hit hrunning (serves _ _)
    have hwhole := found_whole hs hloaded
    obtain ⟨hwaiting, c, hreceive, hsame, hbuffered, hreceived⟩ := hprogress.arrives hwhole
    cases now with
    | nil =>
      cases rounds with
      | nil => cases hrest
      | cons r rounds =>
        have hcount := hprogress.count
        rw [List.length_cons] at hcount
        obtain ⟨hok, t', hrunning', hadvanced⟩ := update_goes_on hs serves hrunning
          hprogress.is_ready hwaiting hreceive (hreceived.mpr rfl) (by omega) hprogress.first
        obtain ⟨hanswers, hfinished⟩ := ih (.step env _ hs) hrunning'
          (congrArg TaskInfo.attempts hadvanced.kept.taskInfo).symm (hprogress.goes_on hadvanced)
          hrest (hprogress.honest r (by simp)).ne_nil
        refine ⟨?_, hfinished.of_kept hadvanced.kept hadvanced.protocol⟩
        rw [List.forall_mem_cons]
        exact ⟨hok, hanswers⟩
    | cons q' now =>
      have hopen : c.roundReceived = false := by
        rw [Bool.eq_false_iff]
        intro h
        cases hreceived.mp h
      obtain ⟨hok, t', hrunning', hkept, hsession⟩ := update_listens serves hrunning
        hprogress.is_ready hwaiting hreceive hopen
      have hprotocol : t'.session.protocol.protocolType = t.session.protocol.protocolType := by
        rw [hsession]
      obtain ⟨hanswers, hfinished⟩ := ih (.step env _ hs) hrunning'
        (congrArg TaskInfo.attempts hkept.taskInfo).symm
        (hprogress.listens hkept hsession hsame hbuffered) hrest (by simp)
      refine ⟨?_, hfinished.of_kept hkept hprotocol⟩
      rw [List.forall_mem_cons]
      exact ⟨hok, hanswers⟩
  | @last env s p serves obliging =>
    subst hattempt
    obtain ⟨p', now, rfl⟩ := List.exists_cons_of_ne_nil hne
    rw [List.cons_append, List.cons.injEq] at hl
    obtain ⟨rfl, hrest⟩ := hl
    obtain ⟨rfl, hflat⟩ := List.append_eq_nil_iff.mp hrest.symm
    have hrounds : rounds = [] := by
      cases rounds with
      | nil => rfl
      | cons r rounds =>
        rw [List.flatten_cons, List.append_eq_nil_iff] at hflat
        exact absurd hflat.1 (hprogress.honest r (by simp)).ne_nil
    subst hrounds
    have hloaded : Loaded env s id (.running t) := .hit hrunning (serves _ _)
    have hwhole := found_whole hs hloaded
    obtain ⟨hwaiting, c, hreceive, hsame, hbuffered, hreceived⟩ := hprogress.arrives hwhole
    have hcomplete := hreceived.mpr rfl
    obtain ⟨hok, f, hcached, hinfo, hresult, hstored⟩ := update_finishes hs serves hrunning
      hprogress.is_ready hwaiting hreceive hcomplete hprogress.count
      (hprogress.final_message (hwhole.receive hreceive) hsame hbuffered hcomplete) hprogress.key
      (obliging.helper t hrunning) (obliging.group t hrunning)
    refine ⟨?_, f, hcached, hinfo, hresult, hstored⟩
    intro r hr
    rw [List.mem_singleton] at hr
    rw [hr, hok]

/-- From the beginning of a round on, honest devices finish their task. Their messages arrive in
any order within a round. -/
theorem honest_devices_finish (hs : Reachable s)
    (hrunning : s.taskCache id = some (.running t)) (hready : ready t)
    (hempty : t.session.communicator.input = ∅) (hfirst : isPdf t → 0 < t.session.protocol.round)
    (hcount : t.session.protocol.round + rounds.length = t.session.protocol.lastRound)
    (hhonest : ∀ r ∈ l :: rounds, Honest t.session.communicator r)
    (hagreed : ∀ r ∈ (l :: rounds).getLast?, Agreed t.session.communicator r final)
    (hkey : keyed t → final.length = 65)
    (h : Schedule id t.taskInfo.attempts final s (l :: rounds).flatten answers s') :
    (∀ r ∈ answers, r = .ok ()) ∧ FinishedWith s' id t final := by
  have hprogress : Progress t final [] l rounds :=
    ⟨hready, hfirst, buffered_empty hempty, hhonest, hcount, hagreed, hkey⟩
  exact h.finishes hs hrunning rfl hprogress rfl (hhonest l List.mem_cons_self).ne_nil

omit [External] in
theorem honest_pair {c : Communicator} {first second : Device} {w : Bytes}
    (hdevices : c.activeShares.entries.map (fun e => e.2.id) = [alice.id, bob.id])
    (halice : (c.identifierToIndices alice.id).length = 1)
    (hbob : (c.identifierToIndices bob.id).length = 1)
    (hpair : [first, second].Perm [alice, bob]) :
    Honest c [(first.id, answer w), (second.id, answer w)] := by
  have hactive : ∀ {d}, Active c d → d = alice.id ∨ d = bob.id := by
    rintro d ⟨share, device, hlookup, rfl⟩
    have hmem : device.id ∈ c.activeShares.entries.map fun e => e.2.id :=
      List.mem_map.mpr ⟨_, mem_entries_iff.mpr hlookup, rfl⟩
    rw [hdevices] at hmem
    simpa using hmem
  have hids : [first.id, second.id].Perm [alice.id, bob.id] := hpair.map Device.id
  have hlength : ∀ {d}, d ∈ [first.id, second.id] → (c.identifierToIndices d).length = 1 := by
    intro d hd
    rw [hids.mem_iff] at hd
    simp only [List.mem_cons, List.not_mem_nil, or_false] at hd
    rcases hd with rfl | rfl
    · exact halice
    · exact hbob
  constructor
  · constructor
    · intro d hd
      change [first.id, second.id].count d = 1
      rw [hids.count_eq]
      rcases hactive hd with rfl | rfl
      · decide
      · decide
    · intro d messages hmem _
      simp only [List.mem_cons, Prod.mk.injEq, List.not_mem_nil, or_false] at hmem
      have hd : d ∈ [first.id, second.id] ∧ messages = answer w := by
        rcases hmem with ⟨rfl, rfl⟩ | ⟨rfl, rfl⟩
        · exact ⟨by simp, rfl⟩
        · exact ⟨by simp, rfl⟩
      obtain ⟨hd, rfl⟩ := hd
      rw [accepts_iff]
      exact ⟨by simp [answer], hlength hd, rfl⟩
  · intro p hp
    have hd : p.1 ∈ [first.id, second.id] := by
      simp only [List.mem_cons, List.not_mem_nil, or_false] at hp
      rcases hp with rfl | rfl
      · simp
      · simp
    have hpos : 0 < (c.identifierToIndices p.1).length := by
      rw [hlength hd]
      decide
    obtain ⟨i, hi⟩ := List.exists_mem_of_length_pos hpos
    exact active_iff.mpr ⟨i, hi⟩

omit [External] in
theorem agreed_answers {c : Communicator} {l : List Arrival} {w : Bytes}
    (h : ∀ p ∈ l, p.2 = answer w) : @Agreed plainExternal c l w := by
  rintro i msg ⟨d, messages, j, hmem, hindex, hmsg⟩
  obtain ⟨share, device, hlookup, -, rfl⟩ :=
    mem_identifierToIndices.mp (List.mem_of_getElem? hindex)
  have hanswer : messages = answer w := h _ hmem
  subst hanswer
  have hmsg' := List.mem_of_getElem? hmsg
  rw [answer, List.mem_singleton] at hmsg'
  subst hmsg'
  have hdevice : c.activeShares.lookup
      (share + c.protocolType.indexOffset - c.protocolType.indexOffset) = some device := by
    rw [Nat.add_sub_cancel]
    exact hlookup
  simp only [verified, hdevice, Option.bind_some]
  rfl

def pairRounds : List (List Arrival) :=
  [[(alice.id, answer [7]), (bob.id, answer [7])], [(alice.id, answer [7]), (bob.id, answer [7])],
    [(bob.id, answer [7]), (alice.id, answer [7])]]

def afterArrivals (s : Server) (l : List Arrival) : Server :=
  @runOps plainExternal s (servedOps 0 0 (l.map fun p => .updateTask 0 p.1 p.2 0))

omit [External] in
theorem afterArrivals_cons (s : Server) (p : Arrival) (l : List Arrival) :
    afterArrivals s (p :: l) =
      afterArrivals (@next plainExternal (servingEnv 0 0) (.updateTask 0 p.1 p.2 0) s) l := rfl

omit [External] in
theorem schedule_served {s : Server} {l : List Arrival} {p : Arrival} {final : Bytes}
    (h : Obliging (servingEnv 0 0) (afterArrivals s l) 0 final) :
    ∃ answers, answers.length = (l ++ [p]).length ∧
      @Schedule plainExternal 0 0 final s (l ++ [p]) answers (afterArrivals s (l ++ [p])) := by
  induction l generalizing s with
  | nil => exact ⟨_, rfl, @Schedule.last plainExternal _ _ _ _ _ _ (servingEnv_serves 0 0) h⟩
  | cons p₁ l ih =>
    rw [afterArrivals_cons] at h
    obtain ⟨answers, hlength, hrest⟩ := ih h
    obtain ⟨q, l', hl⟩ : ∃ q l', l ++ [p] = q :: l' := List.exists_cons_of_ne_nil (by simp)
    rw [hl] at hrest
    refine ⟨@result plainExternal (servingEnv 0 0) (.updateTask 0 p₁.1 p₁.2 0) s :: answers,
      congrArg (· + 1) hlength, ?_⟩
    rw [List.cons_append, hl, afterArrivals_cons]
    exact @Schedule.update plainExternal _ _ _ _ _ _ _ _ _ _ (servingEnv_serves 0 0) hrest

def asksHelper : TaskEntry → Bool
  | .running t => keyed t || isPdf t
  | _ => false

omit [External] in
theorem obliging_of_new {env : Env} {s : Server} {id : Uuid} {final : Bytes} (hne : final ≠ [])
    (hhelper : (s.taskCache id).any asksHelper = false) (hgroup : s.db.getGroup final = none) :
    Obliging env s id final := by
  have hkind : ∀ t, s.taskCache id = some (.running t) → keyed t = false ∧ isPdf t = false := by
    intro t ht
    rw [ht, Option.any_some, asksHelper, Bool.or_eq_false_iff] at hhelper
    exact hhelper
  constructor
  · intro t ht
    obtain ⟨hkeyed, hpdf⟩ := hkind t ht
    rw [← Bool.not_eq_true] at hkeyed hpdf
    exact ⟨fun h => absurd h hkeyed, fun h => absurd h hpdf, fun h => absurd h hpdf⟩
  · exact fun _ _ _ => ⟨hne, hgroup⟩

omit [External] in
theorem pairRounds_obliging :
    Obliging (servingEnv 0 0) (afterArrivals certificatesSent (pairRounds.flatten.take 5)) 0 [7] :=
  obliging_of_new (by decide) (by decide +kernel) (by decide +kernel)

omit [External] in
/-- Alice and Bob establish their group in three rounds. -/
theorem honest_devices_finish_pair : ∃ (t : RunningTask) (answers : List (Except Stop Unit)),
    certificatesSent.taskCache 0 = some (.running t) ∧ answers.length = 6 ∧
    (∀ r ∈ answers, r = .ok ()) ∧
    FinishedWith (afterArrivals certificatesSent pairRounds.flatten) 0 t [7] := by
  have hfound : (foundRunning (lockedTask (servingEnv 0 0) certificatesSent 0)).map (fun t =>
      (ready t, keyed t, isPdf t, t.taskInfo.attempts)) = some (true, false, false, 0) := by
    decide +kernel
  have hprotocol : (foundRunning (lockedTask (servingEnv 0 0) certificatesSent 0)).map (fun t =>
      (t.session.communicator.input.entries.length, t.session.protocol.round,
        @Protocol.lastRound plainExternal t.session.protocol)) = some (0, 0, 2) := by decide +kernel
  have hshares : (foundRunning (lockedTask (servingEnv 0 0) certificatesSent 0)).map (fun t =>
      (t.session.communicator.activeShares.entries.map (fun e => e.2.id),
        (t.session.communicator.identifierToIndices alice.id).length,
        (t.session.communicator.identifierToIndices bob.id).length)) =
          some ([alice.id, bob.id], 1, 1) := by decide +kernel
  have hcached : (certificatesSent.taskCache 0).isSome := by decide +kernel
  obtain ⟨t, ht, hfacts⟩ := Option.map_eq_some_iff.mp hfound
  rw [ht, Option.map_some, Option.some.injEq] at hprotocol hshares
  simp only [Prod.mk.injEq] at hfacts hprotocol hshares
  obtain ⟨hready, hkeyed, hpdf, hattempts⟩ := hfacts
  obtain ⟨hlen, hround, hlast⟩ := hprotocol
  obtain ⟨hdevices, halice, hbob⟩ := hshares
  rw [← Bool.not_eq_true] at hkeyed hpdf
  obtain ⟨e, he⟩ := Option.isSome_iff_exists.mp hcached
  have hentry := loaded_unique (.hit he rfl) (lockedTask_ok.mp (foundRunning_some ht))
  subst hentry
  have hsplit : pairRounds.flatten.take 5 ++ [(alice.id, answer [7])] = pairRounds.flatten := rfl
  obtain ⟨answers, hlength, hschedule⟩ := @schedule_served _ _ (alice.id, answer [7]) _
    pairRounds_obliging
  rw [hsplit] at hlength hschedule
  have hattempt : @Schedule plainExternal 0 t.taskInfo.attempts [7] certificatesSent
      pairRounds.flatten answers (afterArrivals certificatesSent pairRounds.flatten) := by
    rw [hattempts]
    exact hschedule
  have hhonest : ∀ r ∈ pairRounds, Honest t.session.communicator r := by
    simp only [pairRounds, List.mem_cons, List.not_mem_nil, or_false]
    rintro r (rfl | rfl | rfl)
    · exact honest_pair hdevices halice hbob (.refl _)
    · exact honest_pair hdevices halice hbob (.refl _)
    · exact honest_pair hdevices halice hbob (.swap _ _ _)
  have hagreed : ∀ r ∈ pairRounds.getLast?, @Agreed plainExternal t.session.communicator r [7] := by
    rintro r ⟨⟩
    exact agreed_answers (by simp)
  have hcount : t.session.protocol.round + pairRounds.tail.length =
      @Protocol.lastRound plainExternal t.session.protocol := by
    rw [hround, hlast]
    rfl
  exact ⟨t, answers, he, hlength, @honest_devices_finish plainExternal _ _ _ t _ _ _ answers
    certificatesSent_reachable he hready (AList.ext (List.eq_nil_of_length_eq_zero hlen))
    (fun h => absurd h hpdf) hcount hhonest hagreed (fun h => absurd h hkeyed) hattempt⟩

end Runs

end HonestRounds
