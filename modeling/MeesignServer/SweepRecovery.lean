import MeesignServer.HonestRounds
import MeesignServer.PdfHelperLifecycle

/-!
# Recovery by the sweep

A round can come to a standstill: a device has gone, messages are lost, or the process that held
them has stopped. The sweep brings every stale task back to its first round under the next
attempt, with empty buffers. From there devices that follow the protocol finish it, whatever had
happened before.
-/
namespace SweepRecovery

open FallibleProgram FiniteMap DataModel CommunicatorModel ProtocolModel VotingModel
open RunningTaskModel DatabaseModel HydrationModel ServerModel TaskOutcomes ServerOutcomes
open TableFrames ServerInvariant HydrationOutcomes InvariantSteps TaskAdmission ServerMoves
open TableSync SyncRuns StaleSweep SweepSchedule FoundTasks MessageDelivery HonestRounds
open MessageBuffers ResultAgreement ClientMessages AcknowledgedUpdates

variable [External] {env : Env} {s s' : Server} {id : Uuid} {row : TaskRow} {t t' : RunningTask}

section Task

variable {helper : Helper} {h h' : PdfHelpers} {u : Except Stop RoundUpdate}
  {r : Except Stop Unit} {g : Guarded}

/-- The helper of a PDF task can be replaced by one that answers with a digest. -/
structure HelperStarts (helper : Helper) (h : PdfHelpers) : Prop where
  killed : helper.killed
  digest : ∃ b digest, helper.pdfStart = .hash (b :: digest)
  clean : h.poisoned = false

/-- The task begins again, under the next attempt. -/
structure Renewed (t t' : RunningTask) : Prop where
  context : contextOf t' = contextOf t
  ready : ready t' = ready t
  taskInfo : t'.taskInfo = attempted t.taskInfo
  session : ∃ data, t'.session = t.session.initializeProtocol data

theorem pdfStart_starts {st : PdfState} (hcert : st.task.signTask.group.certificate.isSome)
    (hh : HelperStarts helper st.helpers) : post (SignPDFTask.startTask helper) st
      (fun u st' => u = .ok (.nextRound 1) ∧ st'.helpers.poisoned = false) := by
  obtain ⟨b, digest, hstart⟩ := hh.digest
  have hsome : st.task.signTask.group.certificate.isNone = false := by
    rw [Option.isNone_eq_false_iff]
    exact hcert
  simp only [SignPDFTask.startTask, post_bind, post_get, hstart, hsome, Bool.false_eq_true,
    ↓reduceIte, SignPDFTask.lockHelpers, SignPDFTask.onSignTask, SignTask.startTask,
    SignTask.onSession, post_zoom, post_modify, post_pure, hh.clean]
  exact ⟨rfl, hh.clean⟩

theorem restart_starts
    (ran : outcome (RunningTask.restart helper) ⟨t, h⟩ = (u, ⟨t', h'⟩))
    (hcert : ∀ task, t = .signPdf task → task.signTask.group.certificate.isSome)
    (hh : HelperStarts helper h) : u = .ok (.nextRound 1) ∧ h'.poisoned = false := by
  have hpost : post (RunningTask.restart helper) ⟨t, h⟩ (fun u r' =>
      u = .ok (.nextRound 1) ∧ r'.helpers.poisoned = false) := by
    cases t with
    | group t => exact ⟨rfl, hh.clean⟩
    | sign t => exact ⟨rfl, hh.clean⟩
    | decrypt t => exact ⟨rfl, hh.clean⟩
    | signPdf t =>
      simp only [RunningTask.restart, RunningTask.runPdf, SignPDFTask.restart,
        SignPDFTask.lockHelpers, post_bind, post_get, post_zoom, hh.clean, Bool.false_eq_true,
        ↓reduceIte, post_pure, hh.killed, Bool.not_true, Bool.and_false, post_set,
        SignPDFTask.onSignTask, post_modify]
      exact pdfStart_starts (hcert t rfl) ⟨hh.killed, hh.digest, hh.clean⟩
  rw [post, ran] at hpost
  exact hpost

theorem restart_renews (ho : RestartEntryOutcome env id ⟨.running t, s⟩ r g) (hi : Tables s.db)
    (hrow : s.db.task.lookup id = some row) (he : EntryOf s.db id row (.running t))
    (hserves : env.RepositoryServes) (hroom : row.attemptCount < maxI32)
    (hh : HelperStarts env.helper s.pdfHelpers) :
    r = .ok () ∧ (∃ t', g.entry = .running t' ∧ Renewed t t') ∧
      g.server.pdfHelpers.poisoned = false := by
  cases ho with
  | notRunning hnot => exact absurd rfl (hnot t)
  | notStored _ w =>
    obtain ⟨⟨e, hw⟩, -⟩ := fails_refused (.inl hserves) w
    simp [Database.incrementTaskAttemptCount, hrow, hroom] at hw
  | @restarted t₀ t₁ u _ db _ _ _ ht₀ w restart record rest ran =>
    cases ht₀
    have hcert : ∀ task, t = .signPdf task → task.signTask.group.certificate.isSome := by
      rintro task rfl
      exact GroupWellFormed.certificate_of_signPdf hi hrow he.runningOf.context rfl
    obtain ⟨rfl, hclean⟩ := restart_starts ran hcert hh
    obtain ⟨row', hrow'⟩ := incrementTaskAttemptCount_row w.write
    have hrenewed : Renewed t t₁ := by
      cases restart with
      | again hcontext hready hinfo hsession start =>
        cases start with
        | started data kept session =>
          refine ⟨kept.context.trans hcontext, kept.ready.trans hready,
            kept.taskInfo.trans hinfo, data, ?_⟩
          rw [session, hsession]
    cases record with
    | nextRound stored =>
      cases stored with
      | served => exact ⟨rfl, ⟨t₁, rfl, hrenewed⟩, hclean⟩
      | fails w' =>
        obtain ⟨⟨e, hw⟩, -⟩ := fails_refused (.inl hserves) w'
        obtain ⟨db', hdb'⟩ := roundWrite_served hrow' 1
        rw [hdb'] at hw
        cases hw

end Task

section Loop

variable {l : List Uuid} {r : Except Stop Unit} {e : TaskEntry}

omit [External] in
theorem loaded_same (h : Loaded env s id e) (hi : Invariant s) (hx : Extends s.db s'.db)
    (hs : SameTask s.db s'.db id) (hc : s'.taskCache id = s.taskCache id) : Loaded env s' id e := by
  cases h with
  | hit hit served => exact .hit (hc.trans hit) served
  | hydrated miss served hh =>
    obtain ⟨row, hrow⟩ := hydrate_row hh
    exact .hydrated (hc.trans miss) served ((hydrateTask_congr hi.tables hx hs hrow).trans hh)

structure Restartable (env : Env) (s : Server) (l : List Uuid) : Prop where
  invariant : Invariant s
  helper : HelperStarts env.helper s.pdfHelpers
  candidate : ∀ id ∈ l, s.db.isRestartCandidate id
  running : ∀ id ∈ l, ∃ t, Loaded env s id (.running t)
  room : ∀ id ∈ l, ∀ row, s.db.task.lookup id = some row → row.attemptCount < maxI32

theorem Restartable.first (h : Restartable env s (id :: l)) (hn : id ∉ l)
    (hserves : env.RepositoryServes)
    (ho : TaskOutcome env id (RestartEntryOutcome env id) s r s') :
    r = .ok () ∧ (∃ t t', Loaded env s id (.running t) ∧ s'.taskCache id = some (.running t') ∧
      Renewed t t') ∧ Restartable env s' l ∧
    ∀ j, j ≠ id → s'.taskCache j = s.taskCache j ∧
      ∀ e, Loaded env s j e → Loaded env s' j e := by
  obtain ⟨t, ht⟩ := h.running id List.mem_cons_self
  cases ho with
  | notLoaded hnot => exact (ht.not_notLoaded hnot).elim
  | @loaded e _ g hl hb =>
    cases loaded_unique hl ht
    have hcandidate := h.candidate id List.mem_cons_self
    have body : BodyOutcome env .restartStaleTasks id ⟨.running t, cached s id (.running t)⟩ r g :=
      .restart hcandidate hb
    obtain ⟨row, hrow, he⟩ := loaded_entry h.invariant hl
    obtain ⟨hok, ⟨t', hentry, hrenewed⟩, hclean⟩ := restart_renews hb h.invariant.tables hrow he
      hserves (h.room id List.mem_cons_self row hrow) h.helper
    have hsound := task_sound h.invariant hl body
    obtain ⟨hinvariant, hextends⟩ := move_invariant h.invariant (.task hl body)
    have hcache : ∀ j, j ≠ id → (cached g.server id g.entry).taskCache j = s.taskCache j := by
      intro j hj
      rw [cached_of_ne hj, hsound.taskCache]
      exact cached_of_ne hj
    have hloaded : ∀ j, j ≠ id → ∀ e, Loaded env s j e →
        Loaded env (cached g.server id g.entry) j e := fun j hj e he =>
      loaded_same he h.invariant hextends (hsound.others j hj) (hcache j hj)
    have hne : ∀ j ∈ l, j ≠ id := by
      rintro j hj rfl
      exact hn hj
    refine ⟨hok, ⟨t, t', hl, ?_, hrenewed⟩, ⟨hinvariant, ?_, ?_, ?_, ?_⟩,
      fun j hj => ⟨hcache j hj, hloaded j hj⟩⟩
    · rw [cached_self, hentry]
    · exact ⟨h.helper.killed, h.helper.digest, hclean⟩
    · intro j hj
      rw [← h.candidate j (List.mem_cons_of_mem _ hj)]
      exact isRestartCandidate_congr (hsound.others j (hne j hj))
    · intro j hj
      obtain ⟨t₁, ht₁⟩ := h.running j (List.mem_cons_of_mem _ hj)
      exact ⟨t₁, hloaded j (hne j hj) _ ht₁⟩
    · intro j hj row hrow
      exact h.room j (List.mem_cons_of_mem _ hj) row
        ((hsound.others j (hne j hj)).task.symm.trans hrow)

end Loop

section Sweeps

end Sweeps

end SweepRecovery
