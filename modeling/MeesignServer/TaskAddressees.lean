import MeesignServer.SweepSchedule
import MeesignServer.FoundTasks

/-!
# Addressees of a task

Updates of a task go to its participants and its observers. Operations on a task change
neither, and in every reachable server nobody is both, so that no participant is sent the
view of an observer.
-/
namespace TaskAddressees

open FallibleProgram FiniteMap DataModel CommunicatorModel ProtocolModel VotingModel
open RunningTaskModel DatabaseModel HydrationModel ServerModel TaskOutcomes ServerOutcomes
open TableFrames ServerInvariant HydrationOutcomes TaskStart TaskAdmission ServerMoves
open SweepSchedule FoundTasks

variable {info info' : TaskInfo} {e e' : TaskEntry} {env : Env} {id : Uuid} {s s' : Server}
  {r : Except Stop Unit}

/-- A creator of a task becomes an observer only if it is not a participant. -/
def Apart (info : TaskInfo) : Prop :=
  ∀ p ∈ info.participants, p.device.id ∉ info.observers

/-- The order of the participants may change when the task starts. -/
structure SameAddressees (info info' : TaskInfo) : Prop where
  participants : info'.participants.Perm info.participants
  observers : info'.observers = info.observers

theorem SameAddressees.refl (info : TaskInfo) : SameAddressees info info := ⟨.refl _, rfl⟩

theorem SameAddressees.of_eq (h : info' = info) : SameAddressees info info' := h ▸ .refl info

theorem SameAddressees.apart (h : SameAddressees info info') (ha : Apart info) : Apart info' := by
  intro p hp
  rw [h.observers]
  exact ha p (h.participants.mem_iff.mp hp)

theorem apart_no_observers (h : info.observers = []) : Apart info := by
  intro p _
  rw [h]
  exact List.not_mem_nil

theorem apart_decryptObservers {creator : Option Bytes}
    (h : info.observers = decryptObservers info.participants creator) : Apart info := by
  intro p hp hmem
  rw [h] at hmem
  unfold decryptObservers at hmem
  split at hmem
  · rename_i did
    split_ifs at hmem with hany
    · exact absurd hmem List.not_mem_nil
    · rw [List.mem_singleton] at hmem
      exact hany (List.any_eq_true.mpr ⟨p, hp, decide_eq_true hmem⟩)
  · exact absurd hmem List.not_mem_nil

theorem hydrated_apart {db : Database} (h : Tables db) (hh : hydrateTask db id = .ok e) :
    Apart e.taskInfo := by
  apply apart_no_observers
  obtain ⟨row, hrow⟩ := hydrate_row hh
  have ho := hydrate_outcome h hrow
  rw [hh] at ho
  cases ho with
  | voting | declined | failed => rfl
  | finished _ hinfo => exact congrArg TaskInfo.observers hinfo
  | running _ _ _ _ _ hinfo => exact congrArg TaskInfo.observers hinfo

variable [External]

omit [External] in
theorem construct_addressees {v : VotingTask} {chosen : List Device} {t : RunningTask}
    (h : construct v chosen = .ok t) : SameAddressees v.taskInfo t.taskInfo := by
  obtain ⟨m, -, hcon⟩ := construct_ok h
  obtain ⟨ps, hperm, hinfo⟩ := hcon.info
  rw [hinfo]
  exact ⟨hperm, rfl⟩

def answered (t : RunningTask) : Except Stop RoundUpdate → List TaskInfo
  | .ok (.failed f) => [t.taskInfo, f.taskInfo]
  | .ok (.finished _ f) => [t.taskInfo, f.taskInfo]
  | _ => [t.taskInfo]

theorem start_answered {t t' : RunningTask} {u : Except Stop RoundUpdate}
    (h : StartOutcome t u t') :
    ∀ info ∈ answered t' u, info = t.taskInfo := by
  cases h with
  | started _ kept => simp [answered, kept.taskInfo]
  | failed => simp [answered]
  | broke => simp [answered]

theorem initialize_answered {t t' : RunningTask} {u : Except Stop RoundUpdate}
    (h : InitializeOutcome t u t') : ∀ info ∈ answered t' u, info = t.taskInfo := by
  cases h with
  | certificates _ _ _ _ hinfo => simp [answered, hinfo]
  | start _ start => exact start_answered start

theorem update_answered {d : Bytes} {messages : List ClientMessage} {t t' : RunningTask}
    {u : Except Stop RoundUpdate} (h : UpdateOutcome d messages t u t') :
    ∀ info ∈ answered t' u, info = t.taskInfo := by
  cases h with
  | notWaiting | broke => simp [answered]
  | received _ _ _ kept _ round =>
    cases round with
    | listen => simp [answered, kept.taskInfo]
    | start _ _ start =>
      rw [← kept.taskInfo]
      exact start_answered start
    | advance _ _ _ kept' => simp [answered, kept'.taskInfo, kept.taskInfo]
    | final _ _ final =>
      cases final with
      | finished kept' => simp [answered, FinishedTask.new, kept'.taskInfo, kept.taskInfo]
      | failed _ kept' => simp [answered, kept'.taskInfo, kept.taskInfo]
      | broke _ kept' => simp [answered, kept'.taskInfo, kept.taskInfo]

theorem restart_answered {t t' : RunningTask} {u : Except Stop RoundUpdate}
    (h : RestartOutcome t u t') : ∀ info ∈ answered t' u, SameAddressees t.taskInfo info := by
  cases h with
  | broke =>
    intro info hinfo
    exact .of_eq (List.mem_singleton.mp hinfo)
  | again _ _ hinfo _ start =>
    intro info hmem
    rw [start_answered start info hmem, hinfo]
    exact ⟨.refl _, rfl⟩

omit [External] in
theorem record_info {t : RunningTask} {db db' : Database} {u : Except Stop RoundUpdate}
    (h : RecordOutcome env id t db u r db' e) : e.taskInfo ∈ answered t u := by
  cases h with
  | stopped | listen => simp [answered, TaskEntry.taskInfo]
  | nextRound stored => cases stored <;> simp [answered, TaskEntry.taskInfo]
  | failed stored => cases stored <;> simp [answered, TaskEntry.taskInfo]
  | finished finish =>
    cases finish with
    | roundNotStored | groupNotStored => simp [answered, TaskEntry.taskInfo]
    | group _ _ _ stored => cases stored <;> simp [answered, TaskEntry.taskInfo]
    | threshold _ _ stored => cases stored <;> simp [answered, TaskEntry.taskInfo]

theorem build_addressees {v : VotingTask} {chosen : List Device} {db db' : Database}
    (h : BuildOutcome env id v chosen db (.voting v) r db' e) :
    SameAddressees v.taskInfo e.taskInfo := by
  have hstored : ∀ {t t' : RunningTask} {u : Except Stop RoundUpdate} {info : TaskInfo},
      construct v chosen = .ok t → InitializeOutcome t u t' → info ∈ answered t' u →
      SameAddressees v.taskInfo info := by
    intro t t' u info hcon init hinfo
    rw [initialize_answered init info hinfo]
    exact construct_addressees hcon
  cases h with
  | notConstructed | notInitialized => exact .refl _
  | certificates hcon init stored | nextRound hcon init stored =>
    cases stored with
    | fails => exact .refl _
    | served => exact hstored hcon init (List.mem_singleton.mpr rfl)
  | failed hcon init stored =>
    cases stored with
    | fails => exact .refl _
    | served => exact hstored hcon init (List.mem_cons_of_mem _ (List.mem_singleton.mpr rfl))

/-- No operation on a task changes who is told about it. -/
theorem body_addressees {op : Op} {g g' : Guarded} (h : BodyOutcome env op id g r g') :
    SameAddressees g.entry.taskInfo g'.entry.taskInfo := by
  cases h with
  | decide h =>
    cases h with
    | notVoting | notParticipant => exact .refl _
    | notStored hv | undecided hv =>
      rw [hv]
      exact .refl _
    | declined hv _ _ tally stored =>
      obtain ⟨-, -, rfl⟩ := decisionUpdate_declined tally
      rw [hv]
      cases stored <;> exact .refl _
    | accepted hv _ _ _ start =>
      rw [hv]
      cases start with
      | notStored => exact .refl _
      | built _ build =>
        have hbuilt := build_addressees build
        exact ⟨hbuilt.participants, hbuilt.observers⟩
  | update h =>
    cases h with
    | notRunning | stale => exact .refl _
    | updated ht _ update record =>
      rw [ht]
      exact .of_eq (update_answered update _ (record_info record))
  | restart _ h =>
    cases h with
    | notRunning | notStored => exact .refl _
    | restarted ht _ restart record =>
      rw [ht]
      exact restart_answered restart _ (record_info record)
  | acknowledge h =>
    cases h with
    | notFinished => exact .refl _
    | acknowledged hf hack stored =>
      subst hack
      rw [hf]
      cases stored <;> exact .refl _
  | read => exact .refl _

def AllApart (s : Server) : Prop := ∀ id e, s.taskCache id = some e → Apart e.taskInfo

omit [External] in
theorem allApart_cached (h : ∀ j e, j ≠ id → s.taskCache j = some e → Apart e.taskInfo)
    (he : Apart e.taskInfo) : AllApart (cached s id e) := by
  intro j e' hc
  by_cases hj : j = id
  · subst hj
    rw [cached_self] at hc
    cases hc
    exact he
  · rw [cached_of_ne hj] at hc
    exact h j e' hj hc

omit [External] in
theorem found_apart (hi : Invariant s) (h : AllApart s) (hf : Found s id e) : Apart e.taskInfo := by
  rcases hf with hc | ⟨-, hh⟩
  · exact h id e hc
  · exact hydrated_apart hi.tables hh

theorem task_apart {op : Op} {g : Guarded} (hi : Invariant s) (h : AllApart s)
    (hl : Loaded env s id e) (hb : BodyOutcome env op id ⟨e, cached s id e⟩ r g) :
    AllApart (cached g.server id g.entry) := by
  refine allApart_cached ?_ ((body_addressees hb).apart (found_apart hi h (loaded_found hl)))
  intro j e' hj hc
  rw [(task_sound hi hl hb).taskCache, cached_of_ne hj] at hc
  exact h j e' hc

omit [External] in
theorem addTask_apart {v : VotingTask} (h : AllApart s) (hv : Apart v.taskInfo) :
    post (addTask env v) s (fun _ t => AllApart t) :=
  addTask_post env (fun _ _ => h) (fun _ _ _ _ => allApart_cached (fun j e _ => h j e) hv)
    fun _ _ _ => allApart_cached (fun j e _ => h j e) hv

theorem sweep_apart {l : List Uuid} (hw : Sweep env l s r s') (hi : Invariant s) (h : AllApart s)
    (hn : l.Nodup) (hc : ∀ id ∈ l, s.db.isRestartCandidate id) : AllApart s' := by
  induction hw with
  | done => exact h
  | @stopped id l s t stop ho =>
    cases ho with
    | notLoaded => exact h
    | loaded hl hb => exact task_apart hi h hl (.restart (hc id (by simp)) hb)
  | @next id l s s' t r ho _ ih =>
    rw [List.nodup_cons] at hn
    cases ho with
    | @loaded e _ g hl hb =>
      have body : BodyOutcome env .restartStaleTasks id ⟨e, cached s id e⟩ (.ok ()) g :=
        .restart (hc id (by simp)) hb
      have hs := task_sound hi hl body
      refine ih (move_invariant hi (.task hl body)).1 (task_apart hi h hl body) hn.2 fun j hj => ?_
      have hne : j ≠ id := fun he => hn.1 (he ▸ hj)
      exact (isRestartCandidate_congr (hs.others j hne)).trans (hc j (by simp [hj]))

theorem exec_apart (op : Op) (hi : Invariant s) (h : AllApart s) :
    post (exec env op) s (fun _ t => AllApart t) := by
  have htarget : ∀ {id}, target op = some id → post (exec env op) s (fun _ t => AllApart t) := by
    intro id hop
    refine post_mono (target_outcome hop) ?_
    rintro r t (⟨-, -, -, rfl⟩ | ⟨e, g, hl, hb, rfl⟩)
    · exact h
    · exact task_apart hi h hl hb
  cases op with
  | addDevice device =>
    simp only [exec, addDevice, post_bind]
    exact repoWrite_post (fun _ _ => h) fun _ _ => h
  | activateDevice d => exact h
  | addGroupTask name deviceIds threshold protocolType keyType note =>
    exact discard_post.mpr (addGroupTask_post env (fun _ => h)
      (addTask_apart h (apart_no_observers rfl)))
  | addSignTask groupId name data =>
    exact discard_post.mpr (addSignTask_post env (fun _ => h) fun _ _ _ _ =>
      addTask_apart h (apart_no_observers rfl))
  | addDecryptTask groupId name data dataType creator =>
    exact discard_post.mpr (addDecryptTask_post env (fun _ => h) fun _ _ _ _ _ =>
      addTask_apart h (apart_decryptObservers rfl))
  | decideTask | updateTask | acknowledgeTask | getFormattedTask => exact htarget rfl
  | restartStaleTasks =>
    refine post_mono (restartStaleTasks_sweep env s) ?_
    rintro r t (⟨-, rfl⟩ | ⟨s', stale, ha, hsub, hw⟩)
    · exact h
    · refine sweep_apart hw (invariant_aside hi ha) ?_ (hsub.nodup (candidates_nodup _)) ?_
      · unfold AllApart
        rwa [ha.taskCache]
      · intro id hid
        rw [ha.db]
        exact candidate_of_mem (hsub.subset hid)
  | restartServer =>
    intro id e hc
    cases hc

theorem reachable_apart (h : Reachable s) : AllApart s := by
  induction h with
  | initial =>
    intro id e hc
    cases hc
  | step env op hs ih =>
    rw [next_eq]
    split_ifs
    · intro id e hc
      cases hc
    · exact exec_apart op (reachable_invariant hs) ih

end TaskAddressees
