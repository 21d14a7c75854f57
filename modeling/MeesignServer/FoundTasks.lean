import MeesignServer.ProcessStops

/-!
# Tasks in the cache and in the tables

A task is found in the cache or, if it is not there, rebuilt from the tables. What is
rebuilt depends on the rows of the task only, so operations on other tasks do not change it.
A property of found tasks is kept by a run if it is kept under the lock and by a restart of
the process.
-/
namespace FoundTasks

open FallibleProgram FiniteMap DataModel CommunicatorModel ProtocolModel VotingModel
open RunningTaskModel DatabaseModel HydrationModel ServerModel TaskOutcomes ServerOutcomes
open ActiveShares TableFrames ServerInvariant HydrationOutcomes InvariantSteps TaskAdmission
open ServerMoves ProcessStops

section Hydration

variable {db db' : Database} {id : Uuid} {row : TaskRow}

theorem sameTask_decisions (hs : SameTask db db' id) :
    db'.getTaskDecisions id = db.getTaskDecisions id := by
  simp only [Database.getTaskDecisions, hs.participant]

theorem sameTask_acknowledgements (hs : SameTask db db' id) :
    db'.getTaskAcknowledgements id = db.getTaskAcknowledgements id := by
  simp only [Database.getTaskAcknowledgements, hs.participant]

theorem groupTaskWithResult_congr {info : TaskInfo} {x : Except String Bytes}
    (hs : SameTask db db' info.id) (hx : Extends db db')
    (hfound : ∀ groupId, x = .ok groupId → ∃ group, db.getGroup groupId = some group) :
    groupTaskWithResult db' info x = groupTaskWithResult db info x := by
  cases x with
  | error reason =>
    unfold groupTaskWithResult
    rw [sameTask_decisions hs]
  | ok groupId =>
    obtain ⟨group, hg⟩ := hfound groupId rfl
    simp only [groupTaskWithResult, hg, (hx.group _ _ hg).1, sameTask_acknowledgements hs]

theorem thresholdTaskWithResult_congr {info : TaskInfo} (hs : SameTask db db' info.id)
    (x : Except String Bytes) :
    thresholdTaskWithResult db' info row x = thresholdTaskWithResult db info row x := by
  unfold thresholdTaskWithResult
  rw [sameTask_acknowledgements hs, sameTask_decisions hs]

theorem hydrateCommunicator_congr (hs : SameTask db db' id) (ps : List Participant) :
    hydrateCommunicator db' id row ps = hydrateCommunicator db id row ps := by
  simp only [hydrateCommunicator, Database.getTaskActiveShares, hs.active]

theorem hydrateTask_congr (h : Tables db) (hx : Extends db db') (hs : SameTask db db' id)
    (hrow : db.task.lookup id = some row) : hydrateTask db' id = hydrateTask db id := by
  simp only [hydrateTask, hs.task, hrow, hx.participants id (mem_of_row hrow)]
  generalize hinfo : hydratedTaskInfo id row (db.getTaskParticipants id) = info
  have hid : info.id = id := by
    rw [← hinfo]
    rfl
  subst hid
  split_ifs with hempty htype
  · rfl
  · unfold groupTaskFromModel
    rw [hs.result, sameTask_decisions hs, hydrateCommunicator_congr hs]
    cases hres : db.taskResult info.id with
    | none => rfl
    | some r =>
      obtain ⟨x, rfl, hgroup⟩ := (h.rows _ row hrow).result r hres
      simp only [tryIntoResult, tryIntoResult_ofResult, Except.mapError, bind, Except.bind]
      apply groupTaskWithResult_congr hs hx
      intro groupId hx'
      obtain ⟨group, hg, -⟩ := hgroup htype groupId hx'
      exact ⟨group, hg⟩
  · obtain ⟨groupId, group, data, hon⟩ := (h.fixed _ row hrow).onGroup htype
    have hgroup : row.groupId = some groupId := hon.row_group
    unfold thresholdTaskFromModel
    rw [hs.result, hgroup]
    simp only [hon.found, (hx.group _ _ hon.found).1, thresholdTaskWithResult_congr hs,
      unfinishedThresholdTask, sameTask_decisions hs, hydrateCommunicator_congr hs]

end Hydration

/-- The task as the next operation on it finds it. -/
def Found (s : Server) (id : Uuid) (e : TaskEntry) : Prop :=
  s.taskCache id = some e ∨ s.taskCache id = none ∧ hydrateTask s.db id = .ok e

def AllFound (P : Uuid → TaskEntry → Prop) (s : Server) : Prop := ∀ id e, Found s id e → P id e

variable {P : Uuid → TaskEntry → Prop} {env : Env} {op : Op} {s s' : Server} {id : Uuid}
  {e : TaskEntry} {r : Except Stop Unit}

theorem loaded_found (h : Loaded env s id e) : Found s id e := by
  cases h with
  | hit h => exact .inl h
  | hydrated miss _ h => exact .inr ⟨miss, h⟩

theorem found_entry (hi : Invariant s) (h : Found s id e) :
    ∃ row, s.db.task.lookup id = some row ∧ EntryOf s.db id row e := by
  rcases h with h | ⟨-, h⟩
  · exact hi.cache id e h
  · obtain ⟨row, hrow⟩ := hydrate_row h
    exact ⟨row, hrow, hydrate_entry hi.tables hrow h⟩

theorem entry_info {db : Database} {row : TaskRow} (h : EntryOf db id row e) :
    InfoOf id (fixed row) (db.getTaskParticipants id) e.taskInfo := by
  cases h with
  | voting h => exact h.info
  | running h => exact h.info
  | declined h => exact h
  | finished h => exact h
  | failed h => exact h

theorem found_of_same (hi : Invariant s) (hx : Extends s.db s'.db)
    (hold : id ∈ s'.db.task → id ∈ s.db.task) (hs : SameTask s.db s'.db id)
    (hc : s'.taskCache id = s.taskCache id) (h : Found s' id e) : Found s id e := by
  rcases h with h | ⟨hnone, h⟩
  · left
    rwa [hc] at h
  · right
    rw [hc] at hnone
    obtain ⟨row', hrow'⟩ := hydrate_row h
    obtain ⟨row, hrow⟩ := exists_row (hold (mem_of_row hrow'))
    rw [hydrateTask_congr hi.tables hx hs hrow] at h
    exact ⟨hnone, h⟩

theorem AllFound.insert (hi : Invariant s) (h : AllFound P s) (hx : Extends s.db s'.db)
    (hs : ∀ j, j ≠ id → SameTask s.db s'.db j)
    (hc : ∀ j, j ≠ id → s'.taskCache j = s.taskCache j) (he : P id e) :
    AllFound P (cached s' id e) := by
  intro j e' hfound
  by_cases hj : j = id
  · subst hj
    rcases hfound with hfound | ⟨hnone, -⟩
    · rw [cached_self] at hfound
      cases hfound
      exact he
    · rw [cached_self] at hnone
      cases hnone
  · have hsame : SameTask s.db (cached s' id e).db j := hs j hj
    have hx' : Extends s.db (cached s' id e).db := hx
    apply h
    refine found_of_same hi hx' ?_ hsame ?_ hfound
    · intro hmem
      rw [← AList.lookup_isSome] at hmem ⊢
      exact hsame.task ▸ hmem
    · rw [cached_of_ne hj]
      exact hc j hj

section Moves

theorem getFormattedTask_loaded (h : Loaded env s id e) (d : Option Bytes) :
    outcome (getFormattedTask env id d) s =
      (.ok (e.format d (some e.taskInfo.request)), cached s id e) := by
  have hs : cached (cached s id e) id e = cached s id e := by
    unfold cached
    rw [Function.update_idem]
  rw [outcome, getFormattedTask, withTaskMut_loaded h]
  simp only [zoom, bind, EStateM.bind, get, getThe, MonadStateOf.get, EStateM.get, pure,
    EStateM.pure, hs]

theorem getFormattedTask_notLoaded {stop : Stop} (h : NotLoaded env s id stop) (d : Option Bytes) :
    outcome (getFormattedTask env id d) s = (.error stop, s) := by
  rw [outcome, getFormattedTask, withTaskMut_notLoaded h]

variable [External]

def KeptByBody (env : Env) (op : Op) (P : Uuid → TaskEntry → Prop) : Prop :=
  ∀ s id e r g, Invariant s → Loaded env s id e → BodyOutcome env op id ⟨e, cached s id e⟩ r g →
    P id e → P id g.entry

theorem move_found (hi : Invariant s) (h : AllFound P s) (m : Move env op s r s')
    (hop : op ≠ .restartServer)
    (hnew : ∀ v : VotingTask, v.taskInfo.id ∉ s.db.task → P v.taskInfo.id (.voting v))
    (hbody : KeptByBody env op P) : AllFound P s' := by
  have hx := (move_invariant hi m).2
  cases m with
  | refused => exact h
  | aside ha =>
    intro id e hfound
    apply h
    unfold Found at hfound
    rwa [ha.taskCache, ha.db] at hfound
  | addDevice w =>
    intro id e hfound
    have hsame := sameTask_addDevice w.write id
    apply h
    refine found_of_same hi hx ?_ hsame rfl hfound
    intro hmem
    rw [← AList.lookup_isSome] at hmem ⊢
    exact hsame.task ▸ hmem
  | @addTask v db admitted w =>
    have hsound := admitted_sound hi admitted w.write
    refine h.insert hi hx hsound.others (fun _ _ => rfl) (hnew v ?_)
    exact (insertTask_ok (createRows_ok w.write).2.2).1
  | restart hr => exact absurd hr hop
  | @task id e _ g loaded body =>
    have hsound := task_sound hi loaded body
    refine h.insert hi hx hsound.others ?_ ?_
    · intro j hj
      rw [hsound.taskCache]
      exact Function.update_of_ne hj _ _
    · exact hbody s id e _ g hi loaded body (h id e (loaded_found loaded))

theorem exec_found (hi : Invariant s) (h : AllFound P s) (hop : op ≠ .restartServer)
    (hnew : ∀ v : VotingTask, v.taskInfo.id ∉ s.db.task → P v.taskInfo.id (.voting v))
    (hbody : KeptByBody env op P) : AllFound P (outcome (exec env op) s).2 := by
  have hkeep : Invariant (outcome (exec env op) s).2 ∧ AllFound P (outcome (exec env op) s).2 ∧
      Extends s.db (outcome (exec env op) s).2.db := by
    refine (exec_runs env op s hi).keeps
      (P := fun t => Invariant t ∧ AllFound P t ∧ Extends s.db t.db) ?_ ⟨hi, h, .refl _⟩
    rintro a _ b ⟨ha, hfa, hxa⟩ m
    obtain ⟨hb, hxb⟩ := move_invariant ha m
    refine ⟨hb, move_found ha hfa m hop (fun v hv => hnew v fun hmem => hv (hxa.mem hmem))
      hbody, ?_⟩
    exact hxa.trans hxb
  exact hkeep.2.1

theorem next_found (hi : Invariant s) (h : AllFound P s) (hop : op ≠ .restartServer)
    (hup : ∀ call id, env.fault call id ≠ .stops)
    (hnew : ∀ v : VotingTask, v.taskInfo.id ∉ s.db.task → P v.taskInfo.id (.voting v))
    (hbody : KeptByBody env op P) : AllFound P (next env op s) := by
  rw [next_eq, if_neg (result_ne_crash hup op s)]
  exact exec_found hi h hop hnew hbody

end Moves

end FoundTasks
