import MeesignServer.TableSync

/-!
# The cache follows the tables in every run
-/
namespace SyncRuns

open FallibleProgram FiniteMap DataModel ProtocolModel VotingModel RunningTaskModel
open DatabaseModel HydrationModel ServerModel TaskOutcomes ServerOutcomes
open ActiveShares VoteTally TableFrames ServerInvariant TableWrites HydrationOutcomes
open InvariantSteps TaskAdmission ServerMoves TableSync

structure SyncInvariant (strict : Prop) (s : Server) : Prop where
  rows : ∀ id row, s.db.task.lookup id = some row → SyncedRows strict s.db id row
  cache : ∀ id e, s.taskCache id = some e → Synced strict s.db id e

variable {strict : Prop} {s s' : Server} {db db' : Database} {id : Uuid} {row : TaskRow}
  {e : TaskEntry}

theorem hydrated_sync (h : Tables db) (hrow : db.task.lookup id = some row)
    (hs : SyncedRows strict db id row) (hh : hydrateTask db id = .ok e) :
    TaskSync strict db id row e := by
  have ho := hydrate_outcome h hrow
  rw [hh] at ho
  cases ho with
  | finished stored info bytes _ =>
    exact ⟨hs, .finished (bytes ▸ stored), fun _ => by rw [TaskEntry.taskInfo, info]; rfl⟩
  | declined stored votes =>
    exact ⟨hs, .declined stored votes (tally_stored h hrow).symm, fun _ => rfl⟩
  | failed stored votes => exact ⟨hs, .failed stored votes, fun _ => rfl⟩
  | voting stored votes _ =>
    exact ⟨hs, .voting stored (fun hst => absurd (hs.started hst) (not_le.mpr votes)) rfl,
      fun _ => rfl⟩
  | running stored votes _ _ round info _ _ =>
    exact ⟨hs, .running stored votes (fun hx => hs.approved hx stored votes) fun _ => round,
      fun _ => by rw [TaskEntry.taskInfo, info]; rfl⟩

theorem loaded_sync {env : Env} (h : Invariant s) (hs : SyncInvariant strict s)
    (hl : Loaded env s id e) : Synced strict s.db id e := by
  cases hl with
  | hit hc => exact hs.cache id e hc
  | hydrated _ _ hh =>
    obtain ⟨row, hrow⟩ := hydrate_row hh
    exact ⟨row, hrow, hydrated_sync h.tables hrow (hs.rows id row hrow) hh⟩

theorem getTaskDecisions_created {ps : List (Bytes × ℕ)} {d : Bytes}
    (h : db.insertTask id row ps = .ok db') : voteIn (db'.getTaskDecisions id) d = 0 := by
  obtain ⟨-, -, -, rfl⟩ := insertTask_ok h
  have hzero : ∀ (l : List (Bytes × ℕ)) (m : Map Bytes ℤ), voteIn m d = 0 →
      voteIn (extend m ((l.map Database.newTaskParticipant).map fun r => (r.deviceId, r.vote)))
        d = 0 := by
    intro l
    induction l with
    | nil => exact fun _ hm => hm
    | cons p l ih =>
      intro m hm
      rw [List.map_cons, List.map_cons, extend_cons]
      refine ih _ ?_
      rw [voteIn_insert]
      by_cases hd : d = p.1
      · subst hd
        exact Function.update_self ..
      · exact (Function.update_of_ne hd _ _).trans hm
  simp only [Database.getTaskDecisions, Function.update_self]
  exact hzero ps ∅ rfl

theorem admitted_sync [External] {env : Env} {v : VotingTask} (h : Invariant s)
    (ha : Admitted env s v) (hw : createRows v s.db = .ok db') :
    Synced strict db' v.taskInfo.id (.voting v) := by
  have hsound := admitted_sound h ha hw
  obtain ⟨-, -, hins⟩ := createRows_ok hw
  obtain ⟨hcert, hround, hattempt⟩ := createdRow_type (v := v)
  have hrow : db'.task.lookup v.taskInfo.id = some (createdRow v) := by
    obtain ⟨-, -, -, rfl⟩ := insertTask_ok hins
    exact AList.lookup_insert _
  have hres : db'.taskResult v.taskInfo.id = none := by
    obtain ⟨hid, -, -, rfl⟩ := insertTask_ok hins
    exact (h.tables.constraints.orphan _ hid).2.1
  have hwaits : ¬ Started (createdRow v) := by
    rintro (hs | hs)
    · rw [hcert] at hs
      split_ifs at hs
      simp at hs
    · omega
  have hvotes : voteIn (db'.getTaskDecisions v.taskInfo.id) = voteIn ∅ := by
    funext d
    exact getTaskDecisions_created hins
  have hdecisions : v.decisions = ∅ ∧ v.taskInfo.attempts = 0 := by cases ha <;> exact ⟨rfl, rfl⟩
  refine ⟨_, hrow, ⟨fun hs => absurd hs hwaits, fun _ _ happ => ?_⟩,
    .voting hres hwaits (by rw [hdecisions.1, hvotes]), fun _ => ?_⟩
  · -- nobody has voted yet, and the threshold is positive
    have hpos := acceptThreshold_pos (hsound.tables.fixed _ _ hrow)
    have hzero := (accepts_congr (db'.getTaskParticipants v.taskInfo.id) hvotes).1
    rw [Approved, hzero] at happ
    simp [accepts, voteIn] at happ
    omega
  · rw [hattempt]
    exact hdecisions.2

theorem sameVotes_setTaskAcknowledgement (db : Database) (id : Uuid) (d : Bytes) :
    SameVotes db (db.setTaskAcknowledgement id d) id := by
  constructor
  · refine getTaskParticipants_of_map (fun r => if r.deviceId = d then
      { r with acknowledgment := some true } else r) (fun r => ?_) ?_ rfl
    · split_ifs <;> exact ⟨rfl, rfl⟩
    · simp [Database.setTaskAcknowledgement]
  · simp only [Database.getTaskDecisions, Database.setTaskAcknowledgement, Function.update_self,
      List.map_map]
    congr 2
    funext r
    simp only [Function.comp_apply]
    split_ifs <;> rfl

theorem acknowledge_sync {env : Env} {g g' : Guarded} {d : Bytes} {r : Except Stop Unit}
    (hrow : g.server.db.task.lookup id = some row)
    (hs : TaskSync strict g.server.db id row g.entry) (ho : AcknowledgeOutcome env id d g r g') :
    Synced strict g'.server.db id g'.entry := by
  cases ho with
  | notFinished => exact ⟨row, hrow, hs⟩
  | @acknowledged f f' r db e hf hack stored =>
    rw [hf] at hs
    subst hack
    have hs' : TaskSync strict g.server.db id row
        (.finished { f with acknowledgements := insert d f.acknowledgements }) := by
      refine ⟨hs.rows, ?_, hs.attempts⟩
      cases hs.phase with
      | finished stored => exact .finished stored
    cases stored with
    | fails => exact ⟨row, hrow, hs'⟩
    | served w =>
      obtain ⟨-, hw⟩ := w
      cases hw
      exact ⟨row, hrow, hs'.congr (sameVotes_setTaskAcknowledgement _ _ _) rfl⟩

section Runs

variable [External] {env : Env} {op : Op} {r : Except Stop Unit}

theorem body_sync {g g' : Guarded} (h : Tables g.server.db)
    (hrow : g.server.db.task.lookup id = some row) (he : EntryOf g.server.db id row g.entry)
    (hs : TaskSync strict g.server.db id row g.entry) (ho : BodyOutcome env op id g r g')
    (hserved : Served env r) (hacc : strict → Accepted r) :
    Synced strict g'.server.db id g'.entry := by
  cases ho with
  | decide ho => exact decide_sync h hrow he hs ho hserved hacc
  | update ho => exact update_sync h hrow hs ho hserved hacc
  | restart _ ho => exact restart_sync h hrow hs ho hserved hacc
  | acknowledge ho => exact acknowledge_sync hrow hs ho
  | read => exact ⟨row, hrow, hs⟩

omit [External] in
theorem sync_cached (h : SyncInvariant strict s) (hx : Extends s.db s'.db)
    (ho : ∀ j, j ≠ id → SameTask s.db s'.db j) (hs : Synced strict s'.db id e)
    (hc : ∀ j, j ≠ id → s'.taskCache j = s.taskCache j) :
    SyncInvariant strict (cached s' id e) := by
  refine ⟨fun j row hrow => ?_, fun j e' he' => ?_⟩
  · by_cases hj : j = id
    · subst hj
      obtain ⟨row', hrow', hts⟩ := hs
      change s'.db.task.lookup j = some row at hrow
      rw [hrow] at hrow'
      cases hrow'
      exact hts.rows
    · have hsame := ho j hj
      have hrow' : s.db.task.lookup j = some row := hsame.task ▸ hrow
      exact (h.rows j row hrow').congr (sameVotes_of_sameTask hx (mem_of_row hrow') hsame)
        hsame.result
  · by_cases hj : j = id
    · subst hj
      simp only [cached, Function.update_self, Option.some.injEq] at he'
      exact he' ▸ hs
    · simp only [cached, Function.update_of_ne hj, hc j hj] at he'
      obtain ⟨row, hrow, hts⟩ := h.cache j e' he'
      have hsame := ho j hj
      exact ⟨row, hsame.task.trans hrow,
        hts.congr (sameVotes_of_sameTask hx (mem_of_row hrow) hsame) hsame.result⟩

omit [External] in
theorem sync_restore (h : ∀ id row, db.task.lookup id = some row → SyncedRows strict db id row) :
    SyncInvariant strict (Server.restore db) :=
  ⟨h, fun _ _ he => by simp [Server.restore] at he⟩

theorem move_sync (h : Invariant s) (hs : SyncInvariant strict s) (m : Move env op s r s')
    (hserved : Served env r) (hacc : strict → Accepted r) : SyncInvariant strict s' := by
  have hx := (move_invariant h m).2
  cases m with
  | refused => exact hs
  | aside ha =>
    refine ⟨?_, ?_⟩
    · rw [ha.db]
      exact hs.rows
    · rw [ha.db, ha.taskCache]
      exact hs.cache
  | @addDevice device db w =>
    have hsame := sameTask_addDevice w.write
    refine ⟨fun j row hrow => ?_, fun j e he => ?_⟩
    · have hrow' : s.db.task.lookup j = some row := (hsame j).task ▸ hrow
      exact (hs.rows j row hrow').congr (sameVotes_of_sameTask hx (mem_of_row hrow') (hsame j))
        (hsame j).result
    · obtain ⟨row, hrow, hts⟩ := hs.cache j e he
      exact ⟨row, (hsame j).task.trans hrow,
        hts.congr (sameVotes_of_sameTask hx (mem_of_row hrow) (hsame j)) (hsame j).result⟩
  | addTask admitted w =>
    exact sync_cached hs hx (admitted_sound h admitted w.write).others
      (admitted_sync h admitted w.write) fun _ _ => rfl
  | restart => exact sync_restore hs.rows
  | @task id e _ g loaded body =>
    have hsound := task_sound h loaded body
    obtain ⟨row, hrow, hts⟩ := loaded_sync h hs loaded
    obtain ⟨row', hrow', he⟩ := loaded_entry h loaded
    rw [hrow] at hrow'
    cases hrow'
    refine sync_cached hs hx hsound.others
      (body_sync (g := ⟨e, cached s id e⟩) h.tables hrow he hts body hserved hacc) fun j hj => ?_
    rw [hsound.taskCache]
    exact Function.update_of_ne hj _ _

theorem runs_sync (hr : Runs env op s r s') (h : Invariant s) (hs : SyncInvariant strict s)
    (hserved : Served env r) (hacc : strict → Accepted r) : SyncInvariant strict s' := by
  induction hr with
  | last m => exact move_sync h hs m hserved hacc
  | cons m _ ih =>
    have hok : Accepted (.ok ()) := .inl rfl
    exact ih (move_invariant h m).1 (move_sync h hs m (.inr hok) fun _ => hok) hserved hacc

theorem next_sync (h : Invariant s) (hs : SyncInvariant strict s)
    (hserved : Served env (result env op s)) (hacc : strict → Accepted (result env op s)) :
    SyncInvariant strict (next env op s) := by
  obtain ⟨t, hr, hn⟩ := next_runs env op s h
  have ht := runs_sync hr h hs hserved hacc
  rw [hn]
  split_ifs
  · exact sync_restore ht.rows
  · exact ht

omit [External] in
theorem sync_initial : SyncInvariant strict initial :=
  sync_restore fun _ _ h => by simp [Database.empty] at h

theorem servedReachable_sync (h : ServedReachable s) : SyncInvariant False s := by
  induction h with
  | initial => exact sync_initial
  | step env op hs hserves ih =>
    exact next_sync (reachable_invariant hs.reachable) ih (.inl hserves) False.elim

end Runs

end SyncRuns
