import MeesignServer.GroupWellFormed

/-!
# Groups and the results of group tasks

A finished group task stores its group and then its result. Nothing ties the two
writes together: when the second one is lost, the task still runs, the sweep restarts
it, and its next attempt establishes another group.
-/
namespace GroupResults

open FallibleProgram FiniteMap DataModel CommunicatorModel ProtocolModel VotingModel
open RunningTaskModel DatabaseModel HydrationModel ServerModel TaskOutcomes ServerOutcomes
open TableFrames ServerInvariant HydrationOutcomes InvariantSteps TaskAdmission ServerMoves
open PhaseOrder GroupWellFormed

def GroupTaskRow (db : Database) (id : Uuid) : Prop :=
  ∃ row, db.task.lookup id = some row ∧ row.taskType = .group

def Established (db : Database) (id : Uuid) (groupId : Bytes) : Prop :=
  db.taskResult id = some (NewTaskResult.ofResult (.ok groupId))

theorem GroupTaskRow.mono {db db' : Database} {id : Uuid} (h : GroupTaskRow db id)
    (hx : Extends db db') : GroupTaskRow db' id := by
  obtain ⟨row, hrow, ht⟩ := h
  obtain ⟨row', hrow', hfix⟩ := hx.task id row hrow
  exact ⟨row', hrow', (fixed_congr hfix TaskRow.taskType fun _ => rfl).trans ht⟩

theorem GroupTaskRow.old {db db' : Database} {id : Uuid} (h : GroupTaskRow db' id)
    (hx : Extends db db') (hid : id ∈ db.task) : GroupTaskRow db id := by
  obtain ⟨row', hrow', ht⟩ := h
  obtain ⟨row, hrow⟩ := exists_row hid
  obtain ⟨row'', hrow'', hfix⟩ := hx.task id row hrow
  rw [hrow'] at hrow''
  cases hrow''
  exact ⟨row, hrow, (fixed_congr hfix TaskRow.taskType fun _ => rfl).symm.trans ht⟩

theorem Established.mem {db : Database} {id : Uuid} {groupId : Bytes} (h : Tables db)
    (he : Established db id groupId) : id ∈ db.task := by
  by_contra hid
  rw [Established, (h.constraints.orphan id hid).2.1] at he
  cases he

theorem Established.found {db : Database} {id : Uuid} {groupId : Bytes} (h : Tables db)
    (ht : GroupTaskRow db id) (he : Established db id groupId) : (db.getGroup groupId).isSome := by
  obtain ⟨row, hrow, htype⟩ := ht
  obtain ⟨x, hx, hgroup⟩ := (h.rows id row hrow).result _ he
  obtain ⟨group, hfound, -⟩ := hgroup htype groupId (ofResult_injective hx).symm
  rw [hfound]
  rfl

section Bodies

variable {env : Env} {op : Op} {id : Uuid} {row : TaskRow} {db db' : Database}
  {r : Except Stop Unit} {e : TaskEntry} {g g' : Guarded} {s t : Server} {groupId : Bytes}

theorem not_established_error {before after : TaskEntry} {message : String}
    (stored : Stored env .setTaskResult id (resultWrite id (.error message))
      db before after r db' e)
    (h : Established db' id groupId) : Established db id groupId := by
  cases stored with
  | served w =>
    rw [Established, resultWrite_row w.write] at h
    cases ofResult_injective (Option.some.inj h)
  | fails => exact h

/-- A group task is only given a result together with a new group. -/
theorem record_established {t : RunningTask} {u : Except Stop RoundUpdate}
    (hrow : db.task.lookup id = some row)
    (hgroup : ∀ round f, u = .ok (.finished round f) → ∃ group, f.result = .groupEstablished group)
    (h : RecordOutcome env id t db u r db' e) (hd : Established db' id groupId) :
    Established db id groupId ∨ db.getGroup groupId = none := by
  cases h with
  | stopped => exact .inl hd
  | listen => exact .inl hd
  | nextRound stored =>
    cases stored with
    | served w =>
      rw [Established, (progressOnly_setTaskRound w.write).result] at hd
      exact .inl hd
    | fails => exact .inl hd
  | failed stored => exact .inl (not_established_error stored hd)
  | finished finish =>
    cases finish with
    | roundNotStored => exact .inl hd
    | groupNotStored w =>
      rw [Established, (progressOnly_setTaskRound w.write).result] at hd
      exact .inl hd
    | threshold w result =>
      obtain ⟨group, hg⟩ := hgroup _ _ rfl
      exact absurd hg (result group)
    | group w result w' stored =>
      have hw := writesTask_setTaskRound w.write
      obtain ⟨-, -, hnew, -⟩ := addGroup_ok (hw.mem (mem_of_row hrow)) w'.write
      cases stored with
      | served w'' =>
        rw [Established, resultWrite_row w''.write, result] at hd
        rw [← Except.ok.inj (ofResult_injective (Option.some.inj hd)), ← hw.groups]
        exact .inr hnew
      | fails =>
        rw [Established, (progressOnly_addGroup w'.write).result,
          (progressOnly_setTaskRound w.write).result] at hd
        exact .inl hd

variable [External]

theorem build_established {v : VotingTask} {chosen : List Device} {e' : TaskEntry}
    (h : BuildOutcome env id v chosen db e r db' e') (hd : Established db' id groupId) :
    Established db id groupId := by
  cases h with
  | notConstructed => exact hd
  | notInitialized => exact hd
  | certificates _ _ stored =>
    cases stored with
    | served w =>
      rw [Established, (progressOnly_certificatesSent w.write).result] at hd
      exact hd
    | fails => exact hd
  | nextRound _ _ stored =>
    cases stored with
    | served w =>
      rw [Established, (progressOnly_setTaskRound w.write).result] at hd
      exact hd
    | fails => exact hd
  | failed _ _ stored => exact not_established_error stored hd

theorem decide_established {d : Bytes} {accept : Bool}
    (h : DecideOutcome env id d accept g r g') (hd : Established g'.server.db id groupId) :
    Established g.server.db id groupId := by
  cases h with
  | notVoting => exact hd
  | notParticipant => exact hd
  | notStored => exact hd
  | undecided => exact hd
  | declined _ _ _ _ stored =>
    have hvote : Established (g.server.db.setTaskDecision id d accept) id groupId :=
      not_established_error stored hd
    exact hvote
  | accepted _ _ _ _ start =>
    cases start with
    | notStored _ rest =>
      rw [Established, rest.db] at hd
      exact hd
    | built w build rest =>
      obtain ⟨-, hactive⟩ := setTaskActiveShares_ok w.write
      rw [rest.db] at hd
      have hbuild := build_established build hd
      rw [Established, hactive] at hbuild
      exact hbuild

theorem body_established (hrow : g.server.db.task.lookup id = some row)
    (he : EntryOf g.server.db id row g.entry) (ht : row.taskType = .group)
    (h : BodyOutcome env op id g r g') (hd : Established g'.server.db id groupId) :
    Established g.server.db id groupId ∨ g.server.db.getGroup groupId = none := by
  cases h with
  | decide h => exact .inl (decide_established h hd)
  | update h =>
    cases h with
    | notRunning => exact .inl hd
    | stale => exact .inl hd
    | updated hrun _ update record rest =>
      rw [hrun] at he
      rw [rest.db] at hd
      have ha := update_answer he.runningOf update
      refine record_established hrow ?_ record hd
      rintro round f rfl
      exact ha.2.1 ht
  | restart _ h =>
    cases h with
    | notRunning => exact .inl hd
    | notStored => exact .inl hd
    | restarted hrun w restart record rest =>
      have hw := writesTask_incrementTaskAttemptCount w.write
      obtain ⟨row', hrow', -⟩ := hw.task id row hrow
      rw [rest.db] at hd
      have hold := record_established hrow'
        (fun round f hu => absurd hu (restart_unfinished restart round f)) record hd
      obtain ⟨row₀, -, -, hdb⟩ := incrementTaskAttemptCount_ok w.write
      rw [hdb] at hold
      exact hold
  | acknowledge h =>
    cases h with
    | notFinished => exact .inl hd
    | acknowledged _ _ stored =>
      cases stored with
      | served w =>
        cases w.write
        exact .inl hd
      | fails => exact .inl hd
  | read => exact .inl hd

theorem move_established (h : Invariant s) (m : Move env op s r t) (ht : GroupTaskRow t.db id)
    (hd : Established t.db id groupId) :
    Established s.db id groupId ∨ s.db.getGroup groupId = none := by
  have hx := (move_invariant h m).2
  cases m with
  | refused => exact .inl hd
  | aside ha =>
    rw [ha.db] at hd
    exact .inl hd
  | addDevice w =>
    obtain ⟨-, rfl⟩ := addDevice_ok w.write
    exact .inl hd
  | addTask _ w =>
    obtain ⟨-, -, -, rfl⟩ := insertTask_ok (createRows_ok w.write).2.2
    exact .inl hd
  | restart => exact .inl hd
  | @task j e₀ _ g loaded body =>
    by_cases hj : id = j
    · subst hj
      obtain ⟨row', hrow', he⟩ := loaded_entry h loaded
      obtain ⟨row, hrow, htype⟩ := ht.old hx (mem_of_row hrow')
      rw [hrow] at hrow'
      cases hrow'
      exact body_established (g := ⟨e₀, cached s id e₀⟩) hrow he htype body hd
    · have hsame := ((task_sound h loaded body).others id hj).result
      exact .inl (hsame.symm.trans hd)

theorem next_established (h : Invariant s) (env : Env) (op : Op)
    (ht : GroupTaskRow (next env op s).db id) (hd : Established (next env op s).db id groupId) :
    Established s.db id groupId ∨ s.db.getGroup groupId = none := by
  have hdb : (next env op s).db = (outcome (exec env op) s).2.db := by
    rw [next_eq]
    split_ifs <;> rfl
  rw [hdb] at ht hd
  by_cases hop : op = .restartStaleTasks
  · subst hop
    have hkeep : (Invariant (outcome (exec env .restartStaleTasks) s).2 ∧
        (outcome (exec env .restartStaleTasks) s).2.db.getGroup = s.db.getGroup) ∧
        (GroupTaskRow (outcome (exec env .restartStaleTasks) s).2.db id →
          Established (outcome (exec env .restartStaleTasks) s).2.db id groupId →
          Established s.db id groupId ∨ s.db.getGroup groupId = none) := by
      refine (exec_runs env .restartStaleTasks s h).keeps
        (P := fun t => (Invariant t ∧ t.db.getGroup = s.db.getGroup) ∧ (GroupTaskRow t.db id →
          Established t.db id groupId → Established s.db id groupId ∨
            s.db.getGroup groupId = none)) ?_ ⟨⟨h, rfl⟩, fun _ => .inl⟩
      rintro a _ b ⟨⟨ha, hg⟩, hold⟩ m
      obtain ⟨hb, hx⟩ := move_invariant ha m
      refine ⟨⟨hb, ?_⟩, fun htb hdb => ?_⟩
      · rcases move_groups ha m with hsame | ⟨_, _, _, _, hop, -⟩
        · exact hsame.trans hg
        · cases hop
      · rcases move_established ha m htb hdb with hda | hnone
        · exact hold (htb.old hx (hda.mem ha.tables)) hda
        · exact .inr (hg ▸ hnone)
    exact hkeep.2 ht hd
  · exact move_established h (exec_move env hop s) ht hd

end Bodies

def contributions (op : Op) (s t : Server) : List (Uuid × Bytes) :=
  match op with
  | .updateTask id _ _ _ =>
    ((t.db.group.map GroupRow.id).filter fun g => (s.db.getGroup g).isNone).map fun g => (id, g)
  | _ => []

variable [External]

/-- Runs whose surroundings meet a condition, with the record of all contributions. -/
inductive RunWith (C : Env → Prop) : Server → List (Uuid × Bytes) → Prop where
  | initial : RunWith C initial []
  | step {s : Server} {log : List (Uuid × Bytes)} (env : Env) (op : Op) (h : RunWith C s log)
      (hc : C env) : RunWith C (next env op s) (log ++ contributions op s (next env op s))

omit [External] in
/-- Every group is the result of exactly one group task, and no task has made two groups. -/
def Correspond (s : Server) (log : List (Uuid × Bytes)) : Prop :=
  (∀ groupId, (s.db.getGroup groupId).isSome →
    ∃! id, GroupTaskRow s.db id ∧ Established s.db id groupId) ∧
  ∀ id groupId groupId', (id, groupId) ∈ log → (id, groupId') ∈ log → groupId = groupId'

/-- When the repository stores a group for a task, it stores a result for the task as well. -/
def ResultFollowsGroup (env : Env) : Prop :=
  ∀ id, env.fault .addGroup id = .served → env.fault .setTaskResult id = .served

omit [External] in
structure Matched (s : Server) (log : List (Uuid × Bytes)) : Prop where
  result : ∀ groupId, (s.db.getGroup groupId).isSome →
    ∃ id, GroupTaskRow s.db id ∧ Established s.db id groupId
  unique : ∀ id id' groupId, GroupTaskRow s.db id → GroupTaskRow s.db id' →
    Established s.db id groupId → Established s.db id' groupId → id = id'
  log : ∀ id groupId, (id, groupId) ∈ log → Established s.db id groupId

omit [External] in
theorem Matched.correspond {s : Server} {log : List (Uuid × Bytes)} (h : Matched s log) :
    Correspond s log := by
  refine ⟨fun groupId hg => ?_, fun id groupId groupId' hm hm' => ?_⟩
  · obtain ⟨id, ht, he⟩ := h.result groupId hg
    exact ⟨id, ⟨ht, he⟩, fun id' h' => h.unique id' id groupId h'.1 ht h'.2 he⟩
  · have he := h.log id groupId hm
    rw [Established, h.log id groupId' hm'] at he
    exact (Except.ok.inj (ofResult_injective (Option.some.inj he))).symm

section Steps

variable {env : Env} {op : Op} {s : Server} {log : List (Uuid × Bytes)}

omit [External] in
theorem mem_contributions {t : Server} {id : Uuid} {groupId : Bytes}
    (h : (id, groupId) ∈ contributions op s t) : s.db.getGroup groupId = none ∧
      (t.db.getGroup groupId).isSome ∧
      ∃ d messages attempt, op = .updateTask id d messages attempt := by
  unfold contributions at h
  split at h
  · rename_i id' d messages attempt
    simp only [List.mem_map, List.mem_filter, Prod.mk.injEq] at h
    obtain ⟨g, ⟨⟨row, hrow, hid⟩, hnone⟩, rfl, rfl⟩ := h
    refine ⟨Option.isNone_iff_eq_none.mp hnone, ?_, d, messages, attempt, rfl⟩
    rw [Database.getGroup, Option.isSome_map, List.find?_isSome]
    exact ⟨row, hrow, by simpa using hid⟩
  · cases h

theorem matched_step (h : Reachable s) (hm : Matched s log) (hc : ResultFollowsGroup env) :
    Matched (next env op s) (log ++ contributions op s (next env op s)) := by
  have hinv := reachable_invariant h
  obtain ⟨hinv', hx⟩ := next_invariant env op s hinv
  have hkept : ∀ id groupId, Established s.db id groupId →
      Established (next env op s).db id groupId := fun id groupId =>
    (next_results hinv (reachable_results h) env op).2 id _
  -- a result of a group that was there before is not new
  have hold : ∀ id groupId, GroupTaskRow (next env op s).db id →
      (next env op s).db.getGroup groupId = s.db.getGroup groupId →
      Established (next env op s).db id groupId →
      GroupTaskRow s.db id ∧ Established s.db id groupId := by
    intro id groupId ht hg he
    rcases next_established hinv env op ht he with hs | hnone
    · exact ⟨ht.old hx (hs.mem hinv.tables), hs⟩
    · have hfound := he.found hinv'.tables ht
      rw [hg, hnone] at hfound
      cases hfound
  rcases next_groups hinv env op with hsame | ⟨id₀, d, messages, attempt, hop, groupId₀, hadd⟩
  · refine ⟨fun groupId hg => ?_, fun id id' groupId ht ht' he he' => ?_, fun id groupId hl => ?_⟩
    · obtain ⟨id, ht, he⟩ := hm.result groupId (hsame ▸ hg)
      exact ⟨id, ht.mono hx, hkept id groupId he⟩
    · obtain ⟨ht, he⟩ := hold id groupId ht (congrFun hsame groupId) he
      obtain ⟨ht', he'⟩ := hold id' groupId ht' (congrFun hsame groupId) he'
      exact hm.unique id id' groupId ht ht' he he'
    · rcases List.mem_append.mp hl with hl | hl
      · exact hkept id groupId (hm.log id groupId hl)
      · obtain ⟨hnone, hsome, -⟩ := mem_contributions hl
        rw [hsame, hnone] at hsome
        cases hsome
  · have hres : Established (next env op s).db id₀ groupId₀ := hadd.result (hc id₀ hadd.served)
    have hnew : ∀ groupId, s.db.getGroup groupId = none →
        ((next env op s).db.getGroup groupId).isSome → groupId = groupId₀ := by
      intro groupId hnone hsome
      by_contra hne
      rw [hadd.others groupId hne, hnone] at hsome
      cases hsome
    refine ⟨fun groupId hg => ?_, fun id id' groupId ht ht' he he' => ?_, fun id groupId hl => ?_⟩
    · by_cases hid : groupId = groupId₀
      · subst hid
        exact ⟨id₀, GroupTaskRow.mono hadd.task hx, hres⟩
      · obtain ⟨id, ht, he⟩ := hm.result groupId (hadd.others groupId hid ▸ hg)
        exact ⟨id, ht.mono hx, hkept id groupId he⟩
    · by_cases hid : groupId = groupId₀
      · subst hid
        -- the new group is named by the result of the updated task alone
        have hone : ∀ j, GroupTaskRow (next env op s).db j →
            Established (next env op s).db j groupId → j = id₀ := by
          intro j htj hej
          by_contra hne
          rw [Established, hadd.results j hne] at hej
          have hej : Established s.db j groupId := hej
          have hfound := hej.found hinv.tables (htj.old hx (hej.mem hinv.tables))
          rw [hadd.new] at hfound
          cases hfound
        rw [hone id ht he, hone id' ht' he']
      · obtain ⟨ht, he⟩ := hold id groupId ht (hadd.others groupId hid) he
        obtain ⟨ht', he'⟩ := hold id' groupId ht' (hadd.others groupId hid) he'
        exact hm.unique id id' groupId ht ht' he he'
    · rcases List.mem_append.mp hl with hl | hl
      · exact hkept id groupId (hm.log id groupId hl)
      · obtain ⟨hnone, hsome, d', messages', attempt', hop'⟩ := mem_contributions hl
        rw [hop] at hop'
        cases hop'
        rw [hnew groupId hnone hsome]
        exact hres

theorem RunWith.reachable {C : Env → Prop} (h : RunWith C s log) : Reachable s := by
  induction h with
  | initial => exact .initial
  | step env op _ _ ih => exact .step env op ih

end Steps

def runLog (s : Server) : List (Env × Op) → List (Uuid × Bytes)
  | [] => []
  | p :: ops => contributions p.2 s (next p.1 p.2 s) ++ runLog (next p.1 p.2 s) ops

theorem runWith_runOps {C : Env → Prop} {s : Server} {log : List (Uuid × Bytes)}
    {ops : List (Env × Op)} (h : RunWith C s log) (hc : ∀ p ∈ ops, C p.1) :
    RunWith C (runOps s ops) (log ++ runLog s ops) := by
  induction ops generalizing s log with
  | nil => rwa [runLog, List.append_nil]
  | cons p ops ih =>
    rw [runLog, ← List.append_assoc]
    exact ih (.step p.1 p.2 h (hc p (by simp))) fun q hq => hc q (by simp [hq])

/-- In every run in which a stored group is followed by a stored result, groups and results of
group tasks correspond in every server reached. -/
theorem groups_correspond {s : Server} {log : List (Uuid × Bytes)}
    (h : RunWith ResultFollowsGroup s log) : Correspond s log := by
  refine Matched.correspond ?_
  induction h with
  | initial =>
    refine ⟨fun groupId hg => ?_, fun id id' groupId ht => ?_, fun id groupId hl => ?_⟩
    · simp [initial, Server.restore, Database.empty, Database.getGroup] at hg
    · obtain ⟨row, hrow, -⟩ := ht
      simp [initial, Server.restore, Database.empty] at hrow
    · cases hl
  | step env op h hc ih => exact matched_step h.reachable ih hc

omit [External] in
/-- A group is established while the repository serves every call. -/
theorem groups_correspond_established :
    (0, [7]) ∈ @runLog plainExternal initial (servedOps 0 0 (groupRequested ++ groupEstablished)) ∧
    Correspond (@runOps plainExternal initial (servedOps 0 0 (groupRequested ++ groupEstablished)))
      ([] ++ @runLog plainExternal initial
        (servedOps 0 0 (groupRequested ++ groupEstablished))) := by
  refine ⟨by decide +kernel, @groups_correspond plainExternal _ _
    (@runWith_runOps plainExternal _ _ _ _ (@RunWith.initial plainExternal _) ?_)⟩
  intro p hp id _
  obtain ⟨op, -, rfl⟩ := List.mem_map.mp hp
  rfl

def resultFails (now newUuid : ℕ) : Env :=
  { servingEnv now newUuid with
    fault := fun call _ => if call = .setTaskResult then .fails else .served }

/-- The last message of the group task comes in while its result is not stored, and the sweep
restarts the task. The devices run its two rounds once more, with another group key. -/
def establishedTwice : List (Env × Op) :=
  servedOps 0 0 (groupRequested ++ groupEstablished.dropLast) ++
    [(resultFails 0 0, .updateTask 0 bob.id (answer [7]) 0)] ++
    servedOps 100 0 (.restartStaleTasks :: (List.replicate 2
      [.updateTask 0 alice.id (answer [8]) 1, .updateTask 0 bob.id (answer [8]) 1]).flatten)

omit [External] in
/-- One group task leaves two groups in the table, and its result names only the second one. -/
theorem one_task_two_groups : ∃ s log, @RunWith plainExternal (fun _ => True) s log ∧
    (s.db.getGroup [7]).isSome ∧ (s.db.getGroup [8]).isSome ∧ Established s.db 0 [8] ∧
    ¬ Correspond s log := by
  refine ⟨@runOps plainExternal initial establishedTwice,
    [] ++ @runLog plainExternal initial establishedTwice,
    @runWith_runOps plainExternal _ _ _ _ (@RunWith.initial plainExternal _) fun _ _ => trivial,
    by decide +kernel, by decide +kernel, ?_, ?_⟩
  · have hres : (@runOps plainExternal initial establishedTwice).db.taskResult 0 =
      some (NewTaskResult.ofResult (.ok [8])) := by decide +kernel
    exact hres
  · rintro ⟨-, hlog⟩
    have hfirst : (0, [7]) ∈ @runLog plainExternal initial establishedTwice := by decide +kernel
    have hsecond : (0, [8]) ∈ @runLog plainExternal initial establishedTwice := by decide +kernel
    exact absurd (hlog 0 [7] [8] (by simpa using hfirst) (by simpa using hsecond)) (by decide)

end GroupResults
