import MeesignServer.FoundTasks
import MeesignServer.ConsentSafety
import MeesignServer.PhaseOrder

/-!
# The trail of consent

Votes are kept in memory and in the tables, chosen shares are stored before the task starts,
and a process that stops in between leaves some of it behind. Whatever is left: a vote that
counts, a stored decision, a stored share and an active share all go back to a call in which
their device accepted the task. A result is backed by devices with enough shares.
-/
namespace ConsentTrail

open FallibleProgram FiniteMap DataModel CommunicatorModel ProtocolModel VotingModel
open RunningTaskModel DatabaseModel HydrationModel ServerModel TaskOutcomes ServerOutcomes
open ActiveShares VoteTally TableFrames ServerInvariant TableWrites HydrationOutcomes TaskStart
open InvariantSteps TaskAdmission ServerMoves TableSync ConsentSafety FoundTasks

section Task

variable {B C : Bytes → Prop} {db db' : Database} {id : Uuid} {row : TaskRow} {d : Bytes}

/-- The devices that an entry counts on. Only votes of up to 127 shares mean what they say. -/
def Counted (B : Bytes → Prop) : TaskEntry → Prop
  | .voting v => ∀ p ∈ v.taskInfo.participants, p.shares ≤ 127 →
      0 < voteIn v.decisions p.device.id → B p.device.id
  | .running t => ∀ i device, t.session.communicator.activeShares.lookup i = some device →
      B device.id
  | .declined _ | .finished _ | .failed _ => True

structure RowsTrail (B : Bytes → Prop) (db : Database) (id : Uuid) : Prop where
  decisions : ∀ c ∈ decisionColumn db id, c.2 = some true → B c.1
  active : ∀ d ∈ db.activeTaskParticipant id, B d
  backed : ∀ data, db.taskResult id = some (NewTaskResult.ofResult (.ok data)) →
    ∃ d, d ∈ db.activeTaskParticipant id

theorem RowsTrail.congr (h : RowsTrail B db id)
    (hrows : db'.taskParticipant id = db.taskParticipant id)
    (hactive : db'.activeTaskParticipant id = db.activeTaskParticipant id)
    (hresult : db'.taskResult id = db.taskResult id) : RowsTrail B db' id := by
  refine ⟨?_, ?_, ?_⟩
  · rw [decisionColumn, hrows]
    exact h.decisions
  · rw [hactive]
    exact h.active
  · rw [hactive, hresult]
    exact h.backed

theorem RowsTrail.same (h : RowsTrail B db id) (hs : SameTask db db' id) : RowsTrail B db' id :=
  h.congr hs.participant hs.active hs.result

theorem RowsTrail.progress (h : RowsTrail B db id) (hp : ProgressOnly db db') :
    RowsTrail B db' id :=
  h.congr (congrFun hp.rows id) (congrFun hp.active id) (congrFun hp.result id)

theorem rowsTrail_setTaskDecision (h : RowsTrail B db id) {accept : Bool}
    (hd : accept = true → B d) : RowsTrail B (db.setTaskDecision id d accept) id := by
  refine ⟨fun c hc ht => ?_, h.active, h.backed⟩
  rw [decisionColumn_setTaskDecision, List.mem_map] at hc
  obtain ⟨c₀, hc₀, rfl⟩ := hc
  split_ifs at ht ⊢ with heq
  · rw [heq]
    exact hd (Option.some.inj ht)
  · exact h.decisions c₀ hc₀ ht

theorem rowsTrail_error {reason : String} (h : RowsTrail B db id)
    (hw : resultWrite id (.error reason) db = .ok db') : RowsTrail B db' id := by
  obtain ⟨-, rfl⟩ := setTaskResult_ok hw
  refine ⟨h.decisions, h.active, fun data hres => ?_⟩
  simp only [Function.update_self, NewTaskResult.ofResult, Option.some.injEq,
    TaskResultRow.mk.injEq] at hres
  cases hres.1

theorem rowsTrail_choice {chosen : List Device} (h : RowsTrail B db id)
    (hc : ∀ device ∈ chosen, B device.id) (hw : activeSharesWrite id chosen db = .ok db') :
    RowsTrail B db' id := by
  obtain ⟨-, rfl⟩ := setTaskActiveShares_ok hw
  refine ⟨h.decisions, fun d hd => ?_, fun data hres => ?_⟩
  · simp only [Function.update_self, AList.mem_union] at hd
    rcases hd with hd | hd
    · exact h.active d hd
    · rw [← AList.lookup_isSome, lookup_mapValues, lookup_countDevices] at hd
      split_ifs at hd with hmem
      · obtain ⟨device, hdevice, rfl⟩ := List.mem_map.mp hmem
        exact hc device hdevice
      · cases hd
  · obtain ⟨d, hd⟩ := h.backed data hres
    refine ⟨d, ?_⟩
    simp only [Function.update_self]
    exact AList.mem_union.mpr (.inl hd)

theorem stored_vote_pos (h : Tables db) (hrow : db.task.lookup id = some row)
    (ht : RowsTrail B db id) {p : Participant} (hp : p ∈ db.getTaskParticipants id)
    (hle : p.shares ≤ 127) (hv : 0 < voteIn (db.getTaskDecisions id) p.device.id) :
    B p.device.id := by
  obtain ⟨r, hr, hd, hs⟩ := mem_getTaskParticipants.mp hp
  have hshares := shares_of_row h.constraints hr
  rw [findDevice_id hd, voteIn_stored h hrow hr, row_vote_eq, ← hshares, ← hs] at hv
  have hpos := (h.fixed id row hrow).positive p hp
  have haccept := (vote_pos_iff hpos hle r.decision).mp hv
  have hB := ht.decisions (r.deviceId, r.decision) (List.mem_map.mpr ⟨r, hr, rfl⟩) haccept
  rwa [findDevice_id hd]

theorem hydrated_counted {e : TaskEntry} (h : Tables db) (hrow : db.task.lookup id = some row)
    (ht : RowsTrail B db id) (hh : hydrateTask db id = .ok e) : Counted B e := by
  have ho := hydrate_outcome h hrow
  rw [hh] at ho
  cases ho with
  | finished | declined | failed => trivial
  | voting => exact fun p hp hle hv => stored_vote_pos h hrow ht hp hle hv
  | @running t _ _ communicator =>
    intro i device hi
    obtain ⟨m, hblocks, -, hnew⟩ := hydrateCommunicator_spec h hrow
    rw [hnew] at communicator
    rw [(Communicator.new_ok communicator).2.2.1] at hi
    obtain ⟨p, -, rfl, hlow, hhigh⟩ := (hblocks.lookup i device).mp hi
    -- the device has a share in the block, so there is a stored row
    refine ht.active _ (AList.lookup_isSome.mp ?_)
    cases hn : (db.activeTaskParticipant id).lookup p.device.id with
    | some n => rfl
    | none =>
      rw [storedShares, Database.getTaskActiveShares, lookup_mapValues, hn] at hhigh
      simp only [Option.map_none, Option.getD_none] at hhigh
      omega

theorem counted_vote {v : VotingTask} {p : Participant} {accept : Bool}
    (h : Counted B (.voting v)) (hn : (ids v.taskInfo.participants).Nodup)
    (hfind : v.taskInfo.participants.find? (fun p => p.device.id = d) = some p)
    (hd : accept = true → B d) :
    Counted B (.voting (v.vote d (voteOf p.shares accept))) := by
  intro q hq hle hv
  have hid : p.device.id = d := by simpa using List.find?_some hfind
  rw [VotingTask.vote, voteIn_insert] at hv
  by_cases hqd : q.device.id = d
  · have hqp : q = p := eq_of_id_eq hn hq (List.mem_of_find?_eq_some hfind) (hqd.trans hid.symm)
    subst hqp
    rw [hqd, Function.update_self] at hv
    rw [hqd]
    cases accept with
    | true => exact hd rfl
    | false =>
      rw [voteOf_false hle] at hv
      omega
  · rw [Function.update_of_ne hqd] at hv
    exact h q hq hle hv

theorem chosen_counted {v : VotingTask} (h : Tables db) (hrow : db.task.lookup id = some row)
    (hv : VotingOf db id (fixed row) (db.getTaskParticipants id) v)
    (hacc : v.decisionUpdate = .accepted) (hc : Counted B (.voting v)) (env : Env)
    (activations : Bytes → Option ℕ) :
    ∀ device ∈ chosenDevices env activations v, B device.id := by
  intro device hdevice
  obtain ⟨p, hp, rfl, hvote⟩ := chosen_accepting hdevice
  have ha := decisionUpdate_accepted hacc
  rw [acceptsRejects_eq (h.fixed id row hrow).distinct fun _ => hv.ballots.mem, hv.threshold] at ha
  have hle := approved_shares h hrow hv ha (hv.info.participants.mem_iff.mp hp)
  exact hc p hp hle hvote

theorem assigned_chosen {v : VotingTask} {chosen : List Device} {m : Map ℕ Device} {i : ℕ}
    {device : Device} (hn : (ids v.taskInfo.participants).Nodup)
    (hchoice : Choice v.taskInfo.participants chosen)
    (hm : assignShareIndices v.taskInfo.participants chosen = .ok m)
    (hi : m.lookup i = some device) : ∃ chosenDevice ∈ chosen, chosenDevice.id = device.id := by
  obtain ⟨m', hm', -, hb⟩ := assignShareIndices_spec hn hchoice
  rw [hm] at hm'
  cases hm'
  obtain ⟨p, hp, rfl, hlow, hhigh⟩ := (hb.lookup i device).mp hi
  have hpos : 0 < chosen.countP (fun device => device.id = p.device.id) := by omega
  obtain ⟨device, hdevice, hid⟩ := List.countP_pos_iff.mp hpos
  exact ⟨device, hdevice, of_decide_eq_true hid⟩

end Task

section Body

variable [External] {B : Bytes → Prop} {env : Env} {op : Op} {id : Uuid} {row : TaskRow}
  {d : Bytes} {db db' : Database} {r : Except Stop Unit} {g g' : Guarded} {e : TaskEntry}

omit [External] in
theorem record_trail {t : RunningTask} {u : Except Stop RoundUpdate} (ht : RowsTrail B db id)
    (hc : Counted B (.running t)) (hactive : db.activeTaskParticipant id ≠ ∅)
    (h : RecordOutcome env id t db u r db' e) : RowsTrail B db' id ∧ Counted B e := by
  have hrows := congrFun (record_participation h).rows id
  have hshares := congrFun (record_participation h).active id
  refine ⟨⟨?_, ?_, fun _ _ => ?_⟩, ?_⟩
  · rw [decisionColumn, hrows]
    exact ht.decisions
  · rw [hshares]
    exact ht.active
  · rw [hshares]
    exact exists_mem hactive
  · cases h with
    | stopped | listen => exact hc
    | nextRound stored => cases stored <;> exact hc
    | failed stored =>
      cases stored with
      | fails => exact hc
      | served => trivial
    | finished finish =>
      cases finish with
      | roundNotStored | groupNotStored => exact hc
      | group _ _ _ stored | threshold _ _ stored =>
        cases stored with
        | fails => exact hc
        | served => trivial

theorem build_trail {v : VotingTask} {chosen : List Device} (ht : RowsTrail B db id)
    (hc : Counted B (.voting v)) (hn : (ids v.taskInfo.participants).Nodup)
    (hchoice : Choice v.taskInfo.participants chosen) (hB : ∀ device ∈ chosen, B device.id)
    (h : BuildOutcome env id v chosen db (.voting v) r db' e) :
    RowsTrail B db' id ∧ Counted B e := by
  refine ⟨?_, ?_⟩
  · cases h with
    | notConstructed => exact ht
    | notInitialized => exact ht
    | certificates _ _ stored =>
      cases stored with
      | fails => exact ht
      | served w => exact ht.progress (progressOnly_certificatesSent w.write)
    | nextRound _ _ stored =>
      cases stored with
      | fails => exact ht
      | served w => exact ht.progress (progressOnly_setTaskRound w.write)
    | failed _ _ stored =>
      cases stored with
      | fails => exact ht
      | served w => exact rowsTrail_error ht w.write
  · cases e with
    | running t =>
      obtain ⟨m, t₀, hm, hcon, -, -, hsteady⟩ := build_running h
      intro i device hi
      rw [hsteady.activeShares, (Communicator.new_ok hcon.communicator).2.2.1] at hi
      obtain ⟨device', hdevice, hid⟩ := assigned_chosen hn hchoice hm hi
      exact hid ▸ hB device' hdevice
    | voting v' =>
      cases h with
      | notConstructed => exact hc
      | notInitialized => exact hc
      | certificates _ _ stored | nextRound _ _ stored | failed _ _ stored =>
        cases stored
        exact hc
    | declined | finished | failed => trivial

theorem decide_trail {accept : Bool} (h : Tables g.server.db)
    (hrow : g.server.db.task.lookup id = some row) (he : EntryOf g.server.db id row g.entry)
    (ht : RowsTrail B g.server.db id) (hc : Counted B g.entry) (hd : accept = true → B d)
    (ho : DecideOutcome env id d accept g r g') :
    RowsTrail B g'.server.db id ∧ Counted B g'.entry := by
  have hvote : ∀ {v p}, g.entry = .voting v →
      v.taskInfo.participants.find? (fun p => p.device.id = d) = some p →
      Counted B (.voting (v.vote d (voteOf p.shares accept))) := by
    intro v p hv hfind
    rw [hv] at he hc
    exact counted_vote hc (voting_distinct h hrow he.votingOf) hfind hd
  have hrows := rowsTrail_setTaskDecision ht hd
  cases ho with
  | notVoting => exact ⟨ht, hc⟩
  | notParticipant => exact ⟨ht, hc⟩
  | notStored hv hfind => exact ⟨ht, hvote hv hfind⟩
  | undecided hv hfind => exact ⟨hrows, hvote hv hfind⟩
  | declined hv hfind _ _ stored =>
    cases stored with
    | fails => exact ⟨hrows, hvote hv hfind⟩
    | served w => exact ⟨rowsTrail_error hrows w.write, trivial⟩
  | @accepted v p _ _ hv hfind _ tally start =>
    have hcounted := hvote hv hfind
    have wt := writesTask_setTaskDecision g.server.db id d accept
    have hv' : VotingOf (g.server.db.setTaskDecision id d accept) id (fixed row)
        ((g.server.db.setTaskDecision id d accept).getTaskParticipants id)
        (v.vote d (voteOf p.shares accept)) := by
      rw [hv] at he
      rw [wt.participants id (mem_of_row hrow)]
      exact (voting_vote he.votingOf hfind accept).mono wt.toExtends
    have htab := tables_setTaskDecision h id d accept
    have hn := voting_distinct htab hrow hv'
    cases start with
    | notStored _ rest =>
      rw [rest.db]
      exact ⟨hrows, hcounted⟩
    | built w build rest =>
      rw [rest.db]
      have hB := chosen_counted htab hrow hv' tally hcounted env g.server.deviceLastActivations
      have hw := w.write
      rw [hv'.info.id] at hw
      exact build_trail (rowsTrail_choice hrows hB hw) hcounted hn
        (choice_chosenDevices hn env g.server.deviceLastActivations) hB build

omit [External] in
theorem entry_active {t : RunningTask} (h : EntryOf db id row (.running t)) :
    db.activeTaskParticipant id ≠ ∅ := by
  cases h with
  | running _ _ active => exact active

theorem body_trail (h : Tables g.server.db) (hrow : g.server.db.task.lookup id = some row)
    (he : EntryOf g.server.db id row g.entry) (ht : RowsTrail B g.server.db id)
    (hc : Counted B g.entry) (hd : ∀ d, op = .decideTask id d true → B d)
    (ho : BodyOutcome env op id g r g') : RowsTrail B g'.server.db id ∧ Counted B g'.entry := by
  cases ho with
  | @decide _ d accept _ _ _ ho =>
    refine decide_trail h hrow he ht hc ?_ ho
    rintro rfl
    exact hd d rfl
  | update ho =>
    cases ho with
    | notRunning => exact ⟨ht, hc⟩
    | stale => exact ⟨ht, hc⟩
    | @updated t t' _ _ _ _ _ hrun _ update record rest =>
      rw [hrun] at he hc
      rw [rest.db]
      refine record_trail ht ?_ (entry_active he) record
      intro i device hi
      rw [(update_steady update).2.activeShares] at hi
      exact hc i device hi
  | restart _ ho =>
    cases ho with
    | notRunning => exact ⟨ht, hc⟩
    | notStored => exact ⟨ht, hc⟩
    | @restarted t t' _ _ db₁ _ _ _ hrun w restart record rest =>
      rw [hrun] at he hc
      rw [rest.db]
      have hprogress := progressOnly_incrementTaskAttemptCount w.write
      have hactive : db₁.activeTaskParticipant id ≠ ∅ := by
        rw [hprogress.active]
        exact entry_active he
      refine record_trail (ht.progress hprogress) ?_ hactive record
      intro i device hi
      cases restart with
      | broke => exact hc i device hi
      | again _ _ _ session start =>
        rw [(start_steady start).2.activeShares, session] at hi
        exact hc i device hi
  | acknowledge ho =>
    have hcolumn := body_column (j := id) (fun _ _ _ h => by cases h) (.acknowledge ho)
    cases ho with
    | notFinished => exact ⟨ht, hc⟩
    | acknowledged _ _ stored =>
      cases stored with
      | fails => exact ⟨ht, trivial⟩
      | served w =>
        cases w.write
        refine ⟨⟨?_, ht.active, ht.backed⟩, trivial⟩
        rw [hcolumn]
        exact ht.decisions
  | read => exact ⟨ht, hc⟩

end Body

section Runs

variable [External] {A A' : Uuid → Bytes → Prop} {env : Env} {op : Op} {s s' : Server} {id : Uuid}
  {e : TaskEntry} {r : Except Stop Unit}

/-- Everything that counts on a device goes back to a pair of the log. -/
structure Trail (A : Uuid → Bytes → Prop) (s : Server) : Prop where
  rows : ∀ id, RowsTrail (A id) s.db id
  cache : ∀ id e, s.taskCache id = some e → Counted (A id) e

omit [External] in
theorem found_counted (hi : Invariant s) (h : Trail A s) (hf : Found s id e) :
    Counted (A id) e := by
  rcases hf with hc | ⟨-, hh⟩
  · exact h.cache id e hc
  · obtain ⟨row, hrow⟩ := hydrate_row hh
    exact hydrated_counted hi.tables hrow (h.rows id) hh

omit [External] in
theorem trail_cached (h : Trail A s) (hrows : RowsTrail (A id) s'.db id) (he : Counted (A id) e)
    (hs : ∀ j, j ≠ id → SameTask s.db s'.db j)
    (hc : ∀ j, j ≠ id → s'.taskCache j = s.taskCache j) : Trail A (cached s' id e) := by
  refine ⟨fun j => ?_, fun j e' he' => ?_⟩
  · by_cases hj : j = id
    · subst hj
      exact hrows
    · exact (h.rows j).same (hs j hj)
  · by_cases hj : j = id
    · subst hj
      rw [cached_self] at he'
      cases he'
      exact he
    · rw [cached_of_ne hj, hc j hj] at he'
      exact h.cache j e' he'

theorem move_trail (hi : Invariant s) (h : Trail A s)
    (hd : ∀ id d, op = .decideTask id d true → A id d) (m : Move env op s r s') : Trail A s' := by
  cases m with
  | refused => exact h
  | aside ha =>
    refine ⟨?_, ?_⟩
    · rw [ha.db]
      exact h.rows
    · rw [ha.taskCache]
      exact h.cache
  | addDevice w =>
    exact ⟨fun id => (h.rows id).same (sameTask_addDevice w.write id), h.cache⟩
  | @addTask v db admitted w =>
    obtain ⟨hnew, -, -, hdb⟩ := insertTask_ok (createRows_ok w.write).2.2
    have hsound := admitted_sound hi admitted w.write
    refine trail_cached h ⟨fun c hc ht => ?_, ?_, ?_⟩ (fun p hp hle hv => ?_) hsound.others
      fun _ _ => rfl
    · -- no device has decided on a new task
      simp only [decisionColumn, hdb, Function.update_self, List.map_map, List.mem_map] at hc
      obtain ⟨p, -, rfl⟩ := hc
      cases ht
    · have hactive : db.activeTaskParticipant v.taskInfo.id = ∅ := by
        rw [hdb]
        exact (hi.tables.constraints.orphan _ hnew).2.2
      rw [hactive]
      exact fun d hd' => absurd hd' (AList.notMem_empty d)
    · intro data hres
      have hnone : db.taskResult v.taskInfo.id = none := by
        rw [hdb]
        exact (hi.tables.constraints.orphan _ hnew).2.1
      rw [hnone] at hres
      cases hres
    · have hdecisions : v.decisions = ∅ := by cases admitted <;> rfl
      rw [hdecisions] at hv
      simp [voteIn] at hv
  | restart => exact ⟨h.rows, fun id e he => by simp [Server.restore] at he⟩
  | @task id e _ g loaded body =>
    obtain ⟨row, hrow, he⟩ := loaded_entry hi loaded
    have hs := task_sound hi loaded body
    have hcounted := found_counted hi h (loaded_found loaded)
    obtain ⟨hrows, hentry⟩ := body_trail (g := ⟨e, cached s id e⟩) hi.tables hrow he (h.rows id)
      hcounted (hd id) body
    refine trail_cached h hrows hentry hs.others fun j hj => ?_
    rw [hs.taskCache]
    exact Function.update_of_ne hj _ _

theorem next_trail (hi : Invariant s) (h : Trail A s)
    (hd : ∀ id d, op = .decideTask id d true → A id d) (env : Env) :
    Trail A (next env op s) := by
  obtain ⟨t, hruns, hn⟩ := next_runs env op s hi
  have ht := hruns.keeps (P := fun t => Invariant t ∧ Trail A t)
    (fun a _ b hab m => ⟨(move_invariant hab.1 m).1, move_trail hab.1 hab.2 hd m⟩) ⟨hi, h⟩
  rw [hn]
  split_ifs
  · exact ⟨ht.2.rows, fun id e he => by simp [Server.restore] at he⟩
  · exact ht.2

def VotedFor (ops : List (Env × Op)) (id : Uuid) (d : Bytes) : Prop :=
  ∃ env, (env, Op.decideTask id d true) ∈ ops

theorem run_trail (ops : List (Env × Op)) (hi : Invariant s) (h : Trail A s)
    (hA : ∀ id d, VotedFor ops id d → A id d) : Trail A (runOps s ops) := by
  induction ops generalizing s with
  | nil => exact h
  | cons p ops ih =>
    refine ih (next_invariant p.1 p.2 s hi).1 (next_trail hi h (fun id d hop => ?_) p.1) ?_
    · exact hA id d ⟨p.1, by rw [← hop]; exact List.mem_cons_self⟩
    · rintro id d ⟨env, hmem⟩
      exact hA id d ⟨env, List.mem_cons_of_mem _ hmem⟩

omit [External] in
theorem trail_initial : Trail A initial := by
  refine ⟨fun id => ⟨fun c hc => ?_, fun d hd => ?_, fun data hres => ?_⟩, fun id e he => ?_⟩
  · cases hc
  · exact absurd hd (AList.notMem_empty d)
  · cases hres
  · cases he

omit [External] in
theorem sum_active_le {ps : List Participant} {active : Bytes → ℕ}
    (h : ∀ p ∈ ps, active p.device.id ≤ p.shares) : (ps.map fun p => active p.device.id).sum ≤
      totalShares (ps.filter fun p => 0 < active p.device.id) := by
  induction ps with
  | nil => exact le_rfl
  | cons p ps ih =>
    have hp := h p List.mem_cons_self
    have hrest := ih fun q hq => h q (List.mem_cons_of_mem _ hq)
    simp only [totalShares, List.map_cons, List.sum_cons, List.filter_cons] at hrest ⊢
    split_ifs with hpos
    · simp only [List.map_cons, List.sum_cons]
      omega
    · simp only [decide_eq_true_eq] at hpos
      omega

/-- In every run, with calls failing and the process stopping anywhere: each device with an
active share of a running task has accepted the task, and a successful result is only stored
for a task that participants with enough shares have accepted, all of them for a group. -/
theorem consent_trail (ops : List (Env × Op)) :
    let s := runOps initial ops
    (∀ id t, Found s id (.running t) → ∀ i device,
      t.session.communicator.activeShares.lookup i = some device → VotedFor ops id device.id) ∧
    ∀ id row data, s.db.task.lookup id = some row →
      s.db.taskResult id = some (NewTaskResult.ofResult (.ok data)) → ∃ consenting,
        consenting.Sublist (s.db.getTaskParticipants id) ∧
        (∀ p ∈ consenting, VotedFor ops id p.device.id) ∧
        acceptThreshold row (s.db.getTaskParticipants id) ≤ totalShares consenting := by
  intro s
  have hi : Invariant s :=
    reachable_invariant (reachable_later .initial (later_runOps initial ops))
  have htrail : Trail (VotedFor ops) s :=
    run_trail ops (reachable_invariant .initial) trail_initial fun _ _ h => h
  refine ⟨fun id t hf => found_counted hi htrail hf, fun id row data hrow hres => ?_⟩
  have hrows := hi.tables.rows id row hrow
  refine ⟨_, List.filter_sublist, fun p hp => ?_, le_trans ?_ (sum_active_le fun p hp =>
    storedShares_le hi.tables hrow hp)⟩
  · -- a stored share is a row
    obtain ⟨-, hpos⟩ := List.mem_filter.mp hp
    refine (htrail.rows id).active _ (AList.lookup_isSome.mp ?_)
    cases hn : (s.db.activeTaskParticipant id).lookup p.device.id with
    | some n => rfl
    | none =>
      simp [storedShares, Database.getTaskActiveShares, lookup_mapValues, hn] at hpos
  · rcases hrows.enough with hnone | henough
    · obtain ⟨d, hd⟩ := (htrail.rows id).backed data hres
      rw [hnone] at hd
      exact absurd hd (AList.notMem_empty d)
    · exact henough

end Runs

end ConsentTrail
