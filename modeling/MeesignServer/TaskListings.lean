import MeesignServer.ConsentSafety
import MeesignServer.FoundTasks
import MeesignServer.PhaseOrder
import MeesignServer.SweepSchedule

/-!
# Listings of tasks

A device that polls gets its tasks that have no result or whose result it has not
acknowledged. The acknowledgement is a column of the participant's row, so it outlives the
process, and a task leaves the listing of a device exactly when the server has confirmed an
acknowledgement of that device. A listing reads its tasks one after another and fails as a
whole if one of them cannot be rebuilt.
-/
namespace TaskListings

open FallibleProgram FiniteMap DataModel ProtocolModel VotingModel RunningTaskModel
open DatabaseModel HydrationModel ServerModel TaskOutcomes ServerOutcomes TableFrames
open ServerInvariant TableWrites HydrationOutcomes InvariantSteps TaskAdmission ServerMoves
open ConsentSafety FoundTasks PhaseOrder
open SweepSchedule (target)

def getTasks (db : Database) : List Uuid := db.task.keys.insertionSort (· ≤ ·)

/-- The SQL filter of `get_active_device_tasks` on a participant row of a task -/
def isActive (db : Database) (deviceId : Bytes) (id : Uuid) (row : TaskParticipantRow) : Bool :=
  row.deviceId = deviceId && ((db.taskResult id).isNone ||
    (row.acknowledgment.isNone || row.acknowledgment == some false))

def getActiveDeviceTasks (db : Database) (deviceId : Bytes) : List Uuid :=
  (db.task.keys.flatMap fun id =>
    ((db.taskParticipant id).filter (isActive db deviceId id)).map fun _ => id).insertionSort
      (· ≤ ·)

def repoQuery (query : Fault) : EStateM Stop Server Unit :=
  match query with
  | .served => pure ()
  | .fails => throw (.err (.persistence .execution))
  | .stops => throw .crash

section Operations

variable (env : Env)

/-- The loop of both listings: `get_task` and `format` for one task after another. -/
def formatTasks (deviceId : Option Bytes) : List Uuid → EStateM Stop Server (List ProtoTask)
  | [] => return []
  | taskId :: rest => do
    let task ← withTaskMut env taskId do
      return (← get).entry.format deviceId none
    return task :: (← formatTasks deviceId rest)

def getFormattedTasks (query : Fault) : EStateM Stop Server (List ProtoTask) := do
  repoQuery query
  formatTasks env none (getTasks (← get).db)

def getFormattedActiveDeviceTasks (query : Fault) (deviceId : Bytes) :
    EStateM Stop Server (List ProtoTask) := do
  repoQuery query
  formatTasks env (some deviceId) (getActiveDeviceTasks (← get).db deviceId)

end Operations

section Queries

variable {db : Database} {d : Bytes} {id : Uuid}

theorem mem_getTasks : id ∈ getTasks db ↔ id ∈ db.task := by
  rw [getTasks, (List.perm_insertionSort _ _).mem_iff]
  exact Iff.rfl

theorem mem_getActiveDeviceTasks : id ∈ getActiveDeviceTasks db d ↔
    id ∈ db.task ∧ ∃ row ∈ db.taskParticipant id, isActive db d id row := by
  simp only [getActiveDeviceTasks, (List.perm_insertionSort _ _).mem_iff, List.mem_flatMap,
    List.mem_map, List.mem_filter]
  constructor
  · rintro ⟨j, hj, row, hrow, rfl⟩
    exact ⟨hj, row, hrow⟩
  · rintro ⟨hid, row, hrow⟩
    exact ⟨id, hid, row, hrow, rfl⟩

theorem active_rows_length (h : Tables db) (hid : id ∈ db.task) :
    ((db.taskParticipant id).filter (isActive db d id)).length ≤ 1 := by
  obtain ⟨row, hrow⟩ := exists_row hid
  have hnodup := (h.fixed id row hrow).distinct
  rw [ids_getTaskParticipants h.constraints] at hnodup
  have hcount := List.nodup_iff_count_le_one.mp hnodup d
  rw [List.count, List.countP_map] at hcount
  rw [← List.countP_eq_length_filter]
  refine le_trans (List.countP_mono_left fun r _ hr => ?_) hcount
  simp only [isActive, Bool.and_eq_true, decide_eq_true_eq] at hr
  simp [hr.1]

theorem nodup_joined (h : Tables db) (d : Bytes) : (db.task.keys.flatMap fun id =>
    ((db.taskParticipant id).filter (isActive db d id)).map fun _ => id).Nodup := by
  refine List.nodup_flatMap.mpr ⟨fun id hid => ?_, ?_⟩
  · have hlen := active_rows_length (d := d) h hid
    match (db.taskParticipant id).filter (isActive db d id), hlen with
    | [], _ => exact List.nodup_nil
    | [_], _ => exact List.nodup_singleton _
  · refine db.task.keys_nodup.imp fun {a b} hab => ?_
    intro x hx hx'
    obtain ⟨_, -, rfl⟩ := List.mem_map.mp hx
    obtain ⟨_, -, rfl⟩ := List.mem_map.mp hx'
    exact hab rfl

theorem getActiveDeviceTasks_sorted (h : Tables db) (d : Bytes) :
    (getActiveDeviceTasks db d).Pairwise (· < ·) := by
  have hnodup : (getActiveDeviceTasks db d).Nodup :=
    (List.perm_insertionSort _ _).nodup_iff.mpr (nodup_joined h d)
  have hsorted : (getActiveDeviceTasks db d).Pairwise (· ≤ ·) := List.pairwise_insertionSort _ _
  exact (hsorted.and hnodup).imp fun h => lt_of_le_of_ne h.1 h.2

end Queries

section CachesFound

variable {env : Env} {s t : Server} {id j : Uuid} {e e' : TaskEntry}

/-- Some tasks are cached as they were found, and nothing else happens. -/
inductive CachesFound (env : Env) : Server → Server → Prop where
  | done (s : Server) : CachesFound env s s
  | read {s t : Server} {id : Uuid} {e : TaskEntry} (loaded : Loaded env s id e)
      (rest : CachesFound env (cached s id e) t) : CachesFound env s t

theorem loaded_cached (h : Loaded env s j e') :
    Loaded env (cached s j e') id e ↔ Loaded env s id e := by
  by_cases hid : id = j
  · subst hid
    constructor
    · intro hl
      rwa [loaded_unique hl (.hit (cached_self s id e') hl.served)]
    · intro hl
      rw [loaded_unique hl h]
      exact .hit (cached_self s id e') h.served
  · constructor <;> intro hl
    · cases hl with
      | hit hc served => exact .hit ((cached_of_ne hid).symm.trans hc) served
      | hydrated miss served hh => exact .hydrated ((cached_of_ne hid).symm.trans miss) served hh
    · cases hl with
      | hit hc served => exact .hit ((cached_of_ne hid).trans hc) served
      | hydrated miss served hh => exact .hydrated ((cached_of_ne hid).trans miss) served hh

theorem notLoaded_of_cached {stop : Stop} (h : Loaded env s j e')
    (hn : NotLoaded env (cached s j e') id stop) : ∃ stop, NotLoaded env s id stop := by
  rcases lockedTask_post env s id with ⟨stop, -, hs⟩ | ⟨e, -, hl⟩
  · exact ⟨stop, hs⟩
  · exact (((loaded_cached h).mpr hl).not_notLoaded hn).elim

theorem found_cached_iff (h : Loaded env s j e') :
    Found (cached s j e') id e ↔ Found s id e := by
  by_cases hid : id = j
  · subst hid
    have hself : Found (cached s id e') id e ↔ e' = e := by
      simp [Found]
    rw [hself]
    cases h with
    | hit hc => simp [Found, hc]
    | hydrated miss _ hh => simp [Found, miss, hh]
  · have hdb : (cached s j e').db = s.db := rfl
    rw [Found, Found, cached_of_ne hid, hdb]

theorem CachesFound.found (h : CachesFound env s t) : Found t id e ↔ Found s id e := by
  induction h with
  | done => exact Iff.rfl
  | read loaded _ ih => exact ih.trans (found_cached_iff loaded)

theorem readTask_loaded (h : Loaded env s id e) (viewer : Option Bytes) :
    outcome (withTaskMut env id do return (← get).entry.format viewer none) s =
      (.ok (e.format viewer none), cached s id e) := by
  have hs : cached (cached s id e) id e = cached s id e := by
    unfold cached
    rw [Function.update_idem]
  rw [outcome, withTaskMut_loaded h]
  simp only [zoom, bind, EStateM.bind, get, getThe, MonadStateOf.get, EStateM.get, pure,
    EStateM.pure, hs]

def Listed (env : Env) (viewer : Option Bytes) (l : List Uuid) (s : Server)
    (r : Except Stop (List ProtoTask)) : Prop :=
  (∃ entries, List.Forall₂ (Loaded env s) l entries ∧
    r = .ok (entries.map fun e => e.format viewer none)) ∨
  ∃ id ∈ l, ∃ stop stop', NotLoaded env s id stop ∧ r = .error stop'

theorem formatTasks_post (env : Env) (viewer : Option Bytes) (l : List Uuid) (s : Server) :
    post (formatTasks env viewer l) s fun r t => CachesFound env s t ∧ Listed env viewer l s r := by
  induction l generalizing s with
  | nil => exact ⟨.done s, .inl ⟨[], .nil, rfl⟩⟩
  | cons id rest ih =>
    rw [formatTasks, post_bind]
    rcases lockedTask_post env s id with ⟨stop, -, hn⟩ | ⟨e, -, hl⟩
    · rw [post, outcome, withTaskMut_notLoaded hn]
      exact ⟨.done s, .inr ⟨id, List.mem_cons_self, stop, stop, hn, rfl⟩⟩
    · rw [post, readTask_loaded hl viewer]
      refine post_seq (ih (cached s id e)) ?_ ?_
      · rintro views t ⟨hreads, hlisted⟩
        rcases hlisted with ⟨entries, hall, hviews⟩ | ⟨_, _, _, _, _, herr⟩
        · cases hviews
          refine ⟨.read hl hreads, .inl ⟨e :: entries, .cons hl ?_, rfl⟩⟩
          exact hall.imp fun _ _ h => (loaded_cached hl).mp h
        · cases herr
      · rintro stop' t ⟨hreads, hlisted⟩
        rcases hlisted with ⟨_, _, hok⟩ | ⟨j, hj, stop, stop'', hn, -⟩
        · cases hok
        · obtain ⟨stop₀, hn₀⟩ := notLoaded_of_cached hl hn
          exact ⟨.read hl hreads, .inr ⟨j, List.mem_cons_of_mem _ hj, stop₀, stop', hn₀, rfl⟩⟩

theorem listing_post (env : Env) (query : Fault) (viewer : Option Bytes)
    (select : Database → List Uuid) (s : Server) :
    post (do repoQuery query; formatTasks env viewer (select (← get).db)) s fun r t =>
      CachesFound env s t ∧ (query = .served ∧ Listed env viewer (select s.db) s r ∨
        query ≠ .served ∧ ∃ stop, r = .error stop) := by
  cases query with
  | fails => exact ⟨.done s, .inr ⟨(fun h => by cases h), _, rfl⟩⟩
  | stops => exact ⟨.done s, .inr ⟨(fun h => by cases h), _, rfl⟩⟩
  | served =>
    obtain ⟨hreads, hlisted⟩ := formatTasks_post env viewer (select s.db) s
    exact ⟨hreads, .inl ⟨rfl, hlisted⟩⟩

theorem Listed.ok_iff {viewer : Option Bytes} {l : List Uuid} {r : Except Stop (List ProtoTask)}
    (h : Listed env viewer l s r) :
    (∃ views, r = .ok views) ↔ ∀ id ∈ l, ∃ e, Loaded env s id e := by
  rcases h with ⟨entries, hall, rfl⟩ | ⟨id, hid, stop, stop', hn, rfl⟩
  · have hfound := (List.forall₂_and_left (p := fun id => ∃ e, Loaded env s id e) _ _).mp
      (hall.imp fun id e hl => ⟨⟨e, hl⟩, hl⟩)
    exact ⟨fun _ => hfound.1, fun _ => ⟨_, rfl⟩⟩
  · constructor
    · rintro ⟨_, h⟩
      cases h
    · intro hl
      obtain ⟨e, he⟩ := hl id hid
      exact (he.not_notLoaded hn).elim

theorem Listed.views {viewer : Option Bytes} {l : List Uuid} {views : List ProtoTask}
    (h : Listed env viewer l s (.ok views)) :
    List.Forall₂ (fun id view => ∃ e, Found s id e ∧ view = e.format viewer none) l views := by
  rcases h with ⟨entries, hall, hviews⟩ | ⟨_, _, _, _, _, herr⟩
  · cases hviews
    refine List.forall₂_map_right_iff.mpr (hall.imp fun id e hl => ?_)
    exact ⟨e, loaded_found hl, rfl⟩
  · cases herr

end CachesFound

variable [External]

def acknowledgedBy (env : Env) (op : Op) (s : Server) : List (Uuid × Bytes) :=
  match op, result env op s with
  | .acknowledgeTask id d, .ok () => [(id, d)]
  | _, _ => []

def acknowledgedIn : Server → List (Env × Op) → List (Uuid × Bytes)
  | _, [] => []
  | s, p :: rest => acknowledgedBy p.1 p.2 s ++ acknowledgedIn (next p.1 p.2 s) rest

def acknowledgmentColumn (db : Database) (id : Uuid) : List (Bytes × Option Bool) :=
  (db.taskParticipant id).map fun row => (row.deviceId, row.acknowledgment)

/-- The acknowledgement column holds the confirmed acknowledgements, and these are of tasks with
a result. -/
structure AcksStored (db : Database) (acks : List (Uuid × Bytes)) : Prop where
  stored : ∀ id ∈ db.task, ∀ c ∈ acknowledgmentColumn db id, c.2 = some true ↔ (id, c.1) ∈ acks
  result : ∀ id d, (id, d) ∈ acks → id ∈ db.task ∧ (db.taskResult id).isSome

section Columns

variable {env : Env} {op : Op} {id j : Uuid} {d : Bytes} {db : Database} {g g' : Guarded}
  {s s' : Server} {r : Except Stop Unit} {acks : List (Uuid × Bytes)}

omit [External] in
theorem acknowledgmentColumn_setTaskDecision (db : Database) (id j : Uuid) (d : Bytes)
    (accept : Bool) : acknowledgmentColumn (db.setTaskDecision id d accept) j =
      acknowledgmentColumn db j := by
  by_cases hj : j = id
  · subst hj
    simp only [acknowledgmentColumn, Database.setTaskDecision, Function.update_self, List.map_map]
    refine List.map_congr_left fun row _ => ?_
    simp only [Function.comp_apply]
    split_ifs <;> rfl
  · simp only [acknowledgmentColumn, Database.setTaskDecision, Function.update_of_ne hj]

omit [External] in
theorem acknowledgmentColumn_setTaskAcknowledgement (db : Database) (id : Uuid) (d : Bytes) :
    acknowledgmentColumn (db.setTaskAcknowledgement id d) id =
      (acknowledgmentColumn db id).map fun c => if c.1 = d then (c.1, some true) else c := by
  simp only [acknowledgmentColumn, Database.setTaskAcknowledgement, Function.update_self,
    List.map_map]
  refine List.map_congr_left fun row _ => ?_
  simp only [Function.comp_apply]
  split_ifs <;> rfl

omit [External] in
theorem acknowledgmentColumn_congr {db db' : Database}
    (h : db'.taskParticipant = db.taskParticipant) (j : Uuid) :
    acknowledgmentColumn db' j = acknowledgmentColumn db j := by
  rw [acknowledgmentColumn, h, acknowledgmentColumn]

theorem decide_acknowledgments {accept : Bool} (h : DecideOutcome env id d accept g r g')
    (j : Uuid) : acknowledgmentColumn g'.server.db j = acknowledgmentColumn g.server.db j := by
  have hvote := acknowledgmentColumn_setTaskDecision g.server.db id j d accept
  cases h with
  | notVoting => rfl
  | notParticipant => rfl
  | notStored => rfl
  | undecided => exact hvote
  | declined _ _ _ _ stored =>
    exact (acknowledgmentColumn_congr
      (stored_participation stored fun _ => sameParticipation_setTaskResult).rows j).trans hvote
  | accepted _ _ _ _ start =>
    cases start with
    | notStored _ rest =>
      rw [rest.db]
      exact hvote
    | built w build rest =>
      obtain ⟨-, hdb⟩ := setTaskActiveShares_ok w.write
      have hrows := (build_participation build).rows
      rw [hdb] at hrows
      rw [rest.db]
      exact (acknowledgmentColumn_congr hrows j).trans hvote

theorem body_acknowledgments (hop : ∀ id d, op ≠ .acknowledgeTask id d)
    (h : BodyOutcome env op id g r g') (j : Uuid) :
    acknowledgmentColumn g'.server.db j = acknowledgmentColumn g.server.db j := by
  cases h with
  | decide h => exact decide_acknowledgments h j
  | update h => exact acknowledgmentColumn_congr (updateEntry_participation h).rows j
  | restart _ h => exact acknowledgmentColumn_congr (restartEntry_participation h).rows j
  | acknowledge => exact absurd rfl (hop _ _)
  | read => rfl

omit [External] in
theorem AcksStored.congr {db db' : Database} (h : AcksStored db acks)
    (hd : ∀ id, id ∈ db'.task ↔ id ∈ db.task)
    (hc : ∀ id, acknowledgmentColumn db' id = acknowledgmentColumn db id)
    (hr : ∀ id row, db.taskResult id = some row → db'.taskResult id = some row) :
    AcksStored db' acks where
  stored id hid c hcm := h.stored id ((hd id).mp hid) c (hc id ▸ hcm)
  result id d hm := by
    obtain ⟨hid, hres⟩ := h.result id d hm
    obtain ⟨row, hrow⟩ := Option.isSome_iff_exists.mp hres
    exact ⟨(hd id).mpr hid, by rw [hr id row hrow]; rfl⟩

theorem move_acks (hop : ∀ id d, op ≠ .acknowledgeTask id d) (h : Invariant s)
    (hr : ResultsEnded s) (ha : AcksStored s.db acks) (m : Move env op s r s') :
    AcksStored s'.db acks := by
  have hkept := (move_results h hr m).2
  cases m with
  | refused => exact ha
  | aside hs => exact hs.db ▸ ha
  | addDevice w =>
    refine ha.congr (fun j => mem_iff_of_lookup (sameTask_addDevice w.write j).task)
      (fun j => ?_) hkept
    rw [acknowledgmentColumn, (sameTask_addDevice w.write j).participant, acknowledgmentColumn]
  | @addTask v db _ w =>
    obtain ⟨-, -, hins⟩ := createRows_ok w.write
    obtain ⟨hid, -, -, hdb⟩ := insertTask_ok hins
    have hx := (insertTask_frame h.tables.constraints hins).1
    refine ⟨fun j hj c hc => ?_, fun j d hm => ?_⟩
    · by_cases hne : j = v.taskInfo.id
      · -- the rows of a new task are not acknowledged, and no acknowledgement is older
        subst hne
        simp only [cached, acknowledgmentColumn, hdb, Function.update_self, List.map_map,
          List.mem_map] at hc
        obtain ⟨p, -, rfl⟩ := hc
        exact ⟨fun hnone => (by cases hnone), fun hm => absurd (ha.result _ _ hm).1 hid⟩
      · have hsame := (insertTask_frame h.tables.constraints hins).2.1 j hne
        refine ha.stored j ((mem_iff_of_lookup hsame.task).mp hj) c ?_
        rw [acknowledgmentColumn, ← hsame.participant]
        exact hc
    · obtain ⟨hj, hres⟩ := ha.result j d hm
      obtain ⟨row, hrow⟩ := Option.isSome_iff_exists.mp hres
      exact ⟨hx.mem hj, by rw [hkept j row hrow]; rfl⟩
  | restart => exact ha
  | task loaded body =>
    exact ha.congr (fun j => task_domain h loaded body) (body_acknowledgments hop body) hkept

theorem acknowledge_outcome (env : Env) (id : Uuid) (d : Bytes) (s : Server) :
    TaskOutcome env id (AcknowledgeOutcome env id d) s (result env (.acknowledgeTask id d) s)
      (outcome (exec env (.acknowledgeTask id d)) s).2 :=
  withTaskMut_outcome (acknowledgeEntry_outcome env id d) s

theorem acknowledge_acks (env : Env) (id : Uuid) (d : Bytes)
    (h : Invariant s) (hr : ResultsEnded s) (ha : AcksStored s.db acks) :
    AcksStored (outcome (exec env (.acknowledgeTask id d)) s).2.db
      (acks ++ acknowledgedBy env (.acknowledgeTask id d) s) := by
  have ho := acknowledge_outcome env id d s
  unfold acknowledgedBy
  have hrefused : AcksStored s.db (acks ++ []) := (List.append_nil acks).symm ▸ ha
  generalize result env (.acknowledgeTask id d) s = r at ho ⊢
  generalize (outcome (exec env (.acknowledgeTask id d)) s).2 = t at ho ⊢
  cases ho with
  | notLoaded => exact hrefused
  | @loaded e _ g loaded body =>
    cases body with
    | notFinished => exact hrefused
    | @acknowledged f f' _ db _ hf _ stored =>
      cases stored with
      | fails => exact hrefused
      | served w =>
        have hw : s.db.setTaskAcknowledgement id d = db := Except.ok.inj w.write
        subst hw
        obtain ⟨row, hrow, -⟩ := loaded_entry h loaded
        have hid := mem_of_row hrow
        have hend := loaded_ended h hr loaded
        have hfin : e = .finished f := hf
        refine ⟨fun j hj c hc => ?_, fun j d' hm => ?_⟩
        · by_cases hj' : j = id
          · subst hj'
            have hc' : c ∈ acknowledgmentColumn (s.db.setTaskAcknowledgement j d) j := hc
            rw [acknowledgmentColumn_setTaskAcknowledgement, List.mem_map] at hc'
            obtain ⟨c₀, hc₀, rfl⟩ := hc'
            have hold := ha.stored j hid c₀ hc₀
            split_ifs with hd
            · simp [hd]
            · simp [hold, hd]
          · have hcol : acknowledgmentColumn (s.db.setTaskAcknowledgement id d) j =
                acknowledgmentColumn s.db j := by
              simp only [acknowledgmentColumn, Database.setTaskAcknowledgement,
                Function.update_of_ne hj']
            have hold := ha.stored j hj c (hcol ▸ hc)
            simp [hold, hj']
        · rcases List.mem_append.mp hm with hm | hm
          · exact ha.result j d' hm
          · obtain ⟨rfl, rfl⟩ : j = id ∧ d' = d := by simpa using hm
            rw [hfin] at hend
            exact ⟨hid, hend.symm⟩

theorem next_acks (h : Invariant s) (hr : ResultsEnded s) (ha : AcksStored s.db acks)
    (env : Env) (op : Op) :
    AcksStored (next env op s).db (acks ++ acknowledgedBy env op s) := by
  by_cases hop : ∀ id d, op ≠ .acknowledgeTask id d
  · have hnone : acknowledgedBy env op s = [] := by
      cases op with
      | acknowledgeTask id d => exact absurd rfl (hop id d)
      | _ => rfl
    obtain ⟨t, hruns, hn⟩ := next_runs env op s h
    have ht := hruns.keeps (P := fun t => (Invariant t ∧ ResultsEnded t) ∧ AcksStored t.db acks)
      (fun a _ b hab m => ⟨⟨(move_invariant hab.1.1 m).1, (move_results hab.1.1 hab.1.2 m).1⟩,
        move_acks hop hab.1.1 hab.1.2 hab.2 m⟩) ⟨⟨h, hr⟩, ha⟩
    rw [hnone, hn, List.append_nil]
    split_ifs <;> exact ht.2
  · push Not at hop
    obtain ⟨id, d, rfl⟩ := hop
    have hacks := acknowledge_acks env id d h hr ha
    rw [next_eq]
    split_ifs <;> exact hacks

theorem run_acks (ops : List (Env × Op)) (h : Invariant s) (hr : ResultsEnded s)
    (ha : AcksStored s.db acks) : AcksStored (runOps s ops).db (acks ++ acknowledgedIn s ops) := by
  induction ops generalizing s acks with
  | nil =>
    rw [acknowledgedIn, List.append_nil]
    exact ha
  | cons p ops ih =>
    rw [acknowledgedIn, ← List.append_assoc]
    exact ih (next_invariant p.1 p.2 s h).1 (next_results h hr p.1 p.2).1
      (next_acks h hr ha p.1 p.2)

end Columns

section Polling

variable {env : Env} {s t : Server} {id : Uuid} {d : Bytes} {stop : Stop}

omit [External] in
theorem acks_initial : AcksStored initial.db [] := by
  constructor
  · intro id hid
    simp [initial, Server.restore, Database.empty] at hid
  · intro id d hm
    cases hm

omit [External] in
theorem listed_iff {db : Database} {acks : List (Uuid × Bytes)} (h : Tables db)
    (ha : AcksStored db acks) : id ∈ getActiveDeviceTasks db d ↔
      d ∈ (db.taskParticipant id).map (·.deviceId) ∧ (id, d) ∉ acks := by
  rw [mem_getActiveDeviceTasks]
  have hcolumn : ∀ {row}, id ∈ db.task → row ∈ db.taskParticipant id →
      (row.acknowledgment = some true ↔ (id, row.deviceId) ∈ acks) := fun hid hrow =>
    ha.stored id hid _ (List.mem_map_of_mem hrow)
  constructor
  · rintro ⟨hid, row, hrow, hactive⟩
    simp only [isActive, Bool.and_eq_true, decide_eq_true_eq] at hactive
    obtain ⟨rfl, hopen⟩ := hactive
    refine ⟨List.mem_map_of_mem hrow, fun hm => ?_⟩
    have hacked := (hcolumn hid hrow).mpr hm
    obtain ⟨-, hres⟩ := ha.result id row.deviceId hm
    obtain ⟨result, hresult⟩ := Option.isSome_iff_exists.mp hres
    rw [hacked, hresult] at hopen
    cases hopen
  · rintro ⟨hmem, hnot⟩
    obtain ⟨row, hrow, rfl⟩ := List.mem_map.mp hmem
    have hid : id ∈ db.task := by
      by_contra hid
      rw [(h.constraints.orphan id hid).1] at hrow
      cases hrow
    refine ⟨hid, row, hrow, ?_⟩
    have hack := mt (hcolumn hid hrow).mp hnot
    simp only [isActive, Bool.and_eq_true, decide_eq_true_eq, true_and]
    match hc : row.acknowledgment with
    | none => simp
    | some false => simp
    | some true => exact absurd hc hack

/-- In every run, with calls failing and the process stopping anywhere: a device is listed the
tasks it participates in, except for those of which it has got an acknowledgement confirmed. A
poll succeeds if all of them are found, and shows each as it is. -/
theorem poll_lists_unacknowledged (ops : List (Env × Op)) (env : Env) (query : Fault)
    (d : Bytes) :
    let s := runOps initial ops
    (∀ id, id ∈ getActiveDeviceTasks s.db d ↔
      d ∈ (s.db.taskParticipant id).map (·.deviceId) ∧ (id, d) ∉ acknowledgedIn initial ops) ∧
    (getActiveDeviceTasks s.db d).Pairwise (· < ·) ∧
    ((∃ views, (outcome (getFormattedActiveDeviceTasks env query d) s).1 = .ok views) ↔
      query = .served ∧ ∀ id ∈ getActiveDeviceTasks s.db d, ∃ e, Loaded env s id e) ∧
    (∀ views, (outcome (getFormattedActiveDeviceTasks env query d) s).1 = .ok views →
      List.Forall₂ (fun id view => ∃ e, Found s id e ∧ view = e.format (some d) none)
        (getActiveDeviceTasks s.db d) views) ∧
    ∀ id e, Found (outcome (getFormattedActiveDeviceTasks env query d) s).2 id e ↔
      Found s id e := by
  intro s
  have hreach : Reachable s := reachable_later .initial (later_runOps initial ops)
  have hi := reachable_invariant hreach
  have hacks : AcksStored s.db (acknowledgedIn initial ops) := by
    have hstart := acks_initial
    exact run_acks ops (reachable_invariant .initial) (reachable_results .initial) hstart
  obtain ⟨hreads, hpoll⟩ := listing_post env query (some d) (getActiveDeviceTasks · d) s
  refine ⟨fun id => listed_iff hi.tables hacks, getActiveDeviceTasks_sorted hi.tables d, ?_, ?_,
    fun id e => hreads.found⟩
  · rcases hpoll with ⟨hserved, hlisted⟩ | ⟨hfault, stop, herr⟩
    · exact hlisted.ok_iff.trans ⟨fun h => ⟨hserved, h⟩, fun h => h.2⟩
    · refine ⟨?_, fun h => absurd h.1 hfault⟩
      rintro ⟨views, hok⟩
      cases hok.symm.trans herr
  · intro views hok
    rcases hpoll with ⟨-, hlisted⟩ | ⟨-, stop, herr⟩
    · exact Listed.views (hok ▸ hlisted)
    · cases hok.symm.trans herr

/-- A stored task that is not cached and that hydration refuses. -/
structure Lost (id : Uuid) (s : Server) : Prop where
  stored : id ∈ s.db.task
  miss : s.taskCache id = none
  refused : ∃ stop, hydrateTask s.db id = .error stop

omit [External] in
theorem Lost.not_loaded {e : TaskEntry} (h : Lost id s) : ¬ Loaded env s id e := by
  intro hl
  obtain ⟨stop, hstop⟩ := h.refused
  cases hl with
  | hit hc =>
    rw [h.miss] at hc
    cases hc
  | hydrated _ _ hh =>
    rw [hstop] at hh
    cases hh

omit [External] in
theorem Lost.congr {s' : Server} (h : Lost id s) (hi : Invariant s) (hx : Extends s.db s'.db)
    (hsame : SameTask s.db s'.db id) (hc : s'.taskCache id = none) : Lost id s' := by
  obtain ⟨row, hrow⟩ := exists_row h.stored
  refine ⟨hx.mem h.stored, hc, ?_⟩
  rw [hydrateTask_congr hi.tables hx hsame hrow]
  exact h.refused

/-- No operation gets hold of a lost task, so its rows stay as they are. -/
theorem move_lost {op : Op} {r : Except Stop Unit} {s' : Server} (hi : Invariant s)
    (h : Lost id s) (m : Move env op s r s') : Lost id s' ∧ SameTask s.db s'.db id := by
  have hx := (move_invariant hi m).2
  cases m with
  | refused => exact ⟨h, .refl _ _⟩
  | aside ha =>
    have hsame : SameTask s.db s'.db id := ha.db ▸ .refl _ _
    exact ⟨h.congr hi hx hsame (ha.taskCache ▸ h.miss), hsame⟩
  | addDevice w =>
    have hsame := sameTask_addDevice w.write id
    exact ⟨h.congr hi hx hsame h.miss, hsame⟩
  | @addTask v db _ w =>
    obtain ⟨-, -, hins⟩ := createRows_ok w.write
    have hne := createRows_new w.write h.stored
    have hsame := (insertTask_frame hi.tables.constraints hins).2.1 id hne
    exact ⟨h.congr hi hx hsame ((cached_of_ne hne).trans h.miss), hsame⟩
  | restart =>
    have hsame := SameTask.refl s.db id
    exact ⟨h.congr hi hx hsame rfl, hsame⟩
  | @task j e _ g loaded body =>
    have hne : id ≠ j := by
      rintro rfl
      exact h.not_loaded loaded
    have hs := task_sound hi loaded body
    have hsame := hs.others id hne
    refine ⟨h.congr hi hx hsame ?_, hsame⟩
    rw [cached_of_ne hne, hs.taskCache, cached_of_ne hne]
    exact h.miss

theorem next_lost (hi : Invariant s) (h : Lost id s) (env : Env) (op : Op) :
    Lost id (next env op s) ∧ SameTask s.db (next env op s).db id := by
  obtain ⟨t, hruns, hn⟩ := next_runs env op s hi
  have ht := hruns.keeps
    (P := fun t => Invariant t ∧ Lost id t ∧ SameTask s.db t.db id) ?_ ⟨hi, h, .refl _ _⟩
  · rw [hn]
    split_ifs
    · have hsame := SameTask.refl t.db id
      exact ⟨ht.2.1.congr ht.1 (.refl _) hsame rfl, ht.2.2⟩
    · exact ht.2
  · rintro a _ b ⟨ha, hla, hsame⟩ m
    obtain ⟨hlb, hsame'⟩ := move_lost ha hla m
    exact ⟨(move_invariant ha m).1, hlb, hsame.trans hsame'⟩

theorem later_lost (hi : Invariant s) (h : Lost id s) (hl : Later s t) :
    Invariant t ∧ Lost id t ∧ SameTask s.db t.db id := by
  induction hl with
  | refl => exact ⟨hi, h, .refl _ _⟩
  | tail _ step ih =>
    obtain ⟨env, op, rfl⟩ := step
    obtain ⟨hi', hl', hsame⟩ := ih
    obtain ⟨hl'', hsame'⟩ := next_lost hi' hl' env op
    exact ⟨(next_invariant env op _ hi').1, hl'', hsame.trans hsame'⟩

omit [External] in
theorem Lost.open (hi : Invariant s) (h : Lost id s) : s.db.taskResult id = none := by
  obtain ⟨row, hrow⟩ := exists_row h.stored
  obtain ⟨stop, hstop⟩ := h.refused
  have ho := hydrate_outcome hi.tables hrow
  rw [hstop] at ho
  cases ho with
  | noCommunicator stored => exact stored
  | unsupported stored => exact stored

omit [External] in
theorem Lost.blocks {query : Fault} {viewer : Option Bytes} (h : Lost id s)
    (select : Database → List Uuid) (hid : id ∈ select s.db) : ∃ stop, (outcome (do
      repoQuery query; formatTasks env viewer (select (← get).db)) s).1 = .error stop := by
  obtain ⟨-, hlisting⟩ := listing_post env query viewer select s
  rcases hlisting with ⟨-, hlisted⟩ | ⟨-, stop, herr⟩
  · rcases hlisted with ⟨entries, hall, hok⟩ | ⟨_, _, _, stop, _, herr⟩
    · have hfound := Listed.ok_iff (.inl ⟨entries, hall, hok⟩) |>.mp ⟨_, hok⟩
      obtain ⟨e, he⟩ := hfound id hid
      exact absurd he h.not_loaded
    · exact ⟨stop, herr⟩
  · exact ⟨stop, herr⟩

theorem result_notLoaded {op : Op} (hop : target op = some id) (h : NotLoaded env s id stop) :
    result env op s = .error stop := by
  cases op with
  | decideTask | updateTask | acknowledgeTask =>
    cases hop
    rw [result, outcome, exec]
    simp only [decideTask, updateTask, acknowledgeTask, withTaskMut_notLoaded h]
  | getFormattedTask j viewer =>
    cases hop
    have hread := discard_post (m := getFormattedTask env id viewer) (s := s)
      (Q := fun r _ => r = .error stop)
    rw [post, post, getFormattedTask_notLoaded h] at hread
    exact hread.mpr rfl
  | addDevice | activateDevice | addGroupTask | addSignTask | addDecryptTask
  | restartStaleTasks | restartServer => cases hop

/-- A task that cannot be rebuilt is never repaired, whatever is called later: its rows stay as
they are. It cannot be read, decided, updated or acknowledged, and it takes all the tasks with it
that are listed together with it: those of its participants, and those of a listing of all
tasks. -/
theorem lost_task_blocks_listings (h : Reachable s) (hlost : Lost id s) (hl : Later s t)
    (env : Env) :
    Lost id t ∧ SameTask s.db t.db id ∧
    (∀ op, target op = some id → ∃ stop, result env op t = .error stop) ∧
    (∀ query, ∃ stop, (outcome (getFormattedTasks env query) t).1 = .error stop) ∧
    ∀ query, ∀ row ∈ s.db.taskParticipant id, ∃ stop,
      (outcome (getFormattedActiveDeviceTasks env query row.deviceId) t).1 = .error stop := by
  obtain ⟨hi, hlost, hsame⟩ := later_lost (reachable_invariant h) hlost hl
  refine ⟨hlost, hsame, fun op hop => ?_, fun query => ?_, fun query row hrow => ?_⟩
  · rcases lockedTask_post env t id with ⟨stop, -, hn⟩ | ⟨e, -, hl⟩
    · exact ⟨stop, result_notLoaded hop hn⟩
    · exact absurd hl hlost.not_loaded
  · exact hlost.blocks getTasks (mem_getTasks.mpr hlost.stored)
  · refine hlost.blocks (getActiveDeviceTasks · row.deviceId) ?_
    rw [← hsame.participant] at hrow
    refine mem_getActiveDeviceTasks.mpr ⟨hlost.stored, row, hrow, ?_⟩
    simp [isActive, hlost.open hi]

omit [External] in
theorem refused_of_isNone {x : Except Stop TaskEntry} (h : x.toOption.isNone) :
    ∃ stop, x = .error stop := by
  cases x with
  | error stop => exact ⟨stop, rfl⟩
  | ok e => cases h

/-- Alice and Bob approve a group with a key type that its protocol does not have, and the
server is restarted. No call fails before. -/
def unsupportedApproved : List (Env × Op) := servedOps 0 0
  [.addDevice alice, .addDevice bob,
    .addGroupTask "Group" ⟨[alice.id, bob.id], pair_fits⟩ 2 .frost .decrypt none,
    .decideTask 0 alice.id true, .decideTask 0 bob.id true, .restartServer]

omit [External] in
/-- Alice cannot list any task any more. -/
theorem lost_task_blocks_listings_group :
    Lost 0 (@runOps plainExternal initial unsupportedApproved) ∧
    ∃ stop, (outcome (getFormattedActiveDeviceTasks (servingEnv 1 1) .served alice.id)
      (@runOps plainExternal initial unsupportedApproved)).1 = .error stop := by
  have hlost : Lost 0 (@runOps plainExternal initial unsupportedApproved) := by
    refine ⟨by decide +kernel, by decide +kernel, refused_of_isNone (by decide +kernel)⟩
  have hreach := @reachable_later plainExternal _ _ (@Reachable.initial plainExternal)
    (@later_runOps plainExternal initial unsupportedApproved)
  have hrow : ∃ row ∈ (@runOps plainExternal initial unsupportedApproved).db.taskParticipant 0,
      row.deviceId = alice.id := by decide +kernel
  obtain ⟨row, hmem, hid⟩ := hrow
  have hblocked := (@lost_task_blocks_listings plainExternal _ _ 0 hreach hlost .refl
    (servingEnv 1 1)).2.2.2.2 .served row hmem
  rw [hid] at hblocked
  exact ⟨hlost, hblocked⟩

end Polling

end TaskListings
