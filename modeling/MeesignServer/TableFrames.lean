import MeesignServer.DatabaseModel

/-!
# What a write leaves alone

A write touches the rows of at most one task, and no write changes who a device,
a group or a participant is.
-/
namespace TableFrames

open FiniteMap DataModel VotingModel DatabaseModel

/-- A task row without the columns that are updated while the task runs. -/
def fixed (row : TaskRow) : TaskRow :=
  { row with protocolRound := 0, attemptCount := 0, groupCertificatesSent := none }

theorem fixed_congr {α : Type} {row row' : TaskRow} (h : fixed row' = fixed row)
    (column : TaskRow → α) (hc : ∀ row, column (fixed row) = column row) :
    column row' = column row := by
  rw [← hc, h, hc]

/-- The checks and foreign keys of the participant rows, and no rows for tasks that do not
exist. -/
structure Constraints (db : Database) : Prop where
  task_device : ∀ id, ∀ r ∈ db.taskParticipant id, (db.findDevice r.deviceId).isSome
  task_shares : ∀ id, ∀ r ∈ db.taskParticipant id, 0 < r.shares ∧ r.shares ≤ maxI32
  group_device : ∀ r ∈ db.groupParticipant, (db.findDevice r.deviceId).isSome
  group : ∀ r ∈ db.groupParticipant, (db.getGroup r.groupId).isSome
  orphan : ∀ id, id ∉ db.task → db.taskParticipant id = [] ∧ db.taskResult id = none ∧
    db.activeTaskParticipant id = ∅

/-- Everything that is known of devices, groups and the fixed part of tasks stays. -/
structure Extends (db db' : Database) : Prop where
  device : ∀ d device, db.findDevice d = some device → db'.findDevice d = some device
  group : ∀ g group, db.getGroup g = some group → db'.getGroup g = some group ∧
    db'.getGroupParticipants g = db.getGroupParticipants g
  task : ∀ id row, db.task.lookup id = some row →
    ∃ row', db'.task.lookup id = some row' ∧ fixed row' = fixed row
  participants : ∀ id, id ∈ db.task → db'.getTaskParticipants id = db.getTaskParticipants id

structure SameTask (db db' : Database) (id : Uuid) : Prop where
  task : db'.task.lookup id = db.task.lookup id
  participant : db'.taskParticipant id = db.taskParticipant id
  result : db'.taskResult id = db.taskResult id
  active : db'.activeTaskParticipant id = db.activeTaskParticipant id

theorem Extends.refl (db : Database) : Extends db db :=
  ⟨fun _ _ h => h, fun _ _ h => ⟨h, rfl⟩, fun _ row h => ⟨row, h, rfl⟩, fun _ _ => rfl⟩

theorem Extends.mem {db db' : Database} (h : Extends db db') {id : Uuid} (hid : id ∈ db.task) :
    id ∈ db'.task := by
  obtain ⟨row, hrow⟩ := Option.isSome_iff_exists.mp (AList.lookup_isSome.mpr hid)
  obtain ⟨row', hrow', _⟩ := h.task id row hrow
  exact AList.lookup_isSome.mp (by simp [hrow'])

theorem Extends.trans {a b c : Database} (h : Extends a b) (h' : Extends b c) : Extends a c where
  device d device hd := h'.device d device (h.device d device hd)
  group g group hg := by
    obtain ⟨hb, hp⟩ := h.group g group hg
    obtain ⟨hc, hp'⟩ := h'.group g group hb
    exact ⟨hc, hp'.trans hp⟩
  task id row hrow := by
    obtain ⟨row', hrow', hf⟩ := h.task id row hrow
    obtain ⟨row'', hrow'', hf'⟩ := h'.task id row' hrow'
    exact ⟨row'', hrow'', hf'.trans hf⟩
  participants id hid := (h'.participants id (h.mem hid)).trans (h.participants id hid)

theorem SameTask.refl (db : Database) (id : Uuid) : SameTask db db id := ⟨rfl, rfl, rfl, rfl⟩

theorem SameTask.trans {a b c : Database} {id : Uuid} (h : SameTask a b id)
    (h' : SameTask b c id) : SameTask a c id :=
  ⟨h'.task.trans h.task, h'.participant.trans h.participant, h'.result.trans h.result,
    h'.active.trans h.active⟩

/-- A write that only touches the rows of task `id`. -/
structure WritesTask (id : Uuid) (db db' : Database) : Prop extends Extends db db' where
  others : ∀ j, j ≠ id → SameTask db db' j
  constraints : Constraints db → Constraints db'
  old : ∀ j, j ∈ db'.task → j ∈ db.task
  devices : db'.findDevice = db.findDevice
  groups : db'.getGroup = db.getGroup

theorem getTaskParticipants_of_map {db db' : Database} {id : Uuid}
    (f : TaskParticipantRow → TaskParticipantRow)
    (hf : ∀ r, (f r).deviceId = r.deviceId ∧ (f r).shares = r.shares)
    (hrows : db'.taskParticipant id = (db.taskParticipant id).map f)
    (hdev : db'.findDevice = db.findDevice) :
    db'.getTaskParticipants id = db.getTaskParticipants id := by
  simp only [Database.getTaskParticipants, hrows, List.filterMap_map, hdev]
  congr 1
  funext r
  simp [hf r]

theorem writesTask_rows {db : Database} {id : Uuid}
    (f : TaskParticipantRow → TaskParticipantRow)
    (hf : ∀ r, (f r).deviceId = r.deviceId ∧ (f r).shares = r.shares) :
    WritesTask id db { db with
      taskParticipant := Function.update db.taskParticipant id
        ((db.taskParticipant id).map f) } where
  device _ _ h := h
  group _ _ h := ⟨h, rfl⟩
  task _ row h := ⟨row, h, rfl⟩
  participants j _ := by
    by_cases hj : j = id
    · subst hj
      exact getTaskParticipants_of_map f hf (by simp) rfl
    · simp only [Database.getTaskParticipants, Function.update_of_ne hj]
      rfl
  others j hj := ⟨rfl, Function.update_of_ne hj _ _, rfl, rfl⟩
  constraints h :=
    { task_device := by
        intro j r hr
        by_cases hj : j = id
        · subst hj
          simp only [Function.update_self, List.mem_map] at hr
          obtain ⟨r, hr, rfl⟩ := hr
          rw [(hf r).1]
          exact h.task_device j r hr
        · simp only [Function.update_of_ne hj] at hr
          exact h.task_device j r hr
      task_shares := by
        intro j r hr
        by_cases hj : j = id
        · subst hj
          simp only [Function.update_self, List.mem_map] at hr
          obtain ⟨r, hr, rfl⟩ := hr
          rw [(hf r).2]
          exact h.task_shares j r hr
        · simp only [Function.update_of_ne hj] at hr
          exact h.task_shares j r hr
      group_device := h.group_device
      group := h.group
      orphan := by
        intro j hj
        obtain ⟨h₁, h₂, h₃⟩ := h.orphan j hj
        refine ⟨?_, h₂, h₃⟩
        by_cases hid : j = id
        · subst hid
          simp [h₁]
        · simp only [Function.update_of_ne hid, h₁] }
  old _ h := h
  devices := rfl
  groups := rfl

theorem writesTask_setTaskDecision (db : Database) (id : Uuid) (d : Bytes) (accept : Bool) :
    WritesTask id db (db.setTaskDecision id d accept) :=
  writesTask_rows _ fun r => by split_ifs <;> exact ⟨rfl, rfl⟩

theorem writesTask_setTaskAcknowledgement (db : Database) (id : Uuid) (d : Bytes) :
    WritesTask id db (db.setTaskAcknowledgement id d) :=
  writesTask_rows _ fun r => by split_ifs <;> exact ⟨rfl, rfl⟩

theorem writesTask_modify {db : Database} {id : Uuid} {row : TaskRow} (f : TaskRow → TaskRow)
    (hf : ∀ row, fixed (f row) = fixed row) (h : db.task.lookup id = some row) :
    WritesTask id db { db with task := db.task.insert id (f row) } where
  device _ _ h := h
  group _ _ h := ⟨h, rfl⟩
  task j row' h' := by
    by_cases hj : j = id
    · subst hj
      rw [h] at h'
      cases h'
      exact ⟨f row, AList.lookup_insert _, hf row⟩
    · exact ⟨row', by rw [AList.lookup_insert_ne hj, h'], rfl⟩
  participants _ _ := rfl
  others j hj := ⟨AList.lookup_insert_ne hj, rfl, rfl, rfl⟩
  constraints hr :=
    { task_device := hr.task_device
      task_shares := hr.task_shares
      group_device := hr.group_device
      group := hr.group
      orphan := fun j hj => hr.orphan j fun h' => hj (AList.mem_insert _ |>.mpr (.inr h')) }
  old j hj := by
    rcases (AList.mem_insert _).mp hj with rfl | hj
    · exact AList.lookup_isSome.mp (by simp [h])
    · exact hj
  devices := rfl
  groups := rfl

theorem exists_row {db : Database} {id : Uuid} (h : id ∈ db.task) :
    ∃ row, db.task.lookup id = some row :=
  Option.isSome_iff_exists.mp (AList.lookup_isSome.mpr h)

theorem mem_of_row {db : Database} {id : Uuid} {row : TaskRow}
    (h : db.task.lookup id = some row) : id ∈ db.task :=
  AList.lookup_isSome.mp (by simp [h])

theorem modifyTask_of_row {db : Database} {id : Uuid} {row : TaskRow}
    (h : db.task.lookup id = some row) (f : TaskRow → TaskRow) :
    db.modifyTask id f = { db with task := db.task.insert id (f row) } := by
  simp [Database.modifyTask, h]

theorem setTaskRound_ok {db db' : Database} {id : Uuid} {round : ℕ}
    (h : db.setTaskRound id round = .ok db') : ∃ row, db.task.lookup id = some row ∧
      db' = { db with task := db.task.insert id { row with protocolRound := round } } := by
  unfold Database.setTaskRound at h
  split_ifs at h with hid
  obtain ⟨row, hrow⟩ := exists_row hid
  refine ⟨row, hrow, ?_⟩
  rw [modifyTask_of_row hrow] at h
  exact (Except.ok.inj h).symm

theorem incrementTaskAttemptCount_ok {db db' : Database} {id : Uuid}
    (h : db.incrementTaskAttemptCount id = .ok db') : ∃ row, db.task.lookup id = some row ∧
      row.attemptCount < maxI32 ∧ db' = { db with
        task := db.task.insert id { row with attemptCount := row.attemptCount + 1 } } := by
  unfold Database.incrementTaskAttemptCount at h
  split at h
  · cases h
  · rename_i row hrow
    split_ifs at h with hlt
    exact ⟨row, hrow, hlt, (Except.ok.inj h).symm⟩

theorem incrementTaskAttemptCount_row {db db' : Database} {id : Uuid}
    (h : db.incrementTaskAttemptCount id = .ok db') : ∃ row, db'.task.lookup id = some row := by
  obtain ⟨row, -, -, rfl⟩ := incrementTaskAttemptCount_ok h
  exact ⟨_, AList.lookup_insert _⟩

theorem setTaskResult_ok {db db' : Database} {id : Uuid} {result : Except String Bytes}
    (h : db.setTaskResult id result = .ok db') : id ∈ db.task ∧ db' = { db with
      taskResult := Function.update db.taskResult id (some (NewTaskResult.ofResult result)) } := by
  unfold Database.setTaskResult at h
  split_ifs at h with hid
  exact ⟨hid, (Except.ok.inj h).symm⟩

theorem setTaskActiveShares_ok {db db' : Database} {id : Uuid} {shares : Map Bytes ℕ}
    (h : db.setTaskActiveShares id shares = .ok db') :
    (∀ e ∈ shares.entries, db.activeShareInsertable id e.1 e.2) ∧ db' = { db with
      activeTaskParticipant := Function.update db.activeTaskParticipant id
        (db.activeTaskParticipant id ∪ mapValues asI32 shares) } := by
  unfold Database.setTaskActiveShares at h
  split_ifs at h with hall
  exact ⟨List.all_eq_true.mp hall, (Except.ok.inj h).symm⟩

theorem writesTask_setTaskRound {db db' : Database} {id : Uuid} {round : ℕ}
    (h : db.setTaskRound id round = .ok db') : WritesTask id db db' := by
  obtain ⟨row, hrow, rfl⟩ := setTaskRound_ok h
  exact writesTask_modify (fun row => { row with protocolRound := round }) (fun _ => rfl) hrow

theorem writesTask_incrementTaskAttemptCount {db db' : Database} {id : Uuid}
    (h : db.incrementTaskAttemptCount id = .ok db') : WritesTask id db db' := by
  obtain ⟨row, hrow, _, rfl⟩ := incrementTaskAttemptCount_ok h
  exact writesTask_modify (fun row => { row with attemptCount := row.attemptCount + 1 })
    (fun _ => rfl) hrow

theorem writesTask_setTaskGroupCertificatesSent {db : Database} {id : Uuid} {row : TaskRow}
    (h : db.task.lookup id = some row) (sent : Option Bool) :
    WritesTask id db (db.setTaskGroupCertificatesSent id sent) := by
  rw [Database.setTaskGroupCertificatesSent, modifyTask_of_row h]
  exact writesTask_modify (fun row => { row with groupCertificatesSent := sent })
    (fun _ => rfl) h

theorem writesTask_setTaskResult {db db' : Database} {id : Uuid} {result : Except String Bytes}
    (h : db.setTaskResult id result = .ok db') : WritesTask id db db' := by
  obtain ⟨hid, rfl⟩ := setTaskResult_ok h
  exact {
    device := fun _ _ h => h
    group := fun _ _ h => ⟨h, rfl⟩
    task := fun _ row h => ⟨row, h, rfl⟩
    participants := fun _ _ => rfl
    others := fun j hj => ⟨rfl, rfl, Function.update_of_ne hj _ _, rfl⟩
    constraints := fun hr =>
      { task_device := hr.task_device
        task_shares := hr.task_shares
        group_device := hr.group_device
        group := hr.group
        orphan := by
          intro j hj
          have hne : j ≠ id := fun h => hj (h ▸ hid)
          simpa only [Function.update_of_ne hne] using hr.orphan j hj }
    old := fun _ h => h
    devices := rfl
    groups := rfl }

theorem writesTask_setTaskActiveShares {db db' : Database} {id : Uuid} {shares : Map Bytes ℕ}
    (hid : id ∈ db.task) (h : db.setTaskActiveShares id shares = .ok db') :
    WritesTask id db db' := by
  obtain ⟨-, rfl⟩ := setTaskActiveShares_ok h
  exact {
    device := fun _ _ h => h
    group := fun _ _ h => ⟨h, rfl⟩
    task := fun _ row h => ⟨row, h, rfl⟩
    participants := fun _ _ => rfl
    others := fun j hj => ⟨rfl, rfl, rfl, Function.update_of_ne hj _ _⟩
    constraints := fun hr =>
      { task_device := hr.task_device
        task_shares := hr.task_shares
        group_device := hr.group_device
        group := hr.group
        orphan := by
          intro j hj
          have hne : j ≠ id := fun h => hj (h ▸ hid)
          simpa only [Function.update_of_ne hne] using hr.orphan j hj }
    old := fun _ h => h
    devices := rfl
    groups := rfl }

theorem addDevice_ok {db db' : Database} {device : Device} (h : db.addDevice device = .ok db') :
    db.findDevice device.id = none ∧ db' = { db with device := db.device ++ [device] } := by
  unfold Database.addDevice at h
  split_ifs at h with _ _ _ hd
  exact ⟨by simpa using hd, (Except.ok.inj h).symm⟩

theorem findDevice_addDevice {db : Database} {device : Device}
    (h : db.findDevice device.id = none) (d : Bytes) :
    ({ db with device := db.device ++ [device] } : Database).findDevice d =
      Function.update db.findDevice device.id (some device) d := by
  by_cases hd : d = device.id
  · subst hd
    unfold Database.findDevice at h
    simp [Database.findDevice, List.find?_append, h]
  · rw [Function.update_of_ne hd]
    simp [Database.findDevice, List.find?_append, Ne.symm hd]

theorem findDevice_mono {db : Database} {device : Device}
    (h : db.findDevice device.id = none) {d : Bytes} (hd : (db.findDevice d).isSome) :
    ({ db with device := db.device ++ [device] } : Database).findDevice d = db.findDevice d := by
  rw [findDevice_addDevice h, Function.update_of_ne]
  rintro rfl
  simp [h] at hd

theorem extends_addDevice {db db' : Database} {device : Device} (hr : Constraints db)
    (h : db.addDevice device = .ok db') : Extends db db' := by
  obtain ⟨hnone, rfl⟩ := addDevice_ok h
  refine ⟨fun d dev hd => ?_, fun g group hg => ⟨hg, ?_⟩, fun id row hrow => ⟨row, hrow, rfl⟩,
    fun id hid => ?_⟩
  · rw [findDevice_mono hnone (by simp [hd]), hd]
  · refine List.filterMap_congr fun r hrow => ?_
    rw [findDevice_mono hnone (hr.group_device r (List.mem_filter.mp hrow).1)]
  · refine List.filterMap_congr fun r hrow => ?_
    rw [findDevice_mono hnone (hr.task_device id r hrow)]

theorem constraints_addDevice {db db' : Database} {device : Device} (hr : Constraints db)
    (h : db.addDevice device = .ok db') : Constraints db' := by
  have hx := extends_addDevice hr h
  obtain ⟨hnone, rfl⟩ := addDevice_ok h
  refine ⟨fun id r hrow => ?_, hr.task_shares, fun r hrow => ?_, hr.group, hr.orphan⟩
  · rw [findDevice_mono hnone (hr.task_device id r hrow)]
    exact hr.task_device id r hrow
  · rw [findDevice_mono hnone (hr.group_device r hrow)]
    exact hr.group_device r hrow

theorem sameTask_addDevice {db db' : Database} {device : Device}
    (h : db.addDevice device = .ok db') (id : Uuid) : SameTask db db' id := by
  obtain ⟨-, rfl⟩ := addDevice_ok h
  exact ⟨rfl, rfl, rfl, rfl⟩

def withGroup (db : Database) (taskId : Uuid) (row : GroupRow) : Database :=
  { db with
    group := db.group ++ [row]
    groupParticipant := db.groupParticipant ++
      (db.taskParticipant taskId).map fun r => ⟨row.id, r.deviceId, r.shares⟩ }

theorem addGroup_ok {db db' : Database} {taskId : Uuid} {id : Bytes} {name : String}
    {threshold : ℕ} {protocol : ProtocolType} {keyType : KeyType} {certificate : Option Bytes}
    {note : Option String} (hid : taskId ∈ db.task)
    (h : db.addGroup taskId id name threshold protocol keyType certificate note = .ok db') :
    threshold ≤ maxI32 ∧ threshold ≠ 0 ∧ db.getGroup id = none ∧
      db' = withGroup db taskId ⟨id, name, threshold, protocol, keyType, certificate, note⟩ := by
  unfold Database.addGroup at h
  split_ifs at h with hmax _ hnew
  · simp only [Bool.or_eq_true, decide_eq_true_eq, not_or] at hnew
    exact ⟨not_lt.mp hmax, hnew.2, by simpa [Database.getGroup] using hnew.1,
      (Except.ok.inj h).symm⟩

/-- The rows of the participants and the active shares are as they were. -/
structure SameParticipation (db db' : Database) : Prop where
  rows : db'.taskParticipant = db.taskParticipant
  active : db'.activeTaskParticipant = db.activeTaskParticipant

theorem SameParticipation.trans {a b c : Database} (h : SameParticipation a b)
    (h' : SameParticipation b c) : SameParticipation a c :=
  ⟨h'.rows.trans h.rows, h'.active.trans h.active⟩

/-- The write of a task that goes on, which leaves its result alone as well. -/
structure ProgressOnly (db db' : Database) : Prop extends SameParticipation db db' where
  result : db'.taskResult = db.taskResult

theorem progressOnly_modifyTask (db : Database) (id : Uuid) (f : TaskRow → TaskRow) :
    ProgressOnly db (db.modifyTask id f) := by
  unfold Database.modifyTask
  split <;> exact ⟨⟨rfl, rfl⟩, rfl⟩

theorem progressOnly_certificatesSent {db db' : Database} {id : Uuid} {sent : Option Bool}
    (h : (.ok (db.setTaskGroupCertificatesSent id sent) : Except PersistenceError Database) =
      .ok db') : ProgressOnly db db' := by
  rw [← Except.ok.inj h]
  exact progressOnly_modifyTask ..

theorem progressOnly_setTaskRound {db db' : Database} {id : Uuid} {round : ℕ}
    (h : db.setTaskRound id round = .ok db') : ProgressOnly db db' := by
  unfold Database.setTaskRound at h
  split_ifs at h
  rw [← Except.ok.inj h]
  exact progressOnly_modifyTask ..

theorem progressOnly_addGroup {db db' : Database} {taskId : Uuid} {id : Bytes} {name : String}
    {threshold : ℕ} {protocol : ProtocolType} {keyType : KeyType} {certificate : Option Bytes}
    {note : Option String}
    (h : db.addGroup taskId id name threshold protocol keyType certificate note = .ok db') :
    ProgressOnly db db' := by
  unfold Database.addGroup at h
  split_ifs at h <;> (rw [← Except.ok.inj h]; exact ⟨⟨rfl, rfl⟩, rfl⟩)

theorem progressOnly_incrementTaskAttemptCount {db db' : Database} {id : Uuid}
    (h : db.incrementTaskAttemptCount id = .ok db') : ProgressOnly db db' := by
  obtain ⟨row, -, -, rfl⟩ := incrementTaskAttemptCount_ok h
  exact ⟨⟨rfl, rfl⟩, rfl⟩

theorem sameParticipation_setTaskResult {db db' : Database} {id : Uuid}
    {result : Except String Bytes} (h : db.setTaskResult id result = .ok db') :
    SameParticipation db db' := by
  obtain ⟨-, rfl⟩ := setTaskResult_ok h
  exact ⟨rfl, rfl⟩

section WithGroup

variable {db : Database} (taskId : Uuid) {row : GroupRow}

theorem getGroup_withGroup_of_ne (db : Database) {g : Bytes} (hg : g ≠ row.id) :
    (withGroup db taskId row).getGroup g = db.getGroup g ∧
      (withGroup db taskId row).getGroupParticipants g = db.getGroupParticipants g := by
  have hrows : (withGroup db taskId row).groupParticipant.filter (fun r => r.groupId = g) =
      db.groupParticipant.filter (fun r => r.groupId = g) := by
    simp [withGroup, List.filter_append, List.filter_map, Function.comp_def, Ne.symm hg]
  refine ⟨?_, ?_⟩
  · simp only [Database.getGroup, hrows]
    simp [withGroup, List.find?_append, Ne.symm hg]
  · simp only [Database.getGroupParticipants, hrows]
    rfl

theorem getGroup_withGroup_self (hr : Constraints db) (hnew : db.getGroup row.id = none) :
    (∃ shares, (withGroup db taskId row).getGroup row.id = some (row.toGroup shares)) ∧
      (withGroup db taskId row).getGroupParticipants row.id = db.getTaskParticipants taskId := by
  have hold : db.groupParticipant.filter (fun r => r.groupId = row.id) = [] := by
    rw [List.filter_eq_nil_iff]
    intro r hrow hid
    have := hr.group r hrow
    rw [of_decide_eq_true hid, hnew] at this
    cases this
  have hrows : (withGroup db taskId row).groupParticipant.filter (fun r => r.groupId = row.id) =
      (db.taskParticipant taskId).map fun r => ⟨row.id, r.deviceId, r.shares⟩ := by
    simp [withGroup, List.filter_append, hold, List.filter_map, Function.comp_def]
  have hfind : (withGroup db taskId row).group.find? (fun r => r.id = row.id) = some row := by
    have : db.group.find? (fun r => r.id = row.id) = none := by
      simpa [Database.getGroup] using hnew
    simp [withGroup, List.find?_append, this]
  constructor
  · exact ⟨_, congrArg (Option.map _) hfind⟩
  · simp only [Database.getGroupParticipants, hrows, List.filterMap_map]
    rfl

theorem extends_withGroup (hnew : db.getGroup row.id = none) :
    Extends db (withGroup db taskId row) := by
  refine ⟨fun d device h => h, fun g group hg => ?_, fun id row h => ⟨row, h, rfl⟩,
    fun _ _ => rfl⟩
  have hne : g ≠ row.id := by
    rintro rfl
    rw [hnew] at hg
    cases hg
  obtain ⟨h₁, h₂⟩ := getGroup_withGroup_of_ne taskId db hne
  exact ⟨h₁.trans hg, h₂⟩

theorem constraints_withGroup (hr : Constraints db) (hnew : db.getGroup row.id = none) :
    Constraints (withGroup db taskId row) := by
  have hx := extends_withGroup taskId hnew
  refine ⟨hr.task_device, hr.task_shares, fun r hrow => ?_, fun r hrow => ?_, hr.orphan⟩
  · rcases List.mem_append.mp hrow with h | h
    · exact hr.group_device r h
    · obtain ⟨r, hr', rfl⟩ := List.mem_map.mp h
      exact hr.task_device taskId r hr'
  · rcases List.mem_append.mp hrow with h | h
    · obtain ⟨group, hg⟩ := Option.isSome_iff_exists.mp (hr.group r h)
      simp [(hx.group _ group hg).1]
    · obtain ⟨r, hr', rfl⟩ := List.mem_map.mp h
      obtain ⟨⟨shares, hs⟩, -⟩ := getGroup_withGroup_self taskId hr hnew
      simp [hs]

end WithGroup

theorem insertTask_ok {db db' : Database} {id : Uuid} {row : TaskRow}
    {participants : List (Bytes × ℕ)} (h : db.insertTask id row participants = .ok db') :
    id ∉ db.task ∧ 0 < row.threshold ∧ db.ParticipantsInsertable participants ∧
      db' = { db with
        task := db.task.insert id row
        taskParticipant := Function.update db.taskParticipant id
          (participants.map Database.newTaskParticipant) } := by
  unfold Database.insertTask at h
  split_ifs at h with hc
  simp only [Bool.or_eq_true, decide_eq_true_eq, Bool.not_eq_true', decide_eq_false_iff_not,
    not_or, not_le, not_not] at hc
  exact ⟨hc.1.1, hc.1.2, hc.2, (Except.ok.inj h).symm⟩

theorem insertTask_frame {db db' : Database} {id : Uuid} {row : TaskRow}
    {participants : List (Bytes × ℕ)} (hr : Constraints db)
    (h : db.insertTask id row participants = .ok db') :
    Extends db db' ∧ (∀ j, j ≠ id → SameTask db db' j) ∧ Constraints db' := by
  obtain ⟨hid, -, hins, rfl⟩ := insertTask_ok h
  refine ⟨⟨fun _ _ h => h, fun _ _ h => ⟨h, rfl⟩, fun j row' hrow => ?_, fun j hj => ?_⟩,
    fun j hj => ⟨AList.lookup_insert_ne hj, Function.update_of_ne hj _ _, rfl, rfl⟩,
    ⟨fun j r hrow => ?_, fun j r hrow => ?_, hr.group_device, hr.group, fun j hj => ?_⟩⟩
  · have hne : j ≠ id := fun he => hid (he ▸ mem_of_row hrow)
    exact ⟨row', by rw [AList.lookup_insert_ne hne, hrow], rfl⟩
  · have hne : j ≠ id := fun he => hid (he ▸ hj)
    simp only [Database.getTaskParticipants, Function.update_of_ne hne]
    rfl
  · by_cases hne : j = id
    · subst hne
      simp only [Function.update_self, List.mem_map] at hrow
      obtain ⟨p, hp, rfl⟩ := hrow
      exact (hins.2 p hp).1
    · simp only [Function.update_of_ne hne] at hrow
      exact hr.task_device j r hrow
  · by_cases hne : j = id
    · subst hne
      simp only [Function.update_self, List.mem_map] at hrow
      obtain ⟨p, hp, rfl⟩ := hrow
      simp only [Database.newTaskParticipant]
      exact ⟨(hins.2 p hp).2, asI32_le p.2⟩
    · simp only [Function.update_of_ne hne] at hrow
      exact hr.task_shares j r hrow
  · simp only [AList.mem_insert, not_or] at hj
    simpa only [Function.update_of_ne hj.1] using hr.orphan j hj.2

end TableFrames
