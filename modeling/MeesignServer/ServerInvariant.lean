import MeesignServer.TableFrames
import MeesignServer.VoteTally
import MeesignServer.ServerOutcomes

/-!
# The invariant of the server

What holds of the tables and of the cached tasks after any operations, with the
repository failing and the process stopping anywhere. Statements about the part
of a task that never changes are made about `fixed row`.
-/
namespace ServerInvariant

open FiniteMap DataModel CommunicatorModel ProtocolModel VotingModel RunningTaskModel
open DatabaseModel HydrationModel ServerModel TaskOutcomes ServerOutcomes
open ActiveShares VoteTally TableFrames

def acceptThreshold (row : TaskRow) (ps : List Participant) : ℕ :=
  if row.taskType = .group then totalShares ps else asU32 row.threshold

def taskTypeOf : KeyType → TaskType
  | .signPdf => .signPdf
  | .signChallenge => .signChallenge
  | .decrypt => .decrypt

structure OnGroup (db : Database) (id : Uuid) (row : TaskRow) (groupId : Bytes) (group : Group)
    (data : Bytes) : Prop where
  row_group : row.groupId = some groupId
  found : db.getGroup groupId = some group
  row_data : row.taskData = some data
  threshold : group.threshold = row.threshold
  protocol : group.protocol = row.protocolType
  keyType : group.keyType = row.keyType
  taskType : row.taskType = taskTypeOf row.keyType
  participants : db.getTaskParticipants id = db.getGroupParticipants groupId

structure TaskFixed (db : Database) (id : Uuid) (row : TaskRow) : Prop where
  nonempty : db.getTaskParticipants id ≠ []
  distinct : (ids (db.getTaskParticipants id)).Nodup
  positive : ∀ p ∈ db.getTaskParticipants id, 0 < p.shares
  total : totalShares (db.getTaskParticipants id) < 2 ^ 32
  threshold : 0 < row.threshold ∧ row.threshold ≤ maxI32
  onGroup : row.taskType ≠ .group → ∃ groupId group data, OnGroup db id row groupId group data

/-- No participant of an established group has more than 127 shares: larger votes are
truncated, and a group only starts when the votes add up to all shares. -/
structure GroupFixed (db : Database) (groupId : Bytes) (group : Group) : Prop where
  supported : Supported group.protocol group.keyType
  threshold : group.protocol.checkThreshold (asU32 group.threshold)
    (totalShares (db.getGroupParticipants groupId))
  positive : 0 < group.threshold ∧ group.threshold ≤ maxI32
  nonempty : db.getGroupParticipants groupId ≠ []
  distinct : (ids (db.getGroupParticipants groupId)).Nodup
  shares : ∀ p ∈ db.getGroupParticipants groupId, 0 < p.shares ∧ p.shares ≤ 127
  total : totalShares (db.getGroupParticipants groupId) < 2 ^ 32
  certificate : group.certificate.isSome ↔ group.protocol = .gg18

def Started (row : TaskRow) : Prop :=
  row.groupCertificatesSent = some true ∨ 1 ≤ row.protocolRound

def activeTotal (db : Database) (id : Uuid) : ℕ :=
  ((db.getTaskParticipants id).map fun p =>
    ((db.getTaskActiveShares id).lookup p.device.id).getD 0).sum

/-- The rows of a task that change while it is voted on and while it runs. -/
structure TaskRows (db : Database) (id : Uuid) (row : TaskRow) : Prop where
  active : ∀ d n, (db.activeTaskParticipant id).lookup d = some n →
    ∃ p ∈ db.getTaskParticipants id, p.device.id = d ∧ 0 < n ∧ n ≤ p.shares
  enough : db.activeTaskParticipant id = ∅ ∨
    acceptThreshold row (db.getTaskParticipants id) ≤ activeTotal db id
  certificates : row.groupCertificatesSent.isSome ↔ row.taskType = .group
  certificates_first : row.groupCertificatesSent = some false → row.protocolRound = 0
  started_active : Started row → db.activeTaskParticipant id ≠ ∅
  started_group : Started row → row.taskType = .group → Supported row.protocolType row.keyType ∧
    row.protocolType.checkThreshold (asU32 row.threshold) (totalShares (db.getTaskParticipants id))
  result : ∀ r, db.taskResult id = some r → ∃ x, r = NewTaskResult.ofResult x ∧
    (row.taskType = .group → ∀ groupId, x = .ok groupId → ∃ group,
      db.getGroup groupId = some group ∧ group.protocol = row.protocolType ∧
      db.getGroupParticipants groupId = db.getTaskParticipants id)

structure Tables (db : Database) : Prop where
  constraints : Constraints db
  fixed : ∀ id row, db.task.lookup id = some row → TaskFixed db id (fixed row)
  rows : ∀ id row, db.task.lookup id = some row → TaskRows db id row
  group : ∀ groupId group, db.getGroup groupId = some group → GroupFixed db groupId group

structure InfoOf (id : Uuid) (row : TaskRow) (ps : List Participant) (info : TaskInfo) : Prop where
  id : info.id = id
  name : info.name = row.name
  taskType : info.taskType = row.taskType
  protocolType : info.protocolType = row.protocolType
  keyType : info.keyType = row.keyType
  request : info.request = row.request
  participants : info.participants.Perm ps

def ContextOf (db : Database) (row : TaskRow) : RunningTaskContext → Prop
  | .group threshold note =>
    row.taskType = .group ∧ threshold = asU32 row.threshold ∧ note = row.note
  | .signChallenge group data => row.taskType = .signChallenge ∧ row.taskData = some data ∧
      ∃ groupId, row.groupId = some groupId ∧ db.getGroup groupId = some group
  | .signPdf group data => row.taskType = .signPdf ∧ row.taskData = some data ∧
      ∃ groupId, row.groupId = some groupId ∧ db.getGroup groupId = some group
  | .decrypt group data => row.taskType = .decrypt ∧ row.taskData = some data ∧
      ∃ groupId, row.groupId = some groupId ∧ db.getGroup groupId = some group

structure VotingOf (db : Database) (id : Uuid) (row : TaskRow) (ps : List Participant)
    (v : VotingTask) : Prop where
  info : InfoOf id row ps v.taskInfo
  threshold : v.acceptThreshold = acceptThreshold row ps
  context : ContextOf db row v.runningTaskContext
  ballots : Ballots ps v.decisions

structure RunningOf (db : Database) (id : Uuid) (row : TaskRow) (ps : List Participant)
    (t : RunningTask) : Prop where
  info : InfoOf id row ps t.taskInfo
  context : ContextOf db row (contextOf t)
  threshold : t.session.communicator.threshold = acceptThreshold row ps
  communicator : t.session.communicator.protocolType = row.protocolType
  protocol : t.session.protocol.protocolType = row.protocolType
  blocks : ∃ k, Blocks ps k t.session.communicator.activeShares
  shares : row.taskType = .group → ∀ p ∈ ps, p.shares ≤ 127

inductive EntryOf (db : Database) (id : Uuid) (row : TaskRow) : TaskEntry → Prop where
  | voting {v : VotingTask} (h : VotingOf db id (fixed row) (db.getTaskParticipants id) v) :
      EntryOf db id row (.voting v)
  | running {t : RunningTask} (h : RunningOf db id (fixed row) (db.getTaskParticipants id) t)
      (is_ready : row.taskType = .group → row.groupCertificatesSent = some (ready t))
      (active : db.activeTaskParticipant id ≠ ∅) : EntryOf db id row (.running t)
  | declined {t : DeclinedTask}
      (h : InfoOf id (fixed row) (db.getTaskParticipants id) t.taskInfo) :
      EntryOf db id row (.declined t)
  | finished {t : FinishedTask}
      (h : InfoOf id (fixed row) (db.getTaskParticipants id) t.taskInfo) :
      EntryOf db id row (.finished t)
  | failed {t : FailedTask} (h : InfoOf id (fixed row) (db.getTaskParticipants id) t.taskInfo) :
      EntryOf db id row (.failed t)

structure Invariant (s : Server) : Prop where
  devices : s.devices = s.db.findDevice
  tables : Tables s.db
  cache : ∀ id e, s.taskCache id = some e →
    ∃ row, s.db.task.lookup id = some row ∧ EntryOf s.db id row e

section Frames

variable {db db' : Database} {id : Uuid} {row row' : TaskRow}

theorem TaskFixed.mono (h : TaskFixed db id row) (hx : Extends db db') (hid : id ∈ db.task) :
    TaskFixed db' id row := by
  have hp := hx.participants id hid
  refine ⟨hp ▸ h.nonempty, hp ▸ h.distinct, hp ▸ h.positive, hp ▸ h.total, h.threshold,
    fun ht => ?_⟩
  obtain ⟨groupId, group, data, hg⟩ := h.onGroup ht
  obtain ⟨hfound, hgp⟩ := hx.group _ _ hg.found
  exact ⟨groupId, group, data, { hg with
    found := hfound
    participants := hp.trans (hg.participants.trans hgp.symm) }⟩

theorem GroupFixed.mono {groupId : Bytes} {group : Group} (h : GroupFixed db groupId group)
    (hp : db'.getGroupParticipants groupId = db.getGroupParticipants groupId) :
    GroupFixed db' groupId group :=
  ⟨h.supported, hp ▸ h.threshold, h.positive, hp ▸ h.nonempty, hp ▸ h.distinct, hp ▸ h.shares,
    hp ▸ h.total, h.certificate⟩

theorem activeTotal_congr (hp : db'.getTaskParticipants id = db.getTaskParticipants id)
    (ha : db'.activeTaskParticipant id = db.activeTaskParticipant id) :
    activeTotal db' id = activeTotal db id := by
  simp only [activeTotal, Database.getTaskActiveShares, hp, ha]

theorem result_mono {r : TaskResultRow} {ps : List Participant} {p : ProtocolType}
    (hx : Extends db db') (h : ∃ x, r = NewTaskResult.ofResult x ∧ (row.taskType = .group →
      ∀ groupId, x = .ok groupId → ∃ group, db.getGroup groupId = some group ∧
        group.protocol = p ∧ db.getGroupParticipants groupId = ps)) :
    ∃ x, r = NewTaskResult.ofResult x ∧ (row.taskType = .group →
      ∀ groupId, x = .ok groupId → ∃ group, db'.getGroup groupId = some group ∧
        group.protocol = p ∧ db'.getGroupParticipants groupId = ps) := by
  obtain ⟨x, hr, hx'⟩ := h
  refine ⟨x, hr, fun ht groupId hg => ?_⟩
  obtain ⟨group, hfound, hp, hps⟩ := hx' ht groupId hg
  obtain ⟨hfound', hgp⟩ := hx.group _ _ hfound
  exact ⟨group, hfound', hp, hgp.trans hps⟩

theorem TaskRows.mono (h : TaskRows db id row) (hx : Extends db db') (hid : id ∈ db.task)
    (ha : db'.activeTaskParticipant id = db.activeTaskParticipant id)
    (hres : db'.taskResult id = db.taskResult id) : TaskRows db' id row := by
  have hp := hx.participants id hid
  exact {
    active := by simpa only [ha, hp] using h.active
    enough := by simpa only [ha, hp, activeTotal_congr hp ha] using h.enough
    certificates := h.certificates
    certificates_first := h.certificates_first
    started_active := by simpa only [ha] using h.started_active
    started_group := by simpa only [hp] using h.started_group
    result := by
      intro r hr
      rw [hres] at hr
      rw [hp]
      exact result_mono hx (h.result r hr) }

theorem ContextOf.mono {c : RunningTaskContext} (h : ContextOf db row c) (hx : Extends db db') :
    ContextOf db' row c := by
  cases c with
  | group threshold note => exact h
  | signChallenge group data | signPdf group data | decrypt group data =>
    obtain ⟨ht, hd, groupId, hg, hfound⟩ := h
    exact ⟨ht, hd, groupId, hg, (hx.group _ _ hfound).1⟩

theorem VotingOf.mono {v : VotingTask} {ps : List Participant} (h : VotingOf db id row ps v)
    (hx : Extends db db') : VotingOf db' id row ps v :=
  { h with context := h.context.mono hx }

theorem RunningOf.mono {t : RunningTask} {ps : List Participant} (h : RunningOf db id row ps t)
    (hx : Extends db db') : RunningOf db' id row ps t :=
  { h with context := h.context.mono hx }

theorem EntryOf.mono {e : TaskEntry} (h : EntryOf db id row e) (hx : Extends db db')
    (hid : id ∈ db.task)
    (ha : db.activeTaskParticipant id ≠ ∅ → db'.activeTaskParticipant id ≠ ∅) :
    EntryOf db' id row e := by
  have hp := hx.participants id hid
  cases h with
  | voting h => exact .voting (hp ▸ h.mono hx)
  | running h hr hne => exact .running (hp ▸ h.mono hx) hr (ha hne)
  | declined h => exact .declined (hp ▸ h)
  | finished h => exact .finished (hp ▸ h)
  | failed h => exact .failed (hp ▸ h)

theorem EntryOf.votingOf {v : VotingTask} (h : EntryOf db id row (.voting v)) :
    VotingOf db id (fixed row) (db.getTaskParticipants id) v := by
  cases h with
  | voting h => exact h

theorem EntryOf.runningOf {t : RunningTask} (h : EntryOf db id row (.running t)) :
    RunningOf db id (fixed row) (db.getTaskParticipants id) t := by
  cases h with
  | running h => exact h

theorem contextGroup_onGroup {c : RunningTaskContext} {group : Group}
    (h : TaskFixed db id (fixed row)) (hc : ContextOf db (fixed row) c)
    (hg : contextGroup c = some group) :
    row.taskType ≠ .group ∧ ∃ groupId data, OnGroup db id (fixed row) groupId group data := by
  have hfound : row.taskType ≠ .group ∧ ∃ groupId, row.groupId = some groupId ∧
      db.getGroup groupId = some group := by
    cases c with
    | group => cases hg
    | signChallenge | signPdf | decrypt =>
      cases hg
      obtain ⟨ht, -, hfound⟩ := hc
      change row.taskType = _ at ht
      exact ⟨by rw [ht]; decide, hfound⟩
  obtain ⟨ht, groupId, hid, hfound⟩ := hfound
  obtain ⟨groupId', group', data, hon⟩ := h.onGroup ht
  have hsame : groupId' = groupId := Option.some.inj (hon.row_group.symm.trans hid)
  subst hsame
  rw [hon.found] at hfound
  cases hfound
  exact ⟨ht, groupId', data, hon⟩

theorem groupOf_onGroup {t : RunningTask} {group : Group} (h : TaskFixed db id (fixed row))
    (hc : ContextOf db (fixed row) (contextOf t)) (hg : groupOf t = some group) :
    row.taskType ≠ .group ∧ ∃ groupId data, OnGroup db id (fixed row) groupId group data :=
  contextGroup_onGroup h hc hg

/-- A write to the rows of one task has to answer for these rows only. -/
theorem Tables.write (h : Tables db) (w : WritesTask id db db')
    (hrows : ∀ row, db'.task.lookup id = some row → TaskRows db' id row) : Tables db' where
  constraints := w.constraints h.constraints
  fixed j row' hrow' := by
    have hj := w.old j (mem_of_row hrow')
    obtain ⟨row, hrow⟩ := exists_row hj
    obtain ⟨row'', hrow'', hf⟩ := w.task j row hrow
    rw [hrow'] at hrow''
    cases hrow''
    rw [hf]
    exact (h.fixed j row hrow).mono w.toExtends hj
  rows j row' hrow' := by
    by_cases hj : j = id
    · subst hj
      exact hrows row' hrow'
    · have hs := w.others j hj
      have hrow : db.task.lookup j = some row' := hs.task ▸ hrow'
      exact (h.rows j row' hrow).mono w.toExtends (mem_of_row hrow) hs.active hs.result
  group groupId group hg := by
    rw [w.groups] at hg
    exact (h.group groupId group hg).mono (w.group groupId group hg).2

end Frames

end ServerInvariant
