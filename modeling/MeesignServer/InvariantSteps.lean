import MeesignServer.TaskStart

/-!
# The invariant over single operations

Every exit of `decide_task`, `update_task` and of the sweep leaves well-formed
tables and a cached task that belongs to its rows, also the exits by an error, a
panic or a stop of the process.
-/
namespace InvariantSteps

open FiniteMap DataModel CommunicatorModel ProtocolModel VotingModel RunningTaskModel
open DatabaseModel HydrationModel ServerModel TaskOutcomes ServerOutcomes
open ActiveShares VoteTally TableFrames ServerInvariant TableWrites HydrationOutcomes TaskStart

structure Steady (s s' : Session) : Prop where
  threshold : s'.communicator.threshold = s.communicator.threshold
  activeShares : s'.communicator.activeShares = s.communicator.activeShares
  communicator : s'.communicator.protocolType = s.communicator.protocolType
  protocol : s'.protocol.protocolType = s.protocol.protocolType
  variant : s'.protocol.variant = s.protocol.variant

theorem Steady.refl (s : Session) : Steady s s := ⟨rfl, rfl, rfl, rfl, rfl⟩

theorem Steady.trans {a b c : Session} (h : Steady a b) (h' : Steady b c) : Steady a c :=
  ⟨h'.threshold.trans h.threshold, h'.activeShares.trans h.activeShares,
    h'.communicator.trans h.communicator, h'.protocol.trans h.protocol,
    h'.variant.trans h.variant⟩

theorem steady_receive {s : Session} {c : Communicator} {d : Bytes}
    {messages : List ClientMessage} {taken : Bool}
    (h : s.communicator.receiveMessages d messages = .ok (taken, c)) :
    Steady s ⟨c, s.protocol⟩ := by
  unfold Communicator.receiveMessages at h
  simp only at h
  split_ifs at h <;> cases h <;> exact ⟨rfl, rfl, rfl, rfl, rfl⟩

theorem start_steady [External] {t t' : RunningTask} {r : Except Stop RoundUpdate}
    (h : StartOutcome t r t') : Kept t t' ∧ Steady t.session t'.session := by
  cases h with
  | started data kept session => exact ⟨kept, session ▸ ⟨rfl, rfl, rfl, rfl, rfl⟩⟩
  | failed reason => exact ⟨.refl t, .refl _⟩
  | broke h => exact ⟨.refl t, .refl _⟩

theorem final_steady [External] {t t' : RunningTask} {r : Except Stop RoundUpdate}
    (h : FinalOutcome t r t') : Kept t t' ∧ Steady t.session t'.session := by
  cases h with
  | finished kept session => exact ⟨kept, session ▸ ⟨rfl, rfl, rfl, rfl, rfl⟩⟩
  | failed reason kept session => exact ⟨kept, session ▸ ⟨rfl, rfl, rfl, rfl, rfl⟩⟩
  | broke h kept session =>
    rcases session with session | session <;>
      exact ⟨kept, session ▸ ⟨rfl, rfl, rfl, rfl, rfl⟩⟩

theorem round_steady [External] {t t' : RunningTask} {r : Except Stop RoundUpdate}
    (h : RoundOutcome t r t') : Kept t t' ∧ Steady t.session t'.session := by
  cases h with
  | listen h => exact ⟨.refl t, .refl _⟩
  | start _ _ h => exact start_steady h
  | advance _ _ _ kept session => exact ⟨kept, session ▸ ⟨rfl, rfl, rfl, rfl, rfl⟩⟩
  | final _ _ h => exact final_steady h

theorem update_steady [External] {t t' : RunningTask} {d : Bytes} {messages : List ClientMessage}
    {r : Except Stop RoundUpdate} (h : UpdateOutcome d messages t r t') :
    Kept t t' ∧ Steady t.session t'.session := by
  cases h with
  | notWaiting h => exact ⟨.refl t, .refl _⟩
  | broke h => exact ⟨.refl t, .refl _⟩
  | received _ _ receive kept session round =>
    obtain ⟨hk, hs⟩ := round_steady round
    exact ⟨kept.trans hk, (steady_receive receive).trans (session ▸ hs)⟩

theorem info_attempted {id : Uuid} {row : TaskRow} {ps : List Participant} {info : TaskInfo}
    (h : InfoOf id row ps info) : InfoOf id row ps (attempted info) :=
  ⟨h.id, h.name, h.taskType, h.protocolType, h.keyType, h.request, h.participants⟩

theorem info_totalShares {id : Uuid} {row : TaskRow} {ps : List Participant} {info : TaskInfo}
    (h : InfoOf id row ps info) : info.totalShares = totalShares ps :=
  (h.participants.map _).sum_eq

theorem running_step {db : Database} {id : Uuid} {row : TaskRow} {ps : List Participant}
    {t t' : RunningTask} (h : RunningOf db id row ps t) (hi : InfoOf id row ps t'.taskInfo)
    (hc : contextOf t' = contextOf t) (hs : Steady t.session t'.session) :
    RunningOf db id row ps t' where
  info := hi
  context := hc ▸ h.context
  threshold := hs.threshold.trans h.threshold
  communicator := hs.communicator.trans h.communicator
  protocol := hs.protocol.trans h.protocol
  blocks := hs.activeShares ▸ h.blocks
  shares := h.shares

theorem running_kept {db : Database} {id : Uuid} {row : TaskRow} {ps : List Participant}
    {t t' : RunningTask} (h : RunningOf db id row ps t) (hk : Kept t t')
    (hs : Steady t.session t'.session) : RunningOf db id row ps t' :=
  running_step h (hk.taskInfo ▸ h.info) hk.context hs

def AnswerOf (id : Uuid) (row : TaskRow) (ps : List Participant) :
    Except Stop RoundUpdate → Prop
  | .ok (.failed f) => InfoOf id row ps f.taskInfo
  | .ok (.finished _ f) => InfoOf id row ps f.taskInfo ∧
      (row.taskType = .group → ∃ group, f.result = .groupEstablished group) ∧
      ∀ group, f.result = .groupEstablished group → row.taskType = .group ∧
        group.threshold = asI32 (asU32 row.threshold) ∧ group.protocol = row.protocolType ∧
        group.keyType = row.keyType ∧ (group.certificate.isSome ↔ group.protocol = .gg18)
  | _ => True

theorem resultOf_answer {db : Database} {id : Uuid} {row : TaskRow} {ps : List Participant}
    {t : RunningTask} {final : Bytes} {result : TaskResult} (h : RunningOf db id row ps t)
    (hr : ResultOf t final result) :
    (row.taskType = .group → ∃ group, result = .groupEstablished group) ∧
    ∀ group, result = .groupEstablished group → row.taskType = .group ∧
      group.threshold = asI32 (asU32 row.threshold) ∧ group.protocol = row.protocolType ∧
      group.keyType = row.keyType ∧ (group.certificate.isSome ↔ group.protocol = .gg18) := by
  have hctx := h.context
  cases t with
  | group task =>
    obtain ⟨certificate, hcert, rfl⟩ := hr
    refine ⟨fun _ => ⟨_, rfl⟩, ?_⟩
    rintro group ⟨⟩
    have hthr : task.threshold = asU32 row.threshold := hctx.2.1
    exact ⟨hctx.1, by rw [GroupTask.establishedGroup, hthr], h.protocol, h.info.keyType, hcert⟩
  | sign task =>
    cases hr
    exact ⟨fun ht => absurd (hctx.1.symm.trans ht) (by decide), nofun⟩
  | signPdf task =>
    obtain ⟨signed, rfl⟩ := hr
    exact ⟨fun ht => absurd (hctx.1.symm.trans ht) (by decide), nofun⟩
  | decrypt task =>
    cases hr
    exact ⟨fun ht => absurd (hctx.1.symm.trans ht) (by decide), nofun⟩

theorem start_answer [External] {db : Database} {id : Uuid} {row : TaskRow} {ps : List Participant}
    {t t' : RunningTask} {r : Except Stop RoundUpdate} (h : RunningOf db id row ps t)
    (ho : StartOutcome t r t') : AnswerOf id row ps r := by
  cases ho with
  | started => trivial
  | failed reason => exact h.info
  | broke => trivial

theorem update_answer [External] {db : Database} {id : Uuid} {row : TaskRow} {ps : List Participant}
    {t t' : RunningTask} {d : Bytes} {messages : List ClientMessage}
    {r : Except Stop RoundUpdate} (h : RunningOf db id row ps t)
    (ho : UpdateOutcome d messages t r t') : AnswerOf id row ps r := by
  cases ho with
  | notWaiting => trivial
  | broke => trivial
  | received _ _ receive kept session round =>
    have h' := running_kept h kept (session ▸ steady_receive receive)
    cases round with
    | listen => trivial
    | advance => trivial
    | start _ _ ho => exact start_answer h' ho
    | final _ _ ho =>
      cases ho with
      | broke => trivial
      | failed reason => exact h'.info
      | finished _ _ _ hr => exact ⟨h'.info, resultOf_answer h' hr⟩

/-- The tables that an operation on task `id` leaves behind, with the cached task. -/
structure Sound (id : Uuid) (db db' : Database) (e : TaskEntry) : Prop where
  tables : Tables db'
  extend : Extends db db'
  others : ∀ j, j ≠ id → SameTask db db' j
  devices : db'.findDevice = db.findDevice
  entry : ∃ row, db'.task.lookup id = some row ∧ EntryOf db' id row e

section Sound

variable {id : Uuid} {db db' : Database} {row : TaskRow} {e e' : TaskEntry}

theorem sound_same (h : Tables db) (hrow : db.task.lookup id = some row)
    (he : EntryOf db id row e) : Sound id db db e :=
  ⟨h, .refl db, fun _ _ => .refl db _, rfl, row, hrow, he⟩

theorem Sound.trans {db'' : Database} (h : Sound id db db' e) (h' : Sound id db' db'' e') :
    Sound id db db'' e' where
  tables := h'.tables
  extend := h.extend.trans h'.extend
  others j hj := (h.others j hj).trans (h'.others j hj)
  devices := h'.devices.trans h.devices
  entry := h'.entry

theorem sound_write (h : Tables db') (w : WritesTask id db db')
    (he : ∃ row, db'.task.lookup id = some row ∧ EntryOf db' id row e) : Sound id db db' e :=
  ⟨h, w.toExtends, w.others, w.devices, he⟩

/-- A stored change is sound if both the old task with the old rows and the new one with the
new rows are. -/
theorem sound_stored {env : Env} {call : RepoCall} {f : Write} {r : Except Stop Unit}
    {e'' : TaskEntry} (h : Stored env call id f db e e' r db' e'') (hfail : Sound id db db e)
    (hok : ∀ db', f db = .ok db' → Sound id db db' e') : Sound id db db' e'' := by
  cases h with
  | served w => exact hok _ w.write
  | fails w => exact hfail

/-- What is needed to store a round: the task was started in order. -/
structure MayRun (db : Database) (id : Uuid) (row : TaskRow) : Prop where
  certificates : row.groupCertificatesSent ≠ some false
  active : db.activeTaskParticipant id ≠ ∅
  group : row.taskType = .group → Supported row.protocolType row.keyType ∧
    row.protocolType.checkThreshold (asU32 row.threshold) (totalShares (db.getTaskParticipants id))

theorem mayRun_of_started (h : Tables db) (hrow : db.task.lookup id = some row)
    (hs : Started row) : MayRun db id row := by
  have hr := h.rows id row hrow
  refine ⟨fun hc => ?_, hr.started_active hs, hr.started_group hs⟩
  have := hr.certificates_first hc
  rcases hs with hs | hs
  · rw [hc] at hs
    cases hs
  · omega

theorem mayRun_of_ready {t : RunningTask} (h : Tables db) (hrow : db.task.lookup id = some row)
    (he : EntryOf db id row (.running t)) (hready : ready t) : MayRun db id row := by
  have hr := h.rows id row hrow
  cases he with
  | running hrun his hact =>
    by_cases ht : row.taskType = .group
    · have hsent : row.groupCertificatesSent = some true := hready ▸ his ht
      exact mayRun_of_started h hrow (.inl hsent)
    · refine ⟨fun hc => ht (hr.certificates.mp (by simp [hc])), hact, fun h => absurd h ht⟩

theorem sound_round {t : RunningTask} {round : ℕ} (h : Tables db)
    (hrow : db.task.lookup id = some row) (he : EntryOf db id row (.running t))
    (hm : MayRun db id row) (hw : roundWrite id round db = .ok db') :
    Sound id db db' (.running t) ∧ MayRun db' id { row with protocolRound := round } ∧
      db'.task.lookup id = some { row with protocolRound := round } := by
  have htab := tables_setTaskRound h hrow hw (fun hc => absurd hc hm.certificates) hm.active
    hm.group
  have w := writesTask_setTaskRound hw
  obtain ⟨row', hrow', rfl⟩ := setTaskRound_ok hw
  rw [hrow] at hrow'
  cases hrow'
  have hrow' : (db.task.insert id { row with protocolRound := round }).lookup id =
      some { row with protocolRound := round } := AList.lookup_insert _
  refine ⟨sound_write htab w ⟨_, hrow', ?_⟩, ⟨hm.certificates, hm.active, hm.group⟩, hrow'⟩
  cases he with
  | running hrun his hact => exact .running (hrun.mono w.toExtends) his hact

theorem sound_attempt {t : RunningTask} (h : Tables db) (hrow : db.task.lookup id = some row)
    (he : EntryOf db id row (.running t)) (hw : db.incrementTaskAttemptCount id = .ok db') :
    Sound id db db' (.running t) ∧
      db'.task.lookup id = some { row with attemptCount := row.attemptCount + 1 } ∧
      EntryOf db' id { row with attemptCount := row.attemptCount + 1 } (.running t) := by
  have htab := tables_incrementTaskAttemptCount h hw
  have w := writesTask_incrementTaskAttemptCount hw
  obtain ⟨row', hrow', -, rfl⟩ := incrementTaskAttemptCount_ok hw
  rw [hrow] at hrow'
  cases hrow'
  have hrow' := AList.lookup_insert (a := id)
    (b := { row with attemptCount := row.attemptCount + 1 }) db.task
  cases he with
  | running hrun his hact =>
    exact ⟨sound_write htab w ⟨_, hrow', .running (hrun.mono w.toExtends) his hact⟩, hrow',
      .running (hrun.mono w.toExtends) his hact⟩

theorem sound_result {result : Except String Bytes} (h : Tables db)
    (hrow : db.task.lookup id = some row) (he : EntryOf db id row e')
    (hw : resultWrite id result db = .ok db')
    (hresult : row.taskType = .group → ∀ groupId, result = .ok groupId → ∃ group,
      db.getGroup groupId = some group ∧ group.protocol = row.protocolType ∧
      db.getGroupParticipants groupId = db.getTaskParticipants id) :
    Sound id db db' e' := by
  have htab := tables_setTaskResult h hrow hw hresult
  have w := writesTask_setTaskResult hw
  have hact : db'.activeTaskParticipant = db.activeTaskParticipant ∧ db'.task = db.task := by
    obtain ⟨-, rfl⟩ := setTaskResult_ok hw
    exact ⟨rfl, rfl⟩
  refine sound_write htab w ⟨row, by rw [hact.2]; exact hrow, ?_⟩
  exact he.mono w.toExtends (mem_of_row hrow) (by rw [hact.1]; exact fun h => h)

theorem sound_group {t : RunningTask} {group : Group} (h : Tables db)
    (hrow : db.task.lookup id = some row) (he : EntryOf db id row (.running t))
    (hm : MayRun db id row) (ht : row.taskType = .group)
    (hthr : group.threshold = asI32 (asU32 row.threshold))
    (hprot : group.protocol = row.protocolType) (hkey : group.keyType = row.keyType)
    (hcert : group.certificate.isSome ↔ group.protocol = .gg18)
    (hw : db.addGroup id group.id group.name (asU32 group.threshold) group.protocol group.keyType
      group.certificate group.note = .ok db') :
    Sound id db db' (.running t) ∧ db'.task = db.task ∧ ∃ group', db'.getGroup group.id =
      some group' ∧ group'.protocol = row.protocolType ∧
      db'.getGroupParticipants group.id = db'.getTaskParticipants id := by
  have hf := h.fixed id row hrow
  have hpos : 0 < row.threshold ∧ row.threshold ≤ maxI32 := hf.threshold
  have hcast : (asU32 row.threshold : ℤ) = row.threshold := by
    unfold asU32 maxI32 at *
    omega
  have hthr' : asU32 group.threshold = asU32 row.threshold := by
    rw [hthr, asU32_asI32]
    omega
  obtain ⟨-, -, hnew, rfl⟩ := addGroup_ok (mem_of_row hrow) hw
  obtain ⟨hs, hcheck⟩ := hm.group ht
  rw [← hprot] at hcheck
  rw [← hprot, ← hkey] at hs
  cases he with
  | running hrun his hact =>
    set g : GroupRow := ⟨group.id, group.name, asU32 group.threshold, group.protocol,
      group.keyType, group.certificate, group.note⟩
    have hnew' : db.getGroup g.id = none := hnew
    have htab := tables_withGroup h hrow hnew' (by rw [← hcast, ← hthr']) (hrun.shares ht) hs hcert
      hcheck
    have hx := extends_withGroup id hnew'
    obtain ⟨⟨shares, hself⟩, hps⟩ := getGroup_withGroup_self id h.constraints hnew'
    exact ⟨⟨htab, hx, fun j _ => sameTask_withGroup db id j _, rfl, row, hrow,
      .running (hrun.mono hx) his hact⟩, rfl, _, hself, hprot, hps⟩

theorem sound_record {env : Env} {t : RunningTask} {u : Except Stop RoundUpdate}
    {r : Except Stop Unit} (h : Tables db) (hrow : db.task.lookup id = some row)
    (he : EntryOf db id row (.running t))
    (hm : (∃ round, u = .ok (.nextRound round)) ∨ (∃ round f, u = .ok (.finished round f)) →
      MayRun db id row)
    (ha : AnswerOf id (fixed row) (db.getTaskParticipants id) u)
    (ho : RecordOutcome env id t db u r db' e) : Sound id db db' e := by
  have hsame := sound_same h hrow he
  cases ho with
  | stopped => exact hsame
  | listen => exact hsame
  | nextRound stored =>
    exact sound_stored stored hsame fun db' hw =>
      (sound_round h hrow he (hm (.inl ⟨_, rfl⟩)) hw).1
  | failed stored =>
    exact sound_stored stored hsame fun db' hw =>
      sound_result h hrow (.failed ha) hw fun _ _ => nofun
  | finished finish =>
    obtain ⟨hinfo, hgroup, hfields⟩ := ha
    have hmay := hm (.inr ⟨_, _, rfl⟩)
    cases finish with
    | roundNotStored w => exact hsame
    | groupNotStored w result w' => exact (sound_round h hrow he hmay w.write).1
    | group w result w' stored =>
      obtain ⟨s₁, hmay₁, hrow₁⟩ := sound_round h hrow he hmay w.write
      obtain ⟨row₁, hrow₁', he₁⟩ := s₁.entry
      rw [hrow₁] at hrow₁'
      cases hrow₁'
      obtain ⟨ht, hthr, hprot, hkey, hcert⟩ := hfields _ result
      obtain ⟨s₂, htask, group', hg, hgp, hps⟩ :=
        sound_group s₁.tables hrow₁ he₁ hmay₁ ht hthr hprot hkey hcert w'.write
      refine s₁.trans (s₂.trans ?_)
      obtain ⟨row₂, hrow₂, he₂⟩ := s₂.entry
      rw [htask, hrow₁] at hrow₂
      cases hrow₂
      have hrow₂ := htask ▸ hrow₁
      refine sound_stored stored (sound_same s₂.tables hrow₂ he₂) fun db' hw =>
        sound_result s₂.tables hrow₂ (.finished ?_) hw fun _ groupId hres => ?_
      · rw [(s₁.extend.trans s₂.extend).participants id (mem_of_row hrow)]
        exact hinfo
      · rw [result, TaskResult.asBytes] at hres
        cases hres
        exact ⟨group', hg, hgp, hps⟩
    | threshold w result stored =>
      obtain ⟨s₁, -, hrow₁⟩ := sound_round h hrow he hmay w.write
      obtain ⟨row₁, hrow₁', he₁⟩ := s₁.entry
      rw [hrow₁] at hrow₁'
      cases hrow₁'
      refine s₁.trans (sound_stored stored (sound_same s₁.tables hrow₁ he₁) fun db' hw =>
        sound_result s₁.tables hrow₁ (.finished ?_) hw fun ht => ?_)
      · rw [s₁.extend.participants id (mem_of_row hrow)]
        exact hinfo
      · obtain ⟨group, hg⟩ := hgroup ht
        exact absurd hg (result group)

end Sound

structure GuardedSound (id : Uuid) (g g' : Guarded) : Prop extends
    Sound id g.server.db g'.server.db g'.entry where
  server_devices : g'.server.devices = g.server.devices
  taskCache : g'.server.taskCache = g.server.taskCache

section Guarded

variable [External] {env : Env} {id : Uuid} {row : TaskRow} {g g' : Guarded}
  {r : Except Stop Unit}

omit [External] in
theorem guardedSound {s s' : Server} {db : Database} {e e' : TaskEntry}
    (h : Sound id s.db db e') (hdb : s'.db = db) (hdevices : s'.devices = s.devices)
    (hcache : s'.taskCache = s.taskCache) : GuardedSound id ⟨e, s⟩ ⟨e', s'⟩ where
  toSound := by simpa only [hdb] using h
  server_devices := hdevices
  taskCache := hcache

omit [External] in
theorem entry_running {db : Database} {t t' : RunningTask} (he : EntryOf db id row (.running t))
    (hi : InfoOf id (fixed row) (db.getTaskParticipants id) t'.taskInfo)
    (hc : contextOf t' = contextOf t) (hready : ready t' = ready t)
    (hs : Steady t.session t'.session) : EntryOf db id row (.running t') := by
  cases he with
  | running hrun his hact => exact .running (running_step hrun hi hc hs) (hready ▸ his) hact

theorem update_sound {d : Bytes} {messages : List ClientMessage} {attempt : ℕ}
    (h : Tables g.server.db) (hrow : g.server.db.task.lookup id = some row)
    (he : EntryOf g.server.db id row g.entry)
    (ho : UpdateEntryOutcome env id d messages attempt g r g') : GuardedSound id g g' := by
  cases ho with
  | notRunning => exact guardedSound (sound_same h hrow he) rfl rfl rfl
  | stale => exact guardedSound (sound_same h hrow he) rfl rfl rfl
  | updated hentry _ update record rest =>
    rw [hentry] at he
    obtain ⟨kept, steady⟩ := update_steady update
    have hrun := he.runningOf
    have he' := entry_running he (kept.taskInfo ▸ hrun.info) kept.context kept.ready steady
    refine guardedSound (sound_record h hrow he' (fun hu => ?_) (update_answer hrun update) record)
      rest.db rest.devices rest.taskCache
    -- only an update that was taken in moves the round, and unprepared group tasks take none
    cases update with
    | notWaiting => rcases hu with ⟨_, hu⟩ | ⟨_, _, hu⟩ <;> cases hu
    | broke => rcases hu with ⟨_, hu⟩ | ⟨_, _, hu⟩ <;> cases hu
    | received _ is_ready => exact mayRun_of_ready h hrow he is_ready

theorem restart_sound (h : Tables g.server.db) (hrow : g.server.db.task.lookup id = some row)
    (hs : Started row) (he : EntryOf g.server.db id row g.entry)
    (ho : RestartEntryOutcome env id g r g') : GuardedSound id g g' := by
  cases ho with
  | notRunning => exact guardedSound (sound_same h hrow he) rfl rfl rfl
  | notStored => exact guardedSound (sound_same h hrow he) rfl rfl rfl
  | restarted hentry w restart record rest =>
    rw [hentry] at he
    obtain ⟨hsound, hrow', he₁⟩ := sound_attempt h hrow he w.write
    refine guardedSound (hsound.trans ?_) rest.db rest.devices rest.taskCache
    have htab := hsound.tables
    have hmay := mayRun_of_started htab hrow' hs
    cases restart with
    | broke hb =>
      refine sound_record htab hrow' he₁ (fun _ => hmay) ?_ record
      trivial
    | again context is_ready taskInfo session start =>
      have hinfo := info_attempted he₁.runningOf.info
      rw [← taskInfo] at hinfo
      have he₂ := entry_running he₁ hinfo context is_ready (session ▸ .refl _)
      obtain ⟨kept, steady⟩ := start_steady start
      have he₃ := entry_running he₂ (kept.taskInfo ▸ hinfo) kept.context kept.ready steady
      exact sound_record htab hrow' he₃ (fun _ => hmay) (start_answer he₂.runningOf start) record

omit [External] in
theorem voting_vote {db : Database} {v : VotingTask} {d : Bytes} {p : Participant}
    (h : VotingOf db id row (db.getTaskParticipants id) v)
    (hfind : v.taskInfo.participants.find? (fun p => p.device.id = d) = some p) (accept : Bool) :
    VotingOf db id row (db.getTaskParticipants id) (v.vote d (voteOf p.shares accept)) := by
  have hid : p.device.id = d := by simpa using List.find?_some hfind
  have hp := h.info.participants.mem_iff.mp (List.mem_of_find?_eq_some hfind)
  exact ⟨h.info, h.threshold, h.context, hid ▸ h.ballots.insert hp accept⟩

omit [External] in
theorem acceptThreshold_pos {db : Database} (h : TaskFixed db id (fixed row)) :
    0 < acceptThreshold row (db.getTaskParticipants id) := by
  unfold acceptThreshold
  split_ifs
  · obtain ⟨p, hp⟩ := List.exists_mem_of_ne_nil _ h.nonempty
    have hle : p.shares ≤ totalShares (db.getTaskParticipants id) :=
      List.single_le_sum (fun _ _ => Nat.zero_le _) _ (List.mem_map.mpr ⟨p, hp, rfl⟩)
    exact lt_of_lt_of_le (h.positive p hp) hle
  · have hpos : 0 < row.threshold ∧ row.threshold ≤ maxI32 := h.threshold
    unfold asU32 maxI32 at *
    omega

omit [External] in
theorem context_group {db : Database} {v : VotingTask} (h : Tables db)
    (hrow : db.task.lookup id = some row)
    (hv : VotingOf db id (fixed row) (db.getTaskParticipants id) v) :
    protocolOf v = row.protocolType := by
  have hctx := hv.context
  unfold protocolOf
  cases hc : v.runningTaskContext with
  | group threshold note => exact hv.info.protocolType
  | signChallenge group data | signPdf group data =>
    rw [hc] at hctx
    obtain ⟨ht, -, groupId, hg, hfound⟩ := hctx
    obtain ⟨groupId', group', data', ho⟩ := (h.fixed id row hrow).onGroup (by rw [ht]; decide)
    have := ho.row_group
    rw [hg] at this
    cases this
    have := ho.found
    rw [hfound] at this
    cases this
    exact ho.protocol
  | decrypt group data =>
    rw [hc] at hctx
    obtain ⟨ht, -, groupId, hg, hfound⟩ := hctx
    obtain ⟨groupId', group', data', ho⟩ := (h.fixed id row hrow).onGroup (by rw [ht]; decide)
    have hs := (h.group groupId' group' ho.found).supported
    rw [ho.protocol, ho.keyType] at hs
    have hk := ho.taskType
    rw [ht] at hk
    show ProtocolType.elgamal = (fixed row).protocolType
    revert hs hk
    cases (fixed row).protocolType <;> cases (fixed row).keyType <;> decide

omit [External] in
theorem running_constructed {db : Database} {v : VotingTask} {m : Map ℕ Device}
    {t : RunningTask} {k : Bytes → ℕ} (h : Tables db) (hrow : db.task.lookup id = some row)
    (hv : VotingOf db id (fixed row) (db.getTaskParticipants id) v) (hc : Constructed v m t)
    (hb : Blocks v.taskInfo.participants k m)
    (ha : v.acceptThreshold ≤ (acceptsRejects v.decisions).1) :
    RunningOf db id (fixed row) (db.getTaskParticipants id) t := by
  have hf := h.fixed id row hrow
  have hprot := context_group h hrow hv
  obtain ⟨hthr, htype, hm, -⟩ := Communicator.new_ok hc.communicator
  obtain ⟨ps, hps, hinfo⟩ := hc.info
  refine ⟨?_, hc.context ▸ hv.context, hthr.trans hv.threshold, htype.trans hv.info.protocolType,
    hc.protocol.trans hprot, ⟨k, hm ▸ hb.perm hv.info.participants⟩,
    fun ht p hp => ?_⟩
  · rw [hinfo]
    exact { hv.info with participants := hps.trans hv.info.participants }
  · rw [acceptsRejects_eq hf.distinct fun _ => hv.ballots.mem, hv.threshold, acceptThreshold,
      if_pos ht] at ha
    exact (unanimous_accept hv.ballots hf.distinct ha hp (hf.positive p hp)).1

omit [External] in
theorem context_taskType {db : Database} {c : RunningTaskContext} (h : ContextOf db row c) :
    row.taskType = .group ↔ ∃ threshold note, c = .group threshold note := by
  cases c with
  | group threshold note => exact ⟨fun _ => ⟨_, _, rfl⟩, fun _ => h.1⟩
  | signChallenge group data | signPdf group data | decrypt group data =>
    constructor
    · intro ht
      have := h.1.symm.trans ht
      cases this
    · rintro ⟨_, _, hc⟩
      cases hc

omit [External] in
theorem sound_certificates {db db' : Database} {t : RunningTask} (h : Tables db)
    (hrow : db.task.lookup id = some row) (ht : row.taskType = .group)
    (hactive : db.activeTaskParticipant id ≠ ∅)
    (hgroup : Supported row.protocolType row.keyType ∧ row.protocolType.checkThreshold
      (asU32 row.threshold) (totalShares (db.getTaskParticipants id)))
    (hr : RunningOf db id (fixed row) (db.getTaskParticipants id) t) (hready : ready t)
    (hw : certificatesWrite id db = .ok db') : Sound id db db' (.running t) := by
  cases hw
  have htab := tables_setTaskGroupCertificatesSent h hrow ht hactive hgroup
  have w := writesTask_setTaskGroupCertificatesSent hrow (some true)
  refine sound_write htab w ?_
  rw [Database.setTaskGroupCertificatesSent, modifyTask_of_row hrow] at w ⊢
  exact ⟨_, AList.lookup_insert _, .running (hr.mono w.toExtends) (fun _ => by rw [hready]) hactive⟩

theorem build_sound {db db' : Database} {v : VotingTask} {chosen : List Device} {e : TaskEntry}
    (h : Tables db) (hrow : db.task.lookup id = some row)
    (hv : VotingOf db id (fixed row) (db.getTaskParticipants id) v)
    (ha : v.acceptThreshold ≤ (acceptsRejects v.decisions).1)
    (hactive : db.activeTaskParticipant id ≠ ∅)
    (hchoice : Choice v.taskInfo.participants chosen)
    (ho : BuildOutcome env id v chosen db (.voting v) r db' e) : Sound id db db' e := by
  have hsame := sound_same h hrow (.voting hv)
  have hf := h.fixed id row hrow
  have hn : (ids v.taskInfo.participants).Nodup :=
    (hv.info.participants.map _).nodup_iff.mpr hf.distinct
  have hrun : ∀ {t}, construct v chosen = .ok t →
      RunningOf db id (fixed row) (db.getTaskParticipants id) t ∧ ∃ m, Constructed v m t := by
    intro t ht
    obtain ⟨m, hm, hc⟩ := construct_ok ht
    obtain ⟨m', hm', -, hb⟩ := assignShareIndices_spec hn hchoice
    rw [hm] at hm'
    cases hm'
    exact ⟨running_constructed h hrow hv hc hb ha, m, hc⟩
  cases ho with
  | notConstructed => exact hsame
  | notInitialized => exact hsame
  | certificates hcon init stored =>
    obtain ⟨hr, m, hc⟩ := hrun hcon
    cases init with
    | certificates f hgroup context is_ready taskInfo session =>
      refine sound_stored stored hsame fun db' hw => ?_
      have hctx := hv.context
      have hstart := hc.startable
      rw [Startable] at hstart
      rw [← hc.context, hgroup] at hctx hstart
      obtain ⟨ht, hthr, -⟩ := hctx
      simp only [hthr, info_totalShares hv.info, hv.info.protocolType, hv.info.keyType] at hstart
      refine sound_certificates h hrow ht hactive hstart ?_ is_ready hw
      exact running_step hr (taskInfo ▸ hr.info) context (session ▸ ⟨rfl, rfl, rfl, rfl, rfl⟩)
    | start _ start => cases start
  | nextRound hcon init stored =>
    obtain ⟨hr, m, hc⟩ := hrun hcon
    cases init with
    | start hthreshold start =>
      have ht : row.taskType ≠ .group := fun ht => by
        obtain ⟨threshold, note, hctx⟩ := (context_taskType hr.context).mp ht
        exact hthreshold threshold note hctx
      obtain ⟨kept, steady⟩ := start_steady start
      have he := EntryOf.running (running_kept hr kept steady) (fun h => absurd h ht) hactive
      refine sound_stored stored hsame fun db' hw => (sound_round h hrow he ⟨?_, hactive, ?_⟩ hw).1
      · intro hcert
        exact ht ((h.rows id row hrow).certificates.mp (by simp [hcert]))
      · exact fun h => absurd h ht
  | failed hcon init stored =>
    obtain ⟨hr, m, hc⟩ := hrun hcon
    cases init with
    | start hthreshold start =>
      refine sound_stored stored hsame fun db' hw =>
        sound_result h hrow (.failed (start_answer hr start)) hw fun _ _ => nofun

omit [External] in
theorem active_after_choice {db db' : Database} {chosen : List Device} (hne : chosen ≠ [])
    (hw : db.setTaskActiveShares id (countDevices chosen) = .ok db') :
    db'.activeTaskParticipant id ≠ ∅ := by
  obtain ⟨-, rfl⟩ := setTaskActiveShares_ok hw
  obtain ⟨device, hd⟩ := List.exists_mem_of_ne_nil _ hne
  have hmem : device.id ∈ chosen.map Device.id := List.mem_map.mpr ⟨device, hd, rfl⟩
  have hin : device.id ∈ mapValues asI32 (countDevices chosen) := by
    refine AList.lookup_isSome.mp ?_
    rw [lookup_mapValues, lookup_countDevices, if_pos hmem]
    rfl
  simp only [Function.update_self]
  intro he
  have := AList.mem_union.mpr (.inr hin : device.id ∈ db.activeTaskParticipant id ∨ _)
  rw [he] at this
  exact AList.notMem_empty _ this

omit [External] in
theorem voting_distinct {db : Database} {v : VotingTask} (h : Tables db)
    (hrow : db.task.lookup id = some row)
    (hv : VotingOf db id (fixed row) (db.getTaskParticipants id) v) :
    (ids v.taskInfo.participants).Nodup :=
  (hv.info.participants.map _).nodup_iff.mpr (h.fixed id row hrow).distinct

omit [External] in
/-- The stored choice of an approved task is large enough to hydrate the task from. -/
theorem choice_sound {db db' : Database} {v : VotingTask} (h : Tables db)
    (hrow : db.task.lookup id = some row)
    (hv : VotingOf db id (fixed row) (db.getTaskParticipants id) v)
    (hacc : v.decisionUpdate = .accepted) {activations : Bytes → Option ℕ}
    (hw : activeSharesWrite v.taskInfo.id (chosenDevices env activations v) db = .ok db') :
    Sound id db db' (.voting v) ∧ db'.activeTaskParticipant id ≠ ∅ ∧ db'.task = db.task ∧
      VotingOf db' id (fixed row) (db'.getTaskParticipants id) v := by
  have hn := voting_distinct h hrow hv
  rw [activeSharesWrite, hv.info.id] at hw
  have hchoice := choice_chosenDevices hn env activations
  have hlen := length_chosen_of_accepted hn (hv.ballots.perm hv.info.participants.symm) hacc env
    activations
  rw [hv.threshold] at hlen
  have hchoice' : Choice (db.getTaskParticipants id) (chosenDevices env activations v) :=
    ⟨fun device hd => by
      obtain ⟨p, hp, hpd⟩ := hchoice.mem device hd
      exact ⟨p, hv.info.participants.mem_iff.mp hp, hpd⟩,
      fun p hp => hchoice.count p (hv.info.participants.mem_iff.mpr hp)⟩
  have htab := tables_setTaskActiveShares h hrow hchoice' (by rw [hlen]; exact le_rfl) hw
  have wt := writesTask_setTaskActiveShares (mem_of_row hrow) hw
  have hactive := active_after_choice (fun hnil => by
    rw [hnil, List.length_nil] at hlen
    exact absurd hlen.symm (acceptThreshold_pos (h.fixed id row hrow)).ne') hw
  have htask : db'.task = db.task := by
    obtain ⟨-, rfl⟩ := setTaskActiveShares_ok hw
    rfl
  have hv' : VotingOf db' id (fixed row) (db'.getTaskParticipants id) v := by
    rw [wt.participants id (mem_of_row hrow)]
    exact hv.mono wt.toExtends
  exact ⟨sound_write htab wt ⟨row, htask ▸ hrow, .voting hv'⟩, hactive, htask, hv'⟩

theorem start_sound {v : VotingTask} (ho : StartEntryOutcome env id v g r g')
    (h : Tables g.server.db) (hrow : g.server.db.task.lookup id = some row)
    (hv : VotingOf g.server.db id (fixed row) (g.server.db.getTaskParticipants id) v)
    (hentry : g.entry = .voting v) (hacc : v.decisionUpdate = .accepted) :
    GuardedSound id g g' := by
  cases ho with
  | notStored w rest =>
    exact guardedSound (sound_same h hrow (hentry ▸ .voting hv)) rest.db rest.devices rest.taskCache
  | @built _ db₁ _ _ _ w build rest =>
    rw [hentry] at build
    obtain ⟨hs, hactive, htask, hv'⟩ := choice_sound h hrow hv hacc w.write
    have hchoice := choice_chosenDevices (voting_distinct h hrow hv) env
      g.server.deviceLastActivations
    have hbuild := build_sound hs.tables (htask ▸ hrow) hv' (decisionUpdate_accepted hacc) hactive
      hchoice build
    exact guardedSound (hs.trans hbuild) rest.db rest.devices rest.taskCache

theorem decide_sound {d : Bytes} {accept : Bool} (h : Tables g.server.db)
    (hrow : g.server.db.task.lookup id = some row) (he : EntryOf g.server.db id row g.entry)
    (ho : DecideOutcome env id d accept g r g') : GuardedSound id g g' := by
  -- the vote is counted in memory first and stored afterwards
  have hvote : ∀ {v p}, g.entry = .voting v →
      v.taskInfo.participants.find? (fun p => p.device.id = d) = some p →
      VotingOf g.server.db id (fixed row) (g.server.db.getTaskParticipants id)
        (v.vote d (voteOf p.shares accept)) := by
    intro v p hv hfind
    rw [hv] at he
    exact voting_vote he.votingOf hfind accept
  have htab := tables_setTaskDecision h id d accept
  have wt := writesTask_setTaskDecision g.server.db id d accept
  have hps := wt.participants id (mem_of_row hrow)
  have hstored : ∀ {v}, VotingOf g.server.db id (fixed row)
      (g.server.db.getTaskParticipants id) v →
      VotingOf (g.server.db.setTaskDecision id d accept) id (fixed row)
        ((g.server.db.setTaskDecision id d accept).getTaskParticipants id) v := by
    intro v hv
    rw [hps]
    exact hv.mono wt.toExtends
  cases ho with
  | notVoting => exact guardedSound (sound_same h hrow he) rfl rfl rfl
  | notParticipant => exact guardedSound (sound_same h hrow he) rfl rfl rfl
  | notStored hv hfind w =>
    exact guardedSound (sound_same h hrow (.voting (hvote hv hfind))) rfl rfl rfl
  | undecided hv hfind served tally =>
    exact guardedSound (sound_write htab wt ⟨row, hrow, .voting (hstored (hvote hv hfind))⟩)
      rfl rfl rfl
  | declined hv hfind served tally stored =>
    have hv' := hstored (hvote hv hfind)
    refine guardedSound ((sound_write htab wt ⟨row, hrow, .voting hv'⟩).trans ?_) rfl rfl rfl
    refine sound_stored stored (sound_same htab hrow (.voting hv')) fun db' hw => ?_
    obtain ⟨-, -, rfl⟩ := decisionUpdate_declined tally
    exact sound_result htab hrow (.declined hv'.info) hw fun _ _ => nofun
  | accepted hv hfind served tally start =>
    have hv' := hstored (hvote hv hfind)
    have hs := start_sound start htab hrow hv' rfl tally
    refine ⟨(sound_write htab wt ⟨row, hrow, .voting hv'⟩).trans hs.toSound, ?_, ?_⟩
    · exact hs.server_devices
    · exact hs.taskCache

end Guarded

end InvariantSteps
