import MeesignServer.ServerMoves

/-!
# Protocol indices stay the same

The index map of a task is not stored. It is computed again from the sorted
participants, and a device always gets the first of the indices that its shares
had when the group's key was generated.
-/
namespace IndexStability

open FiniteMap DataModel CommunicatorModel ProtocolModel VotingModel RunningTaskModel
open DatabaseModel ServerModel TaskOutcomes ServerOutcomes
open ActiveShares TableFrames ServerInvariant HydrationOutcomes ServerMoves

def activeCount (c : Communicator) (d : Bytes) : ℕ :=
  c.activeShares.entries.countP fun e => e.2.id = d

theorem length_identifierToIndices (c : Communicator) (d : Bytes) :
    (c.identifierToIndices d).length = activeCount c d := by
  rw [Communicator.identifierToIndices, List.length_insertionSort, List.length_map,
    activeCount, List.countP_eq_length_filter]

theorem getProtocolIndices_nodup (c : Communicator) : c.getProtocolIndices.Nodup := by
  rw [Communicator.getProtocolIndices, (List.perm_insertionSort _ _).nodup_iff]
  have hshift := c.activeShares.keys_nodup.map (add_left_injective c.protocolType.indexOffset)
  rwa [AList.keys, List.keys, List.map_map] at hshift

section Blocks

variable {ps : List Participant} {k : Bytes → ℕ} {c c' : Communicator}

/-- Key generation runs with all shares, so later tasks use the front of its indices. -/
theorem indices_of_full (hk : Blocks ps k c.activeShares) (ht : totalShares ps ≤ c.threshold)
    {k' : Bytes → ℕ} (hk' : Blocks ps k' c'.activeShares) (hp : c'.protocolType = c.protocolType)
    (d : Bytes) : c'.identifierToIndices d =
      (c.identifierToIndices d).take (activeCount c' d) := by
  by_cases hd : d ∈ ids ps
  · obtain ⟨p, hp', rfl⟩ := List.mem_map.mp hd
    have hfull := hk.full (ht.trans c.enough_shares) hp'
    have hle := hk'.bound p hp'
    rw [← length_identifierToIndices, identifierToIndices_eq hk hp',
      identifierToIndices_eq hk' hp', hp, List.length_range', hfull,
        List.take_range'_of_length_ge hle]
  · rw [identifierToIndices_of_notMem hk hd, identifierToIndices_of_notMem hk' hd, List.take_nil]

end Blocks

section Bounds

variable {db : Database} {id : Uuid} {row : TaskRow} {t : RunningTask}

theorem protocolIndices_lt (hfixed : TaskFixed db id (fixed row))
    (h : RunningOf db id (fixed row) (db.getTaskParticipants id) t) :
    ∀ i ∈ t.session.communicator.getProtocolIndices, i < 2 ^ 32 := by
  intro i hi
  rw [Communicator.getProtocolIndices, (List.perm_insertionSort _ _).mem_iff, List.mem_map] at hi
  obtain ⟨e, he, rfl⟩ := hi
  obtain ⟨k, hk⟩ := h.blocks
  have hlt := hk.lt_total (mem_entries_iff.mp he)
  have htotal := hfixed.total
  have hoffset : t.session.communicator.protocolType.indexOffset ≤ 1 := by
    cases t.session.communicator.protocolType <;> decide
  omega

theorem threshold_pos (hfixed : TaskFixed db id (fixed row))
    (h : RunningOf db id (fixed row) (db.getTaskParticipants id) t) :
    0 < t.session.communicator.threshold := by
  rw [h.threshold, acceptThreshold]
  split_ifs
  · obtain ⟨p, hp⟩ := List.exists_mem_of_ne_nil _ hfixed.nonempty
    have hle : p.shares ≤ totalShares (db.getTaskParticipants id) :=
      List.single_le_sum (fun _ _ => Nat.zero_le _) _ (List.mem_map_of_mem hp)
    have := hfixed.positive p hp
    omega
  · have hthreshold := hfixed.threshold
    unfold asU32 maxI32 at *
    omega

end Bounds

variable [External]

/-- Whatever shares a threshold task on an established group runs with, each device gets the
first of the indices that it had in the group's key generation, and no index is given twice. -/
theorem protocol_indices_stable {s s' : Server} {groupTaskId taskId : Uuid} {t : GroupTask}
    {u : RunningTask} {group : Group} (hs : Reachable s)
    (ht : s.taskCache groupTaskId = some (.running (.group t))) (hl : Later s s')
    (hresult : s'.db.taskResult groupTaskId = some (NewTaskResult.ofResult (.ok group.id)))
    (hu : s'.taskCache taskId = some (.running u)) (hg : groupOf u = some group) :
    (∀ d, u.session.communicator.identifierToIndices d =
      (t.communicator.identifierToIndices d).take (activeCount u.session.communicator d)) ∧
    u.session.communicator.getProtocolIndices.Nodup := by
  have hinv := reachable_invariant hs
  obtain ⟨hinv', hx⟩ := later_invariant hinv hl
  -- the key generation
  obtain ⟨row, hrow, he⟩ := hinv.cache _ _ ht
  have hrun := he.runningOf
  have htype : row.taskType = .group := hrun.context.1
  obtain ⟨k, hk⟩ := hrun.blocks
  have hthr : t.communicator.threshold =
      totalShares (s.db.getTaskParticipants groupTaskId) := by
    have := hrun.threshold
    rw [acceptThreshold, if_pos hrun.context.1] at this
    exact this
  -- the same task later, with its result
  obtain ⟨row', hrow', hfixed⟩ := hx.task _ row hrow
  have htype' : row'.taskType = .group :=
    (fixed_congr hfixed TaskRow.taskType fun _ => rfl).trans htype
  have hprot' : row'.protocolType = row.protocolType :=
    fixed_congr hfixed TaskRow.protocolType fun _ => rfl
  obtain ⟨x, hx', hgroup⟩ := (hinv'.tables.rows _ row' hrow').result _ hresult
  obtain ⟨group', hfound, hprot, hps⟩ := hgroup htype' _ (ofResult_injective hx').symm
  -- the threshold task
  obtain ⟨urow, hurow, hue⟩ := hinv'.cache _ _ hu
  have hurun := hue.runningOf
  obtain ⟨-, groupId, data, hon⟩ :=
    groupOf_onGroup (hinv'.tables.fixed _ _ hurow) hurun.context hg
  have hid : groupId = group.id := (getGroup_id hon.found).symm
  subst hid
  obtain ⟨k', hk'⟩ := hurun.blocks
  rw [hon.participants, hps, hx.participants _ (mem_of_row hrow)] at hk'
  rw [hon.found] at hfound
  cases hfound
  refine ⟨fun d => indices_of_full hk hthr.symm.le hk' ?_ d, getProtocolIndices_nodup _⟩
  calc u.session.communicator.protocolType = urow.protocolType := hurun.communicator
    _ = group.protocol := hon.protocol.symm
    _ = row'.protocolType := hprot
    _ = row.protocolType := hprot'
    _ = t.communicator.protocolType := hrun.communicator.symm

def runningGroupTask : TaskEntry → Option GroupTask
  | .running (.group t) => some t
  | _ => none

def runningOn : TaskEntry → Option Group
  | .running t => groupOf t
  | _ => none

omit [External] in
theorem runningGroupTask_some {o : Option TaskEntry} (h : (o.bind runningGroupTask).isSome) :
    ∃ t, o = some (.running (.group t)) := by
  rcases o with _ | (v | (t | t | t | t) | t | t | t)
  case some.running.group => exact ⟨t, rfl⟩
  all_goals cases h

omit [External] in
theorem runningOn_some {o : Option TaskEntry} (groupId : Bytes)
    (h : (o.bind runningOn).map Group.id = some groupId) :
    ∃ u group, o = some (.running u) ∧ groupOf u = some group ∧ group.id = groupId := by
  rcases o with _ | (v | t | t | t | t)
  case some.running =>
    obtain ⟨group, hg, hid⟩ := Option.map_eq_some_iff.mp h
    exact ⟨t, group, rfl, hg, hid⟩
  all_goals cases h

def keyGeneration : Server :=
  @runOps plainExternal initial (servedOps 100 0 (groupRequested ++ groupEstablished.take 1))

def signature : Server :=
  @runOps plainExternal keyGeneration
    (servedOps 100 0 (groupEstablished.drop 1) ++ servedOps 100 1 signatureStarted)

omit [External] in
/-- The signature of Alice and Bob runs with the indices of their key generation. -/
theorem protocol_indices_stable_signature : ∃ t u,
    keyGeneration.taskCache 0 = some (.running (.group t)) ∧
    signature.taskCache 1 = some (.running u) ∧
    ∀ d, u.session.communicator.identifierToIndices d =
      (t.communicator.identifierToIndices d).take (activeCount u.session.communicator d) := by
  obtain ⟨t, ht⟩ := runningGroupTask_some (o := keyGeneration.taskCache 0) (by decide +kernel)
  obtain ⟨u, group, hu, hg, hid⟩ :=
    runningOn_some (o := signature.taskCache 1) [7] (by decide +kernel)
  have hresult : signature.db.taskResult 0 = some (NewTaskResult.ofResult (.ok [7])) := by
    decide +kernel
  have hreach : @Reachable plainExternal keyGeneration :=
    @reachable_later plainExternal _ _ (@Reachable.initial plainExternal)
      (@later_runOps plainExternal _ _)
  rw [← hid] at hresult
  have hlater : @Later plainExternal keyGeneration signature := @later_runOps plainExternal _ _
  have hstable := @protocol_indices_stable plainExternal _ _ _ _ _ _ _ hreach ht
    hlater hresult hu hg
  exact ⟨t, u, ht, hu, hstable.1⟩

/-- The `u32` arithmetic of a communicator does not wrap around: neither the offset of the
protocol indices nor the `threshold - 1` of the unicasts. -/
theorem communicator_numbers_fit {env : Env} {s : Server} {id : Uuid} {t : RunningTask}
    (hs : Reachable s) (ht : Loaded env s id (.running t)) :
    0 < t.session.communicator.threshold ∧ t.session.communicator.threshold < 2 ^ 32 ∧
    ∀ i ∈ t.session.communicator.getProtocolIndices, i < 2 ^ 32 := by
  have hinv := reachable_invariant hs
  obtain ⟨row, hrow, he⟩ := loaded_entry hinv ht
  have hfixed := hinv.tables.fixed id row hrow
  have hrun := he.runningOf
  refine ⟨threshold_pos hfixed hrun, ?_, protocolIndices_lt hfixed hrun⟩
  rw [hrun.threshold, acceptThreshold]
  split_ifs
  · exact hfixed.total
  · unfold asU32
    omega

omit [External] in
/-- The numbers of the key generation of Alice and Bob fit. -/
theorem communicator_numbers_fit_key_generation : ∃ t,
    keyGeneration.taskCache 0 = some (.running (.group t)) ∧ 0 < t.communicator.threshold ∧
    t.communicator.threshold < 2 ^ 32 ∧ ∀ i ∈ t.communicator.getProtocolIndices, i < 2 ^ 32 := by
  obtain ⟨t, ht⟩ := runningGroupTask_some (o := keyGeneration.taskCache 0) (by decide +kernel)
  have hreach : @Reachable plainExternal keyGeneration :=
    @reachable_later plainExternal _ _ (@Reachable.initial plainExternal)
      (@later_runOps plainExternal _ _)
  exact ⟨t, ht, @communicator_numbers_fit plainExternal (servingEnv 100 0) _ _ _ hreach
    (.hit ht rfl)⟩

end IndexStability
