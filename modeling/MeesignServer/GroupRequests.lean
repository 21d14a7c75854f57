import MeesignServer.AdmissionStart
import MeesignServer.VotingRuns

/-!
# Requests for groups

A request lists a device once for each of its shares. The participants of the new task are
the listed devices that are registered, with as many shares as they are listed. The request
that voters see is written from the keys of the share map, which name every device once.
-/
namespace GroupRequests

open FallibleProgram FiniteMap DataModel VotingModel RunningTaskModel DatabaseModel ServerModel
open ServerOutcomes ServerMoves ServerInvariant TableFrames TaskAdmission AdmissionStart VotingRuns
open ActiveShares TableWrites

def storedRequest (name : String) (deviceIds : GroupDevices) (threshold : ℕ)
    (protocolType : ProtocolType) (keyType : KeyType) (note : Option String) : GroupRequest :=
  ⟨name, (countShares deviceIds.ids).keys, threshold, protocolType, keyType, note⟩

def sharesOf (ps : List Participant) (d : Bytes) : ℕ :=
  ((ps.find? fun p => p.device.id = d).map Participant.shares).getD 0

/-- The stored request and the participants repeat the list that was sent. -/
structure Faithful (sent : List Bytes) (request : GroupRequest) (ps : List Participant) : Prop where
  listed : ∀ d, request.deviceIds.count d = sent.count d
  shares : ∀ d, sharesOf ps d = sent.count d

variable {env : Env} {s : Server} {sent : List Bytes} {d : Bytes}

theorem mem_keys_iff : d ∈ (countShares sent).keys ↔ d ∈ sent := by
  constructor
  · exact mem_keys_countShares
  · intro h
    rw [← AList.mem_keys, ← AList.lookup_isSome, lookup_countShares h]
    rfl

theorem countP_eq_count (sent : List Bytes) (d : Bytes) :
    sent.countP (fun a => a = d) = sent.count d := by
  rw [List.count]
  apply List.countP_congr
  intro a _
  rw [beq_iff_eq, decide_eq_true_eq]

theorem count_keys (sent : List Bytes) (d : Bytes) :
    (countShares sent).keys.count d = if d ∈ sent then 1 else 0 := by
  split_ifs with h
  · exact List.count_eq_one_of_mem (countShares sent).keys_nodup (mem_keys_iff.mpr h)
  · exact List.count_eq_zero_of_not_mem fun hmem => h (mem_keys_iff.mp hmem)

theorem listed_iff : (∀ d, (countShares sent).keys.count d = sent.count d) ↔ sent.Nodup := by
  rw [List.nodup_iff_count_le_one]
  constructor
  · intro h d
    rw [← h d, count_keys]
    split_ifs <;> omega
  · intro h d
    rw [count_keys]
    split_ifs with hd
    · have hpos := List.count_pos_iff.mpr hd
      have hle := h d
      omega
    · exact (List.count_eq_zero_of_not_mem hd).symm

theorem find_registered (h : Invariant s) (f : Device → Participant)
    (hf : ∀ device, (f device).device = device) (d : Bytes) (ks : List Bytes) :
    ((ks.filterMap s.devices).map f).find? (fun p => p.device.id = d) =
      if d ∈ ks then (s.db.findDevice d).map f else none := by
  induction ks with
  | nil => rfl
  | cons k ks ih =>
    simp only [List.mem_cons]
    cases hk : s.devices k with
    | none =>
      rw [List.filterMap_cons_none hk, ih]
      by_cases hd : d = k
      · subst hd
        rw [h.devices] at hk
        simp only [hk, Option.map_none, ite_self]
      · simp only [hd, false_or]
    | some device =>
      have hid : device.id = k := findDevice_id (h.devices ▸ hk)
      rw [List.filterMap_cons_some hk, List.map_cons, List.find?_cons, hf, hid]
      by_cases hd : d = k
      · subst hd
        rw [h.devices] at hk
        rw [hk, if_pos (.inl rfl)]
        simp
      · simp only [Ne.symm hd, hd, decide_false, false_or]
        exact ih

theorem find_groupParticipants (h : Invariant s) :
    (groupParticipants s (countShares sent)).find? (fun p => p.device.id = d) =
      if d ∈ sent then (s.db.findDevice d).map fun device => ⟨device, sent.count d⟩ else none := by
  rw [groupParticipants, find_registered h _ fun _ => rfl]
  simp only [mem_keys_iff]
  split_ifs with hd
  · cases hdevice : s.db.findDevice d with
    | none => rfl
    | some device =>
      rw [Option.map_some, Option.map_some, findDevice_id hdevice, lookup_countShares hd,
        Option.getD_some, countP_eq_count]
  · rfl

theorem shares_iff (h : Invariant s) :
    (∀ d, sharesOf (groupParticipants s (countShares sent)) d = sent.count d) ↔
      ∀ d ∈ sent, (s.db.findDevice d).isSome := by
  unfold sharesOf
  constructor
  · intro hall d hd
    have hshares := hall d
    rw [find_groupParticipants h, if_pos hd] at hshares
    by_contra hnone
    rw [Option.not_isSome_iff_eq_none] at hnone
    rw [hnone] at hshares
    have hpos := List.count_pos_iff.mpr hd
    change 0 = _ at hshares
    omega
  · intro hall d
    rw [find_groupParticipants h]
    split_ifs with hd
    · obtain ⟨device, hdevice⟩ := Option.isSome_iff_exists.mp (hall d hd)
      rw [hdevice]
      rfl
    · exact (List.count_eq_zero_of_not_mem hd).symm

variable [External] {name : String} {deviceIds : GroupDevices} {threshold : ℕ}
  {protocolType : ProtocolType} {keyType : KeyType} {note : Option String}

omit [External] in
theorem faithful_iff (h : Invariant s) :
    Faithful deviceIds.ids (storedRequest name deviceIds threshold protocolType keyType note)
      (groupParticipants s (countShares deviceIds.ids)) ↔
    deviceIds.ids.Nodup ∧ ∀ d ∈ deviceIds.ids, (s.db.findDevice d).isSome := by
  constructor
  · rintro ⟨hlisted, hshares⟩
    exact ⟨listed_iff.mp hlisted, (shares_iff h).mp hshares⟩
  · rintro ⟨hnodup, hregistered⟩
    exact ⟨listed_iff.mpr hnodup, (shares_iff h).mpr hregistered⟩

/-- A request that is answered with a task is recorded faithfully exactly when it lists no
device twice and only registered devices. -/
theorem group_request_faithful_iff (hs : Reachable s)
    (hok : result env (.addGroupTask name deviceIds threshold protocolType keyType note) s =
      .ok ()) :
    ∃ v, (next env (.addGroupTask name deviceIds threshold protocolType keyType note) s).taskCache
        env.newUuid = some (.voting v) ∧
      v.taskInfo.request = External.encodeGroupRequest
        (storedRequest name deviceIds threshold protocolType keyType note) ∧
      ((next env (.addGroupTask name deviceIds threshold protocolType keyType note)
        s).db.task.lookup env.newUuid).map TaskRow.request = some v.taskInfo.request ∧
      (Faithful deviceIds.ids (storedRequest name deviceIds threshold protocolType keyType note)
        v.taskInfo.participants ↔
        deviceIds.ids.Nodup ∧ ∀ d ∈ deviceIds.ids, (s.db.findDevice d).isSome) := by
  obtain ⟨v, db, hmade, hrows, hnext⟩ := request_ok rfl hok
  obtain ⟨-, -, hinsert⟩ := createRows_ok hrows
  obtain ⟨-, -, -, hdb⟩ := insertTask_ok hinsert
  rw [hnext]
  cases hmade with
  | group =>
    refine ⟨_, cached_self .., rfl, ?_, faithful_iff (reachable_invariant hs)⟩
    change (db.task.lookup _).map TaskRow.request = _
    rw [hdb]
    change ((s.db.task.insert env.newUuid _).lookup env.newUuid).map TaskRow.request = _
    rw [AList.lookup_insert]
    rfl

omit [External] in
/-- Alice and Bob are registered and listed once each. -/
theorem group_request_faithful_iff_two : ∃ v,
    (@next plainExternal (servingEnv 0 0)
      (.addGroupTask "Group" ⟨[alice.id, bob.id], by decide⟩ 2 .frost .signChallenge none)
      registered).taskCache 0 = some (.voting v) ∧
    Faithful [alice.id, bob.id]
      (storedRequest "Group" ⟨[alice.id, bob.id], by decide⟩ 2 .frost .signChallenge none)
      v.taskInfo.participants := by
  have hok : @result plainExternal (servingEnv 0 0)
      (.addGroupTask "Group" ⟨[alice.id, bob.id], by decide⟩ 2 .frost .signChallenge none)
      registered = .ok () := by decide +kernel
  have hregistered : ∀ d ∈ [alice.id, bob.id], (registered.db.findDevice d).isSome := by
    decide +kernel
  obtain ⟨v, hv, -, -, hfaithful⟩ :=
    @group_request_faithful_iff (servingEnv 0 0) registered plainExternal _ _ _ _ _ _
      registered_reachable hok
  exact ⟨v, hv, hfaithful.mpr ⟨by decide, hregistered⟩⟩

omit [External] in
/-- Alice is listed twice, and the request that voters see lists Alice once. -/
theorem repeated_device_listed_once : @Reachable plainExternal registered ∧
    @result plainExternal (servingEnv 0 0)
      (.addGroupTask "Group" ⟨[alice.id, bob.id, alice.id], by decide⟩ 2 .frost .signChallenge none)
      registered = .ok () ∧
    (storedRequest "Group" ⟨[alice.id, bob.id, alice.id], by decide⟩ 2 .frost .signChallenge
      none).deviceIds.count alice.id = 1 ∧
    [alice.id, bob.id, alice.id].count alice.id = 2 ∧
    sharesOf (groupParticipants registered (countShares [alice.id, bob.id, alice.id]))
      alice.id = 2 :=
  ⟨registered_reachable, by decide +kernel, by decide +kernel, by decide, by decide +kernel⟩

end GroupRequests
