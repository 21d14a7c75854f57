import MeesignServer.TableWrites
import MeesignServer.TaskStart

/-!
# Active shares are recovered

`choose_active_shares` walks a random choice of shares and stores how many each device has.
`hydrate_communicator` walks the participants in the order of their ids with these numbers.
Both give a device the first indices of its block, so the second rebuilds the map of the
first. Only a choice of fewer than two shares is not rebuilt: there the communicator refuses
its map.
-/
namespace ShareRecovery

open FallibleProgram FiniteMap DataModel CommunicatorModel VotingModel DatabaseModel
open HydrationModel ServerModel ServerOutcomes ActiveShares TaskStart TableWrites
open HydrationOutcomes ServerInvariant TableFrames

variable {ps qs : List Participant} {m m' : Map ℕ Device} {k k' : Bytes → ℕ}

/-- The blocks determine the map. -/
theorem blocks_unique (h : Blocks ps k m) (h' : Blocks ps k m') (i : ℕ) :
    m.lookup i = m'.lookup i := by
  apply Option.ext
  intro device
  rw [h.lookup, h'.lookup]

theorem blocks_stretch (h : Blocks ps k m) {p : Participant} (hp : p ∈ ps) (i : ℕ) :
    m.lookup i = some p.device ↔ blockStart ps p.device.id ≤ i ∧
      i < blockStart ps p.device.id + k p.device.id := by
  rw [h.lookup]
  constructor
  · rintro ⟨q, hq, hdevice, hi⟩
    exact hi
  · intro hi
    exact ⟨p, hp, rfl, hi⟩

theorem asU32_asI32_of_lt {n : ℕ} (h : n < 4294967296) : asU32 (asI32 n) = n := by
  have hmod : (n : ℤ).bmod 4294967296 % ((4294967296 : ℕ) : ℤ) = n % ((4294967296 : ℕ) : ℤ) :=
    Int.bmod_emod
  unfold asU32 asI32
  omega

variable {db db' : Database} {id : Uuid} {chosen : List Device}

theorem stored_count (hnone : db.activeTaskParticipant id = ∅)
    (hw : db.setTaskActiveShares id (countDevices chosen) = .ok db')
    (hlen : chosen.length < 4294967296) (d : Bytes) :
    storedShares db' id d = chosen.countP (fun device => device.id = d) := by
  obtain ⟨-, rfl⟩ := setTaskActiveShares_ok hw
  rw [storedShares, Database.getTaskActiveShares, lookup_mapValues]
  simp only [Function.update_self, hnone, AList.empty_union, lookup_mapValues]
  rw [lookup_countDevices]
  split_ifs with hd
  · have hle : chosen.countP (fun device => device.id = d) ≤ chosen.length := List.countP_le_length
    rw [Option.map_some, Option.map_some, Option.getD_some, asU32_asI32_of_lt (by omega)]
  · exact (count_eq_zero hd).symm

structure ChosenShares (env : Env) (activations : Bytes → Option ℕ) (v : VotingTask)
    (m : Map ℕ Device) : Prop where
  size : len m = v.acceptThreshold
  stretch : ∀ p ∈ v.taskInfo.participants, ∃ k ≤ p.shares, ∀ i, m.lookup i = some p.device ↔
    blockStart v.taskInfo.participants p.device.id ≤ i ∧
      i < blockStart v.taskInfo.participants p.device.id + k
  accepted : ∀ i device, m.lookup i = some device → ∃ p ∈ accepting v, p.device = device
  connected : v.acceptThreshold ≤ totalShares ((accepting v).filter (isConnected env activations)) →
    ∀ i device, m.lookup i = some device →
      ∃ p ∈ accepting v, p.device = device ∧ isConnected env activations p

variable {env : Env} {activations : Bytes → Option ℕ} {v : VotingTask}

theorem candidate_of_share (hn : (ids v.taskInfo.participants).Nodup)
    (h : Blocks v.taskInfo.participants (fun d => (chosenDevices env activations v).countP
      (fun device => device.id = d)) m) {i : ℕ} {device : Device}
    (hi : m.lookup i = some device) : ∃ p ∈ candidates env activations v, p.device = device := by
  obtain ⟨p, hp, rfl, hlow, hhigh⟩ := (h.lookup i device).mp hi
  have hpos : 0 < (chosenDevices env activations v).countP
      (fun device => device.id = p.device.id) := by omega
  obtain ⟨device, hmem, hid⟩ := List.countP_pos_iff.mp hpos
  obtain ⟨q, hq, rfl⟩ := mem_shareList ((chosenDevices_subperm env activations v).subset hmem)
  have hsub := ((candidates_sublist env activations v).trans List.filter_sublist).subset hq
  rw [eq_of_id_eq hn hp hsub (of_decide_eq_true hid).symm]
  exact ⟨q, hq, rfl⟩

theorem chosen_shares (hn : (ids v.taskInfo.participants).Nodup)
    (henough : v.acceptThreshold ≤ totalShares (accepting v))
    (h : Blocks v.taskInfo.participants (fun d => (chosenDevices env activations v).countP
      (fun device => device.id = d)) m) (hlen : len m = (chosenDevices env activations v).length) :
    ChosenShares env activations v m := by
  constructor
  · rw [hlen, length_chosenDevices]
    exact min_eq_left henough
  · intro p hp
    exact ⟨_, h.bound p hp, blocks_stretch h hp⟩
  · intro i device hi
    obtain ⟨p, hp, hdevice⟩ := candidate_of_share hn h hi
    exact ⟨p, (candidates_sublist env activations v).subset hp, hdevice⟩
  · intro hconnected i device hi
    obtain ⟨p, hp, hdevice⟩ := candidate_of_share hn h hi
    rw [candidates, if_pos hconnected, List.mem_filter] at hp
    exact ⟨p, hp.1, hdevice, hp.2⟩

/-- What `hydrate_communicator` makes of the rows of a choice. -/
structure Recovers (db : Database) (v : VotingTask) (m : Map ℕ Device) (row : TaskRow)
    (loaded : List Participant) : Prop where
  same : (∃ c, hydrateCommunicator db v.taskInfo.id row loaded = .ok c ∧
    ∀ i, c.activeShares.lookup i = m.lookup i) ↔ 2 ≤ v.acceptThreshold
  refused : v.acceptThreshold < 2 →
    hydrateCommunicator db v.taskInfo.id row loaded = .error (.panic .activeSharesTooFew)

theorem recovers_chosen {row : TaskRow} {loaded : List Participant}
    (hn : (ids v.taskInfo.participants).Nodup) (hm : ChosenShares env activations v m)
    (h : Blocks v.taskInfo.participants (storedShares db v.taskInfo.id) m)
    (hperm : loaded.Perm v.taskInfo.participants)
    (hrow : acceptThreshold row loaded ≤ v.acceptThreshold) : Recovers db v m row loaded := by
  obtain ⟨m', hblocks, hnew⟩ := hydrate_blocks row hperm hn h.bound
  have hsize : len m' = v.acceptThreshold := by
    rw [hblocks.size, ← h.size, hm.size]
  have hrefused : v.acceptThreshold < 2 →
      hydrateCommunicator db v.taskInfo.id row loaded = .error (.panic .activeSharesTooFew) := by
    intro hone
    have hlt : ¬ 1 < len m' := by omega
    rw [hnew, Communicator.new, dif_neg hlt]
  refine ⟨⟨?_, fun htwo => ?_⟩, hrefused⟩
  · rintro ⟨c, hc, -⟩
    by_contra hone
    cases (hrefused (by omega)).symm.trans hc
  · have hlt : 1 < len m' := by omega
    have hle : acceptThreshold row loaded ≤ len m' := by omega
    rw [hnew, Communicator.new, dif_pos hlt, dif_pos hle]
    exact ⟨_, rfl, blocks_unique hblocks h⟩

/-- Whatever is chosen, `choose_active_shares` fails only with its write. Otherwise it returns
as many shares as the threshold, in blocks of accepting and, where possible, connected devices,
and hydration rebuilds them from the rows if and only if there are at least two. -/
theorem active_shares_recovered (env : Env) (hn : (ids v.taskInfo.participants).Nodup)
    (henough : v.acceptThreshold ≤ totalShares (accepting v))
    (hfits : v.taskInfo.totalShares < 2 ^ 32) (s : Server) :
    post (chooseActiveShares env v) s fun r s' =>
      (∃ stop, r = .error stop ∧ WriteFails env .setTaskActiveShares v.taskInfo.id
        (activeSharesWrite v.taskInfo.id (chosenDevices env s.deviceLastActivations v)) s.db stop) ∨
      ∃ m, r = .ok m ∧ ChosenShares env s.deviceLastActivations v m ∧
        (s.db.activeTaskParticipant v.taskInfo.id = ∅ → ∀ row loaded,
          loaded.Perm v.taskInfo.participants → acceptThreshold row loaded = v.acceptThreshold →
          Recovers s'.db v m row loaded) := by
  apply chooseActiveShares_post
  · intro stop s' hfails _ _
    exact .inl ⟨stop, rfl, hfails⟩
  · intro db s' hserved hrest _
    obtain ⟨m, hm, hlen, hblocks⟩ := assignShareIndices_spec hn
      (choice_chosenDevices hn env s.deviceLastActivations)
    have hchosen := chosen_shares hn henough hblocks hlen
    refine .inr ⟨m, hm, hchosen, fun hnone row loaded hperm hrow => ?_⟩
    rw [hrest.db]
    have hstored : ∀ p ∈ v.taskInfo.participants,
        (chosenDevices env s.deviceLastActivations v).countP
          (fun device => device.id = p.device.id) =
          storedShares db v.taskInfo.id p.device.id := by
      intro p _
      refine (stored_count hnone hserved.write ?_ p.device.id).symm
      have hle : totalShares (accepting v) ≤ v.taskInfo.totalShares :=
        totalShares_le_of_sublist List.filter_sublist
      rw [← hlen, hchosen.size]
      omega
    exact recovers_chosen hn hchosen (hblocks.congr hstored) hperm hrow.le

def pairRequested : Server :=
  @runOps plainExternal initial (servedOps 0 0 [.addDevice alice, .addDevice bob,
    .addGroupTask "Group" ⟨[alice.id, bob.id], pair_fits⟩ 2 .frost .signChallenge none])

def pairVote : VotingTask :=
  ⟨⟨0, "Group", .group, .frost, .signChallenge, [⟨alice, 1⟩, ⟨bob, 1⟩], [], 0, []⟩,
    collect [(alice.id, 1), (bob.id, 1)], 2, .group 2 none⟩

theorem active_shares_recovered_two : ∃ m s',
    outcome (chooseActiveShares (servingEnv 0 0) pairVote) pairRequested = (.ok m, s') ∧
    ChosenShares (servingEnv 0 0) pairRequested.deviceLastActivations pairVote m ∧
    ∀ row loaded, loaded.Perm pairVote.taskInfo.participants →
      acceptThreshold row loaded = pairVote.acceptThreshold →
      Recovers s'.db pairVote m row loaded := by
  have hok : (outcome (chooseActiveShares (servingEnv 0 0) pairVote) pairRequested).1.toBool := by
    decide +kernel
  have hnone : (pairRequested.db.activeTaskParticipant 0).entries = [] := by decide +kernel
  rcases active_shares_recovered (v := pairVote) (servingEnv 0 0) (by decide)
    (by decide) (by decide) pairRequested with ⟨stop, hstop, -⟩ | ⟨m, hm, hchosen, hrecovers⟩
  · rw [hstop] at hok
    cases hok
  · exact ⟨m, _, Prod.ext hm rfl, hchosen, hrecovers (AList.ext hnone)⟩

def soloRequested : Server :=
  @runOps plainExternal initial (servedOps 0 0 [.addDevice alice,
    .addGroupTask "Solo" ⟨[alice.id], by decide⟩ 1 .frost .signChallenge none])

def soloVote : VotingTask :=
  ⟨⟨0, "Solo", .group, .frost, .signChallenge, [⟨alice, 1⟩], [], 0, []⟩,
    collect [(alice.id, 1)], 1, .group 1 none⟩

/-- The one share that is chosen is stored, and hydration panics over it. -/
theorem single_share_refused : (ids soloVote.taskInfo.participants).Nodup ∧
    soloVote.acceptThreshold ≤ totalShares (accepting soloVote) ∧
    (soloRequested.db.activeTaskParticipant 0).entries = [] ∧
    (outcome (chooseActiveShares (servingEnv 0 0) soloVote) soloRequested).1.map AList.entries =
      .ok [⟨0, alice⟩] ∧
    ((outcome (chooseActiveShares (servingEnv 0 0) soloVote) soloRequested).2.db.task.lookup 0).map
      (fun row => (hydrateCommunicator
        (outcome (chooseActiveShares (servingEnv 0 0) soloVote) soloRequested).2.db 0 row
        soloVote.taskInfo.participants).map fun c => c.activeShares.entries) =
      some (.error (.panic .activeSharesTooFew)) := by
  refine ⟨by decide, by decide, by decide +kernel, by decide +kernel, by decide +kernel⟩

end ShareRecovery
