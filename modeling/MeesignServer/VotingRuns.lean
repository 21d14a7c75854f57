import MeesignServer.SyncRuns

/-!
# Runs of votes

A voting task under any calls of `decide`. The outcome of a set of votes does not
depend on their order, and the tally is the tally of the last votes. How much a
vote weighs depends on the truncation to `i8`.
-/
namespace VotingRuns

open FiniteMap DataModel VotingModel DatabaseModel ServerModel
open ActiveShares VoteTally TableFrames ServerInvariant TableWrites
open HydrationOutcomes InvariantSteps TaskAdmission ServerMoves TableSync SyncRuns

abbrev Call := Bytes × Bool

inductive Verdict where
  | undecided
  | accepted
  | declined
  deriving DecidableEq

def verdict : DecisionUpdate → Verdict
  | .undecided => .undecided
  | .accepted => .accepted
  | .declined _ => .declined

/-- `decide` is called until its first answer that is not `Undecided`. -/
def feed (task : VotingTask) : List Call → Except Error Verdict
  | [] => .ok .undecided
  | (d, accept) :: rest =>
    match task.decide d accept with
    | .error e => .error e
    | .ok (task, .undecided) => feed task rest
    | .ok (_, update) => .ok (verdict update)

def cast (task : VotingTask) (c : Call) : VotingTask :=
  match task.decide c.1 c.2 with
  | .error _ => task
  | .ok (task, _) => task

def decideAll (task : VotingTask) (calls : List Call) : VotingTask := calls.foldl cast task

def lastVote (calls : List Call) (d : Bytes) : Option Bool :=
  calls.foldl (fun last c => if c.1 = d then some c.2 else last) none

section Calls

variable {task : VotingTask} {p : Participant}

theorem find_participant {ps : List Participant} (hn : (ids ps).Nodup) (hp : p ∈ ps) :
    ps.find? (fun q => q.device.id = p.device.id) = some p := by
  cases hf : ps.find? (fun q => q.device.id = p.device.id) with
  | none => exact absurd (List.find?_eq_none.mp hf p hp) (by simp)
  | some q =>
    have hq : q.device.id = p.device.id := by simpa using List.find?_some hf
    rw [eq_of_id_eq hn hp (List.mem_of_find?_eq_some hf) hq.symm]

theorem decide_participant (hn : (ids task.taskInfo.participants).Nodup)
    (hp : p ∈ task.taskInfo.participants) (accept : Bool) :
    task.decide p.device.id accept = .ok (cast task (p.device.id, accept),
      (cast task (p.device.id, accept)).decisionUpdate) ∧
    cast task (p.device.id, accept) = task.vote p.device.id (voteOf p.shares accept) := by
  simp only [cast, VotingTask.decide, find_participant hn hp, and_self]

theorem decide_other {c : Call} (h : c.1 ∉ ids task.taskInfo.participants) :
    task.decide c.1 c.2 = .error (.generalProtocol "Invalid task participant id") ∧
      cast task c = task := by
  have hf : task.taskInfo.participants.find? (fun q => q.device.id = c.1) = none := by
    rw [List.find?_eq_none]
    intro q hq
    simp only [decide_eq_true_eq]
    intro hqc
    exact h (List.mem_map.mpr ⟨q, hq, hqc⟩)
  simp only [cast, VotingTask.decide, hf, and_self]

theorem cast_kept (task : VotingTask) (c : Call) : (cast task c).taskInfo = task.taskInfo ∧
    (cast task c).acceptThreshold = task.acceptThreshold := by
  unfold cast VotingTask.decide
  cases task.taskInfo.participants.find? (fun p => p.device.id = c.1) <;> exact ⟨rfl, rfl⟩

theorem voteIn_cast (hn : (ids task.taskInfo.participants).Nodup)
    (hp : p ∈ task.taskInfo.participants) (c : Call) :
    voteIn (cast task c).decisions p.device.id =
      if c.1 = p.device.id then voteOf p.shares c.2 else voteIn task.decisions p.device.id := by
  by_cases hc : c.1 ∈ ids task.taskInfo.participants
  · obtain ⟨q, hq, hqc⟩ := List.mem_map.mp hc
    have hcast : cast task c = task.vote q.device.id (voteOf q.shares c.2) := by
      have := (decide_participant hn hq c.2).2
      rwa [hqc] at this ⊢
    rw [hcast, VotingTask.vote, voteIn_insert, hqc]
    split_ifs with h
    · rw [h, Function.update_self, eq_of_id_eq hn hp hq (h.symm.trans hqc.symm)]
    · rw [Function.update_of_ne (Ne.symm h)]
  · rw [(decide_other hc).2, if_neg]
    intro h
    exact hc (h ▸ List.mem_map.mpr ⟨p, hp, rfl⟩)

theorem ballots_cast (hn : (ids task.taskInfo.participants).Nodup)
    (hb : Ballots task.taskInfo.participants task.decisions) (c : Call) :
    Ballots task.taskInfo.participants (cast task c).decisions := by
  by_cases hc : c.1 ∈ ids task.taskInfo.participants
  · obtain ⟨q, hq, hqc⟩ := List.mem_map.mp hc
    have hcast : cast task c = task.vote q.device.id (voteOf q.shares c.2) := by
      have := (decide_participant hn hq c.2).2
      rwa [hqc] at this ⊢
    rw [hcast]
    exact hb.insert hq c.2
  · rwa [(decide_other hc).2]

end Calls

theorem decideAll_append (task : VotingTask) (calls : List Call) (c : Call) :
    decideAll task (calls ++ [c]) = cast (decideAll task calls) c := by
  simp [decideAll, List.foldl_append]

theorem lastVote_append (calls : List Call) (c : Call) (d : Bytes) :
    lastVote (calls ++ [c]) d = if c.1 = d then some c.2 else lastVote calls d := by
  simp [lastVote, List.foldl_append]

theorem lastVote_single (d : Bytes) (accept : Bool) (d' : Bytes) :
    lastVote [(d, accept)] d' = if d = d' then some accept else none := rfl

theorem lastVote_of_notMem {calls : List Call} {d : Bytes} (h : d ∉ calls.map Prod.fst) :
    lastVote calls d = none := by
  induction calls using List.reverseRecOn with
  | nil => rfl
  | append_singleton calls c ih =>
    simp only [List.map_append, List.map_cons, List.map_nil, List.mem_append, List.mem_singleton,
      not_or] at h
    rw [lastVote_append, if_neg (Ne.symm h.2)]
    exact ih h.1

theorem lastVote_of_mem {votes : List Call} {c : Call} (hn : (votes.map Prod.fst).Nodup)
    (hc : c ∈ votes) : lastVote votes c.1 = some c.2 := by
  induction votes using List.reverseRecOn with
  | nil => simp at hc
  | append_singleton votes c' ih =>
    rw [List.map_append, List.map_cons, List.map_nil, List.nodup_append] at hn
    rw [lastVote_append]
    rcases List.mem_append.mp hc with hc | hc
    · have hne : c'.1 ≠ c.1 := fun he =>
        hn.2.2 c.1 (List.mem_map.mpr ⟨c, hc, rfl⟩) c'.1 (by simp) he.symm
      rw [if_neg hne]
      exact ih hn.1 hc
    · rw [List.mem_singleton.mp hc, if_pos rfl]

theorem lastVote_perm {votes votes' : List Call} (hn : (votes.map Prod.fst).Nodup)
    (hp : votes.Perm votes') (d : Bytes) : lastVote votes d = lastVote votes' d := by
  have hn' := (hp.map Prod.fst).nodup_iff.mp hn
  by_cases hd : d ∈ votes.map Prod.fst
  · obtain ⟨c, hc, rfl⟩ := List.mem_map.mp hd
    rw [lastVote_of_mem hn hc, lastVote_of_mem hn' (hp.mem_iff.mp hc)]
  · rw [lastVote_of_notMem hd, lastVote_of_notMem fun h => hd ((hp.map Prod.fst).mem_iff.mpr h)]

theorem decideAll_kept (task : VotingTask) (calls : List Call) :
    (decideAll task calls).taskInfo = task.taskInfo ∧
      (decideAll task calls).acceptThreshold = task.acceptThreshold := by
  induction calls using List.reverseRecOn with
  | nil => exact ⟨rfl, rfl⟩
  | append_singleton calls c ih =>
    rw [decideAll_append]
    obtain ⟨hinfo, hthr⟩ := cast_kept (decideAll task calls) c
    exact ⟨hinfo.trans ih.1, hthr.trans ih.2⟩

theorem voteIn_decideAll {task : VotingTask} {p : Participant}
    (hn : (ids task.taskInfo.participants).Nodup) (hp : p ∈ task.taskInfo.participants)
    (calls : List Call) : voteIn (decideAll task calls).decisions p.device.id =
      ((lastVote calls p.device.id).map (voteOf p.shares)).getD
        (voteIn task.decisions p.device.id) := by
  induction calls using List.reverseRecOn with
  | nil => rfl
  | append_singleton calls c ih =>
    have hinfo := (decideAll_kept task calls).1
    rw [decideAll_append, lastVote_append, voteIn_cast (by rwa [hinfo]) (by rwa [hinfo])]
    split_ifs with h
    · rfl
    · exact ih

theorem ballots_decideAll {task : VotingTask} (hn : (ids task.taskInfo.participants).Nodup)
    (hb : Ballots task.taskInfo.participants task.decisions) (calls : List Call) :
    Ballots task.taskInfo.participants (decideAll task calls).decisions := by
  induction calls using List.reverseRecOn with
  | nil => exact hb
  | append_singleton calls c ih =>
    have hinfo := (decideAll_kept task calls).1
    rw [decideAll_append, ← hinfo]
    exact ballots_cast (by rwa [hinfo]) (by rwa [hinfo]) c

/-- A voting task as the requests make it, at any point of the vote. The total is a `u32` sum
that has not overflowed. -/
structure Poll (task : VotingTask) : Prop where
  distinct : (ids task.taskInfo.participants).Nodup
  ballots : Ballots task.taskInfo.participants task.decisions
  threshold_pos : 1 ≤ task.acceptThreshold
  threshold_le : task.acceptThreshold ≤ task.taskInfo.totalShares
  fits : task.taskInfo.totalShares < 2 ^ 32

/-- Votes of different participants that have not voted yet. -/
structure NewVotes (task : VotingTask) (votes : List Call) : Prop where
  distinct : (votes.map Prod.fst).Nodup
  participants : ∀ d ∈ votes.map Prod.fst, d ∈ ids task.taskInfo.participants
  unvoted : ∀ d ∈ votes.map Prod.fst, voteIn task.decisions d = 0

section Order

variable {task : VotingTask} {votes votes' : List Call}

theorem Poll.decideAll (h : Poll task) (calls : List Call) : Poll (decideAll task calls) := by
  obtain ⟨hinfo, hthr⟩ := decideAll_kept task calls
  constructor
  · rw [hinfo]
    exact h.distinct
  · rw [hinfo]
    exact ballots_decideAll h.distinct h.ballots calls
  · rw [hthr]
    exact h.threshold_pos
  · rw [hthr, hinfo]
    exact h.threshold_le
  · rw [hinfo]
    exact h.fits

theorem Poll.tally (h : Poll task) : acceptsRejects task.decisions =
    (accepts task.taskInfo.participants task.decisions,
      rejects task.taskInfo.participants task.decisions) :=
  acceptsRejects_eq h.distinct fun _ => h.ballots.mem

theorem Poll.tally_le (h : Poll task) : (acceptsRejects task.decisions).1 +
    (acceptsRejects task.decisions).2 ≤ task.taskInfo.totalShares := by
  rw [h.tally]
  exact accepts_add_rejects_le h.ballots h.distinct

theorem Poll.not_both (h : Poll task) : ¬ (task.acceptThreshold ≤
      (acceptsRejects task.decisions).1 ∧
    task.rejectThreshold ≤ (acceptsRejects task.decisions).2) := by
  rintro ⟨ha, hr⟩
  have hle := h.tally_le
  have hthr := h.threshold_le
  rw [VotingTask.rejectThreshold, rejectThreshold_eq h.fits h.threshold_pos h.threshold_le] at hr
  omega

theorem verdict_accepted (h : task.acceptThreshold ≤ (acceptsRejects task.decisions).1) :
    verdict task.decisionUpdate = .accepted := by
  simp only [VotingTask.decisionUpdate, h, ↓reduceIte, verdict]

theorem Poll.verdict_declined (h : Poll task)
    (hr : task.rejectThreshold ≤ (acceptsRejects task.decisions).2) :
    verdict task.decisionUpdate = .declined := by
  have ha : ¬ task.acceptThreshold ≤ (acceptsRejects task.decisions).1 :=
    fun ha => h.not_both ⟨ha, hr⟩
  simp only [VotingTask.decisionUpdate, ha, hr, ↓reduceIte, verdict]

theorem tally_mono (h : Poll task) (hv : NewVotes task votes) :
    (acceptsRejects task.decisions).1 ≤ (acceptsRejects (decideAll task votes).decisions).1 ∧
    (acceptsRejects task.decisions).2 ≤ (acceptsRejects (decideAll task votes).decisions).2 := by
  have hinfo := (decideAll_kept task votes).1
  rw [h.tally, (h.decideAll votes).tally, hinfo]
  have hstep : ∀ p ∈ task.taskInfo.participants, voteIn task.decisions p.device.id = 0 ∨
      voteIn (decideAll task votes).decisions p.device.id = voteIn task.decisions p.device.id := by
    intro p hp
    rw [voteIn_decideAll h.distinct hp]
    by_cases hmem : p.device.id ∈ votes.map Prod.fst
    · exact .inl (hv.unvoted _ hmem)
    · rw [lastVote_of_notMem hmem]
      exact .inr rfl
  constructor
  · refine List.sum_le_sum fun p hp => ?_
    rcases hstep p hp with h0 | h0 <;> rw [h0]
    exact Nat.zero_le _
  · refine List.sum_le_sum fun p hp => ?_
    rcases hstep p hp with h0 | h0 <;> rw [h0]
    exact Nat.zero_le _

theorem NewVotes.tail {c : Call} {rest : List Call} (h : Poll task)
    (hv : NewVotes task (c :: rest)) : NewVotes (cast task c) rest := by
  have hn := List.nodup_cons.mp hv.distinct
  have hinfo := (cast_kept task c).1
  refine ⟨hn.2, fun d hd => ?_, fun d hd => ?_⟩
  · rw [hinfo]
    exact hv.participants d (List.mem_cons_of_mem _ hd)
  · obtain ⟨p, hp, rfl⟩ := List.mem_map.mp (hv.participants d (List.mem_cons_of_mem _ hd))
    have hne : c.1 ≠ p.device.id := fun he => hn.1 (he ▸ hd)
    rw [voteIn_cast h.distinct hp, if_neg hne]
    exact hv.unvoted _ (List.mem_cons_of_mem _ hd)

/-- Stopping at the first answer gives the verdict of all the votes together: an early answer
is never revised, since the two thresholds exclude each other. -/
theorem feed_eq (h : Poll task) (hv : NewVotes task votes) (hne : votes ≠ []) :
    feed task votes = .ok (verdict (decideAll task votes).decisionUpdate) := by
  induction votes generalizing task with
  | nil => exact absurd rfl hne
  | cons c rest ih =>
    obtain ⟨p, hp, hpc⟩ := List.mem_map.mp (hv.participants c.1 (by simp))
    have hdec := (decide_participant h.distinct hp c.2).1
    rw [hpc] at hdec
    have ht : Poll (cast task c) := h.decideAll [c]
    have hrest := hv.tail h
    have hmono := tally_mono ht hrest
    have hlast : Poll (decideAll (cast task c) rest) := ht.decideAll rest
    obtain ⟨hinfo, hthr⟩ := decideAll_kept (cast task c) rest
    rw [feed, hdec]
    change _ = Except.ok (verdict (decideAll (cast task c) rest).decisionUpdate)
    by_cases ha : (cast task c).acceptThreshold ≤ (acceptsRejects (cast task c).decisions).1
    · have hfinal : verdict (decideAll (cast task c) rest).decisionUpdate = .accepted :=
        verdict_accepted (by omega)
      rw [hfinal]
      simp only [VotingTask.decisionUpdate, ha, ↓reduceIte, verdict]
    · by_cases hr : (cast task c).rejectThreshold ≤ (acceptsRejects (cast task c).decisions).2
      · have hsame : (decideAll (cast task c) rest).rejectThreshold =
            (cast task c).rejectThreshold := by
          simp only [VotingTask.rejectThreshold, hinfo, hthr]
        rw [hlast.verdict_declined (by omega)]
        simp only [VotingTask.decisionUpdate, ha, hr, ↓reduceIte, verdict]
      · have hun : (cast task c).decisionUpdate = .undecided := by
          simp only [VotingTask.decisionUpdate, ha, hr, ↓reduceIte]
        simp only [hun]
        cases rest with
        | nil => rw [feed, decideAll, List.foldl_nil, hun, verdict]
        | cons c' rest => exact ih ht hrest (by simp)

/-- Whatever order the votes of a set come in, the first answer other than `Undecided` is the
same, and however often the devices vote, the tally never meets both thresholds. -/
theorem vote_order_irrelevant (h : Poll task) :
    (∀ votes votes', votes.Perm votes' → NewVotes task votes →
      feed task votes = feed task votes') ∧
    ∀ calls, (acceptsRejects (decideAll task calls).decisions).1 +
        (acceptsRejects (decideAll task calls).decisions).2 ≤ task.taskInfo.totalShares ∧
      ¬ (task.acceptThreshold ≤ (acceptsRejects (decideAll task calls).decisions).1 ∧
        task.rejectThreshold ≤ (acceptsRejects (decideAll task calls).decisions).2) := by
  constructor
  · intro votes votes' hp hv
    have hv' : NewVotes task votes' := by
      refine ⟨(hp.map _).nodup_iff.mp hv.distinct, fun d hd => ?_, fun d hd => ?_⟩
      · exact hv.participants d ((hp.map _).mem_iff.mpr hd)
      · exact hv.unvoted d ((hp.map _).mem_iff.mpr hd)
    by_cases hne : votes = []
    · subst hne
      rw [List.nil_perm.mp hp]
    · have hne' : votes' ≠ [] := fun he => hne (List.perm_nil.mp (he ▸ hp))
      rw [feed_eq h hv hne, feed_eq h hv' hne']
      -- both runs end with the same last vote of every participant
      have hsame : ∀ p ∈ task.taskInfo.participants,
          voteIn (decideAll task votes).decisions p.device.id =
            voteIn (decideAll task votes').decisions p.device.id := by
        intro p hpm
        rw [voteIn_decideAll h.distinct hpm, voteIn_decideAll h.distinct hpm,
          lastVote_perm hv.distinct hp]
      have htally : acceptsRejects (decideAll task votes).decisions =
          acceptsRejects (decideAll task votes').decisions := by
        rw [(h.decideAll votes).tally, (h.decideAll votes').tally, (decideAll_kept task votes).1,
          (decideAll_kept task votes').1]
        refine Prod.ext ?_ ?_
        · exact congrArg List.sum (List.map_congr_left fun p hpm => by rw [hsame p hpm])
        · exact congrArg List.sum (List.map_congr_left fun p hpm => by rw [hsame p hpm])
      obtain ⟨hinfo, hthr⟩ := decideAll_kept task votes
      obtain ⟨hinfo', hthr'⟩ := decideAll_kept task votes'
      simp only [VotingTask.decisionUpdate, VotingTask.rejectThreshold, hinfo, hinfo', hthr, hthr',
        htally]
  · intro calls
    have hc := h.decideAll calls
    obtain ⟨hinfo, hthr⟩ := decideAll_kept task calls
    have hle := hc.tally_le
    have hnot := hc.not_both
    rw [VotingTask.rejectThreshold, hinfo, hthr] at hnot
    rw [hinfo] at hle
    exact ⟨hle, hnot⟩

end Order

def pollOfTwo : VotingTask :=
  ⟨⟨0, "Poll", .group, .frost, .signChallenge, [⟨alice, 2⟩, ⟨bob, 1⟩], [], 0, []⟩, ∅, 3,
    .group 2 none⟩

theorem vote_order_irrelevant_two : Poll pollOfTwo ∧
    feed pollOfTwo [(alice.id, true), (bob.id, false)] =
      feed pollOfTwo [(bob.id, false), (alice.id, true)] := by
  have h : Poll pollOfTwo :=
    ⟨by decide, ballots_empty _, by decide, by decide, by decide⟩
  refine ⟨h, (vote_order_irrelevant h).1 _ _ (.swap _ _ _) ⟨by decide, by decide, ?_⟩⟩
  intro d _
  rfl

/-- Alice holds as many shares as a `u32` can count, and Bob two more, so the sum of the shares
wraps to one. -/
def overfullPoll : VotingTask :=
  ⟨⟨0, "Poll", .group, .frost, .signChallenge, [⟨alice, 4294967295⟩, ⟨bob, 2⟩], [], 0, []⟩, ∅, 1,
    .group 1 none⟩

/-- Both accept. The shares of Alice are read as the vote -1, which turns the poll down if it
comes first. -/
theorem overfull_poll_order : (ids overfullPoll.taskInfo.participants).Nodup ∧
    (∀ p ∈ overfullPoll.taskInfo.participants, 0 < p.shares ∧ p.shares < 2 ^ 32) ∧
    1 ≤ overfullPoll.acceptThreshold ∧
    overfullPoll.acceptThreshold ≤ asU32 overfullPoll.taskInfo.totalShares ∧
    feed overfullPoll [(alice.id, true), (bob.id, true)] = .ok .declined ∧
    feed overfullPoll [(bob.id, true), (alice.id, true)] = .ok .accepted := by
  refine ⟨by decide, by decide, by decide, by decide, by decide, by decide⟩

def stored (task : VotingTask) (calls : List Call) (db : Database) : Database :=
  calls.foldl (fun db c =>
    match task.decide c.1 c.2 with
    | .error _ => db
    | .ok _ => db.setTaskDecision task.taskInfo.id c.1 c.2) db

def sharesWith (task : VotingTask) (calls : List Call) (kind : Option Bool → Bool) : ℕ :=
  totalShares (task.taskInfo.participants.filter fun p => kind (lastVote calls p.device.id))

/-- Every vote counts with all shares of its device, in the tally, in the answers and in what
is read back from the tables. -/
structure WeighsShares (s : Server) (task : VotingTask) (calls : List Call) : Prop where
  accepts : (acceptsRejects (decideAll task calls).decisions).1 =
    sharesWith task calls (· = some true)
  rejects : (acceptsRejects (decideAll task calls).decisions).2 =
    sharesWith task calls (· = some false)
  accepted : ∀ c t update, (decideAll task calls).decide c.1 c.2 = .ok (t, update) →
    (verdict update = .accepted ↔
      task.acceptThreshold ≤ sharesWith task (calls ++ [c]) (· = some true))
  declined : ∀ c t update, (decideAll task calls).decide c.1 c.2 = .ok (t, update) →
    (verdict update = .declined ↔
      sharesWith task (calls ++ [c]) (· ≠ some false) < task.acceptThreshold)
  stored : ∀ db, createRows task s.db = .ok db →
    acceptsRejects ((stored task calls db).getTaskDecisions task.taskInfo.id) =
      acceptsRejects (decideAll task calls).decisions

section Weight

variable {s : Server} {task : VotingTask} {calls : List Call}

theorem totalShares_filter (ps : List Participant) (q : Participant → Bool) :
    totalShares (ps.filter q) = (ps.map fun p => if q p then p.shares else 0).sum := by
  induction ps with
  | nil => rfl
  | cons p ps ih =>
    rw [List.filter_cons, List.map_cons, List.sum_cons, ← ih]
    split_ifs with h
    · simp [totalShares]
    · simp

theorem sharesWith_not (task : VotingTask) (calls : List Call) :
    sharesWith task calls (· = some false) + sharesWith task calls (· ≠ some false) =
      task.taskInfo.totalShares := by
  rw [sharesWith, sharesWith, totalShares_filter, totalShares_filter, ← List.sum_map_add,
    TaskInfo.totalShares, totalShares]
  refine congrArg List.sum (List.map_congr_left fun p _ => ?_)
  by_cases h : lastVote calls p.device.id = some false <;> simp [h]

theorem tally_shares (hn : (ids task.taskInfo.participants).Nodup) (h0 : task.decisions = ∅)
    (hle : ∀ p ∈ task.taskInfo.participants, p.shares ≤ 127) (calls : List Call) :
    (acceptsRejects (decideAll task calls).decisions).1 = sharesWith task calls (· = some true) ∧
    (acceptsRejects (decideAll task calls).decisions).2 =
      sharesWith task calls (· = some false) := by
  have hvote : ∀ p ∈ task.taskInfo.participants,
      voteIn (decideAll task calls).decisions p.device.id =
        ((lastVote calls p.device.id).map (voteOf p.shares)).getD 0 := by
    intro p hp
    rw [voteIn_decideAll hn hp, h0]
    rfl
  have hb := ballots_decideAll hn (h0 ▸ ballots_empty _) calls
  rw [acceptsRejects_eq hn fun _ => hb.mem, sharesWith, sharesWith, totalShares_filter,
    totalShares_filter]
  constructor
  all_goals
    refine congrArg List.sum (List.map_congr_left fun p hp => ?_)
    rw [hvote p hp]
    rcases lastVote calls p.device.id with _ | _ | _
    · rfl
    · simp [voteOf_false (hle p hp)]
    · simp [voteOf_true (hle p hp)]

theorem poll_answers (h : Poll task) : (verdict task.decisionUpdate = .accepted ↔
      task.acceptThreshold ≤ (acceptsRejects task.decisions).1) ∧
    (verdict task.decisionUpdate = .declined ↔
      task.taskInfo.totalShares < task.acceptThreshold + (acceptsRejects task.decisions).2) := by
  have hthr : task.rejectThreshold = task.taskInfo.totalShares - task.acceptThreshold + 1 :=
    rejectThreshold_eq h.fits h.threshold_pos h.threshold_le
  have hle := h.threshold_le
  have hboth := h.not_both
  by_cases ha : task.acceptThreshold ≤ (acceptsRejects task.decisions).1
  · rw [verdict_accepted ha]
    refine ⟨iff_of_true rfl ha, iff_of_false (by decide) fun hr => hboth ⟨ha, ?_⟩⟩
    omega
  · by_cases hr : task.rejectThreshold ≤ (acceptsRejects task.decisions).2
    · rw [h.verdict_declined hr]
      exact ⟨iff_of_false (by decide) ha, iff_of_true rfl (by omega)⟩
    · have hun : task.decisionUpdate = .undecided := by
        simp only [VotingTask.decisionUpdate, ha, hr, ↓reduceIte]
      rw [hun]
      exact ⟨iff_of_false (by decide) ha, iff_of_false (by decide) (by omega)⟩

/-- Rows of a task, with the votes that it has counted. -/
structure CountedRows (db : Database) (row : TaskRow) (task : VotingTask) : Prop where
  tables : Tables db
  row : db.task.lookup task.taskInfo.id = some row
  participants : task.taskInfo.participants.Perm (db.getTaskParticipants task.taskInfo.id)
  votes : voteIn task.decisions = voteIn (db.getTaskDecisions task.taskInfo.id)

theorem countedRows_calls {db : Database} {row : TaskRow} (h : CountedRows db row task)
    (calls : List Call) : CountedRows (stored task calls db) row (decideAll task calls) := by
  induction calls using List.reverseRecOn with
  | nil => exact h
  | append_singleton calls c ih =>
    have hinfo := (decideAll_kept task calls).1
    have hn : (ids task.taskInfo.participants).Nodup :=
      (h.participants.map _).nodup_iff.mpr (h.tables.fixed _ _ h.row).distinct
    have hstep : stored task (calls ++ [c]) db =
        match task.decide c.1 c.2 with
        | .error _ => stored task calls db
        | .ok _ => (stored task calls db).setTaskDecision task.taskInfo.id c.1 c.2 := by
      simp only [stored, List.foldl_append, List.foldl_cons, List.foldl_nil]
    rw [decideAll_append, hstep]
    by_cases hc : c.1 ∈ ids task.taskInfo.participants
    · obtain ⟨p, hp, hpc⟩ := List.mem_map.mp hc
      have hp' : p ∈ (decideAll task calls).taskInfo.participants := by rwa [hinfo]
      obtain ⟨-, hcast⟩ := decide_participant (by rwa [hinfo]) hp' c.2
      rw [hpc] at hcast
      have hok := (decide_participant hn hp c.2).1
      rw [hpc] at hok
      rw [hok]
      change CountedRows _ row (cast (decideAll task calls) (c.1, c.2))
      rw [hcast]
      have w := writesTask_setTaskDecision (stored task calls db) task.taskInfo.id c.1 c.2
      have hmem := ih.participants.mem_iff.mp hp'
      constructor
      · exact tables_setTaskDecision ih.tables _ _ _
      · exact ih.row
      · change (decideAll task calls).taskInfo.participants.Perm _
        rw [← hinfo] at w ⊢
        exact ih.participants.trans (.of_eq (w.participants _ (mem_of_row ih.row)).symm)
      · have hvotes := voteIn_setTaskDecision ih.tables ih.row hmem c.2
        rw [hpc, hinfo] at hvotes
        change voteIn ((decideAll task calls).decisions.insert c.1 _) =
          voteIn (Database.getTaskDecisions _ (decideAll task calls).taskInfo.id)
        rw [voteIn_insert, ih.votes, hinfo, hvotes]
    · rw [(decide_other hc).1, (decide_other (by rwa [hinfo])).2]
      exact ih

theorem groupParticipants_listed (h : Invariant s) (l : List Bytes) :
    (ids (groupParticipants s (countShares l))).Nodup ∧
      ∀ p ∈ groupParticipants s (countShares l), 0 < p.shares := by
  constructor
  · have hsub : ∀ ks : List Bytes, (((ks.filterMap s.devices).map fun device =>
        (⟨device, ((countShares l).lookup device.id).getD 0⟩ : Participant)).map
          fun p => p.device.id).Sublist ks := by
      intro ks
      induction ks with
      | nil => exact .slnil
      | cons k ks ih =>
        cases hd : s.devices k with
        | none =>
          rw [List.filterMap_cons_none hd]
          exact ih.cons k
        | some device =>
          have hid : device.id = k := findDevice_id (h.devices ▸ hd)
          rw [List.filterMap_cons_some hd, List.map_cons, List.map_cons, hid]
          exact ih.cons_cons k
    exact (hsub _).nodup (countShares l).keys_nodup
  · intro p hp
    simp only [groupParticipants, List.mem_map, List.mem_filterMap] at hp
    obtain ⟨device, ⟨k, hk, hd⟩, rfl⟩ := hp
    have hid : device.id = k := findDevice_id (h.devices ▸ hd)
    have hmem := mem_keys_countShares hk
    rw [hid, lookup_countShares hmem, Option.getD_some, List.countP_pos_iff]
    exact ⟨k, hmem, by simp⟩

variable [External] {env : Env} {name : String} {deviceIds : GroupDevices} {threshold : ℕ}
  {protocolType : ProtocolType} {keyType : KeyType} {note : Option String}

theorem poll_newGroupTask (h : Invariant s) {p : Participant} (hp : p ∈ (newGroupTask env s name
    deviceIds threshold protocolType keyType note).taskInfo.participants) :
    Poll (newGroupTask env s name deviceIds threshold protocolType keyType note) := by
  obtain ⟨hn, hpos⟩ := groupParticipants_listed h deviceIds.ids
  have hlt := lt_of_le_of_lt (totalShares_groupParticipants h deviceIds.ids) deviceIds.fits
  exact ⟨hn, ballots_empty _, (hpos p hp).trans_le (shares_le_total hp), le_rfl, hlt⟩

theorem stored_tally (h : Invariant s) (ha : Admitted env s task) (h0 : task.decisions = ∅)
    {db : Database} (hw : createRows task s.db = .ok db) (calls : List Call) :
    acceptsRejects ((stored task calls db).getTaskDecisions task.taskInfo.id) =
      acceptsRejects (decideAll task calls).decisions := by
  have hs := admitted_sound h ha hw
  obtain ⟨row, hrow, he⟩ := hs.entry
  have hv := he.votingOf
  have hnew : ∀ d, voteIn (db.getTaskDecisions task.taskInfo.id) d = 0 := fun _ =>
    getTaskDecisions_created (createRows_ok hw).2.2
  have hrec : CountedRows db row task := by
    refine ⟨hs.tables, hrow, hv.info.participants, funext fun d => ?_⟩
    rw [hnew d, h0]
    rfl
  have hend := countedRows_calls hrec calls
  obtain ⟨hinfo, -⟩ := decideAll_kept task calls
  have hn : (ids task.taskInfo.participants).Nodup :=
    (hv.info.participants.map _).nodup_iff.mpr (hs.tables.fixed _ _ hrow).distinct
  have hb := ballots_decideAll hn (h0 ▸ ballots_empty _) calls
  -- the tally depends on the votes of the stored participants only
  obtain ⟨htables, hrow', hps, hvotes⟩ := hend
  rw [hinfo] at hrow' hps hvotes
  have hb' := hb.perm hps
  have htally := acceptsRejects_eq (htables.fixed _ _ hrow').distinct fun _ => hb'.mem
  obtain ⟨hacc, hrej⟩ :=
    accepts_congr ((stored task calls db).getTaskParticipants task.taskInfo.id) hvotes
  rw [htally, hacc, hrej]
  exact tally_stored htables hrow'

omit [External] in
theorem weighs_of_le (hn : (ids task.taskInfo.participants).Nodup) (h0 : task.decisions = ∅)
    (hpoll : ∀ p ∈ task.taskInfo.participants, Poll task)
    (hle : ∀ p ∈ task.taskInfo.participants, p.shares ≤ 127) (calls : List Call)
    (hstored : ∀ db, createRows task s.db = .ok db →
      acceptsRejects ((stored task calls db).getTaskDecisions task.taskInfo.id) =
        acceptsRejects (decideAll task calls).decisions) : WeighsShares s task calls := by
  -- a call that is answered comes from a participant
  have hanswer : ∀ c t update, (decideAll task calls).decide c.1 c.2 = .ok (t, update) →
      Poll task ∧ update = (decideAll task (calls ++ [c])).decisionUpdate := by
    intro c t update hd
    rw [decideAll_append, cast, hd]
    unfold VotingTask.decide at hd
    split at hd
    · cases hd
    · rename_i p hf
      rw [(decideAll_kept task calls).1] at hf
      cases hd
      exact ⟨hpoll p (List.mem_of_find?_eq_some hf), rfl⟩
  obtain ⟨hacc, hrej⟩ := tally_shares hn h0 hle calls
  refine ⟨hacc, hrej, ?_, ?_, hstored⟩
  · intro c t update hd
    obtain ⟨h, rfl⟩ := hanswer c t update hd
    have hp := h.decideAll (calls ++ [c])
    rw [(poll_answers hp).1, (tally_shares hn h0 hle _).1, (decideAll_kept task _).2]
  · intro c t update hd
    obtain ⟨h, rfl⟩ := hanswer c t update hd
    have hp := h.decideAll (calls ++ [c])
    have hsum := sharesWith_not task (calls ++ [c])
    rw [(poll_answers hp).2, (tally_shares hn h0 hle _).2, (decideAll_kept task _).2,
      (decideAll_kept task _).1]
    omega

omit [External] in
theorem le_of_weighs (h : Poll task) (h0 : task.decisions = ∅) {p : Participant}
    (hp : p ∈ task.taskInfo.participants) (hpos : 0 < p.shares)
    (hw : (acceptsRejects (decideAll task [(p.device.id, true)]).decisions).1 =
      sharesWith task [(p.device.id, true)] (· = some true)) : p.shares ≤ 127 := by
  by_contra hlarge
  have hvote : ∀ q ∈ task.taskInfo.participants,
      voteIn (decideAll task [(p.device.id, true)]).decisions q.device.id =
        if p.device.id = q.device.id then voteOf q.shares true else 0 := by
    intro q hq
    rw [voteIn_decideAll h.distinct hq, h0, lastVote_single]
    split_ifs
    · rw [Option.map_some, Option.getD_some]
    · rfl
  have hlast : ∀ q : Participant, (lastVote [(p.device.id, true)] q.device.id = some true ↔
      p.device.id = q.device.id) := by
    intro q
    rw [lastVote_single]
    split_ifs with he <;> simp [he]
  rw [(h.decideAll _).tally, (decideAll_kept task _).1, sharesWith, totalShares_filter] at hw
  refine absurd hw (ne_of_lt (List.sum_lt_sum _ _ (fun q hq => ?_) ⟨p, hp, ?_⟩))
  · have hle := voteOf_natAbs_le q.shares true
    simp only [hvote q hq, hlast, decide_eq_true_eq]
    split_ifs <;> omega
  · have hle := voteOf_natAbs_le p.shares true
    have hne : voteOf p.shares true ≠ p.shares := fun he => hlarge (voteOf_eq_shares hpos he).2
    simp only [hvote p hp, hlast, decide_eq_true_eq, ↓reduceIte]
    omega

/-- The votes on a group request weigh exactly the shares if and only if no participant holds
more than 127 of them. -/
theorem votes_weigh_shares (hs : Reachable s) :
    (∀ calls, WeighsShares s
      (newGroupTask env s name deviceIds threshold protocolType keyType note) calls) ↔
    ∀ p ∈ groupParticipants s (countShares deviceIds.ids), p.shares ≤ 127 := by
  have hi := reachable_invariant hs
  constructor
  · intro h p hp
    have hpos := (groupParticipants_listed hi deviceIds.ids).2 p hp
    exact le_of_weighs (poll_newGroupTask hi hp) rfl hp hpos (h [(p.device.id, true)]).accepts
  · intro hle calls
    exact weighs_of_le (groupParticipants_listed hi deviceIds.ids).1 rfl
      (fun _ hp => poll_newGroupTask hi hp) hle calls
      fun db hw => stored_tally hi .group rfl hw calls

end Weight

theorem registered_reachable : @Reachable plainExternal registered :=
  @reachable_later plainExternal _ _ (@Reachable.initial plainExternal)
    (@later_runOps plainExternal _ _)

def requestOf (deviceIds : GroupDevices) : VotingTask :=
  @newGroupTask plainExternal (servingEnv 0 0) registered "Group" deviceIds 2 .frost
    .signChallenge none

/-- Alice is listed twice in a request for a group with Bob. -/
theorem votes_weigh_shares_three :
    (∀ p ∈ groupParticipants registered (countShares [alice.id, bob.id, alice.id]),
      p.shares ≤ 127) ∧
    ∀ calls, WeighsShares registered
      (requestOf ⟨[alice.id, bob.id, alice.id], by decide⟩) calls := by
  have hle : ∀ p ∈ groupParticipants registered (countShares [alice.id, bob.id, alice.id]),
      p.shares ≤ 127 := by decide +kernel
  exact ⟨hle, (@votes_weigh_shares _ plainExternal _ _ _ _ _ _ _ registered_reachable).mpr hle⟩

/-- Alice is listed 128 times. The approval is stored as the vote -128, a rejection. -/
theorem vote_of_128_shares_is_lost : ¬ WeighsShares registered
    (requestOf ⟨List.replicate 128 alice.id, by simp⟩) [(alice.id, true)] := by
  intro h
  have hw := h.accepts
  revert hw
  decide +kernel

end VotingRuns
