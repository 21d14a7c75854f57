import MeesignServer.AdmissionStart

/-!
# Decisions that fail

`decide_task` counts the vote in memory first, then stores the vote and the active
shares, and only then constructs the running task. An error along the way takes
none of this back, so a failed decision changes nothing exactly when it fails early
or repeats what an earlier failed decision has left behind.
-/
namespace FailedDecision

open FallibleProgram FiniteMap DataModel CommunicatorModel ProtocolModel VotingModel
open RunningTaskModel DatabaseModel HydrationModel ServerModel TaskOutcomes ServerOutcomes
open ActiveShares VoteTally TableFrames ServerInvariant InvariantSteps TableWrites TaskAdmission
open ServerMoves AdmissionStart

/-- The same phase and, while the task is voted on, the same votes. The order in which a hash
map lists the votes does not count. -/
def SameEntry : TaskEntry → TaskEntry → Prop
  | .voting v, .voting v' => v'.taskInfo = v.taskInfo ∧ v'.acceptThreshold = v.acceptThreshold ∧
      v'.runningTaskContext = v.runningTaskContext ∧
      ∀ d, v'.decisions.lookup d = v.decisions.lookup d
  | e, e' => e' = e

structure SameRows (db db' : Database) (id : Uuid) : Prop where
  task : db'.task.lookup id = db.task.lookup id
  participants : db'.taskParticipant id = db.taskParticipant id
  active : ∀ d, (db'.activeTaskParticipant id).lookup d = (db.activeTaskParticipant id).lookup d
  result : db'.taskResult id = db.taskResult id

/-- A task that is in nobody's cache is compared with the one that the call loads. -/
structure Unchanged (env : Env) (s t : Server) (id : Uuid) : Prop where
  entry : ∀ e, Loaded env s id e → ∃ e', t.taskCache id = some e' ∧ SameEntry e e'
  absent : (∀ e, ¬ Loaded env s id e) → t.taskCache id = s.taskCache id
  rows : SameRows s.db t.db id

theorem SameEntry.refl (e : TaskEntry) : SameEntry e e := by
  cases e with
  | voting v => exact ⟨rfl, rfl, rfl, fun _ => rfl⟩
  | running | declined | finished | failed => rfl

theorem SameRows.refl (db : Database) (id : Uuid) : SameRows db db id :=
  ⟨rfl, rfl, fun _ => rfl, rfl⟩

section Writes

variable {db db' db'' : Database} {id : Uuid} {d : Bytes} {accept : Bool}

theorem sameEntry_vote_iff {v : VotingTask} {x : ℤ} :
    SameEntry (.voting v) (.voting (v.vote d x)) ↔ v.decisions.lookup d = some x := by
  constructor
  · rintro ⟨-, -, -, hsame⟩
    rw [← hsame d]
    exact AList.lookup_insert _
  · intro hvote
    refine ⟨rfl, rfl, rfl, fun d' => ?_⟩
    by_cases hd : d' = d
    · subst hd
      rw [hvote]
      exact AList.lookup_insert _
    · exact AList.lookup_insert_ne hd

theorem setTaskDecision_same_iff : SameRows db (db.setTaskDecision id d accept) id ↔
    ∀ row ∈ db.taskParticipant id, row.deviceId = d → row.decision = some accept := by
  have hrows : (db.setTaskDecision id d accept).taskParticipant id =
      (db.taskParticipant id).map fun row =>
        if row.deviceId = d then { row with decision := some accept } else row :=
    Function.update_self ..
  constructor
  · intro hsame row hrow hd
    have hmap := hsame.participants
    rw [hrows] at hmap
    have hrow' := List.map_inj_left.mp (hmap.trans (List.map_id _).symm) row hrow
    rw [if_pos hd] at hrow'
    exact (congrArg TaskParticipantRow.decision hrow').symm
  · intro hvotes
    refine ⟨rfl, ?_, fun _ => rfl, rfl⟩
    rw [hrows]
    refine (List.map_congr_left fun row hrow => ?_).trans (List.map_id _)
    split_ifs with hd
    · rw [← hvotes row hrow hd]
      rfl
    · rfl

/-- The rows that are already there win, so only missing ones are a change. -/
theorem setTaskActiveShares_same_iff {chosen : List Device}
    (h : db.setTaskActiveShares id (countDevices chosen) = .ok db') : SameRows db db' id ↔
      ∀ device ∈ chosen, device.id ∈ db.activeTaskParticipant id := by
  obtain ⟨-, rfl⟩ := setTaskActiveShares_ok h
  constructor
  · intro hsame device hdevice
    by_contra hnone
    have hactive := hsame.active device.id
    simp only [Function.update_self] at hactive
    rw [AList.lookup_union_right hnone, lookup_mapValues, lookup_countDevices,
      if_pos (List.mem_map_of_mem hdevice), AList.lookup_eq_none.mpr hnone] at hactive
    cases hactive
  · intro hall
    refine ⟨rfl, rfl, fun d' => ?_, rfl⟩
    simp only [Function.update_self]
    by_cases hd : d' ∈ db.activeTaskParticipant id
    · exact AList.lookup_union_left hd
    · have hfresh : d' ∉ chosen.map Device.id := by
        intro hmem
        obtain ⟨device, hdevice, rfl⟩ := List.mem_map.mp hmem
        exact hd (hall device hdevice)
      rw [AList.lookup_union_right hd, AList.lookup_eq_none.mpr hd, lookup_mapValues,
        lookup_countDevices, if_neg hfresh]
      rfl

theorem sameRows_voted_iff {chosen : List Device}
    (h : (db.setTaskDecision id d accept).setTaskActiveShares id (countDevices chosen) = .ok db') :
    SameRows db db' id ↔ SameRows db (db.setTaskDecision id d accept) id ∧
      SameRows (db.setTaskDecision id d accept) db' id := by
  obtain ⟨-, rfl⟩ := setTaskActiveShares_ok h
  constructor
  · intro hsame
    exact ⟨⟨rfl, hsame.participants, fun _ => rfl, rfl⟩, ⟨rfl, rfl, hsame.active, rfl⟩⟩
  · rintro ⟨hvote, hactive⟩
    exact ⟨rfl, hvote.participants, hactive.active, rfl⟩

end Writes

section Calls

variable [External] {env : Env} {id : Uuid} {d : Bytes} {accept : Bool} {e : Error}

/-- The vote is counted already, stored already if the repository serves it, and the shares
chosen after it have their rows already if the repository serves these. -/
structure Repeats (env : Env) (db : Database) (activations : Bytes → Option ℕ) (id : Uuid)
    (d : Bytes) (accept : Bool) (v : VotingTask) (p : Participant) : Prop where
  counted : v.decisions.lookup d = some (voteOf p.shares accept)
  stored : env.fault .setTaskDecision id = .served →
    ∀ row ∈ db.taskParticipant id, row.deviceId = d → row.decision = some accept
  chosen : env.fault .setTaskDecision id = .served →
    (v.vote d (voteOf p.shares accept)).decisionUpdate = .accepted →
    env.fault .setTaskActiveShares id = .served →
    ∀ device ∈ chosenDevices env activations (v.vote d (voteOf p.shares accept)),
      device.id ∈ db.activeTaskParticipant id

theorem build_error {task : VotingTask} {chosen : List Device} {db db' : Database}
    {entry entry' : TaskEntry} {stop : Stop}
    (h : BuildOutcome env id task chosen db entry (.error stop) db' entry') :
    db' = db ∧ entry' = entry := by
  cases h with
  | notConstructed | notInitialized => exact ⟨rfl, rfl⟩
  | certificates _ _ stored | nextRound _ _ stored | failed _ _ stored =>
    cases stored
    exact ⟨rfl, rfl⟩

def repeatsVote (env : Env) (s : Server) (id : Uuid) (d : Bytes) (accept : Bool) : Bool :=
  match lockedTask env s id with
  | .ok (.voting v) =>
    (v.taskInfo.participants.find? (fun p => p.device.id = d)).all fun p =>
      v.decisions.lookup d = some (voteOf p.shares accept) &&
      (s.db.taskParticipant id).all (fun row => row.deviceId ≠ d || row.decision = some accept) &&
      (chosenDevices env s.deviceLastActivations (v.vote d (voteOf p.shares accept))).all
        fun device => device.id ∈ s.db.activeTaskParticipant id
  | _ => true

omit [External] in
theorem repeats_of_repeatsVote {s : Server} {v : VotingTask} {p : Participant}
    (h : repeatsVote env s id d accept) (hl : Loaded env s id (.voting v))
    (hfind : v.taskInfo.participants.find? (fun p => p.device.id = d) = some p) :
    Repeats env s.db s.deviceLastActivations id d accept v p := by
  simp only [repeatsVote, lockedTask_ok.mpr hl, hfind, Option.all_some, Bool.and_eq_true,
    List.all_eq_true, Bool.or_eq_true, decide_eq_true_eq] at h
  obtain ⟨⟨hcounted, hstored⟩, hchosen⟩ := h
  refine ⟨hcounted, fun _ row hrow hd => ?_, fun _ _ _ => hchosen⟩
  exact (hstored row hrow).resolve_left fun hne => hne hd

variable {g g' : Guarded} {row : TaskRow}

theorem decide_unchanged_iff (h : Tables g.server.db)
    (hrow : g.server.db.task.lookup id = some row) (he : EntryOf g.server.db id row g.entry)
    (ho : DecideOutcome env id d accept g (.error (.err e)) g') :
    (SameEntry g.entry g'.entry ∧ SameRows g.server.db g'.server.db id) ↔
      ∀ v p, g.entry = .voting v →
        v.taskInfo.participants.find? (fun p => p.device.id = d) = some p →
        Repeats env g.server.db g.server.deviceLastActivations id d accept v p := by
  -- at most one vote and one participant are meant
  have hone : ∀ {v p} {P : VotingTask → Participant → Prop}, g.entry = .voting v →
      v.taskInfo.participants.find? (fun p => p.device.id = d) = some p →
      ((∀ v p, g.entry = .voting v →
        v.taskInfo.participants.find? (fun p => p.device.id = d) = some p → P v p) ↔ P v p) := by
    intro v p P hv hfind
    refine ⟨fun hall => hall v p hv hfind, fun hp v' p' hv' hfind' => ?_⟩
    rw [hv] at hv'
    cases hv'
    rw [hfind] at hfind'
    cases hfind'
    exact hp
  cases ho with
  | notVoting hv =>
    exact ⟨fun _ v _ hv' => absurd hv' (hv v), fun _ => ⟨.refl _, .refl _ _⟩⟩
  | notParticipant hv hfind =>
    refine ⟨fun _ v' p hv' hfind' => ?_, fun _ => ⟨.refl _, .refl _ _⟩⟩
    rw [hv] at hv'
    cases hv'
    rw [hfind] at hfind'
    cases hfind'
  | notStored hv hfind w =>
    have hfault : env.fault .setTaskDecision id ≠ .served := by
      cases w with
      | fails hf => simp [hf]
      | refused _ hw => cases hw
    rw [hone hv hfind, hv, sameEntry_vote_iff]
    constructor
    · rintro ⟨hcounted, -⟩
      exact ⟨hcounted, fun hf => absurd hf hfault, fun hf => absurd hf hfault⟩
    · intro hr
      exact ⟨hr.counted, .refl _ _⟩
  | declined hv hfind served tally stored =>
    cases stored with
    | fails w =>
      rw [hone hv hfind, hv, sameEntry_vote_iff, setTaskDecision_same_iff]
      constructor
      · rintro ⟨hcounted, hstored⟩
        refine ⟨hcounted, fun _ => hstored, fun _ haccepted => ?_⟩
        rw [tally] at haccepted
        cases haccepted
      · intro hr
        exact ⟨hr.counted, hr.stored served⟩
  | @accepted v p _ g' hv hfind served tally start =>
    rw [hone hv hfind]
    rw [hv] at he
    have hw := writesTask_setTaskDecision g.server.db id d accept
    have hvote := (voting_vote he.votingOf hfind accept).mono hw.toExtends
    have hps := hw.participants _ (mem_of_row hrow)
    cases start with
    | notStored w rest =>
      have hfault : env.fault .setTaskActiveShares id ≠ .served := by
        rw [hvote.info.id] at w
        cases w with
        | fails hf => simp [hf]
        | refused _ hrefused =>
          obtain ⟨db', hdb'⟩ := setTaskActiveShares_choice
            (tables_setTaskDecision h id d accept)
            (voting_choice (tables_setTaskDecision h id d accept) hrow (hps.symm ▸ hvote) env
              g.server.deviceLastActivations)
          exact absurd (hrefused.symm.trans hdb') nofun
      rw [hv, sameEntry_vote_iff, rest.db, setTaskDecision_same_iff]
      constructor
      · rintro ⟨hcounted, hstored⟩
        exact ⟨hcounted, fun _ => hstored, fun _ _ hf => absurd hf hfault⟩
      · intro hr
        exact ⟨hr.counted, hr.stored served⟩
    | built w build rest =>
      obtain ⟨rfl, rfl⟩ := build_error build
      obtain ⟨hactive, hwrite⟩ := w
      rw [hvote.info.id] at hactive
      rw [activeSharesWrite, hvote.info.id] at hwrite
      rw [hv, sameEntry_vote_iff, rest.db, sameRows_voted_iff hwrite, setTaskDecision_same_iff,
        setTaskActiveShares_same_iff hwrite]
      constructor
      · rintro ⟨hcounted, hstored, hchosen⟩
        exact ⟨hcounted, fun _ => hstored, fun _ _ _ => hchosen⟩
      · intro hr
        exact ⟨hr.counted, hr.stored served, hr.chosen served tally hactive⟩

/-- A decision that returns an error changes nothing if and only if it fails before the vote is
counted or repeats what is there already. -/
theorem failed_decision_unchanged_iff {s : Server} (hs : Reachable s)
    (herr : result env (.decideTask id d accept) s = .error (.err e)) :
    Unchanged env s (next env (.decideTask id d accept) s) id ↔
      ∀ v p, Loaded env s id (.voting v) →
        v.taskInfo.participants.find? (fun p => p.device.id = d) = some p →
        Repeats env s.db s.deviceLastActivations id d accept v p := by
  have hinv := reachable_invariant hs
  obtain ⟨t, -, ho, hnext⟩ := exec_decideTask env id d accept s
  rw [herr, if_neg (by simp)] at hnext
  rw [herr] at ho
  rw [hnext]
  cases ho with
  | notLoaded hn =>
    constructor
    · intro _ v p hl
      exact (hl.not_notLoaded hn).elim
    · intro _
      exact ⟨fun e hl => (hl.not_notLoaded hn).elim, fun _ => rfl, .refl _ _⟩
  | @loaded entry _ g hl body =>
    obtain ⟨row, hrow, he⟩ := loaded_entry hinv hl
    have hiff := decide_unchanged_iff (g := ⟨entry, cached s id entry⟩) hinv.tables hrow he body
    have hcond : (∀ v p, Loaded env s id (.voting v) →
          v.taskInfo.participants.find? (fun p => p.device.id = d) = some p →
          Repeats env s.db s.deviceLastActivations id d accept v p) ↔
        ∀ v p, entry = .voting v →
          v.taskInfo.participants.find? (fun p => p.device.id = d) = some p →
          Repeats env s.db s.deviceLastActivations id d accept v p := by
      constructor
      · rintro hall v p rfl
        exact hall v p hl
      · intro hall v p hl'
        exact hall v p (loaded_unique hl hl')
    rw [hcond]
    refine Iff.trans ?_ hiff
    constructor
    · intro hu
      obtain ⟨e', he', hsame⟩ := hu.entry entry hl
      rw [cached_self] at he'
      cases he'
      exact ⟨hsame, hu.rows⟩
    · rintro ⟨hsame, hrows⟩
      refine ⟨fun e' hl' => ?_, fun hnone => absurd hl (hnone entry), hrows⟩
      rw [loaded_unique hl' hl]
      exact ⟨_, cached_self .., hsame⟩

omit [External] in
/-- Bob repeats a vote that could not start the group, and the repetition changes nothing. -/
theorem failed_decision_unchanged_repeated : Unchanged (servingEnv 0 0)
    (@runOps plainExternal initial
      (servedOps 0 0 (unsupportedGroup ++ [.decideTask 0 bob.id true])))
    (@next plainExternal (servingEnv 0 0) (.decideTask 0 bob.id true) (@runOps plainExternal initial
      (servedOps 0 0 (unsupportedGroup ++ [.decideTask 0 bob.id true])))) 0 := by
  have hreach := @reachable_later plainExternal _ _ (@Reachable.initial plainExternal)
    (@later_runOps plainExternal initial
      (servedOps 0 0 (unsupportedGroup ++ [.decideTask 0 bob.id true])))
  have herr : @result plainExternal (servingEnv 0 0) (.decideTask 0 bob.id true)
      (@runOps plainExternal initial
        (servedOps 0 0 (unsupportedGroup ++ [.decideTask 0 bob.id true]))) =
      .error (.err (.generalProtocol "Unsupported protocol type and key type combination")) := by
    decide +kernel
  have hrepeats : @repeatsVote (servingEnv 0 0) (@runOps plainExternal initial
      (servedOps 0 0 (unsupportedGroup ++ [.decideTask 0 bob.id true]))) 0 bob.id true := by
    decide +kernel
  exact (@failed_decision_unchanged_iff plainExternal (servingEnv 0 0) 0 bob.id true _ _ hreach
    herr).mpr fun v p => repeats_of_repeatsVote hrepeats

omit [External] in
/-- Bob's vote cannot start the group. The call returns an error, but Bob's vote stays counted
and stored, and so do the active shares. -/
theorem failed_decision_leaves_rows :
    @result plainExternal (servingEnv 0 0) (.decideTask 0 bob.id true)
      (@runOps plainExternal initial (servedOps 0 0 unsupportedGroup)) =
      .error (.err (.generalProtocol "Unsupported protocol type and key type combination")) ∧
    ¬ SameRows (@runOps plainExternal initial (servedOps 0 0 unsupportedGroup)).db
      (@next plainExternal (servingEnv 0 0) (.decideTask 0 bob.id true)
        (@runOps plainExternal initial (servedOps 0 0 unsupportedGroup))).db 0 ∧
    ¬ Unchanged (servingEnv 0 0) (@runOps plainExternal initial (servedOps 0 0 unsupportedGroup))
      (@next plainExternal (servingEnv 0 0) (.decideTask 0 bob.id true)
        (@runOps plainExternal initial (servedOps 0 0 unsupportedGroup))) 0 := by
  have hrows : ¬ SameRows (@runOps plainExternal initial (servedOps 0 0 unsupportedGroup)).db
      (@next plainExternal (servingEnv 0 0) (.decideTask 0 bob.id true)
        (@runOps plainExternal initial (servedOps 0 0 unsupportedGroup))).db 0 := by
    intro hsame
    have hactive := hsame.active bob.id
    revert hactive
    decide +kernel
  refine ⟨by decide +kernel, hrows, fun hu => hrows hu.rows⟩

end Calls

end FailedDecision
