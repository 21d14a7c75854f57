import MeesignServer.HydrationOutcomes

/-!
# The start of an approved task

The choice of active shares and the construction of the running task.
-/
namespace TaskStart

open FiniteMap DataModel CommunicatorModel ProtocolModel VotingModel RunningTaskModel
open DatabaseModel HydrationModel ServerModel TaskOutcomes ServerOutcomes
open ActiveShares VoteTally TableFrames ServerInvariant

theorem deviceAccepted_iff (v : VotingTask) (d : Bytes) :
    v.deviceAccepted d ↔ 0 < voteIn v.decisions d := by
  unfold VotingTask.deviceAccepted voteIn
  cases v.decisions.lookup d <;> simp

theorem accepting_eq (v : VotingTask) : accepting v =
    v.taskInfo.participants.filter (fun p => 0 < voteIn v.decisions p.device.id) := by
  refine List.filter_congr fun p _ => ?_
  rw [Bool.eq_iff_iff, deviceAccepted_iff, decide_eq_true_eq]

theorem candidates_sublist (env : Env) (activations : Bytes → Option ℕ) (v : VotingTask) :
    (candidates env activations v).Sublist (accepting v) := by
  unfold candidates
  simp only
  split_ifs
  · exact List.filter_sublist
  · exact List.Sublist.refl _

theorem totalShares_le_of_sublist {ps qs : List Participant} (h : qs.Sublist ps) :
    totalShares qs ≤ totalShares ps :=
  List.Sublist.sum_le_sum (h.map _) fun _ _ => Nat.zero_le _

theorem length_chosenDevices (env : Env) (activations : Bytes → Option ℕ) (v : VotingTask) :
    (chosenDevices env activations v).length =
      min v.acceptThreshold (totalShares (accepting v)) := by
  have hlen : (chosenDevices env activations v).length =
      min v.acceptThreshold (totalShares (candidates env activations v)) := by
    rw [chosenDevices, env.chooseMultiple.length]
    exact congrArg _ (length_shareList Participant.shares _)
  have hle := totalShares_le_of_sublist (candidates_sublist env activations v)
  rw [hlen]
  unfold candidates at hle ⊢
  simp only at hle ⊢
  split_ifs at hle ⊢ with hc
  · omega
  · rfl

theorem chosenDevices_subperm (env : Env) (activations : Bytes → Option ℕ) (v : VotingTask) :
    (chosenDevices env activations v).Subperm
      (shareList Participant.shares (candidates env activations v)) :=
  env.chooseMultiple.subperm _ _

theorem chosen_accepting {env : Env} {activations : Bytes → Option ℕ} {v : VotingTask}
    {device : Device} (h : device ∈ chosenDevices env activations v) :
    ∃ p ∈ v.taskInfo.participants, p.device = device ∧ 0 < voteIn v.decisions device.id := by
  obtain ⟨p, hp, rfl⟩ := mem_shareList ((chosenDevices_subperm env activations v).subset h)
  have hacc := (candidates_sublist env activations v).subset hp
  rw [accepting_eq, List.mem_filter, decide_eq_true_eq] at hacc
  exact ⟨p, hacc.1, rfl, hacc.2⟩

theorem choice_chosenDevices {v : VotingTask} (hn : (ids v.taskInfo.participants).Nodup)
    (env : Env) (activations : Bytes → Option ℕ) :
    Choice v.taskInfo.participants (chosenDevices env activations v) :=
  choice_of_subperm hn ((candidates_sublist env activations v).trans List.filter_sublist)
    (chosenDevices_subperm env activations v)

theorem decisionUpdate_accepted {v : VotingTask} (h : v.decisionUpdate = .accepted) :
    v.acceptThreshold ≤ (acceptsRejects v.decisions).1 := by
  unfold VotingTask.decisionUpdate at h
  simp only at h
  split_ifs at h with ha
  exact ha

theorem decisionUpdate_declined {v : VotingTask} {t : DeclinedTask}
    (h : v.decisionUpdate = .declined t) :
    (acceptsRejects v.decisions).1 < v.acceptThreshold ∧
      v.rejectThreshold ≤ (acceptsRejects v.decisions).2 ∧
      t = ⟨v.taskInfo, (acceptsRejects v.decisions).1, (acceptsRejects v.decisions).2⟩ := by
  unfold VotingTask.decisionUpdate at h
  simp only at h
  split_ifs at h with ha hr
  exact ⟨not_le.mp ha, hr, (DecisionUpdate.declined.inj h).symm⟩

theorem decisionUpdate_undecided {v : VotingTask} (h : v.decisionUpdate = .undecided) :
    (acceptsRejects v.decisions).1 < v.acceptThreshold := by
  unfold VotingTask.decisionUpdate at h
  simp only at h
  split_ifs at h with ha hr
  exact not_le.mp ha

/-- An approved task has enough accepting shares, so the choice is as large as the threshold. -/
theorem length_chosen_of_accepted {v : VotingTask} (hn : (ids v.taskInfo.participants).Nodup)
    (hb : Ballots v.taskInfo.participants v.decisions) (h : v.decisionUpdate = .accepted)
    (env : Env) (activations : Bytes → Option ℕ) :
    (chosenDevices env activations v).length = v.acceptThreshold := by
  have ha := decisionUpdate_accepted h
  rw [acceptsRejects_eq hn fun _ => hb.mem] at ha
  have hle := accepts_le hb hn
  rw [← accepting_eq] at hle
  rw [length_chosenDevices]
  exact min_eq_left (ha.trans hle)

/-- The checks that the constructors of running tasks make. -/
def Startable (v : VotingTask) : Prop :=
  match v.runningTaskContext with
  | .group threshold _ => Supported v.taskInfo.protocolType v.taskInfo.keyType ∧
      v.taskInfo.protocolType.checkThreshold threshold v.taskInfo.totalShares
  | .signChallenge group _ => group.protocol ≠ .elgamal
  | .signPdf group data => group.protocol ≠ .elgamal ∧
      data.length ≤ SignPDFTask.maxDataLength ∧ byteLength v.taskInfo.name ≤ 256 ∧
      v.taskInfo.name.toList.any isControl = false
  | .decrypt _ _ => True

def protocolOf (v : VotingTask) : ProtocolType :=
  match v.runningTaskContext with
  | .group _ _ => v.taskInfo.protocolType
  | .signChallenge group _ => group.protocol
  | .signPdf group _ => group.protocol
  | .decrypt _ _ => .elgamal

structure Constructed (v : VotingTask) (m : Map ℕ Device) (t : RunningTask) : Prop where
  context : contextOf t = v.runningTaskContext
  info : ∃ ps, ps.Perm v.taskInfo.participants ∧
    t.taskInfo = { v.taskInfo with participants := ps }
  communicator : Communicator.new v.acceptThreshold v.taskInfo.protocolType m =
    .ok t.session.communicator
  protocol : t.session.protocol.protocolType = protocolOf v
  round : t.session.protocol.round = 0
  startable : Startable v

theorem signTask_tryNew {info : TaskInfo} {group : Group} {data : Bytes} {c : Communicator} :
    SignTask.tryNew info group data c = if group.protocol = .elgamal then
      .error "Unsupported protocol type for signing" else .ok
        { taskInfo := info, group, communicator := c, data, preprocessed := none
          protocol := ⟨group.protocol, .threshold, 0⟩ } := by
  unfold SignTask.tryNew
  cases group.protocol <;> rfl

theorem groupTask_tryNew {info : TaskInfo} {threshold : ℕ} (note : Option String)
    (c : Communicator) (hs : Supported info.protocolType info.keyType)
    (ht : info.protocolType.checkThreshold threshold info.totalShares) : ∃ t,
      GroupTask.tryNew info threshold note c = .ok t ∧ t.communicator = c ∧
      t.protocol.protocolType = info.protocolType ∧ t.protocol.round = 0 ∧
      t.threshold = threshold ∧ t.note = note ∧ t.certificatesSent = false ∧
      t.taskInfo = { info with participants := sortById info.participants } := by
  obtain ⟨n, hp⟩ := createKeygenProtocol_ok hs info.totalShares threshold 0
  have hpos : ¬ info.totalShares < 1 := by
    have := ProtocolType.checkThreshold_bounds ht
    omega
  simp only [GroupTask.tryNew, hp, hpos, ↓reduceIte, Protocol.getType, ht, Bool.not_true,
    Bool.false_eq_true]
  exact ⟨_, rfl, rfl, rfl, rfl, rfl, rfl, rfl, rfl⟩

def startErrors : List String :=
  ["Unsupported protocol type and key type combination", "Unsupported protocol type for signing",
    "Invalid input"]

theorem groupTask_tryNew_error {info : TaskInfo} {threshold : ℕ} (note : Option String)
    (c : Communicator) (h : ¬ (Supported info.protocolType info.keyType ∧
      info.protocolType.checkThreshold threshold info.totalShares)) :
    ∃ message ∈ startErrors, GroupTask.tryNew info threshold note c = .error message := by
  unfold GroupTask.tryNew
  by_cases hs : Supported info.protocolType info.keyType
  · obtain ⟨n, hp⟩ := createKeygenProtocol_ok hs info.totalShares threshold 0
    have hc : info.protocolType.checkThreshold threshold info.totalShares = false :=
      Bool.eq_false_iff.mpr fun hc => h ⟨hs, hc⟩
    rw [hp]
    simp only [Protocol.getType, hc, Bool.not_false, ↓reduceIte, ite_self]
    exact ⟨_, by simp [startErrors], rfl⟩
  · rw [createKeygenProtocol_error hs]
    exact ⟨_, by simp [startErrors], rfl⟩

theorem signPDFTask_tryNew {info : TaskInfo} {group : Group} {data : Bytes} {c : Communicator} :
    SignPDFTask.tryNew info group data c =
      if data.length ≤ SignPDFTask.maxDataLength ∧ byteLength info.name ≤ 256 ∧
        info.name.toList.any isControl = false
      then (SignTask.tryNew info group data c).map SignPDFTask.mk
      else .error "Invalid input" := by
  unfold SignPDFTask.tryNew
  by_cases h : data.length ≤ SignPDFTask.maxDataLength ∧ byteLength info.name ≤ 256 ∧
      info.name.toList.any isControl = false
  · rw [if_pos h, if_neg]
    simp only [Bool.or_eq_true, decide_eq_true_eq, not_or, not_lt, Bool.not_eq_true]
    exact ⟨⟨h.1, h.2.1⟩, h.2.2⟩
  · rw [if_neg h, if_pos]
    simp only [Bool.or_eq_true, decide_eq_true_eq]
    by_contra hn
    simp only [not_or, not_lt, Bool.not_eq_true] at hn
    exact h ⟨hn.1.1, hn.1.2, hn.2⟩

section Create

variable {v : VotingTask} {m : Map ℕ Device} {c : Communicator}

theorem create_startable
    (hc : Communicator.new v.acceptThreshold v.taskInfo.protocolType m = .ok c)
    (h : Startable v) : ∃ t, RunningTaskContext.createRunningTask v.runningTaskContext v m = .ok t ∧
      Constructed v m t := by
  have hs := h
  unfold Startable at h
  unfold RunningTaskContext.createRunningTask
  simp only [hc, bind, Except.bind]
  cases hctx : v.runningTaskContext with
  | group threshold note =>
    rw [hctx] at h
    obtain ⟨t, ht, rfl, hp, hr, hthr, hnote, hsent, hinfo⟩ :=
      groupTask_tryNew note c h.1 h.2
    simp only [ht]
    refine ⟨_, rfl, ?_, ⟨_, sortById_perm _, hinfo⟩, hc, ?_, hr, hs⟩
    · rw [hctx, contextOf, hthr, hnote]
    · rw [protocolOf, hctx]
      exact hp
  | signChallenge group data =>
    rw [hctx] at h
    simp only [signTask_tryNew, if_neg h]
    refine ⟨_, rfl, hctx.symm, ⟨_, .refl _, rfl⟩, hc, ?_, rfl, hs⟩
    rw [protocolOf, hctx]
    rfl
  | signPdf group data =>
    rw [hctx] at h
    simp only [signPDFTask_tryNew, signTask_tryNew, if_neg h.1, if_pos h.2]
    refine ⟨_, rfl, hctx.symm, ⟨_, .refl _, rfl⟩, hc, ?_, rfl, hs⟩
    rw [protocolOf, hctx]
    rfl
  | decrypt group data =>
    refine ⟨_, rfl, hctx.symm, ⟨_, .refl _, rfl⟩, hc, ?_, rfl, hs⟩
    rw [protocolOf, hctx]
    rfl

theorem create_not_startable
    (hc : Communicator.new v.acceptThreshold v.taskInfo.protocolType m = .ok c)
    (h : ¬ Startable v) : ∃ message ∈ startErrors,
      RunningTaskContext.createRunningTask v.runningTaskContext v m =
        .error (.err (.generalProtocol message)) := by
  unfold Startable at h
  unfold RunningTaskContext.createRunningTask
  simp only [hc, bind, Except.bind]
  cases hctx : v.runningTaskContext with
  | group threshold note =>
    rw [hctx] at h
    obtain ⟨message, hmem, hm⟩ := groupTask_tryNew_error note c h
    simp only [hm]
    exact ⟨message, hmem, rfl⟩
  | signChallenge group data =>
    rw [hctx] at h
    simp only [signTask_tryNew, if_pos (not_not.mp h)]
    exact ⟨_, by simp [startErrors], rfl⟩
  | signPdf group data =>
    rw [hctx] at h
    simp only [signPDFTask_tryNew, signTask_tryNew]
    by_cases hg : group.protocol = .elgamal
    · simp only [if_pos hg]
      split_ifs <;> exact ⟨_, by simp [startErrors], rfl⟩
    · rw [if_neg fun hl => h ⟨hg, hl⟩]
      exact ⟨_, by simp [startErrors], rfl⟩
  | decrypt group data =>
    rw [hctx] at h
    exact absurd trivial h

theorem create_constructed {t : RunningTask}
    (h : RunningTaskContext.createRunningTask v.runningTaskContext v m = .ok t) :
    Constructed v m t := by
  cases hc : Communicator.new v.acceptThreshold v.taskInfo.protocolType m with
  | error stop => simp [RunningTaskContext.createRunningTask, hc, bind, Except.bind] at h
  | ok c =>
    by_cases hs : Startable v
    · obtain ⟨t', ht', hcon⟩ := create_startable hc hs
      rw [h] at ht'
      cases ht'
      exact hcon
    · obtain ⟨message, -, hm⟩ := create_not_startable hc hs
      rw [h] at hm
      cases hm

end Create

theorem construct_error {v : VotingTask} {chosen : List Device} {stop : Stop}
    (h : construct v chosen = .error stop) :
    Breaks stop ∨ ∃ message ∈ startErrors, stop = protocolError message := by
  unfold construct at h
  cases hm : assignShareIndices v.taskInfo.participants chosen with
  | error stop' =>
    simp only [hm, bind, Except.bind, Except.error.injEq] at h
    subst h
    unfold assignShareIndices at hm
    split at hm <;> cases hm
    exact .inl trivial
  | ok m =>
    simp only [hm, bind, Except.bind] at h
    cases hc : Communicator.new v.acceptThreshold v.taskInfo.protocolType m with
    | error stop' =>
      simp only [RunningTaskContext.createRunningTask, hc, bind, Except.bind,
        Except.error.injEq] at h
      subst h
      unfold Communicator.new at hc
      split_ifs at hc <;> cases hc <;> exact .inl trivial
    | ok c =>
      by_cases hs : Startable v
      · obtain ⟨t, ht, -⟩ := create_startable hc hs
        rw [h] at ht
        cases ht
      · obtain ⟨message, hmem, he⟩ := create_not_startable hc hs
        rw [h] at he
        exact .inr ⟨message, hmem, Except.error.inj he⟩

theorem construct_ok {v : VotingTask} {chosen : List Device} {t : RunningTask}
    (h : construct v chosen = .ok t) : ∃ m,
      assignShareIndices v.taskInfo.participants chosen = .ok m ∧ Constructed v m t := by
  unfold construct at h
  cases hm : assignShareIndices v.taskInfo.participants chosen with
  | error stop => simp [hm, bind, Except.bind] at h
  | ok m =>
    simp only [hm, bind, Except.bind] at h
    exact ⟨m, rfl, create_constructed h⟩

end TaskStart
