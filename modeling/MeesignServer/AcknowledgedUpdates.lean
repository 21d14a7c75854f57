import MeesignServer.CachedBuffers
import MeesignServer.MessageDelivery
import MeesignServer.ResultAgreement

/-!
# Acknowledged updates

An update that is answered with `Ok` is recorded if it brings one message for each active
share of the device. With any other number of messages it is dropped, and the answer is
`Ok` all the same.
-/
namespace AcknowledgedUpdates

open FallibleProgram FiniteMap DataModel CommunicatorModel ProtocolModel VotingModel
open RunningTaskModel DatabaseModel HydrationModel ServerModel TaskOutcomes ServerOutcomes
open ServerMoves MessageBuffers BufferInvariant MessageDelivery CachedBuffers
open ResultAgreement

variable [External]

section Found

variable {env : Env} {s : Server} {id : Uuid} {t : RunningTask}

theorem exec_update_found (d : Bytes) (messages : List ClientMessage) (attempt : ℕ)
    (hl : lockedTask env s id = .ok (.running t)) :
    ∃ g, UpdateEntryOutcome env id d messages attempt
        ⟨.running t, cached s id (.running t)⟩
        (result env (.updateTask id d messages attempt) s) g ∧
      (outcome (exec env (.updateTask id d messages attempt)) s).2 =
        cached g.server id g.entry := by
  have ho : TaskOutcome env id (UpdateEntryOutcome env id d messages attempt) s
      (result env (.updateTask id d messages attempt) s)
      (outcome (exec env (.updateTask id d messages attempt)) s).2 :=
    updateTask_outcome env id d messages attempt s
  generalize result env (.updateTask id d messages attempt) s = r at ho ⊢
  generalize (outcome (exec env (.updateTask id d messages attempt)) s).2 = s' at ho ⊢
  cases ho with
  | notLoaded hn =>
    obtain ⟨stop, herr⟩ := lockedTask_error hn
    rw [hl] at herr
    cases herr
  | loaded hloaded body =>
    have he := loaded_unique (lockedTask_ok.mp hl) hloaded
    subst he
    exact ⟨_, body, rfl⟩

theorem next_of_ok {op : Op} (hok : result env op s = .ok ()) :
    next env op s = (outcome (exec env op) s).2 := by
  rw [next_eq, hok, if_neg]
  intro h
  cases h

end Found

/-- Each active share of the device has contributed its message to these buffers. -/
def Contributed (c c' : Communicator) (d : Bytes) (messages : List ClientMessage) : Prop :=
  ∀ (j i : ℕ), (c.identifierToIndices d)[j]? = some i →
    ∃ msg, messages[j]? = some msg ∧ c'.input.lookup i = some msg

/-- The complete round `c` of a task has been relayed, has started the protocol or has ended the
task. -/
inductive MovedOn (t : RunningTask) (c : Communicator) : TaskEntry → Prop where
  | relayed {t' : RunningTask}
      (session : t'.session = ⟨c.relay, t.session.incrementRound.protocol⟩) :
      MovedOn t c (.running t')
  | started {t' : RunningTask} (data : Bytes) (round : t.session.protocol.round = 0)
      (session : t'.session = (Session.mk c t.session.protocol).initializeProtocol data) :
      MovedOn t c (.running t')
  | finished (f : FinishedTask) : MovedOn t c (.finished f)
  | failed (f : FailedTask) : MovedOn t c (.failed f)

/-- The messages are in the buffers of the task, or they have completed its round. -/
inductive TakenIn (t : RunningTask) (d : Bytes) (messages : List ClientMessage) :
    TaskEntry → Prop where
  | buffered {t' : RunningTask} (protocol : t'.session.protocol = t.session.protocol)
      (contributed : Contributed t.session.communicator t'.session.communicator d messages)
      (heard : t'.waitingFor d = false) : TakenIn t d messages (.running t')
  | completed {c : Communicator} {e : TaskEntry}
      (contributed : Contributed t.session.communicator c d messages)
      (complete : c.roundReceived) (moved : MovedOn t c e) : TakenIn t d messages e

section Messages

variable {c c' : Communicator} {t t' : RunningTask} {d : Bytes} {messages : List ClientMessage}

omit [External] in
theorem contributed_of_taken (h : c.receiveMessages d messages = .ok (true, c')) :
    Contributed c c' d messages := by
  obtain ⟨-, -, -, -, hlen, hinput⟩ := receiveMessages_ok h
  intro j i hi
  have hj : j < messages.length := by
    rw [← hlen]
    exact (List.getElem?_eq_some_iff.mp hi).1
  refine ⟨messages[j], List.getElem?_eq_getElem hj, ?_⟩
  rw [hinput]
  apply lookup_extend_of_mem
  · rw [callOf, List.map_fst_zip hlen.le]
    exact identifierToIndices_nodup c d
  · apply List.mem_iff_getElem?.mpr
    exact ⟨j, List.getElem?_zip_eq_some.mpr ⟨hi, List.getElem?_eq_getElem hj⟩⟩

omit [External] in
theorem taken_iff {taken : Bool} (hw : c.waitingFor d)
    (h : c.receiveMessages d messages = .ok (taken, c')) :
    taken ↔ messages.length = (c.identifierToIndices d).length := by
  have hpos : 0 < (c.identifierToIndices d).length := by
    obtain ⟨i, hi, -⟩ := List.any_eq_true.mp hw
    exact List.length_pos_of_mem hi
  unfold Communicator.receiveMessages at h
  dsimp only at h
  split_ifs at h with hdrop hshape
  · cases h
    rw [Bool.or_eq_true, List.isEmpty_iff, decide_eq_true_eq] at hdrop
    constructor
    · intro hf
      cases hf
    · intro hlen
      rcases hdrop with rfl | hne
      · rw [← hlen, List.length_nil] at hpos
        omega
      · exact absurd hlen.symm hne
  · cases h
    rw [Bool.or_eq_true, not_or, decide_eq_true_eq, not_not] at hdrop
    exact ⟨fun _ => hdrop.2.symm, fun _ => rfl⟩

omit [External] in
theorem receive_dropped (h : messages.length ≠ (c.identifierToIndices d).length) :
    c.receiveMessages d messages = .ok (false, c) := by
  unfold Communicator.receiveMessages
  rw [if_pos]
  rw [Bool.or_eq_true, decide_eq_true_eq]
  exact .inr h.symm

omit [External] in
theorem not_complete_of_waiting (hw : Whole c) (h : c.waitingFor d) : c.roundReceived = false := by
  rw [Bool.eq_false_iff]
  intro hr
  obtain ⟨i, hi, -⟩ := List.any_eq_true.mp h
  have hheard := hw.roundReceived_iff.mp hr d (active_iff.mpr ⟨i, hi⟩)
  rw [h] at hheard
  cases hheard

theorem roundComplete_received {s : Session} (h : s.roundComplete) :
    s.communicator.roundReceived := by
  unfold Session.roundComplete at h
  rw [Bool.and_eq_true] at h
  exact h.1

end Messages

section Answers

variable {env : Env} {s : Server} {id : Uuid} {t t' : RunningTask} {d : Bytes}
  {messages : List ClientMessage} {attempt : ℕ} {c : Communicator}

theorem takenIn_of_round {t₁ : RunningTask} {u : Except Stop RoundUpdate} {r : Except Stop Unit}
    {db db' : Database} {e : TaskEntry}
    (htaken : t.session.communicator.receiveMessages d messages = .ok (true, c))
    (session : t₁.session = ⟨c, t.session.protocol⟩) (round : RoundOutcome t₁ u t')
    (record : RecordOutcome env id t' db u r db' e) (hok : r = .ok ()) :
    TakenIn t d messages e := by
  have hcontributed := contributed_of_taken htaken
  subst hok
  cases round with
  | listen =>
    cases record
    refine .buffered ?_ ?_ ?_
    · rw [session]
    · rw [session]
      exact hcontributed
    · rw [RunningTask.waitingFor, session]
      apply waitingFor_eq_false.mpr
      obtain ⟨hs, hp, -⟩ := receiveMessages_ok htaken
      intro i hi
      rw [identifierToIndices_congr hs hp] at hi
      obtain ⟨j, hj⟩ := List.mem_iff_getElem?.mp hi
      obtain ⟨msg, -, hlookup⟩ := hcontributed j i hj
      exact mem_of_lookup hlookup
  | start complete hround start =>
    rw [session] at complete hround
    have hcomplete : c.roundReceived := roundComplete_received complete
    cases start with
    | started data kept hsession =>
      rw [session] at hsession
      cases record with
      | nextRound stored =>
        cases stored
        exact .completed hcontributed hcomplete (.started data hround hsession)
    | failed reason =>
      cases record with
      | failed stored =>
        cases stored
        exact .completed hcontributed hcomplete (.failed _)
    | broke =>
      cases record
  | advance complete _ _ _ hsession =>
    rw [session] at complete hsession
    have hcomplete : c.roundReceived := roundComplete_received complete
    cases record with
    | nextRound stored =>
      cases stored
      exact .completed hcontributed hcomplete (.relayed hsession)
  | final complete _ final =>
    rw [session] at complete
    have hcomplete : c.roundReceived := roundComplete_received complete
    cases final with
    | finished =>
      cases record with
      | finished finish =>
        cases finish with
        | group _ _ _ stored | threshold _ _ stored =>
          cases stored
          exact .completed hcontributed hcomplete (.finished _)
    | failed =>
      cases record with
      | failed stored =>
        cases stored
        exact .completed hcontributed hcomplete (.failed _)
    | broke => cases record

theorem dropped_update {u : Except Stop RoundUpdate} (hw : Whole t.session.communicator)
    (hwaiting : t.waitingFor d) (hready : ready t)
    (hlen : messages.length ≠ (t.session.communicator.identifierToIndices d).length)
    (h : UpdateOutcome d messages t u t') :
    u = .ok .listen ∧ t'.session = t.session := by
  have hdropped := receive_dropped hlen
  cases h with
  | notWaiting hnot =>
    rw [hwaiting] at hnot
    cases hnot
  | broke _ why =>
    rcases why with hnot | herr
    · rw [hready] at hnot
      cases hnot
    · rw [hdropped] at herr
      cases herr
  | received _ _ receive _ session round =>
    rw [hdropped] at receive
    cases receive
    have hincomplete : ∀ {t₁ : RunningTask}, t₁.session = t.session →
        t₁.session.roundComplete → False := by
      intro t₁ hsession hcomplete
      have hreceived := roundComplete_received hcomplete
      rw [hsession, not_complete_of_waiting hw hwaiting] at hreceived
      cases hreceived
    cases round with
    | listen => exact ⟨rfl, session⟩
    | start hcomplete => exact (hincomplete session hcomplete).elim
    | advance hcomplete => exact (hincomplete session hcomplete).elim
    | final hcomplete => exact (hincomplete session hcomplete).elim

theorem not_takenIn_of_same (hwaiting : t.waitingFor d)
    (hsession : t'.session = t.session) : ¬ TakenIn t d messages (.running t') := by
  intro h
  generalize he : TaskEntry.running t' = e at h
  cases h with
  | buffered _ _ heard =>
    cases he
    rw [RunningTask.waitingFor, hsession] at heard
    change t.waitingFor d = false at heard
    rw [hwaiting] at heard
    cases heard
  | @completed c _ _ complete moved =>
    cases moved with
    | relayed session =>
      cases he
      have hround := congrArg (fun s : Session => s.protocol.round) (hsession.symm.trans session)
      exact absurd hround (Nat.succ_ne_self _).symm
    | started data round session =>
      cases he
      have hround := congrArg (fun s : Session => s.protocol.round) (hsession.symm.trans session)
      change t.session.protocol.round = 1 at hround
      omega
    | finished => cases he
    | failed => cases he

theorem dropped_acknowledged (hs : Reachable s) (hl : lockedTask env s id = .ok (.running t))
    (hattempt : attempt = t.taskInfo.attempts) (hwaiting : t.waitingFor d) (hready : ready t)
    (hlen : messages.length ≠ (t.session.communicator.identifierToIndices d).length) :
    result env (.updateTask id d messages attempt) s = .ok () ∧
      ∀ e, (next env (.updateTask id d messages attempt) s).taskCache id = some e →
        ¬ TakenIn t d messages e := by
  have hw := found_whole hs (lockedTask_ok.mp hl)
  obtain ⟨g, ho, hexec⟩ := exec_update_found d messages attempt hl
  generalize hr : result env (.updateTask id d messages attempt) s = r at ho
  cases ho with
  | notRunning hnot => exact absurd rfl (hnot t)
  | stale ht hne =>
    cases ht
    exact absurd hattempt hne
  | updated ht _ update record =>
    cases ht
    obtain ⟨rfl, hsession⟩ := dropped_update hw hwaiting hready hlen update
    cases record
    refine ⟨rfl, fun e he => ?_⟩
    rw [next_of_ok hr, hexec, cached_self] at he
    cases he
    exact not_takenIn_of_same hwaiting hsession

/-- An answer `Ok` to an update of a running task means that the messages are recorded, exactly
if an update of the current attempt from a device that is waited for has as many messages as
the device has active shares. -/
theorem acknowledged_iff_right_number (hs : Reachable s)
    (hl : lockedTask env s id = .ok (.running t)) :
    (result env (.updateTask id d messages attempt) s = .ok () →
      ∃ e, (next env (.updateTask id d messages attempt) s).taskCache id = some e ∧
        TakenIn t d messages e) ↔
    (attempt = t.taskInfo.attempts → t.waitingFor d → ready t →
      messages.length = (t.session.communicator.identifierToIndices d).length) := by
  constructor
  · intro h hattempt hwaiting hready
    by_contra hlen
    obtain ⟨hok, hnot⟩ := dropped_acknowledged hs hl hattempt hwaiting hready hlen
    obtain ⟨e, he, hrecorded⟩ := h hok
    exact hnot e he hrecorded
  · intro h hok
    obtain ⟨g, ho, hexec⟩ := exec_update_found d messages attempt hl
    rw [next_of_ok hok, hexec, cached_self]
    rw [hok] at ho
    refine ⟨g.entry, rfl, ?_⟩
    cases ho with
    | updated ht hattempt update record =>
      cases ht
      cases update with
      | notWaiting => cases record
      | broke => cases record
      | @received t₁ _ taken c _ waiting is_ready receive kept session round =>
        have htaken := (taken_iff waiting receive).mpr (h hattempt waiting is_ready)
        subst htaken
        exact takenIn_of_round receive session round record rfl

/-- Alice and Bob have approved their group, and its certificates have been sent. -/
def certificatesSent : Server :=
  @runOps plainExternal initial (servedOps 0 0 (groupRequested ++ [.decideTask 0 bob.id true]))

omit [External] in
theorem certificatesSent_reachable : @Reachable plainExternal certificatesSent :=
  @reachable_later plainExternal _ _ (@Reachable.initial plainExternal)
    (@later_runOps plainExternal _ _)

omit [External] in
theorem certificatesSent_waits : ∃ t, lockedTask (servingEnv 0 0) certificatesSent 0 =
    .ok (.running t) ∧ t.taskInfo.attempts = 0 ∧ t.waitingFor alice.id ∧ ready t ∧
      (t.session.communicator.identifierToIndices alice.id).length = 1 := by
  have hfound : (foundRunning (lockedTask (servingEnv 0 0) certificatesSent 0)).map (fun t =>
      (t.taskInfo.attempts, t.waitingFor alice.id, ready t,
        (t.session.communicator.identifierToIndices alice.id).length)) =
          some (0, true, true, 1) := by decide +kernel
  obtain ⟨t, ht, hfacts⟩ := Option.map_eq_some_iff.mp hfound
  simp only [Prod.mk.injEq] at hfacts
  exact ⟨t, foundRunning_some ht, hfacts⟩

omit [External] in
/-- One message of Alice, who has one active share. -/
theorem acknowledged_iff_right_number_alice : ∃ t e,
    lockedTask (servingEnv 0 0) certificatesSent 0 = .ok (.running t) ∧
    (@next plainExternal (servingEnv 0 0) (.updateTask 0 alice.id (answer [7]) 0)
      certificatesSent).taskCache 0 = some e ∧
    @TakenIn plainExternal t alice.id (answer [7]) e := by
  obtain ⟨t, ht, hattempts, hwaiting, hready, hlen⟩ := certificatesSent_waits
  have hok : @result plainExternal (servingEnv 0 0) (.updateTask 0 alice.id (answer [7]) 0)
      certificatesSent = .ok () := by decide +kernel
  obtain ⟨e, he, hrecorded⟩ :=
    (@acknowledged_iff_right_number plainExternal _ _ _ t alice.id (answer [7]) 0
    certificatesSent_reachable ht).mpr (fun _ _ _ => hlen.symm) hok
  exact ⟨t, e, ht, he, hrecorded⟩

omit [External] in
/-- Two messages of Alice, who has one active share, are acknowledged and dropped. -/
theorem two_messages_dropped : ∃ t, @Reachable plainExternal certificatesSent ∧
    lockedTask (servingEnv 0 0) certificatesSent 0 = .ok (.running t) ∧
    @result plainExternal (servingEnv 0 0)
      (.updateTask 0 alice.id (answer [7] ++ answer [8]) 0) certificatesSent = .ok () ∧
    ∀ e, (@next plainExternal (servingEnv 0 0)
        (.updateTask 0 alice.id (answer [7] ++ answer [8]) 0) certificatesSent).taskCache 0 =
          some e →
      ¬ @TakenIn plainExternal t alice.id (answer [7] ++ answer [8]) e := by
  obtain ⟨t, ht, hattempts, hwaiting, hready, hlen⟩ := certificatesSent_waits
  have hdropped := @dropped_acknowledged plainExternal _ _ _ t alice.id (answer [7] ++ answer [8]) 0
    certificatesSent_reachable ht hattempts.symm hwaiting hready (by rw [hlen]; decide)
  exact ⟨t, certificatesSent_reachable, ht, hdropped.1, hdropped.2⟩

end Answers

end AcknowledgedUpdates
