import MeesignServer.FoundTasks
import MeesignServer.ResultAgreement
import MeesignServer.CachedBuffers

/-!
# Rounds and late answers

Devices read their work and answer it with messages that name the attempt only. An answer
may be delivered late and more than once. The server takes messages whenever it waits for
their sender, so a repeated answer can fall into a later round. It does not if each work of a
device is answered once.
-/
namespace RoundMixing

open FallibleProgram FiniteMap DataModel CommunicatorModel ProtocolModel VotingModel
open RunningTaskModel DatabaseModel HydrationModel ServerModel TaskOutcomes ServerOutcomes
open ServerInvariant TableFrames HydrationOutcomes TaskStart InvariantSteps ServerMoves PhaseOrder
open MessageBuffers BufferInvariant MessageHistory ResultAgreement ProcessStops FoundTasks

/-- The messages of a device for the work of an attempt and round of a task. -/
structure Answer where
  task : Uuid
  device : Bytes
  attempt : ℕ
  round : ℕ
  messages : List ClientMessage

structure SameWork (a b : Answer) : Prop where
  task : b.task = a.task
  device : b.device = a.device
  attempt : b.attempt = a.attempt
  round : b.round = a.round

/-- The server, the answers that were made so far, and those whose messages were taken. An
answer stays on its way after it is delivered. -/
structure Network where
  server : Server
  answers : List Answer
  taken : List Answer

/-- A device reads one task and answers its work, if there is any. `get_task`, `get_tasks` and
the update stream show the same formatted tasks. -/
inductive Event where
  | serve (op : Op)
  | read (id : Uuid) (device : Bytes) (messages : List ClientMessage)
  | deliver (answer : Answer)

def Event.op : Event → Op
  | .serve op => op
  | .read id d _ => .getFormattedTask id (some d)
  | .deliver a => .updateTask a.task a.device a.messages a.attempt

section Network

variable [External]

def answersTo (env : Env) (s : Server) : Event → List Answer
  | .read id d messages =>
    match (outcome (getFormattedTask env id (some d)) s).1 with
    | .ok task =>
      if task.state = .running ∧ task.data ≠ [] then
        [⟨id, d, task.attempt, task.round, messages⟩]
      else []
    | .error _ => []
  | _ => []

def takenAnswers (env : Env) (s : Server) : Event → List Answer
  | .deliver a => if (takenBy env s 0 (Event.deliver a).op).isEmpty then [] else [a]
  | _ => []

def Network.next (env : Env) (e : Event) (n : Network) : Network where
  server := ServerModel.next env e.op n.server
  answers := n.answers ++ answersTo env n.server e
  taken := n.taken ++ takenAnswers env n.server e

/-- All messages come from devices that answer a work they have read. -/
def FromReaders (n : Network) : Event → Prop
  | .serve op => ∀ id d messages attempt, op ≠ .updateTask id d messages attempt
  | .read _ _ _ => True
  | .deliver a => a ∈ n.answers

/-- The task that an update finds and the messages with which it completes the round. They are
relayed, or the final result is made of them. -/
def completedBy (env : Env) (s : Server) : Op → Option (RunningTask × Map ℕ ClientMessage)
  | .updateTask id d messages attempt =>
    match lockedTask env s id with
    | .ok (.running t) =>
      if attempt = t.taskInfo.attempts ∧ t.waitingFor d ∧ ready t then
        match t.session.communicator.receiveMessages d messages with
        | .ok (_, c) =>
          if (Session.mk c t.session.protocol).roundComplete then some (t, c.input) else none
        | .error _ => none
      else none
    | _ => none
  | _ => none

/-- A message that stands in the buffers of a task comes from an answer to the work of its
attempt and round. -/
def AnswersWork (taken : List Answer) (t : RunningTask) (i : ℕ) (msg : ClientMessage) : Prop :=
  ∃ a ∈ taken, a.task = t.taskInfo.id ∧ a.attempt = t.taskInfo.attempts ∧ a.round = t.getRound ∧
    (i, msg) ∈ (t.session.communicator.identifierToIndices a.device).zip a.messages

def NoMixing (env : Env) (e : Event) (n : Network) : Prop :=
  ∀ t input, completedBy env n.server e.op = some (t, input) → ∀ i msg,
    input.lookup i = some msg → AnswersWork (n.next env e).taken t i msg

/-- What a cached task may be rebuilt as by a new process. -/
def Resumes : TaskEntry → TaskEntry → Prop
  | .voting _, _ => True
  | .running t, .running t' => t'.taskInfo.attempts = t.taskInfo.attempts ∧
      t'.getRound = t.getRound ∧ ∀ d, t'.session.communicator.identifierToIndices d =
        t.session.communicator.identifierToIndices d
  | _, .running _ => False
  | _, .voting _ => False
  | _, _ => True

/-- The process ends between operations and finds the running tasks as they were, a sweep meets
no failing call or helper, and no work of a device is answered twice. -/
structure Orderly (env : Env) (e : Event) (n : Network) : Prop where
  up : ∀ call id, env.fault call id ≠ .stops
  restart : e.op = .restartServer → ∀ id e e', n.server.taskCache id = some e →
    hydrateTask n.server.db id = .ok e' → Resumes e e'
  sweep : e.op = .restartStaleTasks → env.RepositoryServes ∧ env.helper.pdfStart ≠ .broken
  once : ∀ a, e = .deliver a → ∀ b ∈ n.taken, ¬ SameWork a b

inductive Exchange : Network → Prop where
  | initial : Exchange ⟨initial, [], []⟩
  | step {n : Network} (env : Env) (e : Event) : Exchange n → FromReaders n e →
      Exchange (n.next env e)

inductive OrderlyExchange : Network → Prop where
  | initial : OrderlyExchange ⟨initial, [], []⟩
  | step {n : Network} (env : Env) (e : Event) : OrderlyExchange n → FromReaders n e →
      Orderly env e n → OrderlyExchange (n.next env e)

end Network

section Rounds

variable {t t' : RunningTask}

theorem getRound_same (h : Kept t t') (hr : t'.session.protocol.round = t.session.protocol.round) :
    t'.getRound = t.getRound := by
  rw [getRound_eq, getRound_eq, h.context, h.ready, hr]

theorem getRound_next (h : Kept t t') (hready : ready t)
    (hr : t'.session.protocol.round = t.session.protocol.round + 1) :
    t'.getRound = t.getRound + 1 := by
  rw [getRound_eq, getRound_eq, h.context, h.ready, hready, hr]
  split <;> rfl

end Rounds

section Tasks

variable [External]

/-- A running task and the answers to its work. -/
structure TaskNoted (answers taken : List Answer) (id : Uuid) (t : RunningTask) : Prop where
  same_id : t.taskInfo.id = id
  whole : Whole t.session.communicator
  past : ∀ a ∈ answers, a.task = id → a.attempt < t.taskInfo.attempts ∨
    a.attempt = t.taskInfo.attempts ∧ a.round ≤ t.getRound
  answered : ∀ a ∈ answers, a.task = id → a.attempt = t.taskInfo.attempts →
    a.round < t.getRound → Active t.session.communicator a.device → ∃ b ∈ taken, SameWork a b
  buffered : t.session.protocol.round ≤ t.session.protocol.lastRound → ∀ i msg,
    t.session.communicator.input.lookup i = some msg → AnswersWork taken t i msg

variable {answers taken taken' : List Answer} {id : Uuid} {t t' : RunningTask}

omit [External] in
theorem AnswersWork.congr {i : ℕ} {msg : ClientMessage} (h : AnswersWork taken t i msg)
    (hinfo : t'.taskInfo = t.taskInfo) (hround : t'.getRound = t.getRound)
    (hindices : ∀ d, t'.session.communicator.identifierToIndices d =
      t.session.communicator.identifierToIndices d) (hsub : taken ⊆ taken') :
    AnswersWork taken' t' i msg := by
  obtain ⟨a, ha, htask, hattempt, har, hmem⟩ := h
  refine ⟨a, hsub ha, ?_, ?_, ?_, ?_⟩
  · rw [htask, hinfo]
  · rw [hattempt, hinfo]
  · rw [har, hround]
  · rw [hindices]
    exact hmem

omit [External] in
theorem not_lookup_empty {c : Communicator} (h : c.input = ∅) (i : ℕ) (msg : ClientMessage) :
    c.input.lookup i ≠ some msg := by
  rw [h, AList.lookup_empty]
  exact nofun

theorem TaskNoted.mono (h : TaskNoted answers taken id t) (hsub : taken ⊆ taken') :
    TaskNoted answers taken' id t := by
  refine ⟨h.same_id, h.whole, h.past, ?_, ?_⟩
  · intro a ha htask hattempt hlt hactive
    obtain ⟨b, hb, hsame⟩ := h.answered a ha htask hattempt hlt hactive
    exact ⟨b, hsub hb, hsame⟩
  · intro hle i msg hmsg
    exact (h.buffered hle i msg hmsg).congr rfl rfl (fun _ => rfl) hsub

theorem TaskNoted.complete (h : TaskNoted answers taken id t)
    (hlast : t.session.protocol.round ≤ t.session.protocol.lastRound)
    (hreceived : t.session.communicator.roundReceived) {a : Answer} (htask : a.task = id)
    (hattempt : a.attempt = t.taskInfo.attempts) (hround : a.round = t.getRound)
    (hactive : Active t.session.communicator a.device) : ∃ b ∈ taken, SameWork a b := by
  obtain ⟨i, hi⟩ := active_iff.mp hactive
  have hheard := h.whole.roundReceived_iff.mp hreceived a.device hactive
  have hin := waitingFor_eq_false.mp hheard i hi
  obtain ⟨msg, hmsg⟩ := Option.isSome_iff_exists.mp (AList.lookup_isSome.mpr hin)
  obtain ⟨b, hb, hbtask, hbattempt, hbround, hmem⟩ := h.buffered hlast i msg hmsg
  have hdevice := identifierToIndices_unique hi (List.of_mem_zip hmem).1
  refine ⟨b, hb, ?_, hdevice.symm, ?_, ?_⟩
  · rw [hbtask, h.same_id, htask]
  · rw [hbattempt, hattempt]
  · rw [hbround, hround]

theorem TaskNoted.advance (h : TaskNoted answers taken id t)
    (hlast : t.session.protocol.round ≤ t.session.protocol.lastRound)
    (hreceived : t.session.communicator.roundReceived) (hkept : Kept t t') (hready : ready t)
    (hround : t'.session.protocol.round = t.session.protocol.round + 1)
    (hshares : t'.session.communicator.activeShares = t.session.communicator.activeShares)
    (hwhole : Whole t'.session.communicator)
    (hinput : t'.session.communicator.input = ∅ ∨
      t'.session.protocol.lastRound < t'.session.protocol.round) :
    TaskNoted answers taken id t' := by
  have hnext := getRound_next hkept hready hround
  refine ⟨?_, hwhole, ?_, ?_, ?_⟩
  · rw [hkept.taskInfo]
    exact h.same_id
  · intro a ha htask
    rw [hkept.taskInfo, hnext]
    rcases h.past a ha htask with hlt | ⟨heq, hle⟩
    · exact .inl hlt
    · exact .inr ⟨heq, Nat.le_succ_of_le hle⟩
  · intro a ha htask hattempt hlt hactive
    rw [hkept.taskInfo] at hattempt
    rw [hnext] at hlt
    rw [active_congr hshares] at hactive
    rcases Nat.lt_succ_iff_lt_or_eq.mp hlt with hlt | heq
    · exact h.answered a ha htask hattempt hlt hactive
    · exact h.complete hlast hreceived htask hattempt heq hactive
  · intro hle i msg hmsg
    rcases hinput with hempty | hover
    · exact absurd hmsg (not_lookup_empty hempty i msg)
    · omega

theorem round_noted {u : Except Stop RoundUpdate} (h : TaskNoted answers taken id t)
    (ho : RoundOutcome t u t') (hready : ready t) : TaskNoted answers taken id t' := by
  have hcomplete : t.session.roundComplete → t.session.communicator.roundReceived ∧
      t.session.protocol.round ≤ t.session.protocol.lastRound := by
    intro hc
    unfold Session.roundComplete at hc
    rw [Bool.and_eq_true, decide_eq_true_eq] at hc
    exact hc
  cases ho with
  | listen => exact h
  | start hc hround start =>
    obtain ⟨hreceived, hlast⟩ := hcomplete hc
    cases start with
    | started data kept session =>
      have hinput : t'.session.communicator.input = ∅ := by
        rw [session]
        rfl
      refine h.advance hlast hreceived kept hready ?_ ?_ (whole_empty hinput) (.inl hinput)
      · rw [session, hround]
        rfl
      · rw [session]
        rfl
    | failed => exact h
    | broke => exact h
  | advance hc _ _ kept session =>
    obtain ⟨hreceived, hlast⟩ := hcomplete hc
    have hinput : t'.session.communicator.input = ∅ := by
      rw [session]
      rfl
    refine h.advance hlast hreceived kept hready ?_ ?_ (whole_empty hinput) (.inl hinput)
    · rw [session]
      rfl
    · rw [session]
      rfl
  | final hc hlast final =>
    obtain ⟨hreceived, hle⟩ := hcomplete hc
    -- the round is counted on, so the protocol has no round left
    have hover : ∀ c : Communicator, Kept t t' →
        t'.session = ⟨c, t.session.incrementRound.protocol⟩ →
        c.activeShares = t.session.communicator.activeShares → Whole c →
        TaskNoted answers taken id t' := by
      intro c kept session hshares hwhole
      refine h.advance hle hreceived kept hready ?_ ?_ ?_ (.inr ?_)
      · rw [session]
        rfl
      · rw [session]
        exact hshares
      · rw [session]
        exact hwhole
      · rw [session]
        exact Nat.lt_succ_of_le hlast.ge
    have hcleared : Whole t.session.communicator.clearInput := whole_empty rfl
    cases final with
    | finished kept session => exact hover _ kept session rfl hcleared
    | failed _ kept session => exact hover _ kept session rfl h.whole
    | broke _ kept session =>
      rcases session with session | session
      · exact hover _ kept session rfl h.whole
      · exact hover _ kept session rfl hcleared

theorem TaskNoted.receive {a : Answer} {is_taken : Bool} {c : Communicator}
    (h : TaskNoted answers taken id t)
    (receive : t.session.communicator.receiveMessages a.device a.messages = .ok (is_taken, c))
    (hsub : taken ⊆ taken') (hnew : is_taken → a ∈ taken' ∧ a.task = id ∧
      a.attempt = t.taskInfo.attempts ∧ a.round = t.getRound)
    (hle : t.session.protocol.round ≤ t.session.protocol.lastRound) {i : ℕ} {msg : ClientMessage}
    (hmsg : c.input.lookup i = some msg) : AnswersWork taken' t i msg := by
  have hold : t.session.communicator.input.lookup i = some msg → AnswersWork taken' t i msg :=
    fun hmsg => (h.buffered hle i msg hmsg).congr rfl rfl (fun _ => rfl) hsub
  obtain ⟨-, -, -, -, htaken⟩ := receiveMessages_ok receive
  cases is_taken with
  | false =>
    rw [show c = t.session.communicator from htaken] at hmsg
    exact hold hmsg
  | true =>
    obtain ⟨hmem, htask, hattempt, hround⟩ := hnew rfl
    rw [htaken.2] at hmsg
    rcases mem_or_lookup_of_extend hmsg with hmsg | hmsg
    · refine ⟨a, hmem, ?_, hattempt, hround, hmsg⟩
      rw [h.same_id, htask]
    · exact hold hmsg

theorem receive_noted {a : Answer} {is_taken : Bool} {c : Communicator}
    (h : TaskNoted answers taken id t)
    (receive : t.session.communicator.receiveMessages a.device a.messages = .ok (is_taken, c))
    (kept : Kept t t') (session : t'.session = ⟨c, t.session.protocol⟩) (hsub : taken ⊆ taken')
    (hnew : is_taken → a ∈ taken' ∧ a.task = id ∧ a.attempt = t.taskInfo.attempts ∧
      a.round = t.getRound) : TaskNoted answers taken' id t' := by
  obtain ⟨hshares, hprotocol, -⟩ := receiveMessages_ok receive
  have hround : t'.getRound = t.getRound := getRound_same kept (by rw [session])
  refine ⟨?_, ?_, ?_, ?_, ?_⟩
  · rw [kept.taskInfo]
    exact h.same_id
  · rw [session]
    exact h.whole.receive receive
  · rw [kept.taskInfo, hround]
    exact h.past
  · rw [kept.taskInfo, hround]
    intro b hb htask hattempt hlt hactive
    rw [session, active_congr hshares] at hactive
    obtain ⟨b', hb', hsame⟩ := h.answered b hb htask hattempt hlt hactive
    exact ⟨b', hsub hb', hsame⟩
  · intro hle i msg hmsg
    rw [session] at hle hmsg
    refine (h.receive receive hsub hnew hle hmsg).congr kept.taskInfo hround (fun d => ?_)
      (List.Subset.refl _)
    rw [session]
    exact identifierToIndices_congr hshares hprotocol d

theorem update_noted {a : Answer} {u : Except Stop RoundUpdate} (h : TaskNoted answers taken id t)
    (ho : UpdateOutcome a.device a.messages t u t') (hsub : taken ⊆ taken')
    (hnew : t.waitingFor a.device → ready t →
      (∃ c, t.session.communicator.receiveMessages a.device a.messages = .ok (true, c)) →
      a ∈ taken' ∧ a.task = id ∧ a.attempt = t.taskInfo.attempts ∧ a.round = t.getRound) :
    TaskNoted answers taken' id t' := by
  cases ho with
  | notWaiting => exact h.mono hsub
  | broke => exact h.mono hsub
  | received waiting is_ready receive kept session round =>
    refine round_noted (receive_noted h receive kept session hsub ?_) round ?_
    · rintro rfl
      exact hnew waiting is_ready ⟨_, receive⟩
    · rw [kept.ready]
      exact is_ready

/-- A late answer to an earlier round is one that was given before. -/
theorem TaskNoted.current {a : Answer} (h : TaskNoted answers taken id t) (ha : a ∈ answers)
    (htask : a.task = id) (hattempt : a.attempt = t.taskInfo.attempts)
    (hwaiting : t.waitingFor a.device) (honce : ∀ b ∈ taken, ¬ SameWork a b) :
    a.round = t.getRound := by
  have hle : a.round ≤ t.getRound := by
    rcases h.past a ha htask with hlt | ⟨-, hle⟩
    · omega
    · exact hle
  by_contra hne
  have hactive : Active t.session.communicator a.device := by
    obtain ⟨i, hi, -⟩ := List.any_eq_true.mp hwaiting
    exact active_iff.mpr ⟨i, hi⟩
  obtain ⟨b, hb, hsame⟩ := h.answered a ha htask hattempt (lt_of_le_of_ne hle hne) hactive
  exact honce b hb hsame

theorem noted_of_empty (hid : t.taskInfo.id = id)
    (hold : ∀ a ∈ answers, a.task = id → a.attempt < t.taskInfo.attempts)
    (hinput : t.session.communicator.input = ∅) : TaskNoted answers taken id t := by
  refine ⟨hid, whole_empty hinput, fun a ha htask => .inl (hold a ha htask), ?_, ?_⟩
  · intro a ha htask hattempt
    have hlt := hold a ha htask
    omega
  · intro _ i msg hmsg
    exact absurd hmsg (not_lookup_empty hinput i msg)

def EntryNoted (answers taken : List Answer) (id : Uuid) : TaskEntry → Prop
  | .voting _ => ∀ a ∈ answers, a.task ≠ id
  | .running t => TaskNoted answers taken id t
  | _ => True

variable {env : Env} {op : Op} {r : Except Stop Unit} {g g' : Guarded} {e : TaskEntry}

theorem EntryNoted.mono (h : EntryNoted answers taken id e) (hsub : taken ⊆ taken') :
    EntryNoted answers taken' id e := by
  cases e with
  | voting v => exact h
  | running t => exact TaskNoted.mono h hsub
  | declined | finished | failed => trivial

theorem EntryNoted.others {new : List Answer} (h : EntryNoted answers taken id e)
    (hnew : ∀ a ∈ new, a.task ≠ id) : EntryNoted (answers ++ new) taken id e := by
  have hmem : ∀ a ∈ answers ++ new, a.task = id → a ∈ answers := by
    intro a ha htask
    rcases List.mem_append.mp ha with hold | ha
    · exact hold
    · exact absurd htask (hnew a ha)
  cases e with
  | voting v => exact fun a ha htask => h a (hmem a ha htask) htask
  | running t =>
    have ht : TaskNoted answers taken id t := h
    exact ⟨ht.same_id, ht.whole, fun a ha htask => ht.past a (hmem a ha htask) htask,
      fun a ha htask => ht.answered a (hmem a ha htask) htask, ht.buffered⟩
  | declined | finished | failed => trivial

theorem TaskNoted.answer {a : Answer} (h : TaskNoted answers taken id t)
    (hattempt : a.attempt = t.taskInfo.attempts) (hround : a.round = t.getRound) :
    TaskNoted (answers ++ [a]) taken id t := by
  refine ⟨h.same_id, h.whole, ?_, ?_, h.buffered⟩
  · intro b hb htask
    rcases List.mem_append.mp hb with hold | hnew
    · exact h.past b hold htask
    · cases List.mem_singleton.mp hnew
      exact .inr ⟨hattempt, hround.le⟩
  · intro b hb htask hb' hlt
    rcases List.mem_append.mp hb with hold | hnew
    · exact h.answered b hold htask hb' hlt
    · cases List.mem_singleton.mp hnew
      omega

theorem swept_noted {helper : Helper} (h : SweptTask helper t e)
    (ht : TaskNoted answers taken id t) :
    EntryNoted answers taken id e := by
  cases h with
  | same => exact ht
  | failed => trivial
  | again data _ _ info session =>
    apply noted_of_empty
    · rw [info]
      exact ht.same_id
    · intro a ha htask
      rw [info]
      change a.attempt < t.taskInfo.attempts + 1
      rcases ht.past a ha htask with hlt | ⟨heq, -⟩ <;> omega
    · rw [session]
      rfl

theorem build_noted {v : VotingTask} {chosen : List Device} {db db' : Database} {e' : TaskEntry}
    (h : BuildOutcome env id v chosen db e r db' e') (hid : e'.taskInfo.id = id)
    (hnone : ∀ a ∈ answers, a.task ≠ id) (he : EntryNoted answers taken id e) :
    EntryNoted answers taken id e' := by
  have hnew : ∀ t, e' = .running t → t.session.communicator.input = ∅ →
      EntryNoted answers taken id e' := by
    rintro t rfl hinput
    exact noted_of_empty hid (fun a ha htask => absurd htask (hnone a ha)) hinput
  cases h with
  | notConstructed => exact he
  | notInitialized => exact he
  | certificates _ init stored =>
    cases stored with
    | served => exact hnew _ rfl (initialize_input init (.inl rfl))
    | fails => exact he
  | nextRound _ init stored =>
    cases stored with
    | served => exact hnew _ rfl (initialize_input init (.inr ⟨_, rfl⟩))
    | fails => exact he
  | failed _ _ stored =>
    cases stored with
    | served => trivial
    | fails => exact he

theorem decide_noted {d : Bytes} {accept : Bool} (h : DecideOutcome env id d accept g r g')
    (hid : g'.entry.taskInfo.id = id) (hg : EntryNoted answers taken id g.entry) :
    EntryNoted answers taken id g'.entry := by
  cases h with
  | notVoting => exact hg
  | notParticipant => exact hg
  | notStored hv | undecided hv =>
    rw [hv] at hg
    exact hg
  | declined hv _ _ _ stored =>
    rw [hv] at hg
    cases stored with
    | served => trivial
    | fails => exact hg
  | accepted hv _ _ _ start =>
    rw [hv] at hg
    have hnone : ∀ a ∈ answers, a.task ≠ id := hg
    cases start with
    | notStored => exact hnone
    | built _ build => exact build_noted build hid hnone hnone

theorem body_noted (hop : ∀ id d messages attempt, op ≠ .updateTask id d messages attempt)
    (hsafe : op = .restartStaleTasks → env.RepositoryServes ∧ env.helper.pdfStart ≠ .broken) :
    KeptByBody env op (EntryNoted answers taken) := by
  intro s id e r g hi loaded body he
  obtain ⟨row, hrow, hentry⟩ := (task_sound hi loaded body).entry
  cases body with
  | decide h => exact decide_noted h (entry_info hentry).id he
  | update => exact absurd rfl (hop _ _ _ _)
  | restart _ h =>
    obtain ⟨hserves, hhelper⟩ := hsafe rfl
    cases e with
    | running t =>
      refine swept_noted (restart_swept h rfl hserves hhelper fun task htask => ?_) he
      obtain ⟨row, hrow, he⟩ := loaded_entry hi loaded
      subst htask
      exact GroupWellFormed.certificate_of_signPdf hi.tables hrow he.runningOf.context rfl
    | voting | declined | finished | failed =>
      cases h with
      | notRunning => exact he
      | notStored ht => cases ht
      | restarted ht => cases ht
  | acknowledge h =>
    cases h with
    | notFinished => exact he
    | acknowledged _ _ stored => cases stored <;> trivial
  | read => exact he

theorem resumed_noted {db : Database} {row : TaskRow} {e' : TaskEntry} (h : Tables db)
    (hrow : db.task.lookup id = some row) (hh : hydrateTask db id = .ok e') (hr : Resumes e e')
    (he : EntryNoted answers taken id e) : EntryNoted answers taken id e' := by
  have hinput : ∀ t', e' = .running t' → t'.taskInfo.id = id ∧
      t'.session.communicator.input = ∅ := by
    rintro t' rfl
    refine ⟨(entry_info (hydrate_entry h hrow hh)).id, ?_⟩
    have ho := hydrate_outcome h hrow
    rw [hh] at ho
    cases ho with
    | running _ _ communicator =>
      obtain ⟨m, -, -, hnew⟩ := hydrateCommunicator_spec h hrow
      rw [hnew] at communicator
      exact (Communicator.new_ok communicator).2.2.2
  cases e' with
  | declined | finished | failed => trivial
  | voting v' =>
    cases e with
    | voting v => exact he
    | running | declined | finished | failed => exact hr.elim
  | running t' =>
    obtain ⟨hid, hempty⟩ := hinput t' rfl
    cases e with
    | voting v =>
      have hnone : ∀ a ∈ answers, a.task ≠ id := he
      exact noted_of_empty hid (fun a ha htask => absurd htask (hnone a ha)) hempty
    | running t =>
      obtain ⟨hattempts, hround, hindices⟩ := hr
      have ht : TaskNoted answers taken id t := he
      refine ⟨hid, whole_empty hempty, ?_, ?_, ?_⟩
      · rw [hattempts, hround]
        exact ht.past
      · rw [hattempts, hround]
        intro a ha htask hattempt hlt hactive
        refine ht.answered a ha htask hattempt hlt ?_
        rw [active_iff] at hactive ⊢
        rwa [hindices] at hactive
      · intro _ i msg hmsg
        exact absurd hmsg (not_lookup_empty hempty i msg)
    | declined | finished | failed => exact hr.elim

end Tasks

section Exchanges

variable [External]

structure Noted (n : Network) : Prop where
  invariant : Invariant n.server
  tasks : ∀ a ∈ n.answers, a.task ∈ n.server.db.task
  found : AllFound (EntryNoted n.answers n.taken) n.server

variable {n : Network} {env : Env}

theorem serve_noted {op : Op} (h : Noted n)
    (hop : ∀ id d messages attempt, op ≠ .updateTask id d messages attempt)
    (ho : Orderly env (.serve op) n) :
    AllFound (EntryNoted n.answers n.taken) (ServerModel.next env op n.server) := by
  by_cases hrestart : op = .restartServer
  · subst hrestart
    rintro id e' (hc | ⟨-, hh⟩)
    · cases hc
    · change hydrateTask n.server.db id = .ok e' at hh
      obtain ⟨row, hrow⟩ := hydrate_row hh
      cases hc : n.server.taskCache id with
      | none => exact h.found id e' (.inr ⟨hc, hh⟩)
      | some e =>
        exact resumed_noted h.invariant.tables hrow hh (ho.restart rfl id e e' hc hh)
          (h.found id e (.inl hc))
  · refine next_found h.invariant h.found hrestart ho.up ?_ (body_noted hop ho.sweep)
    intro v hv a ha htask
    exact hv (htask ▸ h.tasks a ha)

omit [External] in
theorem answersTo_read (env : Env) (s : Server) (id : Uuid) (d : Bytes)
    (messages : List ClientMessage) : answersTo env s (.read id d messages) = [] ∨
      ∃ t, Loaded env s id (.running t) ∧ answersTo env s (.read id d messages) =
        [⟨id, d, t.taskInfo.attempts, t.getRound, messages⟩] := by
  rcases lockedTask_post env s id with ⟨stop, -, hn⟩ | ⟨e, -, hl⟩
  · left
    simp only [answersTo, getFormattedTask_notLoaded hn]
  · simp only [answersTo, getFormattedTask_loaded hl]
    cases e with
    | running t =>
      by_cases hdata : (TaskEntry.format (.running t) (some d) (some t.taskInfo.request)).data = []
      · left
        exact if_neg fun hshown => hshown.2 hdata
      · right
        exact ⟨t, hl, if_pos ⟨rfl, hdata⟩⟩
    | voting | declined | finished | failed =>
      left
      exact if_neg fun hshown => nomatch hshown.1

theorem next_read {s : Server} {id : Uuid} {e : TaskEntry} (hl : Loaded env s id e)
    (d : Option Bytes) : ServerModel.next env (.getFormattedTask id d) s = cached s id e := by
  have hrun : outcome (exec env (.getFormattedTask id d)) s = (.ok (), cached s id e) := by
    have hpost : post (discard (getFormattedTask env id d)) s
        (fun r t => r = .ok () ∧ t = cached s id e) := by
      rw [discard_post, post, getFormattedTask_loaded hl]
      exact ⟨rfl, rfl⟩
    exact Prod.ext hpost.1 hpost.2
  unfold ServerModel.next
  rw [hrun]

theorem read_noted (h : Noted n) (hup : ∀ call id, env.fault call id ≠ .stops) (id : Uuid)
    (d : Bytes) (messages : List ClientMessage) :
    AllFound (EntryNoted (n.next env (.read id d messages)).answers n.taken)
      (n.next env (.read id d messages)).server := by
  have hold : AllFound (EntryNoted n.answers n.taken)
      (ServerModel.next env (.getFormattedTask id (some d)) n.server) := by
    refine next_found h.invariant h.found nofun hup ?_ (body_noted (fun _ _ _ _ => nofun) nofun)
    intro v hv a ha htask
    exact hv (htask ▸ h.tasks a ha)
  simp only [Network.next, Event.op]
  rcases answersTo_read env n.server id d messages with hnone | ⟨t, hl, hone⟩
  · rw [hnone, List.append_nil]
    exact hold
  · rw [hone]
    intro j e hfound
    by_cases hj : j = id
    · subst hj
      have ht : TaskNoted n.answers n.taken j t := h.found j _ (loaded_found hl)
      rw [next_read hl] at hfound
      rcases hfound with hfound | ⟨hfound, -⟩
      · rw [cached_self] at hfound
        cases hfound
        exact ht.answer rfl rfl
      · rw [cached_self] at hfound
        cases hfound
    · refine (hold j e hfound).others fun a ha => ?_
      cases List.mem_singleton.mp ha
      exact Ne.symm hj

theorem mem_taken {a : Answer} {t : RunningTask} {c : Communicator}
    (hl : Loaded env n.server a.task (.running t)) (hattempt : a.attempt = t.taskInfo.attempts)
    (hwaiting : t.waitingFor a.device) (hready : ready t)
    (hreceive : t.session.communicator.receiveMessages a.device a.messages = .ok (true, c)) :
    a ∈ (n.next env (.deliver a)).taken := by
  have hsome : (takenBy env n.server 0 (Event.deliver a).op).isEmpty = false := by
    change (takenBy env n.server 0 (.updateTask a.task a.device a.messages a.attempt)).isEmpty = _
    rw [takenBy_loaded hl hattempt]
    simp only [takenFrom, hwaiting, hready, hreceive, Bool.and_self, ↓reduceIte, List.isEmpty_cons]
  apply List.mem_append_right
  simp only [takenAnswers, hsome, Bool.false_eq_true, ↓reduceIte, List.mem_singleton]

theorem deliver_noted {a : Answer} (h : Noted n) (ha : a ∈ n.answers)
    (ho : Orderly env (.deliver a) n) :
    AllFound (EntryNoted n.answers (n.next env (.deliver a)).taken)
      (n.next env (.deliver a)).server := by
  have hsub : n.taken ⊆ (n.next env (.deliver a)).taken := List.subset_append_left _ _
  have hold : AllFound (EntryNoted n.answers (n.next env (.deliver a)).taken) n.server :=
    fun id e hfound => (h.found id e hfound).mono hsub
  have hpost : post (exec env (.updateTask a.task a.device a.messages a.attempt)) n.server
      (fun _ s' => AllFound (EntryNoted n.answers (n.next env (.deliver a)).taken) s') := by
    refine post_mono (updateTask_outcome env _ _ _ _ n.server) fun r s' htask => ?_
    cases htask with
    | notLoaded => exact hold
    | @loaded e _ g hl body =>
      have hs := task_sound h.invariant hl (.update body)
      have he := h.found a.task e (loaded_found hl)
      refine hold.insert h.invariant hs.extend hs.others ?_ ?_
      · intro j hj
        rw [hs.taskCache]
        exact Function.update_of_ne hj _ _
      · cases body with
        | notRunning => exact he.mono hsub
        | stale => exact he.mono hsub
        | @updated t t' _ _ _ _ _ ht hcurrent update record =>
          have hentry : e = .running t := ht
          subst hentry
          have hnoted : TaskNoted n.answers (n.next env (.deliver a)).taken a.task t' := by
            refine update_noted he update hsub fun hwaiting hready hreceive => ?_
            obtain ⟨c, hreceive⟩ := hreceive
            refine ⟨mem_taken hl hcurrent hwaiting hready hreceive, rfl, hcurrent, ?_⟩
            exact TaskNoted.current he ha rfl hcurrent hwaiting (ho.once a rfl)
          rcases record_phase record with rfl | ⟨f, rfl⟩ | ⟨f, rfl⟩
          · exact hnoted
          · trivial
          · trivial
  change AllFound _ (ServerModel.next env (.updateTask a.task a.device a.messages a.attempt)
    n.server)
  rw [next_eq, if_neg (result_ne_crash ho.up _ _)]
  exact hpost

theorem next_noted {e : Event} (h : Noted n) (ha : FromReaders n e) (ho : Orderly env e n) :
    Noted (n.next env e) := by
  obtain ⟨hinv, hx⟩ := next_invariant env e.op n.server h.invariant
  have htasks : ∀ a ∈ n.answers, a.task ∈ (n.next env e).server.db.task :=
    fun a ha => hx.mem (h.tasks a ha)
  cases e with
  | serve op =>
    have hanswers : (n.next env (.serve op)).answers = n.answers := List.append_nil _
    have htaken : (n.next env (.serve op)).taken = n.taken := List.append_nil _
    refine ⟨hinv, ?_, ?_⟩
    · rw [hanswers]
      exact htasks
    · rw [hanswers, htaken]
      exact serve_noted h ha ho
  | read id d messages =>
    have htaken : (n.next env (.read id d messages)).taken = n.taken := List.append_nil _
    refine ⟨hinv, ?_, ?_⟩
    · intro a hmem
      rcases List.mem_append.mp hmem with hold | hnew
      · exact htasks a hold
      · rcases answersTo_read env n.server id d messages with hnone | ⟨t, hl, hone⟩
        · rw [hnone] at hnew
          cases hnew
        · rw [hone] at hnew
          cases List.mem_singleton.mp hnew
          obtain ⟨row, hrow, -⟩ := loaded_entry h.invariant hl
          exact hx.mem (mem_of_row hrow)
    · rw [htaken]
      exact read_noted h ho.up id d messages
  | deliver a =>
    have hanswers : (n.next env (.deliver a)).answers = n.answers := List.append_nil _
    refine ⟨hinv, ?_, ?_⟩
    · rw [hanswers]
      exact htasks
    · rw [hanswers]
      exact deliver_noted h ha ho

theorem orderly_noted (h : OrderlyExchange n) : Noted n := by
  induction h with
  | initial =>
    refine ⟨reachable_invariant .initial, fun a ha => absurd ha List.not_mem_nil, ?_⟩
    rintro id e (hc | ⟨-, hh⟩)
    · cases hc
    · obtain ⟨row, hrow⟩ := hydrate_row hh
      cases hrow
  | step env e _ ha ho ih => exact next_noted ih ha ho

theorem completedBy_update {s : Server} {op : Op} {t : RunningTask}
    {input : Map ℕ ClientMessage} (h : completedBy env s op = some (t, input)) :
    ∃ id d messages is_taken c, op = .updateTask id d messages t.taskInfo.attempts ∧
      Loaded env s id (.running t) ∧ t.waitingFor d ∧ ready t ∧
      t.session.communicator.receiveMessages d messages = .ok (is_taken, c) ∧ c.input = input ∧
      t.session.protocol.round ≤ t.session.protocol.lastRound := by
  unfold completedBy at h
  split at h
  · rename_i id d messages attempt
    split at h
    · rename_i t' hlocked
      split_ifs at h with hcheck
      obtain ⟨rfl, hwaiting, hready⟩ := hcheck
      split at h
      · rename_i is_taken c hreceive
        split_ifs at h with hcomplete
        cases h
        unfold Session.roundComplete at hcomplete
        rw [Bool.and_eq_true, decide_eq_true_eq] at hcomplete
        exact ⟨id, d, messages, is_taken, c, rfl, lockedTask_ok.mp hlocked, hwaiting, hready,
          hreceive, rfl, hcomplete.2⟩
      · cases h
    · cases h
  · cases h

inductive Act where
  | serve (op : Op)
  | read (id : Uuid) (device : Bytes) (messages : List ClientMessage)
  | deliver (k : ℕ)

def isUpdate : Op → Bool
  | .updateTask _ _ _ _ => true
  | _ => false

def Act.event (n : Network) : Act → Option Event
  | .serve op => if isUpdate op then none else some (.serve op)
  | .read id d messages => some (.read id d messages)
  | .deliver k => n.answers[k]?.map .deliver

def Network.act (env : Env) (n : Network) (act : Act) : Network :=
  match act.event n with
  | some e => n.next env e
  | none => n

def Network.play (env : Env) (n : Network) (acts : List Act) : Network :=
  acts.foldl (fun n act => n.act env act) n

omit [External] in
theorem event_fromReaders {act : Act} {e : Event} (h : act.event n = some e) : FromReaders n e := by
  cases act with
  | serve op =>
    change (if isUpdate op then none else some (Event.serve op)) = some e at h
    split_ifs at h with hop
    cases h
    rintro id d messages attempt rfl
    exact hop rfl
  | read id d messages =>
    cases h
    trivial
  | deliver k =>
    obtain ⟨a, ha, rfl⟩ := Option.map_eq_some_iff.mp h
    exact List.mem_of_getElem? ha

theorem exchange_play (env : Env) (h : Exchange n) (acts : List Act) :
    Exchange (n.play env acts) := by
  induction acts generalizing n with
  | nil => exact h
  | cons act acts ih =>
    apply ih
    change Exchange (n.act env act)
    unfold Network.act
    split
    · rename_i e he
      exact .step env e h (event_fromReaders he)
    · exact h

instance (a b : Answer) : Decidable (SameWork a b) :=
  decidable_of_iff (b.task = a.task ∧ b.device = a.device ∧ b.attempt = a.attempt ∧
    b.round = a.round) ⟨fun ⟨h₁, h₂, h₃, h₄⟩ => ⟨h₁, h₂, h₃, h₄⟩,
      fun ⟨h₁, h₂, h₃, h₄⟩ => ⟨h₁, h₂, h₃, h₄⟩⟩

def isOrderly (n : Network) : Event → Bool
  | .serve .restartServer => false
  | .serve .restartStaleTasks => false
  | .deliver a => n.taken.all fun b => ¬ SameWork a b
  | _ => true

omit [External] in
theorem isOrderly_orderly {e : Event} (hserves : env.RepositoryServes) (h : isOrderly n e) :
    Orderly env e n := by
  refine ⟨fun call id => ?_, fun hop => ?_, fun hop => ?_, ?_⟩
  · rw [hserves call id]
    exact nofun
  · cases e with
    | serve op =>
      cases hop
      cases h
    | read | deliver => cases hop
  · cases e with
    | serve op =>
      cases hop
      cases h
    | read | deliver => cases hop
  · rintro a rfl b hb
    exact of_decide_eq_true (List.all_eq_true.mp h b hb)

def playsOrderly (env : Env) (n : Network) : List Act → Bool
  | [] => true
  | act :: acts => (act.event n).all (isOrderly n) && playsOrderly env (n.act env act) acts

theorem orderly_play (hserves : env.RepositoryServes) (h : OrderlyExchange n) {acts : List Act}
    (hacts : playsOrderly env n acts) : OrderlyExchange (n.play env acts) := by
  induction acts generalizing n with
  | nil => exact h
  | cons act acts ih =>
    rw [playsOrderly, Bool.and_eq_true] at hacts
    refine ih ?_ hacts.2
    change OrderlyExchange (n.act env act)
    unfold Network.act
    split
    · rename_i e he
      rw [he] at hacts
      exact .step env e h (event_fromReaders he) (isOrderly_orderly hserves hacts.1)
    · exact h

def emptyNetwork : Network := ⟨initial, [], []⟩

def aliceHeard : List Act :=
  groupRequested.map .serve ++ [.serve (.decideTask 0 bob.id true),
    .read 0 alice.id (answer [7]), .read 0 bob.id (answer [7]), .deliver 0]

/-- Bob's answer ends the round. Alice's answer is delivered again, and Bob reads and answers the
work of the next round. -/
def aliceRepeated : List Act :=
  aliceHeard ++ [.deliver 1, .deliver 0, .read 0 bob.id (answer [7])]

def completion (env : Env) (n : Network) (k : ℕ) : Option (ℕ × List ℕ × Bool) :=
  n.answers[k]?.bind fun a =>
    (completedBy env n.server (Event.deliver a).op).bind fun p =>
      (p.2.lookup 1).map fun _ => (p.1.getRound,
        p.1.session.communicator.identifierToIndices bob.id,
        (n.next env (.deliver a)).taken.all fun b =>
          !decide (b.round = p.1.getRound) || decide (b.device = bob.id))

theorem completion_some {k round : ℕ} {indices : List ℕ} {only : Bool}
    (h : completion env n k = some (round, indices, only)) : ∃ a t input msg,
      FromReaders n (.deliver a) ∧ n.answers[k]? = some a ∧
      completedBy env n.server (Event.deliver a).op = some (t, input) ∧
      input.lookup 1 = some msg ∧ t.getRound = round ∧
      t.session.communicator.identifierToIndices bob.id = indices ∧
      (only → ∀ b ∈ (n.next env (.deliver a)).taken, b.round = t.getRound → b.device = bob.id) := by
  obtain ⟨a, ha, h⟩ := Option.bind_eq_some_iff.mp h
  obtain ⟨⟨t, input⟩, hc, h⟩ := Option.bind_eq_some_iff.mp h
  obtain ⟨msg, hmsg, h⟩ := Option.map_eq_some_iff.mp h
  simp only [Prod.mk.injEq] at h
  obtain ⟨hround, hindices, honly⟩ := h
  refine ⟨a, t, input, msg, List.mem_of_getElem? ha, ha, hc, hmsg, hround, hindices, ?_⟩
  rintro rfl b hb hb'
  have hall := List.all_eq_true.mp honly b hb
  simpa [hb'] using hall

/-- In an orderly exchange, each message that is relayed or that the result is made of is an
answer to the work of the attempt and round that the task is in. -/
theorem rounds_not_mixed {e : Event} (h : OrderlyExchange n) (ha : FromReaders n e)
    (ho : Orderly env e n) : NoMixing env e n := by
  intro t input hcompleted i msg hmsg
  obtain ⟨id, d, messages, is_taken, c, hop, hl, hwaiting, hready, hreceive, rfl, hle⟩ :=
    completedBy_update hcompleted
  cases e with
  | serve op => exact absurd hop (ha _ _ _ _)
  | read => cases hop
  | deliver a =>
    obtain ⟨rfl, rfl, rfl, hattempt⟩ : a.task = id ∧ a.device = d ∧ a.messages = messages ∧
        a.attempt = t.taskInfo.attempts := by
      simpa only [Event.op, Op.updateTask.injEq] using hop
    have hnoted : TaskNoted n.answers n.taken a.task t :=
      (orderly_noted h).found a.task _ (loaded_found hl)
    refine hnoted.receive hreceive (List.subset_append_left _ _) ?_ hle hmsg
    rintro rfl
    exact ⟨mem_taken hl hattempt hwaiting hready hreceive, rfl, hattempt,
      hnoted.current ha rfl hattempt hwaiting (ho.once a rfl)⟩

omit [External] in
/-- Bob's answer completes the first round with Alice's answer to the same work. -/
theorem rounds_not_mixed_group : ∃ n a t input msg, @OrderlyExchange plainExternal n ∧
    @completedBy plainExternal (servingEnv 0 0) n.server (Event.deliver a).op = some (t, input) ∧
    t.getRound = 1 ∧ input.lookup 1 = some msg ∧
    AnswersWork (@Network.next plainExternal (servingEnv 0 0) (.deliver a) n).taken t 1 msg := by
  have hplay : @playsOrderly plainExternal (servingEnv 0 0) emptyNetwork aliceHeard := by
    decide +kernel
  have hcompletion : @completion plainExternal (servingEnv 0 0)
      (@Network.play plainExternal (servingEnv 0 0) emptyNetwork aliceHeard) 1 =
        some (1, [2], false) := by decide +kernel
  have hlast : (@Network.play plainExternal (servingEnv 0 0) emptyNetwork
      aliceHeard).answers[1]?.all
      fun a => isOrderly (@Network.play plainExternal (servingEnv 0 0) emptyNetwork aliceHeard)
        (.deliver a) := by decide +kernel
  have horderly := @orderly_play plainExternal _ _ (servingEnv_serves 0 0)
    (@OrderlyExchange.initial plainExternal) _ hplay
  obtain ⟨a, t, input, msg, hallowed, ha, hc, hmsg, hround, -, -⟩ :=
    @completion_some plainExternal _ _ _ _ _ _ hcompletion
  rw [ha] at hlast
  have hno := @rounds_not_mixed plainExternal _ _ _ horderly hallowed
    (isOrderly_orderly (servingEnv_serves 0 0) hlast)
  exact ⟨_, a, t, input, msg, horderly, hc, hround, hmsg, hno t input hc 1 msg hmsg⟩

omit [External] in
/-- Alice's answer to the first work is used in the second round. -/
theorem repeated_answer_mixes : ∃ n e, @Exchange plainExternal n ∧ FromReaders n e ∧
    ¬ @NoMixing plainExternal (servingEnv 0 0) e n := by
  have hcompletion : @completion plainExternal (servingEnv 0 0)
      (@Network.play plainExternal (servingEnv 0 0) emptyNetwork aliceRepeated) 2 =
        some (2, [2], true) := by decide +kernel
  obtain ⟨a, t, input, msg, hallowed, ha, hc, hmsg, hround, hindices, honly⟩ :=
    @completion_some plainExternal _ _ _ _ _ _ hcompletion
  refine ⟨_, _, @exchange_play plainExternal _ _ (@Exchange.initial plainExternal) _, hallowed,
    fun hno => ?_⟩
  obtain ⟨b, hb, -, -, hb', hmem⟩ := hno t input hc 1 msg hmsg
  rw [honly rfl b hb hb', hindices] at hmem
  have hone := (List.of_mem_zip hmem).1
  simp at hone

end Exchanges

end RoundMixing
