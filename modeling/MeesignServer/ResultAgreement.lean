import MeesignServer.MessageHistory

/-!
# Agreement on the result

A task finishes when the last message of its last round comes in. By then every
active share has sent one message to this server process, and the messages verify
to the result under the certificates of their senders. A share may have sent more
messages to earlier processes, whose buffers are lost.
-/
namespace ResultAgreement

open FallibleProgram FiniteMap DataModel CommunicatorModel ProtocolModel VotingModel
open RunningTaskModel DatabaseModel HydrationModel ServerModel TaskOutcomes ServerOutcomes
open TableFrames ServerInvariant HydrationOutcomes InvariantSteps ServerMoves TaskAdmission
open PhaseOrder MessageBuffers MessageHistory

def submissions (log : List Taken) (id : Uuid) (attempt round index : ℕ) : List ClientMessage :=
  (log.filter fun e => e.task = id ∧ e.attempt = attempt ∧ e.round = round).flatMap fun e =>
    (e.messages.filter (·.1 = index)).map Prod.snd

def ofProcess (log : List Taken) (process : ℕ) : List Taken :=
  log.filter fun e => e.process = process

theorem submissions_ofProcess (log : List Taken) (process : ℕ) (id : Uuid)
    (attempt round index : ℕ) : submissions (ofProcess log process) id attempt round index =
      (((callsAt (entriesOf log process id) attempt round).flatMap Call.messages).filter
        (·.1 = index)).map Prod.snd := by
  have hfilter : (ofProcess log process).filter
      (fun e => e.task = id ∧ e.attempt = attempt ∧ e.round = round) =
        (entriesOf log process id).filter (fun e => e.attempt = attempt ∧ e.round = round) := by
    rw [ofProcess, entriesOf, List.filter_filter, List.filter_filter]
    apply List.filter_congr
    intro e _
    grind
  rw [submissions, hfilter, callsAt, List.flatMap_map, List.filter_flatMap, List.map_flatMap]

section Finishing

variable [External] {env : Env} {op : Op} {id : Uuid} {r : Except Stop Unit} {g g' : Guarded}
  {s s' : Server} {e : TaskEntry}

def Unfinished (e : TaskEntry) : Prop := ∀ f, e ≠ .finished f

theorem restart_unfinished (h : RestartEntryOutcome env id g r g') (hg : Unfinished g.entry) :
    Unfinished g'.entry := by
  cases h with
  | notRunning => exact hg
  | notStored => exact hg
  | restarted ht _ restart record =>
    intro f hf
    cases record with
    | stopped | listen => cases hf
    | nextRound stored => cases stored <;> cases hf
    | failed stored => cases stored <;> cases hf
    | finished =>
      cases restart with
      | again _ _ _ _ start => cases start

theorem decide_unfinished {d : Bytes} {accept : Bool} (h : DecideOutcome env id d accept g r g')
    (hg : Unfinished g.entry) : Unfinished g'.entry := by
  cases h with
  | notVoting => exact hg
  | notParticipant => exact hg
  | notStored => intro f hf; cases hf
  | undecided => intro f hf; cases hf
  | declined _ _ _ _ stored =>
    intro f hf
    cases stored <;> cases hf
  | accepted _ _ _ _ start =>
    cases start with
    | notStored => intro f hf; cases hf
    | built _ build =>
      rcases build_phase build with rfl | ⟨t, rfl⟩ | ⟨f, rfl⟩
      · intro f hf; cases hf
      · intro f hf; cases hf
      · intro f hf; cases hf

theorem body_unfinished (h : BodyOutcome env op id g r g')
    (hop : ∀ d messages attempt, op ≠ .updateTask id d messages attempt)
    (hg : Unfinished g.entry) : Unfinished g'.entry := by
  cases h with
  | decide h => exact decide_unfinished h hg
  | update h => exact absurd rfl (hop _ _ _)
  | restart _ h => exact restart_unfinished h hg
  | acknowledge h =>
    cases h with
    | notFinished => exact hg
    | acknowledged hf => exact absurd hf (hg _)
  | read => exact hg

def StillOpen (s : Server) (id : Uuid) : Prop :=
  s.db.taskResult id = none ∧ ∀ e, s.taskCache id = some e → Unfinished e

/-- The task may have got a result, but then it is cached as the ended task it is. -/
def NotFinished (s : Server) (id : Uuid) : Prop :=
  (s.taskCache id = none → s.db.taskResult id = none) ∧ ∀ e, s.taskCache id = some e → Unfinished e

omit [External] in
theorem loaded_unfinished (hi : Invariant s) (h : NotFinished s id) (hl : Loaded env s id e) :
    Unfinished e := by
  cases hl with
  | hit hc => exact h.2 e hc
  | hydrated miss _ hh =>
    obtain ⟨row, hrow⟩ := hydrate_row hh
    have ho := hydrate_outcome hi.tables hrow
    rw [hh] at ho
    intro f hf
    subst hf
    cases ho with
    | finished hres => simp [h.1 miss] at hres

theorem move_notFinished (hi : Invariant s) (h : NotFinished s id) (m : Move env op s r s')
    (hop : ∀ d messages attempt, op ≠ .updateTask id d messages attempt)
    (hrestart : op ≠ .restartServer) : NotFinished s' id := by
  cases m with
  | refused => exact h
  | aside ha =>
    unfold NotFinished
    rw [ha.taskCache, ha.db]
    exact h
  | addDevice w =>
    refine ⟨fun hc => ?_, h.2⟩
    rw [(sameTask_addDevice w.write id).result]
    exact h.1 hc
  | @addTask v db admitted w =>
    by_cases hid : id = v.taskInfo.id
    · subst hid
      constructor
      · intro hc
        rw [cached_self] at hc
        cases hc
      · intro e he f hf
        rw [cached_self] at he
        subst hf
        cases he
    · unfold NotFinished
      rw [cached_of_ne hid]
      refine ⟨fun hc => ?_, h.2⟩
      change db.taskResult id = none
      rw [((admitted_sound hi admitted w.write).others id hid).result]
      exact h.1 hc
  | restart hr => exact absurd hr hrestart
  | @task j e _ g loaded body =>
    have hs := task_sound hi loaded body
    by_cases hid : id = j
    · subst hid
      constructor
      · intro hc
        rw [cached_self] at hc
        cases hc
      · intro e' he'
        rw [cached_self] at he'
        cases he'
        exact body_unfinished body hop (loaded_unfinished hi h loaded)
    · unfold NotFinished
      rw [cached_of_ne hid, hs.taskCache, cached_of_ne hid]
      refine ⟨fun hc => ?_, h.2⟩
      change g.server.db.taskResult id = none
      rw [(hs.others id hid).result]
      exact h.1 hc

/-- A task is finished by an update of it, without a stop of the process. -/
theorem finished_by_update {f : FinishedTask} (hi : Invariant s) (h : StillOpen s id)
    (hf : (next env op s).taskCache id = some (.finished f)) :
    ∃ d messages attempt, op = .updateTask id d messages attempt ∧
      next env op s = (outcome (exec env op) s).2 := by
  have hup : result env op s ≠ .error .crash := by
    intro hcrash
    rw [next_eq, if_pos hcrash] at hf
    cases hf
  rw [next_eq, if_neg hup] at hf ⊢
  by_cases hop : ∃ d messages attempt, op = .updateTask id d messages attempt
  · obtain ⟨d, messages, attempt, rfl⟩ := hop
    exact ⟨d, messages, attempt, rfl, rfl⟩
  · push Not at hop
    have hrestart : op ≠ .restartServer := by
      rintro rfl
      cases hf
    have hkeep : Invariant (outcome (exec env op) s).2 ∧
      NotFinished (outcome (exec env op) s).2 id := by
      refine (exec_runs env op s hi).keeps (P := fun t => Invariant t ∧ NotFinished t id) ?_
        ⟨hi, fun _ => h.1, h.2⟩
      rintro a _ b ⟨ha, hna⟩ m
      exact ⟨(move_invariant ha m).1, move_notFinished ha hna m hop hrestart⟩
    exact absurd rfl (hkeep.2.2 _ hf f)

omit [External] in
theorem record_finished {t : RunningTask} {u : Except Stop RoundUpdate} {db db' : Database}
    {f : FinishedTask} (h : RecordOutcome env id t db u r db' (.finished f)) :
    ∃ round, u = .ok (.finished round f) := by
  cases h with
  | nextRound stored => cases stored
  | failed stored => cases stored
  | finished finish =>
    cases finish with
    | group _ _ _ stored | threshold _ _ stored =>
      cases stored
      exact ⟨_, rfl⟩

/-- The state between the last message and the end of the task: the buffers are full, and the
result is made of what they agree on. -/
structure Completed (t t' : RunningTask) (d : Bytes) (messages : List ClientMessage)
    (f : FinishedTask) (final : Bytes) : Prop where
  waiting : t.waitingFor d
  is_ready : ready t
  receive : ∃ taken, t.session.communicator.receiveMessages d messages =
    .ok (taken, t'.session.communicator)
  kept : Kept t t'
  protocol : t'.session.protocol = t.session.protocol
  received : t'.session.communicator.roundReceived
  last : t.session.protocol.round = t.session.protocol.lastRound
  agreed : t'.session.communicator.getFinalMessage = .ok (some final)
  taskInfo : f.taskInfo = t.taskInfo
  result_of : ResultOf t' final f.result

theorem update_finished {t t' : RunningTask} {d : Bytes} {messages : List ClientMessage}
    {round : ℕ} {f : FinishedTask} (h : UpdateOutcome d messages t (.ok (.finished round f)) t') :
    ∃ t₁ final, Completed t t₁ d messages f final := by
  cases h with
  | @received t₁ _ taken c _ waiting is_ready receive kept session ends =>
    cases ends with
    | start _ _ start => cases start
    | final complete last final =>
      cases final with
      | finished _ _ agreed result_of =>
        refine ⟨t₁, _, waiting, is_ready, ⟨taken, ?_⟩, kept, ?_, ?_, ?_, agreed, kept.taskInfo,
          result_of⟩
        · rw [session]
          exact receive
        · rw [session]
        · unfold Session.roundComplete at complete
          rw [Bool.and_eq_true] at complete
          exact complete.1
        · rw [session] at last
          exact last

theorem Completed.agreement {pdf : Prop} {t t' : RunningTask} {d : Bytes}
    {messages : List ClientMessage} {f : FinishedTask} {final : Bytes} {entries : List Taken}
    {process : ℕ} (h : Completed t t' d messages f final) (hlog : RunningLogged pdf entries t)
    (hpdf : isPdf t' → pdf) {share : ℕ} {device : Device}
    (hshare : t.session.communicator.activeShares.lookup share = some device) :
    ∃ msg broadcast, (((callsAt (entries ++ takenFrom process id d messages t) t.taskInfo.attempts
        t.session.protocol.lastRound).flatMap Call.messages).filter
          (·.1 = share + t.session.communicator.protocolType.indexOffset)).map Prod.snd = [msg] ∧
      msg.broadcast = some broadcast ∧
      External.verifyBroadcast broadcast device.certificate = some final := by
  obtain ⟨taken, receive⟩ := h.receive
  obtain ⟨hs, hp, -⟩ := receiveMessages_ok receive
  have hsession : t'.session = ⟨t'.session.communicator, t.session.protocol⟩ := by
    rw [← h.protocol]
  have hlogged : RunningLogged pdf (entries ++ takenFrom process id d messages t) t' :=
    receive_logged hlog h.waiting h.is_ready receive h.kept hsession
  have hbuffered := hlogged.buffered hpdf (by rw [h.protocol]; exact h.last.le)
  rw [h.kept.taskInfo, h.protocol, h.last] at hbuffered
  have hindex : share + t.session.communicator.protocolType.indexOffset ∈
      t'.session.communicator.getProtocolIndices := by
    rw [mem_getProtocolIndices, hs, hp]
    exact ⟨share, device, hshare, rfl⟩
  obtain ⟨msg, hmsg⟩ := hbuffered.complete h.received hindex
  obtain ⟨share', device', broadcast, hshare', hdevice', hbroadcast, hverify⟩ :=
    getFinalMessage_ok hbuffered h.agreed hmsg
  rw [hp, Nat.add_right_cancel_iff] at hshare'
  subst hshare'
  rw [hs, hshare] at hdevice'
  cases hdevice'
  exact ⟨msg, broadcast, hbuffered.once hmsg, hbroadcast, hverify⟩

omit [External] in
theorem resultOf_bytes {t : RunningTask} {final : Bytes} {result : TaskResult}
    (h : ResultOf t final result) (hpdf : ∀ data, result ≠ .signedPdf data) :
    isPdf t = false ∧ result.asBytes = final := by
  cases t with
  | group task =>
    obtain ⟨certificate, -, rfl⟩ := h
    exact ⟨rfl, rfl⟩
  | sign task =>
    have hr : result = .signed final := h
    subst hr
    exact ⟨rfl, rfl⟩
  | signPdf task =>
    obtain ⟨signed, hr⟩ := h
    exact absurd hr (hpdf signed)
  | decrypt task =>
    have hr : result = .decrypted final := h
    subst hr
    exact ⟨rfl, rfl⟩

/-- A group, challenge or decryption task becomes finished by an update in the last round of its
current attempt. In this round every active share has sent this server process one message, and
each message carries a broadcast that verifies to the result under the certificate of its
sender. -/
theorem finished_by_agreement {h : History} {f : FinishedTask} (hh : Recorded h)
    (hopen : StillOpen h.server id)
    (hfinished : (h.next env op).server.taskCache id = some (.finished f))
    (hpdf : ∀ data, f.result ≠ .signedPdf data) :
    ∃ t d messages, lockedTask env h.server id = .ok (.running t) ∧
      op = .updateTask id d messages t.taskInfo.attempts ∧ f.taskInfo = t.taskInfo ∧
      t.session.protocol.round = t.session.protocol.lastRound ∧
      ∀ share device, t.session.communicator.activeShares.lookup share = some device →
        ∃ msg broadcast, submissions (ofProcess (h.next env op).log h.process) id
            t.taskInfo.attempts t.session.protocol.lastRound
            (share + t.session.communicator.protocolType.indexOffset) = [msg] ∧
          msg.broadcast = some broadcast ∧
          External.verifyBroadcast broadcast device.certificate = some f.result.asBytes := by
  have hlogged := recorded_logged hh
  obtain ⟨d, messages, attempt, rfl, hnext⟩ := finished_by_update hlogged.invariant hopen hfinished
  change (next env _ h.server).taskCache id = _ at hfinished
  rw [hnext] at hfinished
  have ho : TaskOutcome env id (UpdateEntryOutcome env id d messages attempt) h.server
      (result env (.updateTask id d messages attempt) h.server)
      (outcome (exec env (.updateTask id d messages attempt)) h.server).2 :=
    updateTask_outcome env id d messages attempt h.server
  generalize result env (.updateTask id d messages attempt) h.server = r' at ho
  generalize (outcome (exec env (.updateTask id d messages attempt)) h.server).2 = s'
    at ho hfinished
  cases ho with
  | notLoaded hn => exact absurd rfl (hopen.2 _ hfinished f)
  | @loaded e _ g hl body =>
    have hcache := hlogged.cache
    have hunfinished := loaded_unfinished hlogged.invariant ⟨fun _ => hopen.1, hopen.2⟩ hl
    rw [cached_self] at hfinished
    cases body with
    | notRunning => exact absurd (Option.some.inj hfinished) (hunfinished f)
    | stale => exact absurd (Option.some.inj hfinished) (hunfinished f)
    | @updated t t' u _ _ e' _ ht hcurrent update record =>
      have he : e = .running t := ht
      subst he hcurrent
      have he' : e' = .finished f := Option.some.inj hfinished
      subst he'
      obtain ⟨round, rfl⟩ := record_finished record
      obtain ⟨t₁, final, hcompleted⟩ := update_finished update
      obtain ⟨hnot, hbytes⟩ := resultOf_bytes hcompleted.result_of hpdf
      refine ⟨t, d, messages, lockedTask_ok.mpr hl, rfl, hcompleted.taskInfo, hcompleted.last,
        fun share device hshare => ?_⟩
      have hlog : (h.next env (.updateTask id d messages t.taskInfo.attempts)).log =
          h.log ++ takenFrom h.process id d messages t := by
        rw [← takenBy_loaded hl rfl]
        rfl
      rw [submissions_ofProcess, hlog, entriesOf_append_self fun x hx =>
        ⟨(mem_takenFrom hx).1, (mem_takenFrom hx).2.1⟩, hbytes]
      refine hcompleted.agreement (loaded_logged hlogged.invariant hcache hl) ?_ hshare
      intro hp
      rw [hnot] at hp
      cases hp

def foundRunning : Except Stop TaskEntry → Option RunningTask
  | .ok (.running t) => some t
  | _ => none

def foundFinished : Option TaskEntry → Option FinishedTask
  | some (.finished f) => some f
  | _ => none

def establishes : TaskResult → Bool
  | .groupEstablished _ => true
  | _ => false

omit [External] in
theorem foundRunning_some {x : Except Stop TaskEntry} {t : RunningTask}
    (h : foundRunning x = some t) : x = .ok (.running t) := by
  unfold foundRunning at h
  split at h
  · cases h
    rfl
  · cases h

omit [External] in
theorem foundFinished_some {x : Option TaskEntry} {f : FinishedTask}
    (h : foundFinished x = some f) : x = some (.finished f) := by
  unfold foundFinished at h
  split at h
  · cases h
    rfl
  · cases h

omit [External] in
theorem stillOpen_of_none {s : Server} {id : Uuid} (hr : s.db.taskResult id = none)
    (hc : foundFinished (s.taskCache id) = none) : StillOpen s id := by
  refine ⟨hr, ?_⟩
  rintro e he f rfl
  rw [he] at hc
  cases hc

omit [External] in
theorem establishes_not_pdf {result : TaskResult} (h : establishes result) (data : Bytes) :
    result ≠ .signedPdf data := by
  rintro rfl
  cases h

def beforeLast : History :=
  @History.run plainExternal ⟨initial, 0, []⟩
    (servedOps 0 0 (groupRequested ++ groupEstablished.dropLast))

omit [External] in
/-- Bob's last message finishes the task of a group. -/
theorem finished_by_agreement_group : ∃ f t d messages,
    (@History.next plainExternal (servingEnv 0 0) (.updateTask 0 bob.id (answer [7]) 0)
      beforeLast).server.taskCache 0 = some (.finished f) ∧ f.result.asBytes = [7] ∧
    lockedTask (servingEnv 0 0) beforeLast.server 0 = .ok (.running t) ∧
    Op.updateTask 0 bob.id (answer [7]) 0 = .updateTask 0 d messages t.taskInfo.attempts := by
  have hfound : (foundFinished ((@History.next plainExternal (servingEnv 0 0)
      (.updateTask 0 bob.id (answer [7]) 0) beforeLast).server.taskCache 0)).map
        (fun f => (f.result.asBytes, establishes f.result)) = some ([7], true) := by
    decide +kernel
  obtain ⟨f, hf, hpair⟩ := Option.map_eq_some_iff.mp hfound
  obtain ⟨hbytes, hestablishes⟩ := Prod.mk.injEq .. ▸ hpair
  have hopen : StillOpen beforeLast.server 0 :=
    stillOpen_of_none (by decide +kernel) (by decide +kernel)
  have hrecorded : @Recorded plainExternal beforeLast :=
    @Recorded.run plainExternal _ (@Recorded.initial plainExternal) _
  obtain ⟨t, d, messages, hlocked, hop, -⟩ := @finished_by_agreement plainExternal _ _ _ _ _
    hrecorded hopen (foundFinished_some hf) (establishes_not_pdf hestablishes)
  exact ⟨f, t, d, messages, foundFinished_some hf, hbytes, hlocked, hop⟩

/-- Alice's message of the last round is lost with the server process, and Alice sends another
one. -/
def sentTwice : History :=
  @History.run plainExternal ⟨initial, 0, []⟩
    (servedOps 0 0 (groupRequested ++ groupEstablished.dropLast.dropLast ++
      [.updateTask 0 alice.id (answer [9]) 0, .restartServer,
        .updateTask 0 alice.id (answer [7]) 0]))

omit [External] in
/-- Over all processes, a share of a finished task may have sent two messages in the last round of
the last attempt, and the first of them does not verify to the result. -/
theorem share_sends_twice : ∃ h env op f t, @Recorded plainExternal h ∧ StillOpen h.server 0 ∧
    (@History.next plainExternal env op h).server.taskCache 0 = some (.finished f) ∧
    f.result.asBytes = [7] ∧ lockedTask env h.server 0 = .ok (.running t) ∧
    t.session.communicator.activeShares.lookup 0 = some alice ∧
    (submissions (@History.next plainExternal env op h).log 0 t.taskInfo.attempts
      (@Protocol.lastRound plainExternal t.session.protocol)
      (0 + t.session.communicator.protocolType.indexOffset)).map ClientMessage.broadcast =
        [some [9], some [7]] := by
  have hfound : (foundFinished ((@History.next plainExternal (servingEnv 0 0)
      (.updateTask 0 bob.id (answer [7]) 0) sentTwice).server.taskCache 0)).map
        (fun f => f.result.asBytes) = some [7] := by decide +kernel
  obtain ⟨f, hf, hbytes⟩ := Option.map_eq_some_iff.mp hfound
  have hrunning : (foundRunning (lockedTask (servingEnv 0 0) sentTwice.server 0)).map
      (fun t => (t.session.communicator.activeShares.lookup 0, (submissions (@History.next
        plainExternal (servingEnv 0 0) (.updateTask 0 bob.id (answer [7]) 0) sentTwice).log 0
          t.taskInfo.attempts (@Protocol.lastRound plainExternal t.session.protocol)
          (0 + t.session.communicator.protocolType.indexOffset)).map ClientMessage.broadcast)) =
            some (some alice, [some [9], some [7]]) := by decide +kernel
  obtain ⟨t, ht, hpair⟩ := Option.map_eq_some_iff.mp hrunning
  obtain ⟨hshare, hsent⟩ := Prod.mk.injEq .. ▸ hpair
  have hopen : StillOpen sentTwice.server 0 :=
    stillOpen_of_none (by decide +kernel) (by decide +kernel)
  have hrecorded : @Recorded plainExternal sentTwice :=
    @Recorded.run plainExternal _ (@Recorded.initial plainExternal) _
  exact ⟨sentTwice, servingEnv 0 0, _, f, t, hrecorded, hopen, foundFinished_some hf, hbytes,
    foundRunning_some ht, hshare, hsent⟩

end Finishing

end ResultAgreement
