import MeesignServer.SyncRuns

/-!
# Phases only move forward

While a server process runs, a cached task goes from voting to running to an end,
and its attempts and rounds are only counted up. A task that has ended stays as it
is, and no operation stores a result for it again.
-/
namespace PhaseOrder

open FallibleProgram FiniteMap DataModel CommunicatorModel ProtocolModel VotingModel
open RunningTaskModel DatabaseModel HydrationModel ServerModel TaskOutcomes ServerOutcomes
open TableFrames ServerInvariant HydrationOutcomes InvariantSteps TaskAdmission ServerMoves
open TableSync

/-- How a cached task may change in one operation. -/
inductive PhaseStep (op : Op) (id : Uuid) : TaskEntry → TaskEntry → Prop where
  | same (e : TaskEntry) : PhaseStep op id e e
  | voted {v v' : VotingTask} (info : v'.taskInfo = v.taskInfo) :
      PhaseStep op id (.voting v) (.voting v')
  | approved {v : VotingTask} {t : RunningTask} : PhaseStep op id (.voting v) (.running t)
  | declined {v : VotingTask} {t : DeclinedTask} : PhaseStep op id (.voting v) (.declined t)
  | notStarted {v : VotingTask} {f : FailedTask} : PhaseStep op id (.voting v) (.failed f)
  | updated {t t' : RunningTask} {d : Bytes} {messages : List ClientMessage} {attempt : ℕ}
      (update : op = .updateTask id d messages attempt)
      (attempts : t'.taskInfo.attempts = t.taskInfo.attempts)
      (round : t'.getRound = t.getRound ∨ t'.getRound = t.getRound + 1) :
      PhaseStep op id (.running t) (.running t')
  | restarted {t t' : RunningTask} (sweep : op = .restartStaleTasks)
      (attempts : t'.taskInfo.attempts = t.taskInfo.attempts + 1) :
      PhaseStep op id (.running t) (.running t')
  | finished {t : RunningTask} {f : FinishedTask} : PhaseStep op id (.running t) (.finished f)
  | failed {t : RunningTask} {f : FailedTask} : PhaseStep op id (.running t) (.failed f)
  | acknowledged {f f' : FinishedTask} (info : f'.taskInfo = f.taskInfo)
      (result : f'.result = f.result) : PhaseStep op id (.finished f) (.finished f')

theorem getRound_kept {t t' : RunningTask} (hk : Kept t t') (hr : ready t) {n : ℕ}
    (h : t'.session.protocol.round = t.session.protocol.round + n) :
    t'.getRound = t.getRound + n := by
  rw [getRound_eq, getRound_eq, hk.context, hk.ready, hr, h]
  cases contextOf t with
  | group => simp only [↓reduceIte]; omega
  | signChallenge | signPdf | decrypt => rfl

section Methods

variable [External] {t t' : RunningTask} {u : Except Stop RoundUpdate}

theorem round_counts (h : RoundOutcome t u t') :
    (∃ n ≤ 1, t'.session.protocol.round = t.session.protocol.round + n) ∧
      ∀ round, u = .ok (.nextRound round) →
        t'.session.protocol.round = t.session.protocol.round + 1 := by
  cases h with
  | listen => exact ⟨⟨0, by omega, rfl⟩, nofun⟩
  | start _ hround start =>
    cases start with
    | started data _ session =>
      have h1 : t'.session.protocol.round = t.session.protocol.round + 1 := by
        rw [session, hround]
        rfl
      exact ⟨⟨1, le_rfl, h1⟩, fun _ _ => h1⟩
    | failed => exact ⟨⟨0, by omega, rfl⟩, nofun⟩
    | broke => exact ⟨⟨0, by omega, rfl⟩, nofun⟩
  | advance _ _ _ _ session =>
    have h1 : t'.session.protocol.round = t.session.protocol.round + 1 := by
      rw [session]
      rfl
    exact ⟨⟨1, le_rfl, h1⟩, fun _ _ => h1⟩
  | final _ _ final =>
    cases final with
    | finished _ session => exact ⟨⟨1, le_rfl, by rw [session]; rfl⟩, nofun⟩
    | failed _ _ session => exact ⟨⟨1, le_rfl, by rw [session]; rfl⟩, nofun⟩
    | broke _ _ session =>
      rcases session with session | session <;>
        exact ⟨⟨1, le_rfl, by rw [session]; rfl⟩, nofun⟩

theorem update_counts {d : Bytes} {messages : List ClientMessage}
    (h : UpdateOutcome d messages t u t') : t'.taskInfo.attempts = t.taskInfo.attempts ∧
      (t'.getRound = t.getRound ∨ t'.getRound = t.getRound + 1) ∧
      ∀ round, u = .ok (.nextRound round) → t'.getRound = t.getRound + 1 := by
  cases h with
  | notWaiting => exact ⟨rfl, .inl rfl, nofun⟩
  | broke => exact ⟨rfl, .inl rfl, nofun⟩
  | @received t₁ _ _ _ _ _ is_ready receive kept session round =>
    obtain ⟨hk, -⟩ := round_steady round
    obtain ⟨⟨n, hn, hround⟩, hnext⟩ := round_counts round
    have hall := kept.trans hk
    have hsame : t₁.session.protocol.round = t.session.protocol.round := by rw [session]
    rw [hsame] at hround hnext
    refine ⟨by rw [hall.taskInfo], ?_, fun r hr => getRound_kept hall is_ready (hnext r hr)⟩
    have hget := getRound_kept hall is_ready hround
    omega

theorem restart_counts (h : RestartOutcome t u t') :
    (t' = t ∧ ∃ stop, u = .error stop) ∨ t'.taskInfo.attempts = t.taskInfo.attempts + 1 := by
  cases h with
  | broke => exact .inl ⟨rfl, _, rfl⟩
  | again _ _ taskInfo _ start =>
    refine .inr ?_
    rw [(start_steady start).1.taskInfo, taskInfo]
    rfl

end Methods

section Bodies

variable {env : Env} {op : Op} {id : Uuid} {db db' : Database} {r : Except Stop Unit}
  {e : TaskEntry} {g g' : Guarded}

theorem record_phase {t : RunningTask} {u : Except Stop RoundUpdate}
    (h : RecordOutcome env id t db u r db' e) :
    e = .running t ∨ (∃ f, e = .finished f) ∨ ∃ f, e = .failed f := by
  cases h with
  | stopped => exact .inl rfl
  | listen => exact .inl rfl
  | nextRound stored => cases stored <;> exact .inl rfl
  | failed stored =>
    cases stored with
    | served => exact .inr (.inr ⟨_, rfl⟩)
    | fails => exact .inl rfl
  | finished finish =>
    cases finish with
    | roundNotStored => exact .inl rfl
    | groupNotStored => exact .inl rfl
    | group _ _ _ stored | threshold _ _ stored =>
      cases stored with
      | served => exact .inr (.inl ⟨_, rfl⟩)
      | fails => exact .inl rfl

variable [External]

theorem build_phase {v : VotingTask} {chosen : List Device} {e' : TaskEntry}
    (h : BuildOutcome env id v chosen db e r db' e') :
    e' = e ∨ (∃ t, e' = .running t) ∨ ∃ f, e' = .failed f := by
  cases h with
  | notConstructed => exact .inl rfl
  | notInitialized => exact .inl rfl
  | certificates _ _ stored | nextRound _ _ stored =>
    cases stored with
    | served => exact .inr (.inl ⟨_, rfl⟩)
    | fails => exact .inl rfl
  | failed _ _ stored =>
    cases stored with
    | served => exact .inr (.inr ⟨_, rfl⟩)
    | fails => exact .inl rfl

theorem decide_phase {d : Bytes} {accept : Bool} (h : DecideOutcome env id d accept g r g') :
    PhaseStep op id g.entry g'.entry := by
  cases h with
  | notVoting => exact .same _
  | notParticipant => exact .same _
  | notStored hv =>
    rw [hv]
    exact .voted rfl
  | undecided hv =>
    rw [hv]
    exact .voted rfl
  | declined hv _ _ _ stored =>
    rw [hv]
    cases stored with
    | served => exact .declined
    | fails => exact .voted rfl
  | accepted hv _ _ _ start =>
    rw [hv]
    cases start with
    | notStored => exact .voted rfl
    | built _ build =>
      rcases build_phase build with h | ⟨t, h⟩ | ⟨f, h⟩ <;> rw [h]
      · exact .voted rfl
      · exact .approved
      · exact .notStarted

theorem update_phase {d : Bytes} {messages : List ClientMessage} {attempt : ℕ}
    (h : UpdateEntryOutcome env id d messages attempt g r g') :
    PhaseStep (.updateTask id d messages attempt) id g.entry g'.entry := by
  cases h with
  | notRunning => exact .same _
  | stale => exact .same _
  | updated ht _ update record =>
    rw [ht]
    obtain ⟨hat, hround, -⟩ := update_counts update
    rcases record_phase record with h | ⟨f, h⟩ | ⟨f, h⟩ <;> rw [h]
    · exact .updated rfl hat hround
    · exact .finished
    · exact .failed

theorem restart_phase (h : RestartEntryOutcome env id g r g') :
    PhaseStep .restartStaleTasks id g.entry g'.entry := by
  cases h with
  | notRunning => exact .same _
  | notStored => exact .same _
  | restarted ht _ restart record =>
    rw [ht]
    rcases record_phase record with h | ⟨f, h⟩ | ⟨f, h⟩ <;> rw [h]
    · rcases restart_counts restart with ⟨rfl, -⟩ | hat
      · exact .same _
      · exact .restarted rfl hat
    · exact .finished
    · exact .failed

theorem body_phase (h : BodyOutcome env op id g r g') : PhaseStep op id g.entry g'.entry := by
  cases h with
  | decide h => exact decide_phase h
  | update h => exact update_phase h
  | restart _ h => exact restart_phase h
  | acknowledge h =>
    cases h with
    | notFinished => exact .same _
    | acknowledged hf hack stored =>
      rw [hf]
      subst hack
      cases stored <;> exact .acknowledged rfl rfl
  | read => exact .same _

end Bodies

section Steps

variable [External] {env : Env} {op : Op} {s t : Server} {r : Except Stop Unit} {id : Uuid}
  {e : TaskEntry}

/-- The process neither restarts nor stops during the operation. -/
def StaysUp (env : Env) (op : Op) (s : Server) : Prop :=
  op ≠ .restartServer ∧ result env op s ≠ .error .crash

def SameProcess (s t : Server) : Prop :=
  Relation.ReflTransGen (fun s t => ∃ env op, StaysUp env op s ∧ t = next env op s) s t

theorem move_phase (h : Invariant s) (m : Move env op s r t) (hop : op ≠ .restartServer)
    (hc : s.taskCache id = some e) : ∃ e', t.taskCache id = some e' ∧ PhaseStep op id e e' := by
  cases m with
  | refused => exact ⟨e, hc, .same e⟩
  | aside ha => exact ⟨e, ha.taskCache ▸ hc, .same e⟩
  | addDevice => exact ⟨e, hc, .same e⟩
  | @addTask v db admitted w =>
    -- a cached task has a row, so the id of a new task is another one
    obtain ⟨row, hrow, -⟩ := h.cache id e hc
    obtain ⟨hnew, -⟩ := insertTask_ok (createRows_ok w.write).2.2
    have hne : id ≠ v.taskInfo.id := fun he => hnew (he ▸ mem_of_row hrow)
    exact ⟨e, (cached_of_ne hne).trans hc, .same e⟩
  | restart hr => exact absurd hr hop
  | @task j e₀ _ g loaded body =>
    have hcache := (task_sound h loaded body).taskCache
    by_cases hj : id = j
    · subst hj
      refine ⟨g.entry, cached_self .., ?_⟩
      have he : e = e₀ := loaded_unique (.hit hc loaded.served) loaded
      exact he ▸ body_phase body
    · refine ⟨e, ?_, .same e⟩
      rw [cached_of_ne hj, hcache, cached_of_ne hj, hc]

theorem restart_taskCache {g g' : Guarded} (h : RestartEntryOutcome env id g r g') :
    g'.server.taskCache = g.server.taskCache := by
  cases h with
  | notRunning => rfl
  | notStored => rfl
  | restarted _ _ _ _ rest => exact rest.taskCache

theorem restartTask_phase {j : Uuid}
    (h : TaskOutcome env j (RestartEntryOutcome env j) s r t) (hc : s.taskCache id = some e) :
    ∃ e', t.taskCache id = some e' ∧ PhaseStep .restartStaleTasks id e e' ∧
      (id ≠ j → e' = e) := by
  cases h with
  | notLoaded => exact ⟨e, hc, .same e, fun _ => rfl⟩
  | @loaded e₀ _ g loaded body =>
    by_cases hj : id = j
    · subst hj
      have he : e = e₀ := loaded_unique (.hit hc loaded.served) loaded
      exact ⟨g.entry, cached_self .., he ▸ restart_phase body, fun hne => absurd rfl hne⟩
    · refine ⟨e, ?_, .same e, fun _ => rfl⟩
      rw [cached_of_ne hj, restart_taskCache body, cached_of_ne hj, hc]

theorem sweep_phase {l : List Uuid} (h : Sweep env l s r t) (hn : l.Nodup)
    (hc : s.taskCache id = some e) : ∃ e', t.taskCache id = some e' ∧
      PhaseStep .restartStaleTasks id e e' ∧ (id ∉ l → e' = e) := by
  induction h generalizing e with
  | done => exact ⟨e, hc, .same e, fun _ => rfl⟩
  | @stopped j l s t stop ho =>
    obtain ⟨e', ht, hstep, hother⟩ := restartTask_phase ho hc
    exact ⟨e', ht, hstep, fun hj => hother fun he => hj (by simp [he])⟩
  | @next j l s s' t r ho _ ih =>
    rw [List.nodup_cons] at hn
    obtain ⟨e₁, h₁, hstep₁, hother₁⟩ := restartTask_phase ho hc
    obtain ⟨e₂, h₂, hstep₂, hother₂⟩ := ih hn.2 h₁
    by_cases hj : id = j
    · rw [hother₂ (hj ▸ hn.1)] at h₂
      exact ⟨e₁, h₂, hstep₁, fun hl => absurd (by simp [hj]) hl⟩
    · rw [hother₁ hj] at hstep₂ hother₂
      exact ⟨e₂, h₂, hstep₂, fun hl => hother₂ fun hm => hl (by simp [hm])⟩

theorem next_phase (h : Invariant s) (hup : StaysUp env op s) (hc : s.taskCache id = some e) :
    ∃ e', (next env op s).taskCache id = some e' ∧ PhaseStep op id e e' := by
  have hnext : next env op s = (outcome (exec env op) s).2 := by
    rw [next_eq, if_neg hup.2]
  rw [hnext]
  by_cases hop : op = .restartStaleTasks
  · subst hop
    have hsweep := restartStaleTasks_sweep env s
    rcases hsweep with ⟨-, ht⟩ | ⟨s', stale, ha, hsub, hw⟩
    · exact ⟨e, by rwa [exec, ht], .same e⟩
    · obtain ⟨e', ht, hstep, -⟩ := sweep_phase hw (hsub.nodup (candidates_nodup _))
        (ha.taskCache ▸ hc)
      exact ⟨e', ht, hstep⟩
  · exact move_phase h (exec_move env hop s) hup.1 hc

end Steps

def Ahead : TaskEntry → TaskEntry → Prop
  | .voting _, _ => True
  | .running t, .running t' =>
    toLex (t.taskInfo.attempts, t.getRound) ≤ toLex (t'.taskInfo.attempts, t'.getRound)
  | .running _, .finished _ => True
  | .running _, .failed _ => True
  | .declined t, e => e = .declined t
  | .failed t, e => e = .failed t
  | .finished f, .finished f' => f'.taskInfo = f.taskInfo ∧ f'.result = f.result
  | _, _ => False

theorem Ahead.refl (e : TaskEntry) : Ahead e e := by
  cases e with
  | voting => trivial
  | running => exact le_refl _
  | declined => rfl
  | failed => rfl
  | finished => exact ⟨rfl, rfl⟩

theorem PhaseStep.ahead {op : Op} {id : Uuid} {e e' : TaskEntry} (h : PhaseStep op id e e') :
    Ahead e e' := by
  cases h with
  | same => exact .refl _
  | voted | approved | declined | notStarted | finished | failed => trivial
  | updated _ attempts round =>
    refine Prod.Lex.toLex_le_toLex.mpr (.inr ⟨attempts.symm, ?_⟩)
    simp only
    omega
  | restarted _ attempts =>
    refine Prod.Lex.toLex_le_toLex.mpr (.inl ?_)
    simp only
    omega
  | acknowledged info result => exact ⟨info, result⟩

theorem Ahead.step {op : Op} {id : Uuid} {e e' e'' : TaskEntry} (h : Ahead e e')
    (hs : PhaseStep op id e' e'') : Ahead e e'' := by
  have hs := hs.ahead
  cases e with
  | voting => trivial
  | running t =>
    cases e' with
    | running t' =>
      cases e'' with
      | running t'' => exact le_trans h hs
      | finished | failed => trivial
      | voting | declined => exact hs.elim
    | finished f =>
      cases e'' with
      | finished => trivial
      | voting | running | declined | failed => exact hs.elim
    | failed f =>
      cases hs
      trivial
    | voting | declined => exact h.elim
  | declined t =>
    cases h
    exact hs
  | failed t =>
    cases h
    exact hs
  | finished f =>
    cases e' with
    | finished f' =>
      cases e'' with
      | finished f'' => exact ⟨hs.1.trans h.1, hs.2.trans h.2⟩
      | voting | running | declined | failed => exact hs.elim
    | voting | running | declined | failed => exact h.elim

def ended : TaskEntry → Bool
  | .voting _ => false
  | .running _ => false
  | .declined _ => true
  | .finished _ => true
  | .failed _ => true

section Results

variable {env : Env} {op : Op} {id : Uuid} {db db' : Database} {r : Except Stop Unit}
  {e e' : TaskEntry} {g g' : Guarded} {s t : Server}

theorem resultWrite_row {result : Except String Bytes} (h : resultWrite id result db = .ok db') :
    db'.taskResult id = some (NewTaskResult.ofResult result) := by
  obtain ⟨-, rfl⟩ := setTaskResult_ok h
  exact Function.update_self ..

theorem resultWrite_result {result : Except String Bytes} (h : resultWrite id result db = .ok db') :
    (db'.taskResult id).isSome := by
  rw [resultWrite_row h]
  rfl

/-- Either nothing is stored as the result and the task goes on, or it ends with a result. -/
def ResultKept (id : Uuid) (db : Database) (e : TaskEntry) (db' : Database) (e' : TaskEntry) :
    Prop :=
  (db'.taskResult id = db.taskResult id ∧ ended e' = ended e) ∨
    (ended e = false ∧ (db'.taskResult id).isSome ∧ ended e' = true)

theorem record_result {t : RunningTask} {u : Except Stop RoundUpdate}
    (h : RecordOutcome env id t db u r db' e) : ResultKept id db (.running t) db' e := by
  have hend : ∀ {db₀ : Database} {f : TaskEntry} {result : Except String Bytes},
      db₀.taskResult = db.taskResult → ended f →
      Stored env .setTaskResult id (resultWrite id result) db₀ (.running t) f r db' e →
      ResultKept id db (.running t) db' e := by
    intro db₀ f result h₀ hf stored
    cases stored with
    | served w => exact .inr ⟨rfl, resultWrite_result w.write, hf⟩
    | fails => exact .inl ⟨by rw [h₀], rfl⟩
  cases h with
  | stopped => exact .inl ⟨rfl, rfl⟩
  | listen => exact .inl ⟨rfl, rfl⟩
  | nextRound stored =>
    cases stored with
    | served w => exact .inl ⟨by rw [(progressOnly_setTaskRound w.write).result], rfl⟩
    | fails => exact .inl ⟨rfl, rfl⟩
  | failed stored => exact hend rfl rfl stored
  | finished finish =>
    cases finish with
    | roundNotStored => exact .inl ⟨rfl, rfl⟩
    | groupNotStored w => exact .inl ⟨by rw [(progressOnly_setTaskRound w.write).result], rfl⟩
    | group w _ w' stored =>
      exact hend ((progressOnly_addGroup w'.write).result.trans
        (progressOnly_setTaskRound w.write).result) rfl stored
    | threshold w _ stored => exact hend (progressOnly_setTaskRound w.write).result rfl stored

variable [External]

theorem build_result {v v' : VotingTask} {chosen : List Device}
    (h : BuildOutcome env id v chosen db (.voting v') r db' e) :
    ResultKept id db (.voting v') db' e := by
  cases h with
  | notConstructed => exact .inl ⟨rfl, rfl⟩
  | notInitialized => exact .inl ⟨rfl, rfl⟩
  | certificates _ _ stored =>
    cases stored with
    | served w => exact .inl ⟨by rw [(progressOnly_certificatesSent w.write).result], rfl⟩
    | fails => exact .inl ⟨rfl, rfl⟩
  | nextRound _ _ stored =>
    cases stored with
    | served w => exact .inl ⟨by rw [(progressOnly_setTaskRound w.write).result], rfl⟩
    | fails => exact .inl ⟨rfl, rfl⟩
  | failed _ _ stored =>
    cases stored with
    | served w => exact .inr ⟨rfl, resultWrite_result w.write, rfl⟩
    | fails => exact .inl ⟨rfl, rfl⟩

theorem decide_result {d : Bytes} {accept : Bool} (h : DecideOutcome env id d accept g r g') :
    ResultKept id g.server.db g.entry g'.server.db g'.entry := by
  cases h with
  | notVoting => exact .inl ⟨rfl, rfl⟩
  | notParticipant => exact .inl ⟨rfl, rfl⟩
  | notStored hv =>
    rw [hv]
    exact .inl ⟨rfl, rfl⟩
  | undecided hv =>
    rw [hv]
    exact .inl ⟨rfl, rfl⟩
  | declined hv _ _ _ stored =>
    rw [hv]
    cases stored with
    | served w => exact .inr ⟨rfl, resultWrite_result w.write, rfl⟩
    | fails => exact .inl ⟨rfl, rfl⟩
  | accepted hv _ _ _ start =>
    rw [hv]
    cases start with
    | notStored _ rest =>
      rw [rest.db]
      exact .inl ⟨rfl, rfl⟩
    | built w build rest =>
      rw [rest.db]
      obtain ⟨-, hactive⟩ := setTaskActiveShares_ok w.write
      rcases build_result build with ⟨hr, he⟩ | hend
      · rw [hactive] at hr
        exact .inl ⟨hr, he⟩
      · exact .inr hend

theorem body_result (h : BodyOutcome env op id g r g') :
    ResultKept id g.server.db g.entry g'.server.db g'.entry := by
  cases h with
  | decide h => exact decide_result h
  | update h =>
    cases h with
    | notRunning => exact .inl ⟨rfl, rfl⟩
    | stale => exact .inl ⟨rfl, rfl⟩
    | updated ht _ _ record rest =>
      rw [ht, rest.db]
      have hrec := record_result record
      exact hrec
  | restart _ h =>
    cases h with
    | notRunning => exact .inl ⟨rfl, rfl⟩
    | notStored => exact .inl ⟨rfl, rfl⟩
    | restarted ht w _ record rest =>
      rw [ht, rest.db]
      have hrec := record_result record
      rw [ResultKept, (progressOnly_incrementTaskAttemptCount w.write).result] at hrec
      exact hrec
  | acknowledge h =>
    cases h with
    | notFinished => exact .inl ⟨rfl, rfl⟩
    | acknowledged hf hack stored =>
      rw [hf]
      cases stored with
      | served w =>
        cases w.write
        exact .inl ⟨rfl, rfl⟩
      | fails => exact .inl ⟨rfl, rfl⟩
  | read => exact .inl ⟨rfl, rfl⟩

def ResultsEnded (s : Server) : Prop :=
  ∀ id e, s.taskCache id = some e → ended e = (s.db.taskResult id).isSome

omit [External] in
theorem loaded_ended (h : Invariant s) (hr : ResultsEnded s) (hl : Loaded env s id e) :
    ended e = (s.db.taskResult id).isSome := by
  cases hl with
  | hit hc => exact hr id e hc
  | hydrated _ _ hh =>
    obtain ⟨row, hrow⟩ := hydrate_row hh
    have ho := hydrate_outcome h.tables hrow
    rw [hh] at ho
    cases ho with
    | finished stored | declined stored | failed stored | voting stored | running stored =>
      rw [stored]
      rfl

omit [External] in
theorem resultsEnded_aside (hr : ResultsEnded s) (ha : Aside s t) : ResultsEnded t := by
  intro id e he
  rw [ha.db]
  exact hr id e (ha.taskCache ▸ he)

theorem move_results (h : Invariant s) (hr : ResultsEnded s) (m : Move env op s r t) :
    ResultsEnded t ∧ ∀ id row, s.db.taskResult id = some row → t.db.taskResult id = some row := by
  cases m with
  | refused => exact ⟨hr, fun _ _ h => h⟩
  | aside ha =>
    exact ⟨resultsEnded_aside hr ha, fun id row hres => by rwa [ha.db]⟩
  | addDevice w =>
    obtain ⟨-, rfl⟩ := addDevice_ok w.write
    exact ⟨hr, fun _ _ h => h⟩
  | @addTask v db admitted w =>
    obtain ⟨hnew, -, -, rfl⟩ := insertTask_ok (createRows_ok w.write).2.2
    refine ⟨fun id e he => ?_, fun _ _ h => h⟩
    by_cases hid : id = v.taskInfo.id
    · subst hid
      rw [cached_self] at he
      cases he
      exact ((congrArg Option.isSome (h.tables.constraints.orphan _ hnew).2.1)).symm
    · exact hr id e ((cached_of_ne hid).symm.trans he)
  | restart => exact ⟨fun id e he => by simp [Server.restore] at he, fun _ _ h => h⟩
  | @task j e₀ _ g loaded body =>
    have hs := task_sound h loaded body
    have hloaded := loaded_ended h hr loaded
    have hkept := body_result body
    refine ⟨fun id e he => ?_, fun id row hres => ?_⟩
    · by_cases hj : id = j
      · subst hj
        rw [cached_self] at he
        cases he
        rcases hkept with ⟨hres, hend⟩ | ⟨-, hres, hend⟩
        · exact hend.trans (hloaded.trans (congrArg Option.isSome hres.symm))
        · exact hend.trans hres.symm
      · rw [cached_of_ne hj, hs.taskCache, cached_of_ne hj] at he
        exact (hr id e he).trans (congrArg Option.isSome (hs.others id hj).result.symm)
    · by_cases hj : id = j
      · subst hj
        rcases hkept with ⟨hres', -⟩ | ⟨hopen, -⟩
        · exact hres'.trans hres
        · rw [hopen, hres] at hloaded
          cases hloaded
      · exact (hs.others id hj).result.trans hres

theorem next_results (h : Invariant s) (hr : ResultsEnded s) (env : Env) (op : Op) :
    ResultsEnded (next env op s) ∧ ∀ id row, s.db.taskResult id = some row →
      (next env op s).db.taskResult id = some row := by
  obtain ⟨t, hrun, hn⟩ := next_runs env op s h
  have hkeep : (Invariant t ∧ ResultsEnded t) ∧ ∀ id row, s.db.taskResult id = some row →
      t.db.taskResult id = some row := by
    refine hrun.keeps (P := fun t => (Invariant t ∧ ResultsEnded t) ∧ ∀ id row,
      s.db.taskResult id = some row → t.db.taskResult id = some row) ?_ ⟨⟨h, hr⟩, fun _ _ h => h⟩
    rintro a _ b ⟨⟨ha, hra⟩, hkept⟩ m
    obtain ⟨hrb, hkept'⟩ := move_results ha hra m
    exact ⟨⟨(move_invariant ha m).1, hrb⟩, fun id row hres => hkept' id row (hkept id row hres)⟩
  rw [hn]
  split_ifs
  · exact ⟨fun id e he => by simp [Server.restore] at he, hkeep.2⟩
  · exact ⟨hkeep.1.2, hkeep.2⟩

theorem reachable_results (h : Reachable s) : ResultsEnded s := by
  induction h with
  | initial => exact fun id e he => by simp [initial, Server.restore] at he
  | step env op hs ih => exact (next_results (reachable_invariant hs) ih env op).1

end Results

/-- The same surroundings, but `set_task_result` fails for one task. -/
def failing (env : Env) (id : Uuid) : Env :=
  { env with fault := fun call j =>
      if call = .setTaskResult ∧ j = id then .fails else env.fault call j }

section Once

variable {env : Env} {id j : Uuid}

theorem repoRead_failing {call : RepoCall} (h : call = .setTaskResult → j ≠ id) :
    repoRead (failing env id) call j = repoRead env call j := by
  have hne : ¬(call = .setTaskResult ∧ j = id) := fun hc => h hc.1 hc.2
  simp only [repoRead, failing, if_neg hne]

theorem repoWrite_failing {call : RepoCall} (f : Write) (h : call = .setTaskResult → j ≠ id) :
    repoWrite (failing env id) call j f = repoWrite env call j f := by
  simp only [repoWrite, repoRead_failing h]

theorem withTaskMut_failing {α : Type} (body : EStateM Stop Guarded α) :
    withTaskMut (failing env id) j body = withTaskMut env j body := by
  have hread : repoRead (failing env id) .hydrateTasks j = repoRead env .hydrateTasks j :=
    repoRead_failing nofun
  simp only [withTaskMut, ensureCachedTask, hread]

theorem connectedParticipants_failing (ps : List Participant) :
    connectedParticipants (failing env id) ps = connectedParticipants env ps := by
  induction ps with
  | nil => rfl
  | cons p ps ih =>
    rw [connectedParticipants, connectedParticipants, ih]
    rfl

theorem staleTasks_failing (now : ℕ) (l : List Uuid) :
    staleTasks (failing env id) now l = staleTasks env now l := by
  induction l with
  | nil => rfl
  | cons p ps ih =>
    rw [staleTasks, staleTasks, ih]
    rfl

theorem chooseActiveShares_failing (task : VotingTask) :
    chooseActiveShares (failing env id) task = chooseActiveShares env task := by
  have hwrite (f : Write) : repoWrite (failing env id) .setTaskActiveShares task.taskInfo.id f =
    repoWrite env .setTaskActiveShares task.taskInfo.id f := repoWrite_failing f nofun
  simp only [chooseActiveShares, connectedParticipants_failing, hwrite]
  rfl

variable [External]

omit [External] in
theorem repoWrite_other (h : j ≠ id) (call : RepoCall) (f : Write) :
    repoWrite (failing env id) call j f = repoWrite env call j f :=
  repoWrite_failing f fun _ => h

theorem startEntry_other (h : j ≠ id) (task : VotingTask) :
    startEntry (failing env id) j task = startEntry env j task := by
  simp only [startEntry, chooseActiveShares_failing, repoWrite_other h]
  rfl

theorem decideEntry_other (h : j ≠ id) (d : Bytes) (accept : Bool) :
    decideEntry (failing env id) j d accept = decideEntry env j d accept := by
  simp only [decideEntry, startEntry_other h, repoWrite_other h]
  rfl

theorem updateEntry_other (h : j ≠ id) (d : Bytes) (messages : List ClientMessage)
    (attempt : ℕ) :
    updateEntry (failing env id) j d messages attempt = updateEntry env j d messages attempt := by
  simp only [updateEntry, repoWrite_other h]
  rfl

theorem restartEntry_other (h : j ≠ id) :
    restartEntry (failing env id) j = restartEntry env j := by
  simp only [restartEntry, repoWrite_other h]
  rfl

omit [External] in
theorem addTask_failing (v : VotingTask) : addTask (failing env id) v = addTask env v := by
  have hwrite (f : Write) : repoWrite (failing env id) .createTask v.taskInfo.id f =
    repoWrite env .createTask v.taskInfo.id f := repoWrite_failing f nofun
  simp only [addTask, persistTask, hwrite, withTaskMut_failing]

theorem entries_ended {g : Guarded} (h : ended g.entry) (d : Bytes) (accept : Bool)
    (messages : List ClientMessage) (attempt : ℕ) :
    decideEntry env id d accept g = .error (protocolError "Cannot decide non-voting task") g ∧
      updateEntry env id d messages attempt g =
        .error (protocolError "Cannot update non-running task") g := by
  obtain ⟨e, s⟩ := g
  cases e with
  | voting | running => cases h
  | declined | finished | failed => exact ⟨rfl, rfl⟩

theorem restartTasks_other {l : List Uuid} (h : id ∉ l) :
    restartTasks (failing env id) l = restartTasks env l := by
  induction l with
  | nil => rfl
  | cons j l ih =>
    rw [List.mem_cons, not_or] at h
    rw [restartTasks, restartTasks, withTaskMut_failing, restartEntry_other (Ne.symm h.1), ih h.2]

variable {s : Server} {row : TaskResultRow}

omit [External] in
theorem restartCandidates_failing :
    restartCandidates (failing env id) = restartCandidates env := by
  have hread : repoRead (failing env id) .getRestartCandidates 0 =
    repoRead env .getRestartCandidates 0 := repoRead_failing nofun
  simp only [restartCandidates, hread, staleTasks_failing]
  rfl

/-- A task with a result is no candidate of the sweep. -/
theorem restartStaleTasks_once (hrow : s.db.taskResult id = some row) :
    restartStaleTasks (failing env id) s = restartStaleTasks env s := by
  have hcand := restartCandidates_post env s
  simp only [restartStaleTasks, restartCandidates_failing, bind, EStateM.bind]
  unfold post outcome at hcand
  generalize restartCandidates env s = res at hcand ⊢
  cases res with
  | ok l t =>
    refine congrFun (restartTasks_other fun hid => ?_) t
    rcases hcand with ⟨⟨stop, herr⟩, -⟩ | ⟨_, ⟨⟩, -, hsub⟩
    · cases herr
    have hc := candidate_of_mem (hsub.subset hid)
    simp only [Database.isRestartCandidate, hrow, Option.isNone_some, Bool.false_and] at hc
    split at hc <;> cases hc
  | error => rfl

omit [External] in
theorem withTaskMut_once {α : Type} {m m' : EStateM Stop Guarded α} (h : Invariant s)
    (hr : ResultsEnded s) (hrow : s.db.taskResult id = some row) (hother : j ≠ id → m' = m)
    (hended : ∀ g : Guarded, ended g.entry → m' g = m g) :
    withTaskMut (failing env id) j m' s = withTaskMut env j m s := by
  rw [withTaskMut_failing]
  refine withTaskMut_congr fun e hl => ?_
  by_cases hj : j = id
  · have he := loaded_ended h hr hl
    rw [hj, hrow] at he
    exact hended _ he
  · rw [hother hj]

omit [External] in
theorem withTaskMut_same {α : Type} {m m' : EStateM Stop Guarded α} (h : m' = m) :
    withTaskMut (failing env id) j m' = withTaskMut env j m := by
  rw [withTaskMut_failing, h]

theorem exec_failing (op : Op) : exec (failing env id) op = exec env op ∨
    (∃ j d accept, op = .decideTask j d accept) ∨
    (∃ j d messages attempt, op = .updateTask j d messages attempt) ∨ op = .restartStaleTasks := by
  have hgroup : repoRead (failing env id) .getGroup 0 = repoRead env .getGroup 0 :=
    repoRead_failing fun hc => by cases hc
  have hparticipants : repoRead (failing env id) .getGroupParticipants 0 =
    repoRead env .getGroupParticipants 0 := repoRead_failing fun hc => by cases hc
  cases op with
  | decideTask => exact .inr (.inl ⟨_, _, _, rfl⟩)
  | updateTask => exact .inr (.inr (.inl ⟨_, _, _, _, rfl⟩))
  | restartStaleTasks => exact .inr (.inr (.inr rfl))
  | restartServer | activateDevice => exact .inl rfl
  | addDevice device =>
    have hwrite (f : Write) : repoWrite (failing env id) .addDevice 0 f =
      repoWrite env .addDevice 0 f := repoWrite_failing f fun hc => by cases hc
    left
    simp only [exec, addDevice, hwrite]
  | addGroupTask =>
    left
    simp only [exec, addGroupTask, addTask_failing]
    rfl
  | addSignTask | addDecryptTask =>
    left
    simp only [exec, addSignTask, addDecryptTask, addTask_failing, hgroup, hparticipants]
    rfl
  | acknowledgeTask j d =>
    have hwrite (f : Write) : repoWrite (failing env id) .setTaskAcknowledgement j f =
      repoWrite env .setTaskAcknowledgement j f := repoWrite_failing f fun hc => by cases hc
    left
    simp only [exec, acknowledgeTask, acknowledgeEntry, hwrite, withTaskMut_failing]
  | getFormattedTask =>
    left
    simp only [exec, getFormattedTask, withTaskMut_failing]

/-- Once the result of a task is stored, every operation runs as if `set_task_result` failed
for the task: it is not called again. -/
theorem exec_once (h : Invariant s) (hr : ResultsEnded s) (hrow : s.db.taskResult id = some row)
    (op : Op) : exec (failing env id) op s = exec env op s := by
  rcases exec_failing op with hsame | ⟨j, d, accept, rfl⟩ | ⟨j, d, messages, attempt, rfl⟩ | rfl
  · rw [hsame]
  · refine withTaskMut_once h hr hrow (fun hj => decideEntry_other hj d accept) fun g he => ?_
    rw [(entries_ended he d accept [] 0).1, (entries_ended he d accept [] 0).1]
  · refine withTaskMut_once h hr hrow (fun hj => updateEntry_other hj d messages attempt)
      fun g he => ?_
    rw [(entries_ended he d true messages attempt).2, (entries_ended he d true messages attempt).2]
  · exact restartStaleTasks_once hrow

end Once

/-- Two programs do the same, or the first one ends in `P` or with the process stopped. -/
def SameUnless {σ α : Type} (P : σ → Prop) (m m' : EStateM Stop σ α) (s : σ) : Prop :=
  m s = m' s ∨ post m s (fun r t => r = .error .crash ∨ P t)

theorem SameUnless.seq {σ α β : Type} {P : σ → Prop} {m : EStateM Stop σ α}
    {f f' : α → EStateM Stop σ β} {s : σ}
    (h : post m s (fun r t => ∀ a, r = .ok a → SameUnless P (f a) (f' a) t)) :
    SameUnless P (m >>= f) (m >>= f') s := by
  simp only [SameUnless, post, outcome, bind, EStateM.bind] at h ⊢
  generalize m s = res at h ⊢
  cases res with
  | ok a t => exact h a rfl
  | error => exact .inl rfl

theorem SameUnless.bind {σ α β : Type} {P : σ → Prop} {m : EStateM Stop σ α}
    {f f' : α → EStateM Stop σ β} {s : σ} (h : ∀ a t, SameUnless P (f a) (f' a) t) :
    SameUnless P (m >>= f) (m >>= f') s :=
  .seq fun a _ => h a _

section Stores

variable {env : Env} {id : Uuid}

def HasResult (id : Uuid) (s : Server) : Prop := (s.db.taskResult id).isSome

theorem resultWrite_unless (result : Except String Bytes) (e : TaskEntry) (g : Guarded) :
    SameUnless (fun g => HasResult id g.server)
      (do onServer (repoWrite env .setTaskResult id (resultWrite id result)); setEntry e)
      (do onServer (repoWrite (failing env id) .setTaskResult id (resultWrite id result))
          setEntry e) g := by
  cases hf : env.fault .setTaskResult id with
  | served =>
    by_cases hid : id ∈ g.server.db.task
    · right
      simp [onServer, repoWrite, repoRead, hf, resultWrite, Database.setTaskResult, hid, setEntry,
        HasResult, Except.mapError]
    · left
      simp [onServer, repoWrite, repoRead, hf, failing, resultWrite, Database.setTaskResult, hid,
        Except.mapError, bind, EStateM.bind, zoom, fromExcept, throw, throwThe, MonadExceptOf.throw,
        EStateM.throw, pure, EStateM.pure, get, getThe, MonadStateOf.get, EStateM.get]
  | fails =>
    left
    simp [repoWrite, repoRead, hf, failing]
  | stops =>
    right
    simp [onServer, repoWrite, repoRead, hf]

variable [External]

theorem startEntry_unless (task : VotingTask) (g : Guarded) :
    SameUnless (fun g => HasResult id g.server) (startEntry env id task)
      (startEntry (failing env id) id task) g := by
  have hwrite (call : RepoCall) (hc : call ≠ .setTaskResult) (f : Write) :
      repoWrite (failing env id) call id f = repoWrite env call id f :=
    repoWrite_failing f fun he => absurd he hc
  simp only [startEntry, chooseActiveShares_failing,
    hwrite .setTaskGroupCertificatesSent (by decide),
    hwrite .setTaskRound (by decide)]
  refine .bind fun active _ => .bind fun running _ => .bind fun update _ => ?_
  obtain ⟨update, running⟩ := update
  cases update with
  | listen | finished | groupCertificatesSent | nextRound => exact .inl rfl
  | failed task => exact resultWrite_unless _ _ _

theorem decideEntry_unless (d : Bytes) (accept : Bool) (g : Guarded) :
    SameUnless (fun g => HasResult id g.server) (decideEntry env id d accept)
      (decideEntry (failing env id) id d accept) g := by
  have hwrite (f : Write) : repoWrite (failing env id) .setTaskDecision id f =
    repoWrite env .setTaskDecision id f := repoWrite_failing f nofun
  simp only [decideEntry, hwrite]
  refine .bind fun g₀ _ => ?_
  cases g₀.entry with
  | voting task =>
    refine .bind fun _ _ => .bind fun p _ => .bind fun _ _ => .bind fun _ _ => ?_
    obtain ⟨task, update⟩ := p
    cases update with
    | undecided => exact .inl rfl
    | accepted => exact startEntry_unless task _
    | declined => exact resultWrite_unless _ _ _
  | running | declined | finished | failed => exact .inl rfl

theorem updateEntry_unless (d : Bytes) (messages : List ClientMessage) (attempt : ℕ)
    (g : Guarded) : SameUnless (fun g => HasResult id g.server)
      (updateEntry env id d messages attempt) (updateEntry (failing env id) id d messages attempt)
      g := by
  have hwrite (call : RepoCall) (hc : call ≠ .setTaskResult) (f : Write) :
      repoWrite (failing env id) call id f = repoWrite env call id f :=
    repoWrite_failing f fun he => absurd he hc
  simp only [updateEntry, hwrite .addGroup (by decide), hwrite .setTaskRound (by decide)]
  refine .bind fun g₀ _ => ?_
  cases g₀.entry with
  | running task =>
    refine .bind fun _ _ => ?_
    split_ifs
    · exact .inl rfl
    refine .bind fun update _ => ?_
    cases update with
    | listen | groupCertificatesSent | nextRound => exact .inl rfl
    | failed => exact resultWrite_unless _ _ _
    | finished round task =>
      refine .bind fun _ _ => ?_
      cases task.result with
      | groupEstablished group =>
        exact .bind fun _ _ => resultWrite_unless _ _ _
      | signed | signedPdf | decrypted => exact resultWrite_unless _ _ _
  | voting | declined | finished | failed => exact .inl rfl

theorem restartEntry_unless (g : Guarded) : SameUnless (fun g => HasResult id g.server)
    (restartEntry env id) (restartEntry (failing env id) id) g := by
  have hwrite (call : RepoCall) (hc : call ≠ .setTaskResult) (f : Write) :
      repoWrite (failing env id) call id f = repoWrite env call id f :=
    repoWrite_failing f fun he => absurd he hc
  simp only [restartEntry, hwrite .incrementTaskAttemptCount (by decide),
    hwrite .setTaskGroupCertificatesSent (by decide), hwrite .setTaskRound (by decide)]
  refine .bind fun g₀ _ => ?_
  cases g₀.entry with
  | running task =>
    refine .bind fun _ _ => .bind fun _ _ => .bind fun update _ => ?_
    cases update with
    | listen | finished | groupCertificatesSent | nextRound => exact .inl rfl
    | failed => exact resultWrite_unless _ _ _
  | voting | declined | finished | failed => exact .inl rfl

variable {j : Uuid} {s : Server}

omit [External] in
theorem withTaskMut_unless {α : Type} {m m' : EStateM Stop Guarded α}
    (h : ∀ g, SameUnless (fun g => HasResult id g.server) m m' g) (s : Server) :
    SameUnless (HasResult id) (withTaskMut env j m) (withTaskMut (failing env id) j m') s := by
  rw [withTaskMut_failing, SameUnless]
  rcases lockedTask_post env s j with ⟨stop, -, hn⟩ | ⟨e, -, hl⟩
  · left
    rw [withTaskMut_notLoaded hn, withTaskMut_notLoaded hn]
  · rcases h ⟨e, cached s j e⟩ with hsame | hpost
    · left
      rw [withTaskMut_loaded hl, withTaskMut_loaded hl, zoom, zoom, hsame]
    · right
      have hzoom : post (zoom (Guarded.mk e) (fun _ g => cached g.server j g.entry) m)
        (cached s j e) (fun r t => r = .error .crash ∨ HasResult id t) := (post_zoom ..).mpr hpost
      unfold post outcome at hzoom ⊢
      rwa [withTaskMut_loaded hl]

theorem restartTask_keeps {r : Except Stop Unit} {t : Server} (h : Invariant s)
    (hr : ResultsEnded s) (hc : s.db.isRestartCandidate j)
    (ho : TaskOutcome env j (RestartEntryOutcome env j) s r t) : Invariant t ∧ ResultsEnded t ∧
      ∀ k ≠ j, t.db.isRestartCandidate k = s.db.isRestartCandidate k := by
  cases ho with
  | notLoaded => exact ⟨h, hr, fun _ _ => rfl⟩
  | @loaded e _ g hl hb =>
    have body : BodyOutcome env .restartStaleTasks j ⟨e, cached s j e⟩ r g := .restart hc hb
    exact ⟨(move_invariant h (.task hl body)).1, (move_results h hr (.task hl body)).1,
      fun k hk => isRestartCandidate_congr ((task_sound h hl body).others k hk)⟩

theorem restartTasks_hasResult {l : List Uuid} (h : Invariant s) (hr : ResultsEnded s)
    (hn : l.Nodup) (hc : ∀ j ∈ l, s.db.isRestartCandidate j) (hs : HasResult id s) :
    post (restartTasks env l) s (fun _ t => HasResult id t) := by
  refine post_mono (restartTasks_sweep env l s) fun r t hw => ?_
  have hkeep : (Invariant t ∧ ResultsEnded t) ∧ HasResult id t := by
    refine (sweep_runs hw h hn hc).keeps (P := fun t => (Invariant t ∧ ResultsEnded t) ∧
      HasResult id t) ?_ ⟨⟨h, hr⟩, hs⟩
    rintro a _ b ⟨⟨ha, hra⟩, hres⟩ m
    obtain ⟨row, hrow⟩ := Option.isSome_iff_exists.mp hres
    obtain ⟨hrb, hkept⟩ := move_results ha hra m
    exact ⟨⟨(move_invariant ha m).1, hrb⟩, Option.isSome_iff_exists.mpr ⟨row, hkept id row hrow⟩⟩
  exact hkeep.2

theorem restartTasks_unless {l : List Uuid} (h : Invariant s) (hr : ResultsEnded s)
    (hn : l.Nodup) (hc : ∀ j ∈ l, s.db.isRestartCandidate j) :
    SameUnless (HasResult id) (restartTasks env l) (restartTasks (failing env id) l) s := by
  induction l generalizing s with
  | nil => exact .inl rfl
  | cons j l ih =>
    rw [List.nodup_cons] at hn
    have hone := restartTask_outcome env j s
    have hrest {r t} (ho : TaskOutcome env j (RestartEntryOutcome env j) s r t) :
        Invariant t ∧ ResultsEnded t ∧ ∀ k ∈ l, t.db.isRestartCandidate k := by
      obtain ⟨ht, hrt, hck⟩ := restartTask_keeps h hr (hc j (by simp)) ho
      refine ⟨ht, hrt, fun k hk => ?_⟩
      rw [hck k fun he => hn.1 (he ▸ hk)]
      exact hc k (by simp [hk])
    rw [restartTasks, restartTasks]
    by_cases hj : j = id
    · subst hj
      rw [restartTasks_other hn.1]
      have hfork : SameUnless (HasResult j) (withTaskMut env j (restartEntry env j))
        (withTaskMut (failing env j) j (restartEntry (failing env j) j)) s :=
        withTaskMut_unless restartEntry_unless s
      rcases hfork with hsame | hstored
      · left
        simp only [bind, EStateM.bind, hsame]
      · right
        refine post_seq (post_and hone hstored) ?_ ?_
        · rintro a t ⟨ho, hst⟩
          obtain ⟨ht, hrt, hct⟩ := hrest ho
          have hres := hst.resolve_left fun hstop => by cases hstop
          exact post_mono (restartTasks_hasResult ht hrt hn.2 hct hres) fun _ _ => .inr
        · rintro stop t ⟨-, hst⟩
          exact hst
    · rw [withTaskMut_same (restartEntry_other hj)]
      refine .seq (post_mono hone fun r t ho a _ => ?_)
      obtain ⟨ht, hrt, hct⟩ := hrest ho
      exact ih ht hrt hn.2 hct

theorem exec_unless (h : Invariant s) (hr : ResultsEnded s) (op : Op) :
    SameUnless (HasResult id) (exec env op) (exec (failing env id) op) s := by
  have hop : exec (failing env id) op = exec env op ∨ _ := exec_failing op
  rcases hop with hsame | ⟨j, d, accept, rfl⟩ | ⟨j, d, messages, attempt, rfl⟩ | rfl
  · exact .inl (congrFun hsame s).symm
  · by_cases hj : j = id
    · subst hj
      exact withTaskMut_unless (decideEntry_unless d accept) s
    · exact .inl (congrFun (withTaskMut_same (decideEntry_other hj d accept)) s).symm
  · by_cases hj : j = id
    · subst hj
      exact withTaskMut_unless (updateEntry_unless d messages attempt) s
    · exact .inl (congrFun (withTaskMut_same (updateEntry_other hj d messages attempt)) s).symm
  · have hsame : restartCandidates (failing env id) = restartCandidates env :=
      restartCandidates_failing
    simp only [exec, restartStaleTasks, hsame]
    refine .seq (post_mono (restartCandidates_post env s) fun r t ho l hl => ?_)
    subst hl
    rcases ho with ⟨⟨stop, herr⟩, -⟩ | ⟨_, ⟨⟩, ha, hsub⟩
    · cases herr
    refine restartTasks_unless (invariant_aside h ha) (resultsEnded_aside hr ha)
      (hsub.nodup (candidates_nodup _)) fun j hj => ?_
    rw [ha.db]
    exact candidate_of_mem (hsub.subset hj)

end Stores

variable [External]

/-- An operation stores a result for the task: it goes another way when `set_task_result`
fails. -/
def StoresResult (env : Env) (op : Op) (s : Server) (id : Uuid) : Prop :=
  outcome (exec env op) s ≠ outcome (exec (failing env id) op) s

theorem sameProcess_later {s t : Server} (h : SameProcess s t) : Later s t := by
  induction h with
  | refl => exact .refl
  | tail _ step ih =>
    obtain ⟨env, op, -, rfl⟩ := step
    exact ih.tail ⟨env, op, rfl⟩

theorem run_ahead {s t : Server} {id : Uuid} {e : TaskEntry} (h : Invariant s)
    (hrun : SameProcess s t) (hc : s.taskCache id = some e) :
    ∃ e', t.taskCache id = some e' ∧ Ahead e e' := by
  induction hrun with
  | refl => exact ⟨e, hc, .refl e⟩
  | tail hrun step ih =>
    obtain ⟨env, op, hup, rfl⟩ := step
    obtain ⟨e', hc', ha⟩ := ih
    obtain ⟨e'', hc'', hs⟩ := next_phase (later_invariant h (sameProcess_later hrun)).1 hup hc'
    exact ⟨e'', hc'', ha.step hs⟩

theorem run_results {s t : Server} {id : Uuid} {row : TaskResultRow} (hs : Reachable s)
    (hl : Later s t) (hrow : s.db.taskResult id = some row) : t.db.taskResult id = some row := by
  induction hl with
  | refl => exact hrow
  | tail hl step ih =>
    obtain ⟨env, op, rfl⟩ := step
    have ht := reachable_later hs hl
    exact (next_results (reachable_invariant ht) (reachable_results ht) env op).2 id row ih

/-- In every run of one process, whatever fails: a cached task only gets ahead, by the steps of
`PhaseStep` in each operation; an update that reports `NextRound` raises the round by one, a
restart the attempt by one; and a result is stored at most once, since a stored one is kept and
no operation stores another. -/
theorem phases_move_forward {s t : Server} (hs : Reachable s) (hrun : SameProcess s t)
    (id : Uuid) :
    (∀ e, s.taskCache id = some e → ∃ e', t.taskCache id = some e' ∧ Ahead e e') ∧
      (∀ e, t.taskCache id = some e → ∀ env op, StaysUp env op t →
        ∃ e', (next env op t).taskCache id = some e' ∧ PhaseStep op id e e') ∧
      (∀ task, t.taskCache id = some (.running task) → ∀ (env : Env) (helpers : PdfHelpers),
        (∀ d messages round r, outcome (RunningTask.update env.helper d messages)
            ⟨task, helpers⟩ = (.ok (.nextRound round), r) →
          r.task.taskInfo.attempts = task.taskInfo.attempts ∧
            r.task.getRound = task.getRound + 1) ∧
        ∀ update r, outcome (RunningTask.restart env.helper) ⟨task, helpers⟩ = (.ok update, r) →
          r.task.taskInfo.attempts = task.taskInfo.attempts + 1) ∧
      (∀ row, s.db.taskResult id = some row → t.db.taskResult id = some row ∧
        ∀ env op, ¬ StoresResult env op t id) ∧
      ∀ env op, StoresResult env op t id → StaysUp env op t →
        t.db.taskResult id = none ∧ ((next env op t).db.taskResult id).isSome := by
  have ht := reachable_later hs (sameProcess_later hrun)
  have hinv := reachable_invariant ht
  have hres := reachable_results ht
  have honce : ∀ row, t.db.taskResult id = some row → ∀ env op, ¬ StoresResult env op t id := by
    intro row hrow env op hstores
    exact hstores (by unfold outcome; rw [exec_once hinv hres hrow op])
  refine ⟨fun e => run_ahead (reachable_invariant hs) hrun, fun e he env op hup =>
    next_phase hinv hup he, ?_, ?_, ?_⟩
  · intro task _ env helpers
    refine ⟨fun d messages round r hu => ?_, fun update r hu => ?_⟩
    · have ho := update_outcome env.helper d messages ⟨task, helpers⟩
      rw [post, hu] at ho
      obtain ⟨hattempts, -, hround⟩ := update_counts ho
      exact ⟨hattempts, hround round rfl⟩
    · have ho := restart_outcome env.helper ⟨task, helpers⟩
      rw [post, hu] at ho
      rcases restart_counts ho with ⟨-, stop, hstop⟩ | hattempts
      · cases hstop
      · exact hattempts
  · intro row hrow
    have hkept := run_results hs (sameProcess_later hrun) hrow
    exact ⟨hkept, honce row hkept⟩
  · intro env op hstores hup
    refine ⟨Option.eq_none_iff_forall_ne_some.mpr fun row hrow => honce row hrow env op hstores, ?_⟩
    rw [next_eq, if_neg hup.2]
    rcases exec_unless hinv hres op with hsame | hstored
    · exact absurd (by unfold outcome; rw [hsame]) hstores
    · exact hstored.resolve_left hup.2

omit [External] in
/-- The task of an established group is finished, and its result is not stored again. -/
theorem phases_move_forward_established :
    (@runOps plainExternal initial
      (servedOps 0 0 (groupRequested ++ groupEstablished))).db.taskResult
      0 = some (NewTaskResult.ofResult (.ok [7])) ∧
    ∀ env op, ¬ @StoresResult plainExternal env op
      (@runOps plainExternal initial (servedOps 0 0 (groupRequested ++ groupEstablished))) 0 := by
  have hrow : (@runOps plainExternal initial
      (servedOps 0 0 (groupRequested ++ groupEstablished))).db.taskResult 0 =
        some (NewTaskResult.ofResult (.ok [7])) := by decide +kernel
  have hreach := @reachable_later plainExternal _ _ (@Reachable.initial plainExternal)
    (@later_runOps plainExternal initial (servedOps 0 0 (groupRequested ++ groupEstablished)))
  exact (@phases_move_forward plainExternal _ _ hreach .refl 0).2.2.2.1 _ hrow

end PhaseOrder
