import MeesignServer.AnnouncedTasks
import MeesignServer.TaskAddressees
import MeesignServer.AdmissionStart
import MeesignServer.BufferInvariant
import MeesignServer.ResultAgreement

/-!
# Following the stream

A device that subscribes and reads its stream knows its tasks: the last update about a
task shows the task as a poll would, unless a message of the device itself is in the
buffers, which is the only change that is not announced. This holds for as long as the
channel stays registered, in every run in which no call fails after it has changed the
task.
-/
namespace StreamFollowing

open FallibleProgram FiniteMap DataModel CommunicatorModel ProtocolModel VotingModel
open RunningTaskModel DatabaseModel HydrationModel ServerModel TaskOutcomes ServerOutcomes
open MessageBuffers TableFrames ServerInvariant InvariantSteps TaskAdmission ServerMoves
open SweepSchedule FoundTasks AdmissionStart TaskAddressees AnnouncedTasks
open Subscriptions (Channel Feeds updatesOf)
open PushModel (Node)

section Feeds

variable {f f' : Feeds} {d : Bytes} {tx : ℕ} {e : TaskEntry}

/-- Every registered channel has been opened for one device. -/
structure Owned (f : Feeds) : Prop where
  opened : ∀ d tx, f.subscribers d = some tx → tx < f.opened
  own : ∀ d d' tx, f.subscribers d = some tx → f.subscribers d' = some tx → d = d'

theorem owned_empty : Owned .empty := by
  constructor
  · intro d tx h
    cases h
  · intro d d' tx h
    cases h

theorem Owned.shrink (h : Owned f)
    (hsub : ∀ d tx, f'.subscribers d = some tx → f.subscribers d = some tx)
    (hopened : f'.opened = f.opened) : Owned f' where
  opened d tx hd := by
    rw [hopened]
    exact h.opened d tx (hsub d tx hd)
  own d d' tx hd hd' := h.own d d' tx (hsub d tx hd) (hsub d' tx hd')

theorem Owned.addSubscriber (h : Owned f) (d : Bytes) : Owned (f.addSubscriber d) := by
  have hcases : ∀ {d' tx}, (f.addSubscriber d).subscribers d' = some tx →
      d' = d ∧ tx = f.opened ∨ d' ≠ d ∧ f.subscribers d' = some tx := by
    intro d' tx hd'
    change Function.update f.subscribers d (some f.opened) d' = some tx at hd'
    by_cases hd : d' = d
    · subst hd
      rw [Function.update_self] at hd'
      exact .inl ⟨rfl, (Option.some.inj hd').symm⟩
    · rw [Function.update_of_ne hd] at hd'
      exact .inr ⟨hd, hd'⟩
  constructor
  · intro d' tx hd'
    change tx < f.opened + 1
    rcases hcases hd' with ⟨-, rfl⟩ | ⟨-, hold⟩
    · omega
    · have := h.opened d' tx hold
      omega
  · intro d₁ d₂ tx h₁ h₂
    rcases hcases h₁ with ⟨rfl, rfl⟩ | ⟨-, hold₁⟩
    · rcases hcases h₂ with ⟨rfl, -⟩ | ⟨-, hold₂⟩
      · rfl
      · exact absurd (h.opened d₂ _ hold₂) (lt_irrefl _)
    · rcases hcases h₂ with ⟨-, rfl⟩ | ⟨-, hold₂⟩
      · exact absurd (h.opened d₁ _ hold₁) (lt_irrefl _)
      · exact h.own d₁ d₂ tx hold₁ hold₂

theorem removed_subscribers (remove : List Bytes) (f : Feeds) :
    (∀ d tx, (remove.foldl Feeds.removeSubscriber f).subscribers d = some tx →
      d ∉ remove ∧ f.subscribers d = some tx) ∧
    (remove.foldl Feeds.removeSubscriber f).channels = f.channels ∧
    (remove.foldl Feeds.removeSubscriber f).opened = f.opened := by
  induction remove generalizing f with
  | nil => exact ⟨fun d tx h => ⟨List.not_mem_nil, h⟩, rfl, rfl⟩
  | cons d' remove ih =>
    rw [List.foldl_cons]
    obtain ⟨hsub, hchannels, hopened⟩ := ih (f.removeSubscriber d')
    refine ⟨fun d tx h => ?_, hchannels, hopened⟩
    obtain ⟨hnot, hold⟩ := hsub d tx h
    change Function.update f.subscribers d' none d = some tx at hold
    by_cases hd : d = d'
    · subst hd
      rw [Function.update_self] at hold
      cases hold
    · rw [Function.update_of_ne hd] at hold
      exact ⟨by simp [hd, hnot], hold⟩

def addressed (d : Bytes) (updates : List (Bytes × ProtoTask)) : List ProtoTask :=
  (updates.filter fun p => p.1 = d).map Prod.snd

theorem sendUpdate_spec (h : Owned f) (d' : Bytes) (update : ProtoTask) :
    (f.sendUpdate d' update).2.subscribers = f.subscribers ∧
    (f.sendUpdate d' update).2.opened = f.opened ∧
    ∀ d tx, f.subscribers d = some tx → ((f.sendUpdate d' update).1 → d' ≠ d) →
      ((f.sendUpdate d' update).2.channels tx).queue =
        (f.channels tx).queue ++ if d' = d then [update] else [] := by
  unfold Feeds.sendUpdate
  cases hsub : f.subscribers d' with
  | none =>
    refine ⟨rfl, rfl, fun d tx hd _ => ?_⟩
    have hne : d' ≠ d := by
      rintro rfl
      rw [hsub] at hd
      cases hd
    rw [if_neg hne, List.append_nil]
  | some tx' =>
    dsimp only
    cases hsend : (f.channels tx').trySend update with
    | error _ =>
      refine ⟨rfl, rfl, fun d tx _ hfailed => ?_⟩
      rw [if_neg (hfailed rfl), List.append_nil]
    | ok channel =>
      have hqueue : channel.queue = (f.channels tx').queue ++ [update] := by
        unfold Channel.trySend at hsend
        split_ifs at hsend
        cases hsend
        rfl
      refine ⟨rfl, rfl, fun d tx hd _ => ?_⟩
      dsimp only
      by_cases hne : d' = d
      · subst hne
        rw [hsub] at hd
        cases hd
        rw [Function.update_self, if_pos rfl, hqueue]
      · have htx : tx ≠ tx' := by
          rintro rfl
          exact hne (h.own d' d tx hsub hd)
        rw [Function.update_of_ne htx, if_neg hne, List.append_nil]

theorem sendLoop_spec (updates : List (Bytes × ProtoTask)) (remove : List Bytes) (h : Owned f) :
    (Feeds.sendLoop updates remove f).2.subscribers = f.subscribers ∧
    (Feeds.sendLoop updates remove f).2.opened = f.opened ∧
    (∀ d ∈ remove, d ∈ (Feeds.sendLoop updates remove f).1) ∧
    ∀ d tx, f.subscribers d = some tx → d ∉ (Feeds.sendLoop updates remove f).1 →
      ((Feeds.sendLoop updates remove f).2.channels tx).queue =
        (f.channels tx).queue ++ addressed d updates := by
  induction updates generalizing remove f with
  | nil =>
    refine ⟨rfl, rfl, fun _ hd => hd, fun d tx _ _ => ?_⟩
    exact (List.append_nil _).symm
  | cons p updates ih =>
    obtain ⟨d', update⟩ := p
    rw [Feeds.sendLoop]
    obtain ⟨hsub, hopened, hqueue⟩ := sendUpdate_spec h d' update
    generalize f.sendUpdate d' update = sent at hsub hopened hqueue ⊢
    obtain ⟨failed, f₁⟩ := sent
    dsimp only at hsub hopened hqueue ⊢
    have h₁ : Owned f₁ := h.shrink (fun d tx hd => hsub ▸ hd) hopened
    generalize hremove : (if failed then remove ++ [d'] else remove) = remove'
    obtain ⟨hsub', hopened', hkept, hqueue'⟩ := ih remove' h₁
    have hold : ∀ d ∈ remove, d ∈ remove' := by
      intro d hd
      rw [← hremove]
      split_ifs
      · exact List.mem_append_left _ hd
      · exact hd
    refine ⟨hsub'.trans hsub, hopened'.trans hopened, fun d hd => hkept d (hold d hd), ?_⟩
    intro d tx hd hnot
    have hfirst := hqueue d tx hd (by
      rintro hfailed rfl
      apply hnot
      apply hkept
      rw [← hremove, if_pos hfailed]
      simp)
    rw [hqueue' d tx (hsub ▸ hd) hnot, hfirst, List.append_assoc]
    by_cases hne : d' = d
    · simp [hne, addressed]
    · simp [hne, addressed]

/-- Whoever is still registered after the announcement has got it. -/
theorem sendUpdates_spec (h : Owned f) (e : TaskEntry) : Owned (f.sendUpdates e) ∧
    (f.sendUpdates e).opened = f.opened ∧
    ∀ d tx, (f.sendUpdates e).subscribers d = some tx → f.subscribers d = some tx ∧
      ((f.sendUpdates e).channels tx).queue =
        (f.channels tx).queue ++ addressed d (updatesOf e) := by
  obtain ⟨hsub, hopened, -, hqueue⟩ := sendLoop_spec (updatesOf e) [] h
  unfold Feeds.sendUpdates
  generalize Feeds.sendLoop (updatesOf e) [] f = sent at hsub hopened hqueue ⊢
  obtain ⟨remove, f₁⟩ := sent
  dsimp only at hsub hopened hqueue ⊢
  obtain ⟨hremoved, hchannels, hsame⟩ := removed_subscribers remove f₁
  rw [hopened] at hsame
  refine ⟨h.shrink ?_ hsame, hsame, ?_⟩
  · intro d tx hd
    rw [← hsub]
    exact (hremoved d tx hd).2
  · intro d tx hd
    obtain ⟨hnot, hold⟩ := hremoved d tx hd
    rw [hsub] at hold
    rw [hchannels]
    exact ⟨hold, hqueue d tx hold hnot⟩

theorem announceAll_spec (tasks : List TaskEntry) (h : Owned f) : Owned (announceAll f tasks) ∧
    (announceAll f tasks).opened = f.opened ∧
    ∀ d tx, (announceAll f tasks).subscribers d = some tx → f.subscribers d = some tx ∧
      ((announceAll f tasks).channels tx).queue =
        (f.channels tx).queue ++ tasks.flatMap fun e => addressed d (updatesOf e) := by
  induction tasks generalizing f with
  | nil => exact ⟨h, rfl, fun d tx hd => ⟨hd, (List.append_nil _).symm⟩⟩
  | cons e tasks ih =>
    obtain ⟨h₁, hopened₁, hfirst⟩ := sendUpdates_spec h e
    obtain ⟨h₂, hopened₂, hrest⟩ := ih h₁
    refine ⟨h₂, hopened₂.trans hopened₁, fun d tx hd => ?_⟩
    obtain ⟨hd₁, hqueue₁⟩ := hrest d tx hd
    obtain ⟨hd₀, hqueue₀⟩ := hfirst d tx hd₁
    refine ⟨hd₀, ?_⟩
    change ((announceAll (f.sendUpdates e) tasks).channels tx).queue = _
    rw [hqueue₁, hqueue₀, List.flatMap_cons, List.append_assoc]

end Feeds

section Views

variable {d : Bytes} {e e' : TaskEntry} {t t' : RunningTask} {p : ProtoTask}

/-- `p` shows the task to the device as a poll would. Once the messages of the device are in the
buffers it may still show the work that they answer, the outgoing messages of the round. -/
def Shows (d : Bytes) (p : ProtoTask) (e : TaskEntry) : Prop :=
  p = e.format (some d) none ∨ ∃ t, e = .running t ∧ t.waitingFor d = false ∧
    p = { e.format (some d) none with data := t.session.communicator.getMessages d }

/-- A change that no update is sent for, from the side of a device. -/
inductive Unannounced (d : Bytes) : TaskEntry → TaskEntry → Prop where
  | same (e : TaskEntry) : Unannounced d e e
  | acknowledged {f f' : FinishedTask} (info : f'.taskInfo = f.taskInfo)
      (result : f'.result = f.result) : Unannounced d (.finished f) (.finished f')
  | heard {t t' : RunningTask} (info : t'.taskInfo = t.taskInfo) (round : t'.getRound = t.getRound)
      (messages : t'.session.communicator.getMessages d = t.session.communicator.getMessages d)
      (waiting : t'.waitingFor d = false ∨ t'.waitingFor d = t.waitingFor d) :
      Unannounced d (.running t) (.running t')

theorem Unannounced.info (h : Unannounced d e e') : e'.taskInfo = e.taskInfo := by
  cases h with
  | same => rfl
  | acknowledged info => exact info
  | heard info => exact info

theorem format_running (t : RunningTask) (d : Bytes) : (TaskEntry.running t).format (some d) none =
    ⟨t.taskInfo.id, t.taskInfo.taskType, .running, t.getRound, t.taskInfo.attempts, maxU16, maxU16,
      if !t.waitingFor d then [] else t.session.communicator.getMessages d, none⟩ := rfl

theorem Unannounced.shows (h : Unannounced d e e') (hp : Shows d p e) : Shows d p e' := by
  cases h with
  | same => exact hp
  | @acknowledged f f' info result =>
    rcases hp with rfl | ⟨t, he, -⟩
    · left
      change _ = ProtoTask.mk _ _ _ _ _ _ _ _ _
      simp only [TaskEntry.taskInfo, info, result]
      rfl
    · cases he
  | @heard t t' info round messages waiting =>
    simp only [Shows, format_running, info, round, messages]
    rcases hp with rfl | ⟨_, he, hnot, rfl⟩
    · cases hold : t.waitingFor d with
      | false =>
        rw [hold, or_self] at waiting
        exact .inl (by rw [format_running, hold, waiting])
      | true =>
        rcases waiting with hnot | hsame
        · exact .inr ⟨t', rfl, hnot, by rw [format_running, hold, messages]; rfl⟩
        · exact .inl (by rw [format_running, hsame])
    · cases he
      rw [hnot, or_self] at waiting
      exact .inr ⟨t', rfl, waiting, by rw [messages]; rfl⟩

theorem receive_waitingFor {c c' : Communicator} {sender : Bytes} {messages : List ClientMessage}
    {is_taken : Bool} (h : c.receiveMessages sender messages = .ok (is_taken, c')) :
    c'.getMessages d = c.getMessages d ∧
      (c'.waitingFor d = false ∨ c'.waitingFor d = c.waitingFor d) := by
  obtain ⟨hshares, hprotocol, -, houtput, hinput⟩ := receiveMessages_ok h
  have hindices := identifierToIndices_congr hshares hprotocol d
  have hmessages : c'.getMessages d = c.getMessages d := by
    simp only [Communicator.getMessages, hindices, houtput]
  refine ⟨hmessages, ?_⟩
  cases is_taken with
  | false =>
    simp only [Bool.false_eq_true, ↓reduceIte] at hinput
    rw [hinput]
    exact .inr rfl
  | true =>
    simp only [↓reduceIte] at hinput
    obtain ⟨hlen, hinput⟩ := hinput
    have hkeys : (callOf c sender messages).messages.map Prod.fst = c.identifierToIndices sender :=
      List.map_fst_zip (Nat.le_of_eq hlen)
    by_cases hd : sender = d
    · subst hd
      left
      rw [BufferInvariant.waitingFor_eq_false, hindices]
      intro i hi
      rw [hinput, mem_extend, hkeys]
      exact .inr hi
    · right
      simp only [Communicator.waitingFor, hindices]
      rw [Bool.eq_iff_iff, List.any_eq_true, List.any_eq_true]
      -- the shares of the device are not among those of the sender
      have hmem : ∀ i ∈ c.identifierToIndices d, i ∈ c'.input ↔ i ∈ c.input := by
        intro i hi
        rw [hinput, mem_extend, hkeys, or_iff_left]
        intro hi'
        exact hd (identifierToIndices_unique hi' hi)
      constructor
      · rintro ⟨i, hi, hnot⟩
        exact ⟨i, hi, decide_eq_true (mt (hmem i hi).mpr (of_decide_eq_true hnot))⟩
      · rintro ⟨i, hi, hnot⟩
        exact ⟨i, hi, decide_eq_true (mt (hmem i hi).mp (of_decide_eq_true hnot))⟩

variable [External]

theorem listen_unannounced {sender : Bytes} {messages : List ClientMessage}
    (h : UpdateOutcome sender messages t (.ok .listen) t') :
    Unannounced d (.running t) (.running t') := by
  generalize hu : (.ok .listen : Except Stop RoundUpdate) = u at h
  cases h with
  | notWaiting | broke => cases hu
  | @received t₁ _ _ c _ _ _ receive kept session round =>
    cases round with
    | start _ _ start =>
      cases start <;> cases hu
    | advance => cases hu
    | final _ _ final =>
      cases final <;> cases hu
    | listen =>
      have hround : t'.getRound = t.getRound := by
        rw [getRound_eq, getRound_eq, kept.context, kept.ready, session]
      obtain ⟨hmessages, hwaiting⟩ := receive_waitingFor (d := d) receive
      refine .heard kept.taskInfo hround ?_ ?_
      · rw [session]
        exact hmessages
      · unfold RunningTask.waitingFor
        rw [session]
        exact hwaiting

end Views

section Calls

variable [External] {env : Env} {op : Op} {s : Server} {d : Bytes} {id : Uuid} {e e' : TaskEntry}
  {A : List TaskEntry}

/-- The announcements about the task end with the task as it is now, or there are none and none
is due. -/
def Told (d : Bytes) (id : Uuid) (s : Server) (A : List TaskEntry) (e : TaskEntry) : Prop :=
  (∃ l₁ l₂, A = l₁ ++ e :: l₂ ∧ ∀ x ∈ l₂, x.taskInfo.id ≠ id) ∨
    (∀ x ∈ A, x.taskInfo.id ≠ id) ∧ ∃ e₀, Found s id e₀ ∧ Unannounced d e₀ e

omit [External] in
theorem told_announced (d : Bytes) (id : Uuid) (s : Server) (e : TaskEntry) :
    Told d id s [e] e := .inl ⟨[], [], rfl, fun _ hx => absurd hx List.not_mem_nil⟩

omit [External] in
theorem told_same (hA : ∀ x ∈ A, x.taskInfo.id ≠ id) (h : Found s id e) : Told d id s A e :=
  .inr ⟨hA, e, h, .same e⟩

omit [External] in
theorem found_id (hi : Invariant s) (h : Found s id e) : e.taskInfo.id = id := by
  obtain ⟨row, -, he⟩ := found_entry hi h
  exact (entry_info he).id

omit [External] in
theorem found_cached (h : Found (cached s id e) id e') : e' = e := by
  rcases h with hc | ⟨hnone, -⟩
  · rw [cached_self] at hc
    exact (Option.some.inj hc).symm
  · rw [cached_self] at hnone
    cases hnone

omit [External] in
theorem found_of_sameTask {s' : Server} (hi : Invariant s) (hx : Extends s.db s'.db)
    (hsame : SameTask s.db s'.db id) (hc : s'.taskCache id = s.taskCache id)
    (h : Found s' id e) : Found s id e := by
  refine found_of_same hi hx (fun hmem => ?_) hsame hc h
  rw [← AList.lookup_isSome] at hmem ⊢
  exact hsame.task ▸ hmem

omit [External] in
theorem found_other {j : Uuid} {s' : Server} {e₁ : TaskEntry} (hi : Invariant s)
    (hs : Sound j s.db s'.db e₁) (hc : s'.taskCache id = s.taskCache id) (hne : id ≠ j)
    (h : Found (cached s' j e₁) id e) : Found s id e := by
  refine found_of_sameTask hi ?_ ?_ ?_ h
  · exact hs.extend
  · exact hs.others id hne
  · rw [cached_of_ne hne, hc]

omit [External] in
theorem told_other {j : Uuid} {s' : Server} {e₁ : TaskEntry} (hi : Invariant s)
    (hs : Sound j s.db s'.db e₁) (hc : s'.taskCache id = s.taskCache id)
    (hA : ∀ x ∈ A, x = e₁) (hne : id ≠ j) (h : Found (cached s' j e₁) id e) :
    Told d id s A e := by
  obtain ⟨row, -, he₁⟩ := hs.entry
  refine told_same (fun x hx => ?_) (found_other hi hs hc hne h)
  rw [hA x hx, (entry_info he₁).id]
  exact hne.symm

omit [External] in
theorem announced_ok {α : Type} {p : Except Stop α × Server} {a : α} (hok : p.1 = .ok a) :
    announced id p = (p.2.taskCache id).toList := by
  rw [announced, hok]

theorem next_ok (hok : result env op s = .ok ()) :
    next env op s = (outcome (exec env op) s).2 := by
  rw [next_eq, if_neg]
  rw [hok]
  intro h
  cases h

theorem listens_unannounced {sender : Bytes} {messages : List ClientMessage} {attempt : ℕ}
    {g g' : Guarded} {r : Except Stop Unit} (hquiet : listens env sender messages g)
    (ho : UpdateEntryOutcome env id sender messages attempt g r g') :
    Unannounced d g.entry g'.entry := by
  cases ho with
  | notRunning | stale => exact .same _
  | @updated t t' u _ db e s ht _ update record _ ran =>
    have hu : u = .ok .listen := by
      rw [listens, ht] at hquiet
      dsimp only at hquiet
      rw [ran] at hquiet
      split at hquiet
      · assumption
      · cases hquiet
    subst hu
    rw [ht]
    generalize hw : (.ok .listen : Except Stop RoundUpdate) = w at record
    cases record with
    | listen => exact listen_unannounced update
    | stopped | nextRound | failed | finished => cases hw

omit [External] in
theorem acknowledged_unannounced {sender : Bytes} {g g' : Guarded} {r : Except Stop Unit}
    (ho : AcknowledgeOutcome env id sender g r g') : Unannounced d g.entry g'.entry := by
  cases ho with
  | notFinished => exact .same _
  | acknowledged hf hack stored =>
    subst hack
    rw [hf]
    cases stored <;> exact .acknowledged rfl rfl

theorem announcements_cached {j : Uuid} (hop : target op = some j)
    (hok : result env op s = .ok ()) (x : TaskEntry) (hx : x ∈ announcements env op s) :
    (next env op s).taskCache j = some x := by
  rw [next_ok hok, ← Option.mem_toList, ← announced_ok hok]
  cases op with
  | decideTask =>
    cases hop
    exact hx
  | updateTask j device data attempt =>
    cases hop
    change x ∈ ite (quietAt env j (listens env device data) s) _ _ at hx
    split_ifs at hx
    · exact absurd hx List.not_mem_nil
    · exact hx
  | acknowledgeTask | getFormattedTask => exact absurd hx List.not_mem_nil
  | addDevice | activateDevice | addGroupTask | addSignTask | addDecryptTask => cases hop
  | restartStaleTasks | restartServer => cases hop

theorem target_served {j : Uuid} (hop : target op = some j) (hok : result env op s = .ok ()) :
    ∃ e₀ g, Loaded env s j e₀ ∧ BodyOutcome env op j ⟨e₀, cached s j e₀⟩ (.ok ()) g ∧
      next env op s = cached g.server j g.entry := by
  have hout : post (exec env op) s _ := target_outcome hop
  rcases hout with ⟨stop, -, herr, -⟩ | ⟨e₀, g, hl, hb, hs⟩
  · cases herr.symm.trans hok
  · rw [show (outcome (exec env op) s).1 = .ok () from hok] at hb
    exact ⟨e₀, g, hl, hb, (next_ok hok).trans hs⟩

/-- A call on the task either announces it or leaves it as good as unchanged. -/
theorem target_told_self {e₀ : TaskEntry} {g : Guarded} (hop : target op = some id)
    (hok : result env op s = .ok ()) (hl : Loaded env s id e₀)
    (hb : BodyOutcome env op id ⟨e₀, cached s id e₀⟩ (.ok ()) g)
    (hs : next env op s = cached g.server id g.entry) :
    Told d id s (announcements env op s) g.entry := by
  have htells : announced id (outcome (exec env op) s) = [g.entry] := by
    rw [announced_ok hok, ← next_ok hok, hs, cached_self]
    rfl
  have hquiet : Unannounced d e₀ g.entry → Told d id s [] g.entry :=
    fun h => .inr ⟨fun _ hx => absurd hx List.not_mem_nil, e₀, loaded_found hl, h⟩
  cases op with
  | decideTask =>
    cases hop
    rw [announcements, htells]
    exact told_announced d id s g.entry
  | updateTask _ sender messages attempt =>
    cases hop
    by_cases hlistens : quietAt env id (listens env sender messages) s
    · rw [announcements, if_pos hlistens]
      rw [quietAt, lockedTask_ok.mpr hl] at hlistens
      apply hquiet
      cases hb with
      | update h => exact listens_unannounced hlistens h
      | read => exact .same e₀
    · rw [announcements, if_neg hlistens, htells]
      exact told_announced d id s g.entry
  | acknowledgeTask =>
    apply hquiet
    cases hb with
    | acknowledge h => exact acknowledged_unannounced h
    | read => exact .same e₀
  | getFormattedTask =>
    cases hb with
    | read => exact hquiet (.same e₀)
  | addDevice | activateDevice | addGroupTask | addSignTask | addDecryptTask => cases hop
  | restartStaleTasks | restartServer => cases hop

theorem target_told {j : Uuid} (hop : target op = some j) (hi : Invariant s)
    (hok : result env op s = .ok ()) (hf : Found (next env op s) id e) :
    Told d id s (announcements env op s) e := by
  have hcache := announcements_cached hop hok
  obtain ⟨e₀, g, hl, hb, hs⟩ := target_served hop hok
  have hsound := task_sound hi hl hb
  rw [hs] at hf hcache
  simp only [cached_self, Option.some.injEq] at hcache
  by_cases hj : id = j
  · subst hj
    cases found_cached hf
    exact target_told_self hop hok hl hb hs
  · refine told_other hi hsound.toSound ?_ (fun x hx => (hcache x hx).symm) hj hf
    rw [hsound.taskCache, cached_of_ne hj]

theorem request_told (hop : isRequest op) (hi : Invariant s) (hok : result env op s = .ok ())
    (hf : Found (next env op s) id e) : Told d id s (announcements env op s) e := by
  obtain ⟨v, db, hmade, hrows, hs⟩ := request_ok hop hok
  have htells : announcements env op s = [.voting v] := by
    have hann : announcements env op s = announced env.newUuid (outcome (exec env op) s) := by
      cases op with
      | addGroupTask | addSignTask | addDecryptTask => rfl
      | _ => cases hop
    rw [hann, announced_ok hok, ← next_ok hok, hs, ← hmade.id, cached_self]
    rfl
  rw [htells]
  rw [hs] at hf
  by_cases hid : id = v.taskInfo.id
  · subst hid
    cases found_cached hf
    exact told_announced d _ s _
  · refine told_other hi ?_ ?_ (fun x hx => List.mem_singleton.mp hx) hid hf
    · exact admitted_sound hi hmade.admitted hrows
    · rfl

theorem sweep_told (l : List Uuid) (hi : Invariant s) (hn : l.Nodup)
    (hc : ∀ id ∈ l, s.db.isRestartCandidate id)
    (hf : Found (outcome (restartTasks env l) s).2 id e) :
    (∃ l₁ l₂, sweepAnnouncements env l s = l₁ ++ e :: l₂ ∧ ∀ x ∈ l₂, x.taskInfo.id ≠ id) ∨
      (∀ x ∈ sweepAnnouncements env l s, x.taskInfo.id ≠ id) ∧ (Found s id e ∨
        id ∈ l ∧ ∃ stop, (outcome (restartTasks env l) s).1 = .error stop) := by
  induction l generalizing s with
  | nil => exact .inr ⟨fun _ hx => absurd hx List.not_mem_nil, .inl hf⟩
  | cons j l ih =>
    rw [List.nodup_cons] at hn
    have hfirst : post (withTaskMut env j (restartEntry env j)) s
        (TaskOutcome env j (RestartEntryOutcome env j) s) := restartTask_outcome env j s
    rw [post] at hfirst
    rw [restartTasks, outcome_bind] at hf ⊢
    rw [sweepAnnouncements]
    generalize outcome (withTaskMut env j (restartEntry env j)) s = first at hfirst hf ⊢
    obtain ⟨r, s₁⟩ := first
    dsimp only at hfirst
    cases hfirst with
    | notLoaded => exact .inr ⟨fun _ hx => absurd hx List.not_mem_nil, .inl hf⟩
    | @loaded e₀ _ g hl hb =>
      have body : BodyOutcome env .restartStaleTasks j ⟨e₀, cached s j e₀⟩ r g :=
        .restart (hc j (by simp)) hb
      have hsound := task_sound hi hl body
      have hother : id ≠ j → Found (cached g.server j g.entry) id e → Found s id e := by
        intro hj
        refine found_other hi hsound.toSound ?_ hj
        rw [hsound.taskCache, cached_of_ne hj]
      cases r with
      | error stop =>
        refine .inr ⟨fun _ hx => absurd hx List.not_mem_nil, ?_⟩
        by_cases hj : id = j
        · exact .inr ⟨by simp [hj], stop, rfl⟩
        · exact .inl (hother hj hf)
      | ok a =>
        have hi₁ := (move_invariant hi (.task hl body)).1
        have hc₁ : ∀ k ∈ l, (cached g.server j g.entry).db.isRestartCandidate k := by
          intro k hk
          have hne : k ≠ j := fun he => hn.1 (he ▸ hk)
          exact (isRestartCandidate_congr (hsound.others k hne)).trans (hc k (by simp [hk]))
        have hid : g.entry.taskInfo.id = j := found_id hi₁ (.inl (cached_self ..))
        simp only [announced, cached_self, Option.toList_some, afterOk, List.singleton_append]
        rcases ih hi₁ hn.2 hc₁ hf with ⟨l₁, l₂, hl, hlast⟩ | ⟨hnone, hrest⟩
        · exact .inl ⟨g.entry :: l₁, l₂, by rw [hl, List.cons_append], hlast⟩
        by_cases hj : id = j
        · subst hj
          rcases hrest with hf₁ | ⟨hmem, -⟩
          · cases found_cached hf₁
            exact .inl ⟨[], _, rfl, hnone⟩
          · exact absurd hmem hn.1
        · refine .inr ⟨?_, hrest.imp (hother hj) ?_⟩
          · rw [List.forall_mem_cons, hid]
            exact ⟨Ne.symm hj, hnone⟩
          · exact fun h => ⟨List.mem_cons_of_mem _ h.1, h.2⟩

/-- A call that fails leaves the task as it was, or has announced it. -/
def FailsCleanly (env : Env) (op : Op) (s : Server) (id : Uuid) : Prop :=
  ∀ stop, result env op s = .error stop → ∀ e, Found (next env op s) id e →
    Found s id e ∨ ∃ x ∈ announcements env op s, x.taskInfo.id = id

omit [External] in
theorem aside_found {s' : Server} (ha : Aside s s') : Found s' id e ↔ Found s id e := by
  unfold Found
  rw [ha.taskCache, ha.db]

theorem stale_told (hi : Invariant s) (hup : result env .restartStaleTasks s ≠ .error .crash)
    (hclean : FailsCleanly env .restartStaleTasks s id)
    (hf : Found (next env .restartStaleTasks s) id e) :
    Told d id s (announcements env .restartStaleTasks s) e := by
  have hnext : next env .restartStaleTasks s = (outcome (restartStaleTasks env) s).2 := by
    rw [next_eq, if_neg hup]
    rfl
  have hfail : (∀ x ∈ announcements env .restartStaleTasks s, x.taskInfo.id ≠ id) →
      (∃ stop, result env .restartStaleTasks s = .error stop) → Found s id e := by
    rintro hnone ⟨stop, hstop⟩
    rcases hclean stop hstop e hf with hs | ⟨x, hx, hid⟩
    · exact hs
    · exact absurd hid (hnone x hx)
  have hcandidates := restartCandidates_post env s
  have hann : announcements env .restartStaleTasks s =
    afterOk (outcome (restartCandidates env) s) (sweepAnnouncements env) := rfl
  have hresult : result env .restartStaleTasks s = (outcome (restartStaleTasks env) s).1 := rfl
  rw [hresult] at hfail
  rw [hann] at hfail ⊢
  rw [hnext] at hf
  rw [post] at hcandidates
  rw [restartStaleTasks, outcome_bind] at hf hfail
  generalize outcome (restartCandidates env) s = first at hcandidates hf hfail ⊢
  obtain ⟨r, s'⟩ := first
  rcases hcandidates with ⟨⟨stop, rfl⟩, rfl⟩ | ⟨stale, rfl, ha, hsub⟩
  · exact told_same (fun _ hx => absurd hx List.not_mem_nil) hf
  · have hc : ∀ j ∈ stale, s'.db.isRestartCandidate j := by
      intro j hj
      rw [ha.db]
      exact candidate_of_mem (hsub.subset hj)
    rcases sweep_told stale (invariant_aside hi ha) (hsub.nodup (candidates_nodup _)) hc hf with
      hlast | ⟨hnone, hs' | ⟨-, hstop⟩⟩
    · exact .inl hlast
    · exact told_same hnone ((aside_found ha).mp hs')
    · exact told_same hnone (hfail hnone hstop)

theorem failed_silent (hop : op ≠ .restartStaleTasks) {stop : Stop}
    (hstop : result env op s = .error stop) : announcements env op s = [] := by
  have hsilent : ∀ j, announced j (outcome (exec env op) s) = [] := by
    intro j
    rw [announced, show (outcome (exec env op) s).1 = .error stop from hstop]
  cases op with
  | updateTask =>
    rw [announcements, hsilent]
    exact ite_self []
  | decideTask | addGroupTask | addSignTask | addDecryptTask => exact hsilent _
  | restartStaleTasks => exact absurd rfl hop
  | addDevice | activateDevice | acknowledgeTask | getFormattedTask | restartServer => rfl

/-- What a call that the process survives tells about a task. -/
theorem step_told (hi : Invariant s) (hop : op ≠ .restartServer)
    (hup : result env op s ≠ .error .crash) (hclean : FailsCleanly env op s id)
    (hf : Found (next env op s) id e) : Told d id s (announcements env op s) e := by
  by_cases hsweep : op = .restartStaleTasks
  · subst hsweep
    exact stale_told hi hup hclean hf
  cases hr : result env op s with
  | error stop =>
    have hsilent := failed_silent hsweep hr
    refine told_same ?_ ?_
    · rw [hsilent]
      exact fun _ hx => absurd hx List.not_mem_nil
    · rcases hclean stop hr e hf with hs | ⟨x, hx, -⟩
      · exact hs
      · rw [hsilent] at hx
        exact absurd hx List.not_mem_nil
  | ok a =>
    cases op with
    | addGroupTask | addSignTask | addDecryptTask => exact request_told rfl hi hr hf
    | decideTask | updateTask | acknowledgeTask | getFormattedTask => exact target_told rfl hi hr hf
    | activateDevice => exact told_same (fun _ hx => absurd hx List.not_mem_nil) hf
    | addDevice device =>
      rw [next_ok hr] at hf
      refine told_same (fun _ hx => absurd hx List.not_mem_nil) ?_
      revert hf
      change post (exec env (.addDevice device)) s (fun _ t => Found t id e → Found s id e)
      simp only [exec, addDevice, post_bind]
      refine repoWrite_post (fun _ _ h => h) fun db w h => ?_
      refine found_of_sameTask hi ?_ ?_ ?_ h
      · exact extends_addDevice hi.tables.constraints w.write
      · exact sameTask_addDevice w.write id
      · rfl
    | restartStaleTasks => exact absurd rfl hsweep
    | restartServer => exact absurd rfl hop

end Calls

section Knowledge

variable {d : Bytes} {id : Uuid} {e : TaskEntry} {s : Server} {A : List TaskEntry}

def lastAbout (id : Uuid) (l : List ProtoTask) : Option ProtoTask :=
  (l.filter fun p => p.id = id).getLast?

theorem lastAbout_append (id : Uuid) (l l' : List ProtoTask) :
    lastAbout id (l ++ l') = (lastAbout id l').or (lastAbout id l) := by
  simp only [lastAbout, List.filter_append, List.getLast?_append]

theorem lastAbout_eq_none {l : List ProtoTask} (h : ∀ p ∈ l, p.id ≠ id) :
    lastAbout id l = none := by
  rw [lastAbout, List.getLast?_eq_none_iff, List.filter_eq_nil_iff]
  intro p hp hid
  exact h p hp (of_decide_eq_true hid)

theorem lastAbout_all {l : List ProtoTask} {p : ProtoTask} (hne : l ≠ []) (h : ∀ q ∈ l, q = p) :
    lastAbout p.id l = some p := by
  have hall : l.filter (fun q => q.id = p.id) = l := by
    rw [List.filter_eq_self]
    intro q hq
    rw [h q hq]
    exact decide_eq_true rfl
  rw [lastAbout, hall, List.getLast?_eq_some_getLast hne, h _ (List.getLast_mem hne)]

def sentTo (d : Bytes) (A : List TaskEntry) : List ProtoTask :=
  A.flatMap fun e => addressed d (updatesOf e)

theorem format_id (e : TaskEntry) (d request : Option Bytes) :
    (e.format d request).id = e.taskInfo.id := by
  cases e <;> rfl

theorem addressed_id {p : ProtoTask} (h : p ∈ addressed d (updatesOf e)) :
    p.id = e.taskInfo.id := by
  obtain ⟨⟨d', update⟩, hmem, rfl⟩ := List.mem_map.mp h
  rcases List.mem_append.mp (List.mem_of_mem_filter hmem) with hp | hp
  · obtain ⟨_, -, hq⟩ := List.mem_map.mp hp
    cases hq
    exact format_id ..
  · obtain ⟨_, -, hq⟩ := List.mem_map.mp hp
    cases hq
    exact format_id ..

theorem addressed_participant (ha : Apart e.taskInfo)
    (hd : d ∈ ActiveShares.ids e.taskInfo.participants) :
    addressed d (updatesOf e) ≠ [] ∧
      ∀ p ∈ addressed d (updatesOf e), p = e.format (some d) none := by
  obtain ⟨participant, hmem, rfl⟩ := List.mem_map.mp hd
  constructor
  · have hupdate : (participant.device.id, e.format (some participant.device.id) none) ∈
        updatesOf e := List.mem_append_left _ (List.mem_map.mpr ⟨participant, hmem, rfl⟩)
    apply List.ne_nil_of_mem
    exact List.mem_map_of_mem (List.mem_filter.mpr ⟨hupdate, decide_eq_true rfl⟩)
  · intro p hp
    obtain ⟨⟨d', update⟩, hupdate, rfl⟩ := List.mem_map.mp hp
    obtain ⟨hp, hd'⟩ := List.mem_filter.mp hupdate
    have hd' := of_decide_eq_true hd'
    rcases List.mem_append.mp hp with hp | hp
    · obtain ⟨q, -, hq⟩ := List.mem_map.mp hp
      cases hq
      dsimp only at hd' ⊢
      rw [hd']
    · obtain ⟨q, hobserver, hq⟩ := List.mem_map.mp hp
      cases hq
      exact absurd (hd' ▸ hobserver) (ha participant hmem)

theorem sentTo_silent (h : ∀ x ∈ A, x.taskInfo.id ≠ id) : lastAbout id (sentTo d A) = none := by
  refine lastAbout_eq_none fun p hp => ?_
  obtain ⟨x, hx, hp⟩ := List.mem_flatMap.mp hp
  rw [addressed_id hp]
  exact h x hx

theorem sentTo_announced {l₁ l₂ : List TaskEntry} (ha : Apart e.taskInfo)
    (hd : d ∈ ActiveShares.ids e.taskInfo.participants) (hid : e.taskInfo.id = id)
    (hlast : ∀ x ∈ l₂, x.taskInfo.id ≠ id) :
    lastAbout id (sentTo d (l₁ ++ e :: l₂)) = some (e.format (some d) none) := by
  obtain ⟨hne, hall⟩ := addressed_participant ha hd
  have hfirst := lastAbout_all hne hall
  rw [format_id, hid] at hfirst
  have hsplit : sentTo d (l₁ ++ e :: l₂) =
      sentTo d l₁ ++ (addressed d (updatesOf e) ++ sentTo d l₂) := by
    simp only [sentTo, List.flatMap_append, List.flatMap_cons]
  rw [hsplit, lastAbout_append, lastAbout_append, sentTo_silent hlast, hfirst]
  rfl

end Knowledge

section Runs

variable [External] {d : Bytes} {tx : ℕ} {id : Uuid} {e : TaskEntry} {n : Node}
  {ev : PushModel.Event} {first : Option ProtoTask} {got : List ProtoTask}

def deliveredBy (tx : ℕ) (n : Node) : PushModel.Event → List ProtoTask
  | .receive channel => if channel = tx then (n.feeds.channels tx).queue.head?.toList else []
  | _ => []

def taken (tx : ℕ) : Node → List PushModel.Event → List ProtoTask
  | _, [] => []
  | n, ev :: events => deliveredBy tx n ev ++ taken tx (PushModel.next n ev) events

def delivered (d : Bytes) (n : Node) : PushModel.Event → List ProtoTask
  | .call env op => sentTo d (announcements env op n.server)
  | _ => []

/-- No call on the way fails after it has changed the task. -/
def CleanRun (id : Uuid) : Node → List PushModel.Event → Prop
  | _, [] => True
  | n, ev :: events =>
    (∀ env op, ev = .call env op → FailsCleanly env op n.server id) ∧
      CleanRun id (PushModel.next n ev) events

omit [External] in
theorem owned_restore (f : Feeds) : Owned f.restore := by
  constructor
  · intro d tx h
    cases h
  · intro d d' tx h
    cases h

/-- An event leaves the channel of a device that is registered afterwards in order: nothing is
lost and nothing is put in but the announcements. -/
structure InOrder (n : Node) (ev : PushModel.Event) (d : Bytes) (tx : ℕ) : Prop where
  registered : n.feeds.subscribers d = some tx
  queue : deliveredBy tx n ev ++ ((PushModel.next n ev).feeds.channels tx).queue =
    (n.feeds.channels tx).queue ++ delivered d n ev
  survived : ∀ env op, ev = .call env op →
    op ≠ .restartServer ∧ result env op n.server ≠ .error .crash

theorem call_inOrder (h : Owned n.feeds) (env : Env) (op : Op) :
    Owned (PushModel.call env op n).feeds ∧
    (PushModel.call env op n).feeds.opened = n.feeds.opened ∧
    ∀ d tx, (PushModel.call env op n).feeds.subscribers d = some tx →
      InOrder n (.call env op) d tx := by
  by_cases hop : op = .restartServer
  · subst hop
    refine ⟨owned_restore _, rfl, fun d tx hsub => ?_⟩
    cases hsub
  obtain ⟨howned, hopened, hspec⟩ := announceAll_spec (announcements env op n.server) h
  by_cases hcrash : result env op n.server = .error .crash
  · rw [call_crash hop hcrash]
    refine ⟨owned_restore _, hopened, fun d tx hsub => ?_⟩
    cases hsub
  · have hcall := call_survived hop hcrash
    rw [hcall]
    refine ⟨howned, hopened, fun d tx hsub => ?_⟩
    obtain ⟨hold, hqueue⟩ := hspec d tx hsub
    refine ⟨hold, ?_, ?_⟩
    · change [] ++ ((PushModel.call env op n).feeds.channels tx).queue = _
      rw [hcall, List.nil_append]
      exact hqueue
    · rintro _ _ ⟨⟩
      exact ⟨hop, hcrash⟩

theorem next_inOrder (h : Owned n.feeds) (ev : PushModel.Event) :
    Owned (PushModel.next n ev).feeds ∧ n.feeds.opened ≤ (PushModel.next n ev).feeds.opened ∧
    ∀ d tx, (PushModel.next n ev).feeds.subscribers d = some tx → tx < n.feeds.opened →
      InOrder n ev d tx := by
  cases ev with
  | call env op =>
    obtain ⟨howned, hopened, hspec⟩ := call_inOrder h env op
    exact ⟨howned, hopened.ge, fun d tx hsub _ => hspec d tx hsub⟩
  | addSubscriber d' =>
    refine ⟨h.addSubscriber d', Nat.le_succ _, fun d tx hsub hold => ?_⟩
    change Function.update n.feeds.subscribers d' (some n.feeds.opened) d = some tx at hsub
    have hd : d ≠ d' := by
      rintro rfl
      rw [Function.update_self] at hsub
      cases hsub
      exact lt_irrefl _ hold
    rw [Function.update_of_ne hd] at hsub
    refine ⟨hsub, ?_, fun _ _ hev => by cases hev⟩
    change [] ++ (Function.update n.feeds.channels n.feeds.opened .new tx).queue = _ ++ []
    rw [Function.update_of_ne (Nat.ne_of_lt hold), List.nil_append, List.append_nil]
  | receive channel =>
    refine ⟨h.shrink (fun _ _ h => h) rfl, le_rfl, fun d tx hsub _ => ?_⟩
    refine ⟨hsub, ?_, fun _ _ hev => by cases hev⟩
    change (ite (channel = tx) _ _) ++
      (Function.update n.feeds.channels channel (n.feeds.channels channel).receive tx).queue =
        _ ++ []
    by_cases hc : channel = tx
    · subst hc
      rw [if_pos rfl, Function.update_self, List.append_nil]
      change _ ++ (n.feeds.channels channel).queue.tail = _
      cases (n.feeds.channels channel).queue <;> rfl
    · rw [if_neg hc, Function.update_of_ne (Ne.symm hc), List.nil_append, List.append_nil]
  | close channel =>
    refine ⟨h.shrink (fun _ _ h => h) rfl, le_rfl, fun d tx hsub _ => ?_⟩
    refine ⟨hsub, ?_, fun _ _ hev => by cases hev⟩
    change [] ++
      (Function.update n.feeds.channels channel (n.feeds.channels channel).close tx).queue =
      _ ++ []
    by_cases hc : channel = tx
    · subst hc
      rw [Function.update_self, List.append_nil]
      rfl
    · rw [Function.update_of_ne (Ne.symm hc), List.nil_append, List.append_nil]
  | checkSubscribers now order =>
    have hfeeds : (PushModel.checkSubscribers now order n).feeds =
        (PushModel.checkLoop now order [] n).1.foldl Feeds.removeSubscriber n.feeds := by
      rw [PushModel.checkSubscribers, ← (checkLoop_server now order [] n).2]
    obtain ⟨hremoved, hchannels, hopened⟩ :=
      removed_subscribers (PushModel.checkLoop now order [] n).1 n.feeds
    rw [← hfeeds] at hremoved hchannels hopened
    refine ⟨h.shrink (fun d tx hsub => (hremoved d tx hsub).2) hopened, hopened.ge,
      fun d tx hsub _ => ?_⟩
    refine ⟨(hremoved d tx hsub).2, ?_, fun _ _ hev => by cases hev⟩
    change [] ++ ((PushModel.checkSubscribers now order n).feeds.channels tx).queue = _ ++ []
    rw [hchannels, List.nil_append, List.append_nil]

def Following (d : Bytes) (tx : ℕ) (id : Uuid) (first : Option ProtoTask) (got : List ProtoTask)
    (n : Node) : Prop :=
  ∀ e, Found n.server id e → d ∈ ActiveShares.ids e.taskInfo.participants →
    ∃ p, (lastAbout id (got ++ (n.feeds.channels tx).queue)).or first = some p ∧ Shows d p e

theorem call_following {env : Env} {op : Op} (hi : Invariant n.server)
    (hapart : AllApart (ServerModel.next env op n.server))
    (hi' : Invariant (ServerModel.next env op n.server))
    (h : Following d tx id first got n) (horder : InOrder n (.call env op) d tx)
    (hclean : FailsCleanly env op n.server id) :
    Following d tx id first got (PushModel.call env op n) := by
  obtain ⟨hop, hup⟩ := horder.survived env op rfl
  have hqueue : ((PushModel.call env op n).feeds.channels tx).queue =
      (n.feeds.channels tx).queue ++ sentTo d (announcements env op n.server) := horder.queue
  intro e hf hd
  rw [call_server] at hf
  rw [hqueue, ← List.append_assoc, lastAbout_append]
  rcases step_told hi hop hup hclean hf with ⟨l₁, l₂, hA, hlast⟩ | ⟨hnone, e₀, hf₀, hquiet⟩
  · rw [hA, sentTo_announced (found_apart hi' hapart hf) hd (found_id hi' hf) hlast]
    exact ⟨_, rfl, .inl rfl⟩
  · rw [sentTo_silent hnone, Option.none_or]
    obtain ⟨p, hp, hshows⟩ := h e₀ hf₀ (hquiet.info ▸ hd)
    exact ⟨p, hp, hquiet.shows hshows⟩

theorem activations_aside (s : Server) (now : ℕ) (order : List Bytes) :
    Aside s (runOps s (order.map fun deviceId =>
      (servingEnv now 0, .activateDevice deviceId))) := by
  induction order generalizing s with
  | nil => exact .refl s
  | cons deviceId order ih =>
    have hfirst : Aside s (ServerModel.next (servingEnv now 0) (.activateDevice deviceId) s) :=
      ⟨rfl, rfl, rfl, rfl⟩
    exact hfirst.trans (ih _)

theorem next_aside (hev : ∀ env op, ev ≠ .call env op) :
    Aside n.server (PushModel.next n ev).server := by
  rw [next_server]
  cases ev with
  | call env op => exact absurd rfl (hev env op)
  | addSubscriber | receive | close => exact .refl _
  | checkSubscribers now order => exact activations_aside n.server now _

theorem next_reachable (h : Reachable n.server) (ev : PushModel.Event) :
    Reachable (PushModel.next n ev).server := by
  rw [next_server]
  exact reachable_later h (later_runOps _ _)

theorem next_following (hreach : Reachable n.server) (h : Following d tx id first got n)
    (horder : InOrder n ev d tx)
    (hclean : ∀ env op, ev = .call env op → FailsCleanly env op n.server id) :
    Following d tx id first (got ++ deliveredBy tx n ev) (PushModel.next n ev) := by
  by_cases hcall : ∃ env op, ev = .call env op
  · obtain ⟨env, op, rfl⟩ := hcall
    have hreach' : Reachable (ServerModel.next env op n.server) := .step env op hreach
    rw [show got ++ deliveredBy tx n (.call env op) = got from List.append_nil got]
    exact call_following (reachable_invariant hreach) (reachable_apart hreach')
      (reachable_invariant hreach') h horder (hclean env op rfl)
  · push Not at hcall
    have hdelivered : delivered d n ev = [] := by
      cases ev with
      | call env op => exact absurd rfl (hcall env op)
      | addSubscriber | receive | close | checkSubscribers => rfl
    intro e hf hd
    rw [List.append_assoc, horder.queue, hdelivered, List.append_nil]
    exact h e ((aside_found (next_aside hcall)).mp hf) hd

theorem run_registered (events : List PushModel.Event) (howned : Owned n.feeds)
    (hold : tx < n.feeds.opened)
    (hsub : (PushModel.run n events).feeds.subscribers d = some tx) :
    n.feeds.subscribers d = some tx := by
  induction events generalizing n with
  | nil => exact hsub
  | cons ev events ih =>
    obtain ⟨howned', hopened, horder⟩ := next_inOrder howned ev
    exact (horder d tx (ih howned' (Nat.lt_of_lt_of_le hold hopened) hsub) hold).registered

theorem run_following (events : List PushModel.Event) (hreach : Reachable n.server)
    (howned : Owned n.feeds) (hold : tx < n.feeds.opened) (h : Following d tx id first got n)
    (hclean : CleanRun id n events)
    (hsub : (PushModel.run n events).feeds.subscribers d = some tx) :
    Following d tx id first (got ++ taken tx n events) (PushModel.run n events) := by
  induction events generalizing n got with
  | nil =>
    rw [taken, List.append_nil]
    exact h
  | cons ev events ih =>
    obtain ⟨howned', hopened, horder⟩ := next_inOrder howned ev
    have hold' := Nat.lt_of_lt_of_le hold hopened
    have hregistered := run_registered events howned' hold' hsub
    rw [taken, ← List.append_assoc]
    exact ih (next_reachable hreach ev) howned' hold'
      (next_following hreach h (horder d tx hregistered hold) hclean.1) hclean.2 hsub

theorem run_initial (events : List PushModel.Event) :
    Reachable (PushModel.run PushModel.initial events).server ∧
      Owned (PushModel.run PushModel.initial events).feeds := by
  have hrun : ∀ n, Reachable n.server → Owned n.feeds →
      Reachable (PushModel.run n events).server ∧ Owned (PushModel.run n events).feeds := by
    induction events with
    | nil => exact fun n hreach howned => ⟨hreach, howned⟩
    | cons ev events ih =>
      exact fun n hreach howned => ih _ (next_reachable hreach ev) (next_inOrder howned ev).1
  exact hrun _ .initial owned_empty

theorem subscribed_queue (n : Node) (d : Bytes) :
    ((PushModel.next n (.addSubscriber d)).feeds.channels n.feeds.opened).queue = [] := by
  have hnew : (PushModel.next n (.addSubscriber d)).feeds.channels n.feeds.opened = .new :=
    Function.update_self ..
  rw [hnew]
  rfl

/-- A device that has subscribed knows its tasks from the updates in its channel: the last one
about a task shows it as a poll would now, and so does the poll at the subscription as long as
there is none. -/
theorem stream_shows_task {before events : List PushModel.Event} {n₀ n : Node}
    (hn₀ : n₀ = PushModel.run PushModel.initial before)
    (hn : n = PushModel.next n₀ (.addSubscriber d)) (htx : tx = n₀.feeds.opened)
    (hfirst : ∀ e, Found n₀.server id e → first = some (e.format (some d) none))
    (hclean : CleanRun id n events)
    (hsub : (PushModel.run n events).feeds.subscribers d = some tx)
    (hf : Found (PushModel.run n events).server id e)
    (hd : d ∈ ActiveShares.ids e.taskInfo.participants) :
    ∃ p, (lastAbout id (taken tx n events ++
        ((PushModel.run n events).feeds.channels tx).queue)).or first = some p ∧
      Shows d p e := by
  subst hn₀ hn htx
  obtain ⟨hreach, howned⟩ := run_initial before
  have hstart : Following d (PushModel.run PushModel.initial before).feeds.opened id first []
      (PushModel.next (PushModel.run PushModel.initial before) (.addSubscriber d)) := by
    intro e₀ hf₀ _
    refine ⟨e₀.format (some d) none, ?_, .inl rfl⟩
    rw [subscribed_queue, hfirst e₀ hf₀]
    rfl
  exact run_following events (next_reachable hreach _) (next_inOrder howned _).1
    (Nat.lt_succ_self _) hstart hclean hsub e hf hd

def allOk : Node → List PushModel.Event → Bool
  | _, [] => true
  | n, .call env op :: events =>
    (result env op n.server).isOk && allOk (PushModel.next n (.call env op)) events
  | n, ev :: events => allOk (PushModel.next n ev) events

theorem cleanRun_allOk (events : List PushModel.Event) (h : allOk n events) :
    CleanRun id n events := by
  induction events generalizing n with
  | nil => trivial
  | cons ev events ih =>
    cases ev with
    | call env op =>
      obtain ⟨hok, hrest⟩ := Bool.and_eq_true_iff.mp h
      refine ⟨?_, ih hrest⟩
      rintro _ _ ⟨⟩ stop hstop
      rw [hstop] at hok
      cases hok
    | addSubscriber | receive | close | checkSubscribers =>
      exact ⟨fun _ _ hev => (by cases hev), ih h⟩

omit [External] in
theorem not_found {s : Server} (hmiss : (s.taskCache id).isSome = false)
    (hrow : (hydrateTask s.db id).isOk = false) (e : TaskEntry) : ¬ Found s id e := by
  rintro (hc | ⟨-, hh⟩)
  · rw [hc] at hmiss
    cases hmiss
  · rw [hh] at hrow
    cases hrow

/-- Alice subscribes before the group is requested. Both approve it, and Alice answers the
certificates. -/
def devicesAdded : List PushModel.Event :=
  [.call (servingEnv 0 0) (.addDevice alice), .call (servingEnv 0 0) (.addDevice bob)]

def groupFollowed : List PushModel.Event :=
  [.call (servingEnv 0 0)
      (.addGroupTask "Group" ⟨[alice.id, bob.id], pair_fits⟩ 2 .frost .signChallenge none),
    .receive 0, .call (servingEnv 0 0) (.decideTask 0 alice.id true),
    .call (servingEnv 0 0) (.decideTask 0 bob.id true), .receive 0,
    .call (servingEnv 0 0) (.updateTask 0 alice.id (answer [7]) 0)]

def subscribed : Node :=
  @PushModel.next plainExternal (@PushModel.run plainExternal PushModel.initial devicesAdded)
    (.addSubscriber alice.id)

omit [External] in
/-- The update that Alice has not read yet shows the task, which has the answer of Alice by
now. -/
theorem stream_shows_task_group : ∃ t p,
    Found (@PushModel.run plainExternal subscribed groupFollowed).server 0 (.running t) ∧
    lastAbout 0 (@taken plainExternal 0 subscribed groupFollowed ++
      ((@PushModel.run plainExternal subscribed groupFollowed).feeds.channels 0).queue) = some p ∧
    Shows alice.id p (.running t) := by
  have hfound : (ResultAgreement.foundRunning (lockedTask (servingEnv 0 0)
      (@PushModel.run plainExternal subscribed groupFollowed).server 0)).map
        (fun t => decide (alice.id ∈ ActiveShares.ids t.taskInfo.participants)) = some true := by
    decide +kernel
  obtain ⟨t, ht, hd⟩ := Option.map_eq_some_iff.mp hfound
  have hf := loaded_found (lockedTask_ok.mp (ResultAgreement.foundRunning_some ht))
  have hsub : (@PushModel.run plainExternal subscribed groupFollowed).feeds.subscribers alice.id =
      some 0 := by decide +kernel
  have hclean : @CleanRun plainExternal 0 subscribed groupFollowed :=
    @cleanRun_allOk plainExternal 0 subscribed groupFollowed (by decide +kernel)
  have htx : 0 = (@PushModel.run plainExternal PushModel.initial devicesAdded).feeds.opened := by
    decide +kernel
  have hmiss : ((@PushModel.run plainExternal PushModel.initial devicesAdded).server.taskCache
      0).isSome = false := by decide +kernel
  have hrow : (hydrateTask (@PushModel.run plainExternal PushModel.initial
      devicesAdded).server.db 0).isOk = false := by decide +kernel
  have hfirst : ∀ e, Found (@PushModel.run plainExternal PushModel.initial devicesAdded).server
      0 e →
      none = some (e.format (some alice.id) none) :=
    fun e h => absurd h (not_found hmiss hrow e)
  obtain ⟨p, hp, hshows⟩ := @stream_shows_task plainExternal alice.id 0 0 (.running t) none
    devicesAdded groupFollowed _ subscribed rfl rfl htx hfirst hclean hsub hf (of_decide_eq_true hd)
  rw [Option.or_none] at hp
  exact ⟨t, p, hf, hp, hshows⟩

end Runs

end StreamFollowing
