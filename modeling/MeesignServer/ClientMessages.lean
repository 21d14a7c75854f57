import MeesignServer.AcknowledgedUpdates

/-!
# Messages that stop an update

Any device may send any messages in any round. An update stops with a panic when a message
has neither a broadcast nor enough unicasts, and in the last round when a broadcast is
missing, when verified broadcasts differ, or when the key of a GG18 group has the wrong
length. Which of these a last round meets first depends on the order in which its messages
are walked, so the order is a parameter here.
-/
namespace ClientMessages

open FallibleProgram FiniteMap DataModel CommunicatorModel ProtocolModel VotingModel
open RunningTaskModel ServerModel TaskOutcomes ServerOutcomes
open MessageBuffers BufferInvariant CachedBuffers MessageHistory AcknowledgedUpdates
open ResultAgreement

/-- The order in which a hash map of messages is walked. -/
structure WalkOrder where
  walk : Map ℕ ClientMessage → Map ℕ ClientMessage
  perm : ∀ m, (walk m).entries.Perm m.entries

def WalkOrder.same : WalkOrder := ⟨id, fun _ => .refl _⟩

def WalkOrder.reorder (order : WalkOrder) (c : Communicator) : Communicator :=
  { c with input := order.walk c.input }

theorem reorder_same (c : Communicator) : WalkOrder.same.reorder c = c := rfl

theorem exists_order (m : Map ℕ ClientMessage) {l : List (Sigma fun _ : ℕ => ClientMessage)}
    (h : l.Perm m.entries) : ∃ order : WalkOrder, (order.walk m).entries = l := by
  classical
  let walk (m' : Map ℕ ClientMessage) : Map ℕ ClientMessage :=
    if m' = m then ⟨l, (List.perm_nodupKeys h).mpr m.nodupKeys⟩ else m'
  refine ⟨⟨walk, fun m' => ?_⟩, ?_⟩
  · by_cases hm : m' = m
    · simp only [walk, hm, ↓reduceIte]
      exact h
    · simp only [walk, hm, ↓reduceIte]
      exact .refl _
  · simp only [walk, ↓reduceIte]

theorem roundReceived_reorder (order : WalkOrder) (c : Communicator) :
    (order.reorder c).roundReceived = c.roundReceived := by
  have hlen : len (order.walk c.input) = len c.input := (order.perm c.input).length_eq
  unfold Communicator.roundReceived
  rw [show (order.reorder c).input = order.walk c.input from rfl, hlen]
  rfl

theorem exists_first {e : Sigma fun _ : ℕ => ClientMessage} {m : Map ℕ ClientMessage}
    (he : e ∈ m.entries) : ∃ l, (e :: l).Perm m.entries := by
  obtain ⟨before, after, heq⟩ := List.append_of_mem he
  refine ⟨before ++ after, ?_⟩
  rw [heq]
  exact List.perm_middle.symm

theorem exists_first_two {e e' : Sigma fun _ : ℕ => ClientMessage} {m : Map ℕ ClientMessage}
    (he : e ∈ m.entries) (he' : e' ∈ m.entries) (hne : e' ≠ e) :
    ∃ l, (e :: e' :: l).Perm m.entries := by
  obtain ⟨l, hl⟩ := exists_first he
  have hmem : e' ∈ l := by
    rcases List.mem_cons.mp (hl.mem_iff.mpr he') with heq | hl
    · exact absurd heq hne
    · exact hl
  obtain ⟨before, after, heq⟩ := List.append_of_mem hmem
  refine ⟨before ++ after, .trans (.cons e ?_) hl⟩
  rw [heq]
  exact List.perm_middle.symm

def withSession : RunningTask → Session → RunningTask
  | .group task, s => .group { task with toSession := s }
  | .sign task, s => .sign { task with toSession := s }
  | .signPdf task, s => .signPdf ⟨{ task.signTask with toSession := s }⟩
  | .decrypt task, s => .decrypt { task with toSession := s }

@[simp] theorem session_withSession (t : RunningTask) (s : Session) :
    (withSession t s).session = s := by
  cases t <;> rfl

theorem ready_withSession (t : RunningTask) (session : Session) :
    ready (withSession t session) = ready t := by
  cases t <;> rfl

def keyed : RunningTask → Bool
  | .group task => task.protocol.getType = .gg18
  | _ => false

theorem keyed_withSession (t : RunningTask) (c : Communicator) :
    keyed (withSession t ⟨c, t.session.protocol⟩) = keyed t := by
  cases t <;> rfl

section Updates

variable [External]

def nextRoundOf (helper : Helper) : EStateM Stop Runner RoundUpdate := do
  match (← get).task with
  | .group task => RunningTask.run .group task (GroupTask.nextRound helper)
  | .sign task => RunningTask.run .sign task SignTask.nextRound
  | .signPdf task => RunningTask.runPdf task (SignPDFTask.nextRound helper)
  | .decrypt task => RunningTask.run .decrypt task DecryptTask.nextRound

/-- `update`, with the messages of a complete round walked in the given order. -/
def updateIn (order : WalkOrder) (helper : Helper) (d : Bytes) (messages : List ClientMessage) :
    EStateM Stop Runner RoundUpdate := do
  let task := (← get).task
  if !task.waitingFor d then throw notWaiting
  else if !ready task then throw (.panic .certificatesNotSent)
  else do
    let (_, c) ← fromExcept (task.session.communicator.receiveMessages d messages)
    modify fun r => { r with task := withSession task ⟨order.reorder c, task.session.protocol⟩ }
    if (← get).task.session.roundComplete then nextRoundOf helper
    else return .listen

variable {t : RunningTask} {helpers : PdfHelpers} {helper : Helper} {d : Bytes}
  {messages : List ClientMessage}

section NextRound

variable {Q : Except Stop RoundUpdate → Runner → Prop}

theorem post_nextRoundOf_group (t : GroupTask) : post (nextRoundOf helper) ⟨.group t, helpers⟩ Q ↔
    post (GroupTask.nextRound helper) t fun r t' => Q r ⟨.group t', helpers⟩ := by
  simp only [nextRoundOf, post_bind, post_get, RunningTask.run, post_zoom]

theorem post_nextRoundOf_sign (t : SignTask) : post (nextRoundOf helper) ⟨.sign t, helpers⟩ Q ↔
    post SignTask.nextRound t fun r t' => Q r ⟨.sign t', helpers⟩ := by
  simp only [nextRoundOf, post_bind, post_get, RunningTask.run, post_zoom]

theorem post_nextRoundOf_signPdf (t : SignPDFTask) :
    post (nextRoundOf helper) ⟨.signPdf t, helpers⟩ Q ↔
      post (SignPDFTask.nextRound helper) ⟨t, helpers⟩
        fun r s => Q r ⟨.signPdf s.task, s.helpers⟩ := by
  simp only [nextRoundOf, post_bind, post_get, RunningTask.runPdf, post_zoom]

theorem post_nextRoundOf_decrypt (t : DecryptTask) :
    post (nextRoundOf helper) ⟨.decrypt t, helpers⟩ Q ↔
      post DecryptTask.nextRound t fun r t' => Q r ⟨.decrypt t', helpers⟩ := by
  simp only [nextRoundOf, post_bind, post_get, RunningTask.run, post_zoom]

end NextRound

theorem post_updateIn {order : WalkOrder} {Q : Except Stop RoundUpdate → Runner → Prop} :
    post (updateIn order helper d messages) ⟨t, helpers⟩ Q ↔
      if !t.waitingFor d then Q (.error notWaiting) ⟨t, helpers⟩
      else if !ready t then Q (.error (.panic .certificatesNotSent)) ⟨t, helpers⟩
      else match t.session.communicator.receiveMessages d messages with
        | .error stop => Q (.error stop) ⟨t, helpers⟩
        | .ok (_, c) =>
          let t' := withSession t ⟨order.reorder c, t.session.protocol⟩
          if t'.session.roundComplete then post (nextRoundOf helper) ⟨t', helpers⟩ Q
          else Q (.ok .listen) ⟨t', helpers⟩ := by
  simp only [updateIn, post_bind, post_get]
  split_ifs
  · rfl
  · rfl
  · simp only [post_bind, post_fromExcept]
    cases t.session.communicator.receiveMessages d messages with
    | error stop => rfl
    | ok p =>
      simp only [post_modify, post_get]
      split_ifs <;> rfl

/-- The order of the model is one of the orders. -/
theorem post_updateIn_same {Q : Except Stop RoundUpdate → Runner → Prop} :
    post (updateIn .same helper d messages) ⟨t, helpers⟩ Q ↔
      post (RunningTask.update helper d messages) ⟨t, helpers⟩ Q := by
  simp only [post_updateIn, RunningTask.update, post_bind, post_get, RunningTask.waitingFor,
    session_withSession, reorder_same]
  -- The steps of `update` are the same for all kinds of tasks up to the next round.
  cases t with
  | group t =>
    simp only [RunningTask.session, ready, RunningTask.run, post_zoom, GroupTask.update, post_bind,
      post_get, GroupTask.waitingFor]
    by_cases hw : t.communicator.waitingFor d
    · by_cases hc : t.certificatesSent
      · have hnot : ¬ (!t.certificatesSent) = true := by simp [hc]
        simp only [hw, hnot, GroupTask.onSession, Bool.not_true, Bool.false_eq_true, ↓reduceIte,
          post_bind, post_zoom, post_receive, post_get]
        cases t.communicator.receiveMessages d messages with
        | error stop => rfl
        | ok p =>
          by_cases hr : (⟨p.2, t.protocol⟩ : Session).roundComplete
          · simp only [hr, ↓reduceIte]
            exact post_nextRoundOf_group _
          · simp only [hr, Bool.false_eq_true, ↓reduceIte]
            rfl
      · simp only [hw, hc, Bool.not_true, Bool.not_false, Bool.false_eq_true, ↓reduceIte]
        rfl
    · simp only [hw, Bool.not_false, ↓reduceIte]
      rfl
  | sign t =>
    simp only [RunningTask.session, ready, RunningTask.run, post_zoom, SignTask.update,
      SignTask.updateInternal, post_bind, post_get, SignTask.waitingFor]
    by_cases hw : t.communicator.waitingFor d
    · simp only [hw, SignTask.onSession, Bool.not_true, Bool.false_eq_true, ↓reduceIte, post_bind,
        post_zoom, post_receive, post_get]
      cases t.communicator.receiveMessages d messages with
      | error stop => rfl
      | ok p =>
        by_cases hr : (⟨p.2, t.protocol⟩ : Session).roundComplete
        · simp only [hr, post_pure, ↓reduceIte]
          exact post_nextRoundOf_sign _
        · simp only [hr, post_pure, Bool.false_eq_true, ↓reduceIte]
          rfl
    · simp only [hw, Bool.not_false, ↓reduceIte]
      rfl
  | signPdf t =>
    simp only [RunningTask.session, ready, RunningTask.runPdf, post_zoom, SignPDFTask.update,
      SignPDFTask.onSignTask, SignTask.updateInternal, post_bind, post_get, SignTask.waitingFor]
    by_cases hw : t.signTask.communicator.waitingFor d
    · simp only [hw, SignTask.onSession, Bool.not_true, Bool.false_eq_true, ↓reduceIte, post_bind,
        post_zoom, post_receive, post_get]
      cases t.signTask.communicator.receiveMessages d messages with
      | error stop => rfl
      | ok p =>
        by_cases hr : (⟨p.2, t.signTask.protocol⟩ : Session).roundComplete
        · simp only [hr, post_pure, ↓reduceIte]
          exact post_nextRoundOf_signPdf _
        · simp only [hr, post_pure, Bool.false_eq_true, ↓reduceIte]
          rfl
    · simp only [hw, Bool.not_false, ↓reduceIte]
      rfl
  | decrypt t =>
    simp only [RunningTask.session, ready, RunningTask.run, post_zoom, DecryptTask.update,
      DecryptTask.updateInternal, post_bind, post_get, DecryptTask.waitingFor]
    by_cases hw : t.communicator.waitingFor d
    · simp only [hw, DecryptTask.onSession, Bool.not_true, Bool.false_eq_true, ↓reduceIte,
      post_bind,
        post_zoom, post_receive, post_get]
      cases t.communicator.receiveMessages d messages with
      | error stop => rfl
      | ok p =>
        by_cases hr : (⟨p.2, t.protocol⟩ : Session).roundComplete
        · simp only [hr, post_pure, ↓reduceIte]
          exact post_nextRoundOf_decrypt _
        · simp only [hr, post_pure, Bool.false_eq_true, ↓reduceIte]
          rfl
    · simp only [hw, Bool.not_false, ↓reduceIte]
      rfl

end Updates

section LastMessages

variable [External] {c : Communicator} {e e' : Sigma fun _ : ℕ => ClientMessage}
  {l : List (Sigma fun _ : ℕ => ClientMessage)} {last : Option Bytes} {w : Bytes}

def verified (c : Communicator) (e : Sigma fun _ : ℕ => ClientMessage) : Option Bytes :=
  (c.activeShares.lookup (e.1 - c.protocolType.indexOffset)).bind fun device =>
    e.2.broadcast.bind fun broadcast => External.verifyBroadcast broadcast device.certificate

def Known (c : Communicator) (e : Sigma fun _ : ℕ => ClientMessage) : Prop :=
  c.protocolType.indexOffset ≤ e.1 ∧
    (c.activeShares.lookup (e.1 - c.protocolType.indexOffset)).isSome

theorem loop_no_broadcast (hk : Known c e) (hb : e.2.broadcast = none) :
    c.finalMessageLoop (e :: l) last = .error (.panic .finalMessageWithoutBroadcast) := by
  obtain ⟨hoffset, hsome⟩ := hk
  obtain ⟨device, hdevice⟩ := Option.isSome_iff_exists.mp hsome
  rw [Communicator.finalMessageLoop, if_neg (not_lt.mpr hoffset), hdevice]
  simp only [hb]

theorem loop_cons (hk : Known c e) (hb : e.2.broadcast.isSome) :
    c.finalMessageLoop (e :: l) last =
      match verified c e with
      | none => .ok none
      | some v =>
        if last.all (· = v) then c.finalMessageLoop l (some v)
        else .error (.panic .finalMessagesDiffer) := by
  obtain ⟨hoffset, hsome⟩ := hk
  obtain ⟨device, hdevice⟩ := Option.isSome_iff_exists.mp hsome
  obtain ⟨broadcast, hbroadcast⟩ := Option.isSome_iff_exists.mp hb
  have hverified : verified c e = External.verifyBroadcast broadcast device.certificate := by
    simp only [verified, hdevice, hbroadcast, Option.bind_some]
  rw [Communicator.finalMessageLoop, if_neg (not_lt.mpr hoffset), hdevice, hverified]
  cases hv : External.verifyBroadcast broadcast device.certificate with
  | none => simp only [hbroadcast, hv]
  | some v => simp only [hbroadcast, hv]

theorem loop_step (hk : Known c e) (hb : e.2.broadcast.isSome) (hv : verified c e = some w)
    (hlast : ∀ v ∈ last, v = w) :
    c.finalMessageLoop (e :: l) last = c.finalMessageLoop l (some w) := by
  have hall : last.all (· = w) := by
    rw [Option.all_eq_true]
    intro v hmem
    exact decide_eq_true (hlast v hmem)
  rw [loop_cons hk hb, hv]
  exact if_pos hall

omit [External] in
theorem eq_of_mem_some {v : Bytes} (h : v ∈ some w) : v = w := (Option.some.inj h).symm

theorem loop_agreed (hk : ∀ e ∈ l, Known c e) (hb : ∀ e ∈ l, e.2.broadcast.isSome)
    (hv : ∀ e ∈ l, verified c e = some w) (hlast : ∀ v ∈ last, v = w)
    (hne : l = [] → last = some w) :
    c.finalMessageLoop l last = .ok (some w) := by
  induction l generalizing last with
  | nil =>
    rw [hne rfl]
    rfl
  | cons e l ih =>
    rw [List.forall_mem_cons] at hk hb hv
    rw [loop_step hk.1 hb.1 hv.1 hlast]
    exact ih hk.2 hb.2 hv.2 (fun v => eq_of_mem_some) (fun _ => rfl)

theorem loop_unverified (hk : ∀ e ∈ l, Known c e) (hb : ∀ e ∈ l, e.2.broadcast.isSome)
    (hv : ∀ e ∈ l, ∀ v, verified c e = some v → v = w) (hlast : ∀ v ∈ last, v = w)
    (hfail : ∃ e ∈ l, verified c e = none) : c.finalMessageLoop l last = .ok none := by
  induction l generalizing last with
  | nil =>
    obtain ⟨e, he, -⟩ := hfail
    cases he
  | cons e l ih =>
    rw [List.forall_mem_cons] at hk hb hv
    cases hverified : verified c e with
    | none => rw [loop_cons hk.1 hb.1, hverified]
    | some v =>
      obtain rfl := hv.1 v hverified
      rw [loop_step hk.1 hb.1 hverified hlast]
      apply ih hk.2 hb.2 hv.2 (fun v' => eq_of_mem_some)
      obtain ⟨e', he', hnone⟩ := hfail
      rcases List.mem_cons.mp he' with rfl | hrest
      · rw [hverified] at hnone
        cases hnone
      · exact ⟨e', hrest, hnone⟩

theorem broadcast_of_verified (h : verified c e = some w) : e.2.broadcast.isSome := by
  simp only [verified, Option.bind_eq_some_iff] at h
  obtain ⟨-, -, broadcast, hb, -⟩ := h
  rw [hb]
  rfl

theorem loop_differ {v v' : Bytes} (hk : Known c e) (hk' : Known c e')
    (hv : verified c e = some v) (hv' : verified c e' = some v') (hne : v ≠ v') :
    c.finalMessageLoop (e :: e' :: l) none = .error (.panic .finalMessagesDiffer) := by
  have hnone : ∀ w ∈ (none : Option Bytes), w = v := nofun
  rw [loop_step hk (broadcast_of_verified hv) hv hnone,
    loop_cons hk' (broadcast_of_verified hv'), hv']
  apply if_neg
  intro h
  exact hne (of_decide_eq_true h)

end LastMessages

section Answers

variable [External]

inductive FinalAnswer (keyed : Bool) :
    Except Stop (Option Bytes) → Except Stop RoundUpdate → Prop where
  | stopped {stop : Stop} : FinalAnswer keyed (.error stop) (.error stop)
  | failed {task : FailedTask} : FinalAnswer keyed (.ok none) (.ok (.failed task))
  | finished {final : Bytes} {round : ℕ} {task : FinishedTask} (h : keyed → final.length = 65) :
      FinalAnswer keyed (.ok (some final)) (.ok (.finished round task))
  | notIssued {final : Bytes} (h : final.length = 65) :
      FinalAnswer keyed (.ok (some final)) (.error (.err .io))
  | badKey {final : Bytes} (asked : keyed) (h : final.length ≠ 65) :
      FinalAnswer keyed (.ok (some final)) (.error (.panic .publicKeyLength))

theorem group_answer (helper : Helper) (t : GroupTask)
    (last : t.protocol.round = t.protocol.lastRound) : post (GroupTask.finalizeTask helper) t
      fun r _ => FinalAnswer (keyed (.group t)) t.communicator.getFinalMessage r := by
  simp only [GroupTask.finalizeTask, GroupTask.onSession, post_bind, post_zoom, post_get,
    post_finalize last]
  cases t.communicator.getFinalMessage with
  | error stop => exact .stopped
  | ok final =>
    cases final with
    | none => exact .failed
    | some final =>
      simp only [post_bind, post_fromExcept]
      by_cases hkey : t.incrementRound.protocol.getType = .gg18
      · have hasked : keyed (.group t) := decide_eq_true hkey
        by_cases hlen : final.length = 65
        · cases hc : helper.issuedCertificate with
          | none =>
            simp only [GroupTask.issueCertificate, hkey, hlen, hc, ↓reduceIte, Except.map]
            exact .notIssued hlen
          | some certificate =>
            simp only [GroupTask.issueCertificate, hkey, hlen, hc, ↓reduceIte, Except.map]
            exact .finished fun _ => hlen
        · simp only [GroupTask.issueCertificate, hkey, hlen, ↓reduceIte, Except.map]
          exact .badKey hasked hlen
      · simp only [hkey, ↓reduceIte]
        exact .finished fun hasked => absurd (of_decide_eq_true hasked) hkey

theorem sign_answer (t : SignTask) (last : t.protocol.round = t.protocol.lastRound) :
    post SignTask.finalizeTask t fun r _ =>
      FinalAnswer false t.communicator.getFinalMessage r := by
  simp only [SignTask.finalizeTask, SignTask.onSession, post_bind, post_zoom, post_get,
    post_finalize last]
  cases t.communicator.getFinalMessage with
  | error stop => exact .stopped
  | ok final =>
    cases final with
    | none => exact .failed
    | some final => exact .finished fun hasked => absurd hasked Bool.false_ne_true

theorem decrypt_answer (t : DecryptTask) (last : t.protocol.round = t.protocol.lastRound) :
    post DecryptTask.finalizeTask t fun r _ =>
      FinalAnswer false t.communicator.getFinalMessage r := by
  simp only [DecryptTask.finalizeTask, DecryptTask.onSession, post_bind, post_zoom, post_get,
    post_finalize last]
  cases t.communicator.getFinalMessage with
  | error stop => exact .stopped
  | ok final =>
    cases final with
    | none => exact .failed
    | some final => exact .finished fun hasked => absurd hasked Bool.false_ne_true

structure RoundAnswer (t : RunningTask) (r : Except Stop RoundUpdate) : Prop where
  goes_on : t.session.protocol.round < t.session.protocol.lastRound →
    ∃ round, r = .ok (.nextRound round)
  ends : t.session.protocol.round = t.session.protocol.lastRound →
    FinalAnswer (keyed t) t.session.communicator.getFinalMessage r

theorem roundAnswer_ends (t : RunningTask) {r : Except Stop RoundUpdate}
    (last : t.session.protocol.round = t.session.protocol.lastRound)
    (h : FinalAnswer (keyed t) t.session.communicator.getFinalMessage r) : RoundAnswer t r :=
  ⟨fun hlt => absurd last hlt.ne, fun _ => h⟩

theorem roundAnswer_goesOn {t : RunningTask} {round : ℕ}
    (h : t.session.protocol.round < t.session.protocol.lastRound) :
    RoundAnswer t (.ok (.nextRound round)) :=
  ⟨fun _ => ⟨round, rfl⟩, fun last => absurd last h.ne⟩

theorem group_roundAnswer (helper : Helper) (t : GroupTask) (hc : t.certificatesSent)
    (h : t.toSession.roundComplete) :
    post (GroupTask.nextRound helper) t fun r _ => RoundAnswer (.group t) r := by
  have hlast := t.protocol.lastRound_pos
  simp only [GroupTask.nextRound, post_bind, post_get, hc, Bool.not_true, Bool.false_eq_true,
    ↓reduceIte]
  rcases round_cases h with h0 | ⟨h0, hl⟩ | ⟨h0, hl, he⟩
  · rw [if_pos h0]
    have hlt : t.protocol.round < t.protocol.lastRound := by omega
    exact roundAnswer_goesOn hlt
  · rw [if_neg h0.ne', if_pos hl]
    simp only [GroupTask.advanceTask, GroupTask.onSession, post_bind, post_zoom, post_advance hl,
      post_get, post_pure]
    exact roundAnswer_goesOn hl
  · rw [if_neg h0, if_neg hl]
    exact post_mono (group_answer helper t he) fun _ _ => roundAnswer_ends (.group t) he

theorem sign_roundAnswer (t : SignTask) (h : t.toSession.roundComplete) :
    post SignTask.nextRound t fun r _ => RoundAnswer (.sign t) r := by
  have hlast := t.protocol.lastRound_pos
  simp only [SignTask.nextRound, post_bind, post_get]
  rcases round_cases h with h0 | ⟨h0, hl⟩ | ⟨h0, hl, he⟩
  · rw [if_pos h0]
    have hlt : t.protocol.round < t.protocol.lastRound := by omega
    exact roundAnswer_goesOn hlt
  · rw [if_neg h0.ne', if_pos hl]
    simp only [SignTask.advanceTask, SignTask.onSession, post_bind, post_zoom, post_advance hl,
      post_get, post_pure]
    exact roundAnswer_goesOn hl
  · rw [if_neg h0, if_neg hl]
    exact post_mono (sign_answer t he) fun _ _ => roundAnswer_ends (.sign t) he

theorem decrypt_roundAnswer (t : DecryptTask) (h : t.toSession.roundComplete) :
    post DecryptTask.nextRound t fun r _ => RoundAnswer (.decrypt t) r := by
  have hlast := t.protocol.lastRound_pos
  simp only [DecryptTask.nextRound, post_bind, post_get]
  rcases round_cases h with h0 | ⟨h0, hl⟩ | ⟨h0, hl, he⟩
  · rw [if_pos h0]
    have hlt : t.protocol.round < t.protocol.lastRound := by omega
    exact roundAnswer_goesOn hlt
  · rw [if_neg h0.ne', if_pos hl]
    simp only [DecryptTask.advanceTask, DecryptTask.onSession, post_bind, post_zoom,
      post_advance hl,
      post_get, post_pure]
    exact roundAnswer_goesOn hl
  · rw [if_neg h0, if_neg hl]
    exact post_mono (decrypt_answer t he) fun _ _ => roundAnswer_ends (.decrypt t) he

theorem nextRoundOf_answer {t : RunningTask} (helper : Helper) (helpers : PdfHelpers)
    (hpdf : isPdf t = false) (hready : ready t) (hcomplete : t.session.roundComplete) :
    post (nextRoundOf helper) ⟨t, helpers⟩ fun r _ => RoundAnswer t r := by
  cases t with
  | group t =>
    rw [post_nextRoundOf_group]
    exact group_roundAnswer helper t hready hcomplete
  | sign t =>
    rw [post_nextRoundOf_sign]
    exact sign_roundAnswer t hcomplete
  | signPdf t => cases hpdf
  | decrypt t =>
    rw [post_nextRoundOf_decrypt]
    exact decrypt_roundAnswer t hcomplete

end Answers

section Heard

variable {c : Communicator} {d : Bytes} {messages : List ClientMessage}

def heard (c : Communicator) (d : Bytes) (messages : List ClientMessage) : Communicator :=
  if (c.identifierToIndices d).length = messages.length then
    { c with input := extend c.input ((c.identifierToIndices d).zip messages) }
  else c

theorem identifierToIndices_ne_nil (h : c.waitingFor d) : c.identifierToIndices d ≠ [] := by
  intro hnil
  rw [Communicator.waitingFor, hnil] at h
  cases h

theorem receiveMessages_shape (hw : c.waitingFor d)
    (hshape : (c.identifierToIndices d).length = messages.length →
      ∀ msg ∈ messages, msg.broadcast.isSome ∨ len msg.unicasts = c.threshold - 1) :
    ∃ taken, c.receiveMessages d messages = .ok (taken, heard c d messages) := by
  unfold Communicator.receiveMessages heard
  by_cases hlen : (c.identifierToIndices d).length = messages.length
  · have hne : messages.isEmpty = false := by
      cases messages with
      | nil => exact absurd (List.eq_nil_of_length_eq_zero hlen) (identifierToIndices_ne_nil hw)
      | cons => rfl
    have hall : messages.all
        (fun msg => msg.broadcast.isSome || len msg.unicasts == c.threshold - 1) := by
      rw [List.all_eq_true]
      intro msg hmsg
      rcases hshape hlen msg hmsg with hb | hu
      · rw [hb]
        rfl
      · rw [hu, beq_self_eq_true, Bool.or_true]
    refine ⟨true, ?_⟩
    simp only [hne, hlen, hall, ne_eq, not_true_eq_false, decide_false, Bool.or_self,
      Bool.false_eq_true, ↓reduceIte]
  · refine ⟨false, ?_⟩
    simp only [hlen, ne_eq, not_false_eq_true, decide_true, Bool.or_true, ↓reduceIte]

theorem receiveMessages_misshapen {msg : ClientMessage}
    (hlen : (c.identifierToIndices d).length = messages.length) (hmsg : msg ∈ messages)
    (hbad : ¬ (msg.broadcast.isSome ∨ len msg.unicasts = c.threshold - 1)) :
    c.receiveMessages d messages = .error (.panic .clientMessageShape) := by
  have hne : messages.isEmpty = false := by
    cases messages with
    | nil => cases hmsg
    | cons => rfl
  have hall : ¬ messages.all
      (fun msg => msg.broadcast.isSome || len msg.unicasts == c.threshold - 1) := by
    intro h
    have hgood := List.all_eq_true.mp h msg hmsg
    rw [Bool.or_eq_true, beq_iff_eq] at hgood
    exact hbad hgood
  unfold Communicator.receiveMessages
  simp only [hne, hlen, hall, ne_eq, not_true_eq_false, decide_false, Bool.or_self,
    Bool.false_eq_true, ↓reduceIte]

end Heard

section Safe

variable [External]

/-- Last messages that stop nothing, in whatever order they are walked. -/
structure FinalSafe (keyed : Bool) (c : Communicator) : Prop where
  broadcast : ∀ e ∈ c.input.entries, e.2.broadcast.isSome
  agree : ∀ e ∈ c.input.entries, ∀ e' ∈ c.input.entries, ∀ v v',
    verified c e = some v → verified c e' = some v' → v = v'
  key : keyed → ∀ v, (∀ e ∈ c.input.entries, verified c e = some v) → v.length = 65

/-- No key, signature or text can be made of the last messages. -/
def Unusable (keyed : Bool) (c : Communicator) : Prop :=
  ¬ ∃ final, (∀ e ∈ c.input.entries, verified c e = some final) ∧ (keyed → final.length = 65)

/-- The device's messages complete the last round. -/
structure EndsTask (t : RunningTask) (d : Bytes) (messages : List ClientMessage) : Prop where
  waiting : t.waitingFor d
  received : (heard t.session.communicator d messages).roundReceived
  last : t.session.protocol.round = t.session.protocol.lastRound

/-- The messages that no assertion of an update refuses. -/
structure Acceptable (t : RunningTask) (d : Bytes) (messages : List ClientMessage) : Prop where
  is_ready : t.waitingFor d → ready t
  shape : t.waitingFor d → (t.session.communicator.identifierToIndices d).length = messages.length →
    ∀ msg ∈ messages, msg.broadcast.isSome ∨ len msg.unicasts = t.session.communicator.threshold - 1
  final : EndsTask t d messages → FinalSafe (keyed t) (heard t.session.communicator d messages)

/-- The answer of an update to messages it may not like. -/
def Withstands (t : RunningTask) (d : Bytes) (messages : List ClientMessage)
    (r : Except Stop RoundUpdate) : Prop :=
  (∀ panic, r ≠ .error (.panic panic)) ∧
  (EndsTask t d messages → Unusable (keyed t) (heard t.session.communicator d messages) →
    ∃ task, r = .ok (.failed task))

variable {t : RunningTask} {d : Bytes} {messages : List ClientMessage} {c : Communicator}
  {asked : Bool}

theorem FinalSafe.agreed (hsafe : FinalSafe asked c) :
    ∃ w, ∀ e ∈ c.input.entries, ∀ v, verified c e = some v → v = w := by
  by_cases h : ∃ e ∈ c.input.entries, ∃ w, verified c e = some w
  · obtain ⟨e, he, w, hw⟩ := h
    exact ⟨w, fun e' he' v hv => hsafe.agree e' he' e he v w hv hw⟩
  · exact ⟨[], fun e he v hv => absurd ⟨e, he, v, hv⟩ h⟩

theorem getFinalMessage_safe (hsafe : FinalSafe asked c) (hk : ∀ e ∈ c.input.entries, Known c e)
    (hne : c.input.entries ≠ []) :
    (∃ final, (∀ e ∈ c.input.entries, verified c e = some final) ∧
      (asked → final.length = 65) ∧
      ∀ order : WalkOrder, (order.reorder c).getFinalMessage = .ok (some final)) ∨
    ∀ order : WalkOrder, (order.reorder c).getFinalMessage = .ok none := by
  have hmem : ∀ (order : WalkOrder) e, e ∈ (order.reorder c).input.entries ↔ e ∈ c.input.entries :=
    fun order e => (order.perm c.input).mem_iff
  have hknown : ∀ order : WalkOrder, ∀ e ∈ (order.reorder c).input.entries,
      Known (order.reorder c) e := fun order e he => hk e ((hmem order e).mp he)
  have hbroadcast : ∀ order : WalkOrder, ∀ e ∈ (order.reorder c).input.entries,
      e.2.broadcast.isSome := fun order e he => hsafe.broadcast e ((hmem order e).mp he)
  obtain ⟨w, hw⟩ := hsafe.agreed
  by_cases hall : ∃ e ∈ c.input.entries, verified c e = none
  · right
    intro order
    apply loop_unverified (hknown order) (hbroadcast order)
    · intro e he
      exact hw e ((hmem order e).mp he)
    · exact nofun
    · obtain ⟨e, he, hnone⟩ := hall
      exact ⟨e, (hmem order e).mpr he, hnone⟩
  · left
    have hagreed : ∀ e ∈ c.input.entries, verified c e = some w := by
      intro e he
      obtain ⟨v, hv⟩ := Option.ne_none_iff_exists'.mp fun hnone => hall ⟨e, he, hnone⟩
      rw [hv, hw e he v hv]
    refine ⟨w, hagreed, fun hasked => hsafe.key hasked w hagreed, fun order => ?_⟩
    apply loop_agreed (hknown order) (hbroadcast order)
    · intro e he
      exact hagreed e ((hmem order e).mp he)
    · exact nofun
    · intro hnil
      obtain ⟨e, he⟩ := List.exists_mem_of_ne_nil _ hne
      have hin := (hmem order e).mpr he
      rw [hnil] at hin
      cases hin

/-- Messages that are not safe stop the round in some order. -/
theorem getFinalMessage_not_safe (hnot : ¬ FinalSafe asked c)
    (hk : ∀ e ∈ c.input.entries, Known c e) (hne : c.input.entries ≠ []) : ∃ order : WalkOrder,
      (∃ panic, (order.reorder c).getFinalMessage = .error (.panic panic)) ∨
      asked ∧ ∃ final, (order.reorder c).getFinalMessage = .ok (some final) ∧
        final.length ≠ 65 := by
  by_cases hb : ∀ e ∈ c.input.entries, e.2.broadcast.isSome
  · by_cases hagree : ∀ e ∈ c.input.entries, ∀ e' ∈ c.input.entries, ∀ v v',
        verified c e = some v → verified c e' = some v' → v = v'
    · have hkey : ¬ (asked → ∀ v, (∀ e ∈ c.input.entries, verified c e = some v) →
          v.length = 65) := fun hkey => hnot ⟨hb, hagree, hkey⟩
      push Not at hkey
      obtain ⟨hasked, final, hfinal, hlen⟩ := hkey
      refine ⟨.same, .inr ⟨hasked, final, ?_, hlen⟩⟩
      exact loop_agreed hk hb hfinal nofun fun hnil => absurd hnil hne
    · push Not at hagree
      obtain ⟨e, he, e', he', v, v', hv, hv', hvv⟩ := hagree
      have hee : e' ≠ e := by
        rintro rfl
        exact hvv (Option.some.inj (hv.symm.trans hv'))
      obtain ⟨l, hl⟩ := exists_first_two he he' hee
      obtain ⟨order, horder⟩ := exists_order c.input hl
      refine ⟨order, .inl ⟨.finalMessagesDiffer, ?_⟩⟩
      change (order.reorder c).finalMessageLoop (order.walk c.input).entries none = _
      rw [horder]
      exact loop_differ (c := order.reorder c) (hk e he) (hk e' he') hv hv' hvv
  · push Not at hb
    obtain ⟨e, he, hnone⟩ := hb
    obtain ⟨l, hl⟩ := exists_first he
    obtain ⟨order, horder⟩ := exists_order c.input hl
    refine ⟨order, .inl ⟨.finalMessageWithoutBroadcast, ?_⟩⟩
    change (order.reorder c).finalMessageLoop (order.walk c.input).entries none = _
    rw [horder]
    exact loop_no_broadcast (c := order.reorder c) (hk e he) (by simpa using hnone)

variable {helper : Helper} {helpers : PdfHelpers}

omit [External] in
theorem known_of_whole (h : Whole c) : ∀ e ∈ c.input.entries, Known c e :=
  fun _ he => h.share (mem_of_lookup (mem_entries_iff.mp he))

omit [External] in
theorem entries_ne_nil (h : c.roundReceived) : c.input.entries ≠ [] := by
  intro hnil
  have hlen : len c.input = len c.activeShares := beq_iff_eq.mp h
  have htwo := c.two_shares
  rw [← hlen, len, hnil] at htwo
  cases htwo

theorem complete_answer {order : WalkOrder} (hpdf : isPdf t = false) (hready : ready t)
    (hcomplete : (⟨order.reorder c, t.session.protocol⟩ : Session).roundComplete) :
    post (nextRoundOf helper) ⟨withSession t ⟨order.reorder c, t.session.protocol⟩, helpers⟩
      fun r _ => (t.session.protocol.round < t.session.protocol.lastRound →
          ∃ round, r = .ok (.nextRound round)) ∧
        (t.session.protocol.round = t.session.protocol.lastRound →
          FinalAnswer (keyed t) (order.reorder c).getFinalMessage r) := by
  have hpdf' : isPdf (withSession t ⟨order.reorder c, t.session.protocol⟩) = false := by
    rw [← hpdf]
    cases t <;> rfl
  have hready' : ready (withSession t ⟨order.reorder c, t.session.protocol⟩) := by
    rw [ready_withSession]
    exact hready
  refine post_mono (nextRoundOf_answer helper helpers hpdf' hready' ?_) fun r _ hanswer => ?_
  · rw [session_withSession]
    exact hcomplete
  · obtain ⟨hgoes, hends⟩ := hanswer
    rw [session_withSession] at hgoes hends
    rw [keyed_withSession] at hends
    exact ⟨hgoes, hends⟩

theorem safe_answer {order : WalkOrder} {r : Except Stop RoundUpdate} (hsafe : FinalSafe asked c)
    (hk : ∀ e ∈ c.input.entries, Known c e) (hne : c.input.entries ≠ [])
    (h : FinalAnswer asked (order.reorder c).getFinalMessage r) :
    (∀ panic, r ≠ .error (.panic panic)) ∧ (Unusable asked c → ∃ task, r = .ok (.failed task)) := by
  rcases getFinalMessage_safe hsafe hk hne with ⟨final, hfinal, hkey, hmessage⟩ | hmessage
  · have husable : ¬ Unusable asked c := fun hun => hun ⟨final, hfinal, hkey⟩
    rw [hmessage order] at h
    refine ⟨?_, fun hun => absurd hun husable⟩
    cases h with
    | finished => exact nofun
    | notIssued => exact nofun
    | badKey hasked hlen => exact absurd (hkey hasked) hlen
  · rw [hmessage order] at h
    cases h with
    | failed => exact ⟨nofun, fun _ => ⟨_, rfl⟩⟩

theorem acceptable_withstands (hwhole : Whole t.session.communicator)
    (hpdf : isPdf t = false) (h : Acceptable t d messages) (order : WalkOrder) :
    post (updateIn order helper d messages) ⟨t, helpers⟩ fun r _ => Withstands t d messages r := by
  rw [post_updateIn]
  by_cases hw : t.waitingFor d
  · have hready := h.is_ready hw
    obtain ⟨taken, hr⟩ := receiveMessages_shape hw (h.shape hw)
    simp only [hw, hready, hr, Bool.not_true, Bool.false_eq_true, ↓reduceIte, session_withSession]
    by_cases hc : (⟨order.reorder (heard t.session.communicator d messages), t.session.protocol⟩ :
        Session).roundComplete
    · rw [if_pos hc]
      have hparts := hc
      rw [Session.roundComplete, roundReceived_reorder, Bool.and_eq_true, decide_eq_true_eq]
        at hparts
      obtain ⟨hreceived, hle⟩ := hparts
      refine post_mono (complete_answer hpdf hready hc) fun r _ hanswer => ?_
      obtain ⟨hgoes, hends⟩ := hanswer
      rcases lt_or_eq_of_le hle with hlt | hlast
      · obtain ⟨round, rfl⟩ := hgoes hlt
        refine ⟨?_, fun hend => absurd hend.last hlt.ne⟩
        intro panic hr
        cases hr
      · have hend : EndsTask t d messages := ⟨hw, hreceived, hlast⟩
        obtain ⟨hpanic, hfailed⟩ := safe_answer (h.final hend)
          (known_of_whole (hwhole.receive hr)) (entries_ne_nil hreceived) (hends hlast)
        exact ⟨hpanic, fun _ => hfailed⟩
    · rw [if_neg hc]
      constructor
      · intro panic hr
        cases hr
      · intro hend
        apply absurd _ hc
        rw [Session.roundComplete, roundReceived_reorder, Bool.and_eq_true, decide_eq_true_eq]
        exact ⟨hend.received, hend.last.le⟩
  · simp only [hw, Bool.not_false, ↓reduceIte]
    refine ⟨?_, fun hend => absurd hend.waiting hw⟩
    intro panic hr
    cases hr

theorem unacceptable_panics (helper : Helper) (helpers : PdfHelpers)
    (hwhole : Whole t.session.communicator)
    (hpdf : isPdf t = false) (h : ¬ Acceptable t d messages) : ∃ order : WalkOrder,
      post (updateIn order helper d messages) ⟨t, helpers⟩ fun r _ =>
        ∃ panic, r = .error (.panic panic) := by
  have hw : t.waitingFor d := by
    by_contra hw
    exact h ⟨fun h => absurd h hw, fun h => absurd h hw, fun h => absurd h.waiting hw⟩
  by_cases hready : ready t
  · by_cases hshape : (t.session.communicator.identifierToIndices d).length = messages.length →
      ∀ msg ∈ messages, msg.broadcast.isSome ∨
        len msg.unicasts = t.session.communicator.threshold - 1
    · obtain ⟨taken, hr⟩ := receiveMessages_shape hw hshape
      have hfinal : ¬ (EndsTask t d messages →
          FinalSafe (keyed t) (heard t.session.communicator d messages)) :=
        fun hfinal => h ⟨fun _ => hready, fun _ => hshape, hfinal⟩
      push Not at hfinal
      obtain ⟨hend, hnot⟩ := hfinal
      obtain ⟨order, hstops⟩ := getFinalMessage_not_safe hnot
        (known_of_whole (hwhole.receive hr)) (entries_ne_nil hend.received)
      have hc : (⟨order.reorder (heard t.session.communicator d messages), t.session.protocol⟩ :
          Session).roundComplete := by
        rw [Session.roundComplete, roundReceived_reorder, Bool.and_eq_true, decide_eq_true_eq]
        exact ⟨hend.received, hend.last.le⟩
      refine ⟨order, ?_⟩
      rw [post_updateIn]
      simp only [hw, hready, hr, hc, Bool.not_true, Bool.false_eq_true, ↓reduceIte,
        session_withSession]
      refine post_mono (complete_answer hpdf hready hc) fun r _ hanswer => ?_
      have hends := hanswer.2 hend.last
      rcases hstops with ⟨panic, hpanic⟩ | ⟨hasked, final, hfinal, hlen⟩
      · rw [hpanic] at hends
        cases hends
        exact ⟨panic, rfl⟩
      · rw [hfinal] at hends
        cases hends with
        | finished hkey => exact absurd (hkey hasked) hlen
        | notIssued hkey => exact absurd hkey hlen
        | badKey => exact ⟨.publicKeyLength, rfl⟩
    · push Not at hshape
      obtain ⟨hlen, msg, hmsg, hbad⟩ := hshape
      refine ⟨.same, ?_⟩
      rw [post_updateIn]
      have hr := receiveMessages_misshapen hlen hmsg (by simpa using hbad)
      simp only [hw, hready, hr, Bool.not_true, Bool.false_eq_true, ↓reduceIte]
      exact ⟨_, rfl⟩
  · refine ⟨.same, ?_⟩
    rw [post_updateIn]
    simp only [hw, hready, Bool.not_true, Bool.not_false, Bool.false_eq_true, ↓reduceIte]
    exact ⟨_, rfl⟩

/-- An update survives every order of the messages, and a last round with unusable messages
fails the task, exactly when its messages are acceptable. -/
theorem update_survives_iff {env : Env} {s : Server} {id : Uuid} (hs : Reachable s)
    (hl : lockedTask env s id = .ok (.running t)) (hpdf : isPdf t = false) :
    (∀ order : WalkOrder, post (updateIn order helper d messages) ⟨t, helpers⟩ fun r _ =>
      Withstands t d messages r) ↔ Acceptable t d messages := by
  have hwhole := found_whole hs (lockedTask_ok.mp hl)
  constructor
  · intro h
    by_contra hnot
    obtain ⟨order, hpanics⟩ := unacceptable_panics helper helpers hwhole hpdf hnot
    obtain ⟨⟨hsurvives, -⟩, panic, hpanic⟩ := post_and (h order) hpanics
    exact hsurvives panic hpanic
  · intro h order
    exact acceptable_withstands hwhole hpdf h order

omit [External] in
/-- Alice's message for the first round is acceptable in every order. -/
theorem update_survives_iff_alice : ∃ t,
    lockedTask (servingEnv 0 0) certificatesSent 0 = .ok (.running t) ∧
    ∀ order : WalkOrder, post (@updateIn plainExternal order (servingEnv 0 0).helper alice.id
      (answer [7])) ⟨t, .empty⟩ fun r _ => @Withstands plainExternal t alice.id (answer [7]) r := by
  have hfound : (foundRunning (lockedTask (servingEnv 0 0) certificatesSent 0)).map (fun t =>
      (isPdf t, ready t, (heard t.session.communicator alice.id (answer [7])).roundReceived)) =
        some (false, true, false) := by decide +kernel
  obtain ⟨t, ht, hfacts⟩ := Option.map_eq_some_iff.mp hfound
  simp only [Prod.mk.injEq] at hfacts
  obtain ⟨hpdf, hready, hreceived⟩ := hfacts
  have hacceptable : @Acceptable plainExternal t alice.id (answer [7]) := by
    apply @Acceptable.mk plainExternal
    · intro _
      exact hready
    · intro _ _ msg hmsg
      rw [answer, List.mem_singleton] at hmsg
      subst hmsg
      exact .inl rfl
    · intro hend
      exact absurd (hreceived.symm.trans (@EndsTask.received plainExternal _ _ _ hend)) nofun
  refine ⟨t, foundRunning_some ht, ?_⟩
  exact (@update_survives_iff plainExternal t alice.id (answer [7]) _ _ _ _ _
    certificatesSent_reachable (foundRunning_some ht) hpdf).mpr hacceptable

omit [External] in
/-- One message of Alice with neither a broadcast nor a unicast. -/
theorem empty_message_panics : @Reachable plainExternal certificatesSent ∧
    (foundRunning (lockedTask (servingEnv 0 0) certificatesSent 0)).map
      (fun t => (isPdf t, t.waitingFor alice.id)) = some (false, true) ∧
    @result plainExternal (servingEnv 0 0) (.updateTask 0 alice.id [⟨0, ∅, none⟩] 0)
      certificatesSent = .error (.panic .clientMessageShape) :=
  ⟨certificatesSent_reachable, by decide +kernel, by decide +kernel⟩

end Safe

end ClientMessages
