import MeesignServer.ServerModel

/-!
# Update streams

A device that subscribes gets a bounded channel. Calls of `send_updates` and of
`check_subscribers` run side by side with each other and with new subscriptions: each
collects the devices whose channels seem to be closed and removes them afterwards,
by their ids. A full channel counts as closed, and a removal does not look whether
the device has a new channel by then.
-/
namespace Subscriptions

open DataModel VotingModel RunningTaskModel ServerModel

/-- A channel of `tokio::sync::mpsc`. It is closed when its receiver is dropped. -/
structure Channel where
  queue : List ProtoTask
  isClosed : Bool

def capacity : ℕ := 8

inductive TrySendError where
  | full
  | closed

def Channel.new : Channel := ⟨[], false⟩

def Channel.trySend (c : Channel) (update : ProtoTask) : Except TrySendError Channel :=
  if c.isClosed then .error .closed
  else if c.queue.length < capacity then .ok { c with queue := c.queue ++ [update] }
  else .error .full

def Channel.receive (c : Channel) : Channel := { c with queue := c.queue.tail }

def Channel.close (c : Channel) : Channel := { c with isClosed := true }

/-- The loops of `send_updates` and `check_subscribers`: what is left to visit and which
devices are to be removed. Both end with the same loop of removals. -/
inductive Call where
  | sending (updates : List (Bytes × ProtoTask)) (remove : List Bytes)
  | checking (subscribers : List Bytes) (remove : List Bytes)
  | removing (remove : List Bytes)

def Call.remove : Call → List Bytes
  | .sending _ remove => remove
  | .checking _ remove => remove
  | .removing remove => remove

def Call.receiver : Call → Option Bytes
  | .sending ((deviceId, _) :: _) _ => some deviceId
  | _ => none

/-- Participants get their own view of the task. Observers get the view of nobody. -/
def updatesOf (task : TaskEntry) : List (Bytes × ProtoTask) :=
  task.taskInfo.participants.map (fun p => (p.device.id, task.format (some p.device.id) none)) ++
    task.taskInfo.observers.map fun observerId => (observerId, task.format none none)

/-- The `subscribers` map, and the channels behind the senders in it. A sender is the number of
its channel. -/
structure Feeds where
  subscribers : Bytes → Option ℕ
  channels : ℕ → Channel
  opened : ℕ

namespace Feeds

def empty : Feeds := ⟨fun _ => none, fun _ => .new, 0⟩

/-- `subscribe_updates` opens a channel and registers its sender in place of an older one. -/
def addSubscriber (f : Feeds) (deviceId : Bytes) : Feeds where
  subscribers := Function.update f.subscribers deviceId (some f.opened)
  channels := Function.update f.channels f.opened .new
  opened := f.opened + 1

def removeSubscriber (f : Feeds) (deviceId : Bytes) : Feeds :=
  { f with subscribers := Function.update f.subscribers deviceId none }

/-- One participant or observer of `send_updates`: `try_send`, and whether it failed. -/
def sendUpdate (f : Feeds) (deviceId : Bytes) (update : ProtoTask) : Bool × Feeds :=
  match f.subscribers deviceId with
  | none => (false, f)
  | some tx =>
    match (f.channels tx).trySend update with
    | .ok channel => (false, { f with channels := Function.update f.channels tx channel })
    | .error _ => (true, f)

/-- One subscriber of `check_subscribers`: whether its channel is closed, and the activations. -/
def checkSubscriber (f : Feeds) (deviceLastActivations : Bytes → Option ℕ) (now : ℕ)
    (deviceId : Bytes) : Bool × (Bytes → Option ℕ) :=
  match f.subscribers deviceId with
  | none => (false, deviceLastActivations)
  | some tx =>
    if (f.channels tx).isClosed then (true, deviceLastActivations)
    else (false, Function.update deviceLastActivations deviceId (some now))

def onChannel (f : Feeds) (channel : ℕ) (g : Channel → Channel) : Feeds :=
  { f with channels := Function.update f.channels channel (g (f.channels channel)) }

def sendLoop : List (Bytes × ProtoTask) → List Bytes → Feeds → List Bytes × Feeds
  | [], remove, f => (remove, f)
  | (deviceId, update) :: rest, remove, f =>
    let (failed, f) := f.sendUpdate deviceId update
    sendLoop rest (if failed then remove ++ [deviceId] else remove) f

def sendUpdates (f : Feeds) (task : TaskEntry) : Feeds :=
  let (remove, f) := sendLoop (updatesOf task) [] f
  remove.foldl removeSubscriber f

/-- A new process has no subscribers. The streams of the old one have ended. -/
def restore (f : Feeds) : Feeds :=
  { f with subscribers := fun _ => none, channels := fun tx => (f.channels tx).close }

end Feeds

structure Hub extends Feeds where
  deviceLastActivations : Bytes → Option ℕ
  calls : List Call

inductive Event where
  | addSubscriber (deviceId : Bytes)
  | receive (channel : ℕ)
  | close (channel : ℕ)
  | sendUpdates (task : TaskEntry)
  /-- The order in which the map is iterated is arbitrary. -/
  | checkSubscribers (order : List Bytes)
  | advance (call : ℕ) (now : ℕ)

namespace Hub

def empty : Hub := ⟨.empty, fun _ => none, []⟩

def advance (h : Hub) (now : ℕ) : Call → Call × Hub
  | .sending [] remove => (.removing remove, h)
  | .sending ((deviceId, update) :: rest) remove =>
    let (failed, feeds) := h.sendUpdate deviceId update
    (.sending rest (if failed then remove ++ [deviceId] else remove), { h with toFeeds := feeds })
  | .checking [] remove => (.removing remove, h)
  | .checking (deviceId :: rest) remove =>
    let (closed, deviceLastActivations) :=
      h.checkSubscriber h.deviceLastActivations now deviceId
    (.checking rest (if closed then remove ++ [deviceId] else remove),
      { h with deviceLastActivations })
  | .removing [] => (.removing [], h)
  | .removing (deviceId :: rest) =>
    (.removing rest, { h with toFeeds := h.removeSubscriber deviceId })

def step (h : Hub) : Event → Hub
  | .addSubscriber deviceId => { h with toFeeds := h.addSubscriber deviceId }
  | .receive channel => { h with toFeeds := h.onChannel channel Channel.receive }
  | .close channel => { h with toFeeds := h.onChannel channel Channel.close }
  | .sendUpdates task => { h with calls := h.calls ++ [.sending (updatesOf task) []] }
  | .checkSubscribers order => { h with calls := h.calls ++ [.checking order []] }
  | .advance i now =>
    match h.calls[i]? with
    | none => h
    | some call =>
      let (call, h') := h.advance now call
      { h' with calls := h'.calls.set i call }

end Hub

structure Watched where
  hub : Hub
  registered : Bytes → Option ℕ

def Watched.step (w : Watched) (ev : Event) : Watched where
  hub := w.hub.step ev
  registered := match ev with
    | .addSubscriber deviceId => Function.update w.registered deviceId (some w.hub.opened)
    | _ => w.registered

def Watched.initial : Watched := ⟨.empty, fun _ => none⟩

def Watched.run (w : Watched) (events : List Event) : Watched := events.foldl Watched.step w

/-- The last registered sender is in the map while its receiver is open. -/
def KeepsOpen (w : Watched) : Prop :=
  ∀ d tx, w.registered d = some tx → (w.hub.channels tx).isClosed = false →
    w.hub.subscribers d = some tx

/-- Nobody subscribes while a call is about to remove it, and no update meets a full channel
that is open. -/
def Undisturbed (h : Hub) : Event → Prop
  | .addSubscriber d => ∀ call ∈ h.calls, d ∉ call.remove
  | .advance i _ => ∀ call ∈ h.calls[i]?, ∀ d ∈ call.receiver, ∀ tx ∈ h.subscribers d,
      (h.channels tx).isClosed = false → (h.channels tx).queue.length < capacity
  | _ => True

instance (h : Hub) : DecidablePred (Undisturbed h)
  | .addSubscriber d => inferInstanceAs (Decidable (∀ call ∈ h.calls, d ∉ call.remove))
  | .advance i _ => inferInstanceAs (Decidable (∀ call ∈ h.calls[i]?, ∀ d ∈ call.receiver,
      ∀ tx ∈ h.subscribers d, (h.channels tx).isClosed = false →
        (h.channels tx).queue.length < capacity))
  | .receive _ | .close _ | .sendUpdates _ | .checkSubscribers _ =>
    inferInstanceAs (Decidable True)

inductive UndisturbedRun : Watched → Prop where
  | initial : UndisturbedRun .initial
  | step {w : Watched} (ev : Event) (h : UndisturbedRun w) (hev : Undisturbed w.hub ev) :
      UndisturbedRun (w.step ev)

structure Tidy (w : Watched) : Prop where
  opened : ∀ d tx, w.registered d = some tx → tx < w.hub.opened
  latest : ∀ d tx, w.hub.subscribers d = some tx → w.registered d = some tx
  survives : KeepsOpen w
  /-- Only devices whose last channel is closed are about to be removed. -/
  removed : ∀ call ∈ w.hub.calls, ∀ d ∈ call.remove, ∀ tx, w.registered d = some tx →
    (w.hub.channels tx).isClosed

theorem tidy_initial : Tidy .initial := by
  constructor
  · intro d tx hd
    cases hd
  · intro d tx hd
    cases hd
  · intro d tx hd
    cases hd
  · intro call hcall
    cases hcall

section Steps

variable {w : Watched} {d : Bytes} {tx : ℕ}

theorem Tidy.channels {channels : ℕ → Channel} (h : Tidy w)
    (hclosed : ∀ tx, (w.hub.channels tx).isClosed → (channels tx).isClosed) :
    Tidy ⟨{ w.hub with channels }, w.registered⟩ := by
  refine ⟨h.opened, h.latest, fun d tx hd hopen => h.survives d tx hd ?_,
    fun call hcall d hd tx htx => hclosed tx (h.removed call hcall d hd tx htx)⟩
  by_contra hclose
  rw [Bool.not_eq_false] at hclose
  have hstays := hclosed tx hclose
  rw [hopen] at hstays
  cases hstays

theorem Tidy.calls {calls : List Call} (h : Tidy w)
    (hcalls : ∀ call ∈ calls, ∀ d ∈ call.remove, ∀ tx, w.registered d = some tx →
      (w.hub.channels tx).isClosed) : Tidy ⟨{ w.hub with calls }, w.registered⟩ :=
  ⟨h.opened, h.latest, h.survives, hcalls⟩

theorem update_isClosed {channels : ℕ → Channel} {c : Channel}
    (hc : (channels tx).isClosed → c.isClosed) (tx' : ℕ) (h : (channels tx').isClosed) :
    (Function.update channels tx c tx').isClosed := by
  by_cases htx : tx' = tx
  · subst htx
    rw [Function.update_self]
    exact hc h
  · rwa [Function.update_of_ne htx]

theorem tidy_addSubscriber (h : Tidy w) (hev : Undisturbed w.hub (.addSubscriber d)) :
    Tidy (w.step (.addSubscriber d)) := by
  constructor
  · intro d' tx' hd'
    by_cases hd : d' = d
    · subst hd
      have htx : w.hub.opened = tx' := by simpa [Watched.step] using hd'
      simp [Watched.step, Hub.step, Feeds.addSubscriber, ← htx]
    · have hold := h.opened d' tx' (by simpa [Watched.step, hd] using hd')
      simp only [Watched.step, Hub.step, Feeds.addSubscriber]
      omega
  · intro d' tx' hd'
    by_cases hd : d' = d
    · subst hd
      simpa [Watched.step, Hub.step, Feeds.addSubscriber] using hd'
    · have hold := h.latest d' tx'
        (by simpa [Watched.step, Hub.step, Feeds.addSubscriber, hd] using hd')
      simpa [Watched.step, hd] using hold
  · intro d' tx' hd' hopen
    by_cases hd : d' = d
    · subst hd
      simpa [Watched.step, Hub.step, Feeds.addSubscriber] using hd'
    · have hreg : w.registered d' = some tx' := by simpa [Watched.step, hd] using hd'
      have hne : tx' ≠ w.hub.opened := (h.opened d' tx' hreg).ne
      have hold := h.survives d' tx' hreg (by
        simpa [Watched.step, Hub.step, Feeds.addSubscriber, hne] using hopen)
      simpa [Watched.step, Hub.step, Feeds.addSubscriber, hd] using hold
  · intro call hcall d' hd' tx' htx'
    have hne : d' ≠ d := by
      rintro rfl
      exact hev call hcall hd'
    have hreg : w.registered d' = some tx' := by simpa [Watched.step, hne] using htx'
    have hold := h.removed call hcall d' hd' tx' hreg
    have htx : tx' ≠ w.hub.opened := (h.opened d' tx' hreg).ne
    simpa [Watched.step, Hub.step, Feeds.addSubscriber, htx] using hold

theorem tidy_onChannel (h : Tidy w) {f : Channel → Channel}
    (hf : ∀ c, c.isClosed → (f c).isClosed) : 
      Tidy ⟨{ w.hub with toFeeds := w.hub.onChannel tx f }, w.registered⟩ :=
  h.channels (update_isClosed (hf _))

theorem tidy_set {i : ℕ} {call : Call} (h : Tidy w)
    (hcall : ∀ d ∈ call.remove, ∀ tx, w.registered d = some tx → (w.hub.channels tx).isClosed) :
    Tidy ⟨{ w.hub with calls := w.hub.calls.set i call }, w.registered⟩ := by
  refine h.calls fun call' hmem => ?_
  rcases List.mem_or_eq_of_mem_set hmem with hold | rfl
  · exact h.removed call' hold
  · exact hcall

theorem tidy_new {call : Call} (h : Tidy w) (hcall : call.remove = []) :
    Tidy ⟨{ w.hub with calls := w.hub.calls ++ [call] }, w.registered⟩ := by
  refine h.calls fun call' hmem => ?_
  rcases List.mem_append.mp hmem with hold | hnew
  · exact h.removed call' hold
  · rw [List.mem_singleton] at hnew
    subst hnew
    rw [hcall]
    intro d hd
    cases hd

theorem sendUpdate_tidy (h : Tidy w) (update : ProtoTask) (hroom : ∀ tx,
      w.hub.subscribers d = some tx → (w.hub.channels tx).isClosed = false →
      (w.hub.channels tx).queue.length < capacity) :
    Tidy ⟨{ w.hub with toFeeds := (w.hub.sendUpdate d update).2 }, w.registered⟩ ∧
      ((w.hub.sendUpdate d update).1 → ∀ tx, w.registered d = some tx →
        (w.hub.channels tx).isClosed) ∧
      ∀ tx, (w.hub.channels tx).isClosed →
        ((w.hub.sendUpdate d update).2.channels tx).isClosed := by
  unfold Feeds.sendUpdate
  cases hsub : w.hub.subscribers d with
  | none => exact ⟨h, nofun, fun _ hc => hc⟩
  | some tx =>
    have hreg := h.latest d tx hsub
    simp only [Channel.trySend]
    by_cases hc : (w.hub.channels tx).isClosed
    · rw [if_pos hc]
      refine ⟨h, fun _ tx' htx' => ?_, fun _ hc => hc⟩
      rw [hreg] at htx'
      cases htx'
      exact hc
    · rw [if_neg hc, if_pos (hroom tx hsub (Bool.not_eq_true _ ▸ hc))]
      have hstays : ∀ tx', (w.hub.channels tx').isClosed → (Function.update w.hub.channels tx
          ⟨(w.hub.channels tx).queue ++ [update], (w.hub.channels tx).isClosed⟩ tx').isClosed :=
        update_isClosed id
      exact ⟨h.channels hstays, nofun, hstays⟩

theorem checkSubscriber_closed (h : Tidy w) (now : ℕ) :
    (w.hub.checkSubscriber w.hub.deviceLastActivations now d).1 → ∀ tx,
      w.registered d = some tx → (w.hub.channels tx).isClosed := by
  unfold Feeds.checkSubscriber
  cases hsub : w.hub.subscribers d with
  | none =>
    intro hclosed
    cases hclosed
  | some tx =>
    have hreg := h.latest d tx hsub
    dsimp only
    split_ifs with hc
    · intro _ tx' htx'
      rw [hreg] at htx'
      cases htx'
      exact hc
    · intro hclosed
      cases hclosed

theorem removeSubscriber_tidy (h : Tidy w)
    (hclosed : ∀ tx, w.registered d = some tx → (w.hub.channels tx).isClosed) :
    Tidy ⟨{ w.hub with toFeeds := w.hub.removeSubscriber d }, w.registered⟩ := by
  refine ⟨h.opened, fun d' tx' hd' => ?_, fun d' tx' hd' hopen => ?_, h.removed⟩
  · by_cases hd : d' = d
    · subst hd
      simp [Feeds.removeSubscriber] at hd'
    · exact h.latest d' tx' (by simpa [Feeds.removeSubscriber, hd] using hd')
  · by_cases hd : d' = d
    · subst hd
      have hclose := hclosed tx' hd'
      change (w.hub.channels tx').isClosed = false at hopen
      rw [hopen] at hclose
      cases hclose
    · have hold := h.survives d' tx' hd' hopen
      simpa [Feeds.removeSubscriber, hd] using hold

theorem closed_collect {hub : Hub} {registered : Bytes → Option ℕ} {remove : List Bytes}
    {collected : Bool}
    (hremove : ∀ d' ∈ remove, ∀ tx, registered d' = some tx → (hub.channels tx).isClosed)
    (hnew : collected → ∀ tx, registered d = some tx → (hub.channels tx).isClosed) :
    ∀ d' ∈ (if collected then remove ++ [d] else remove), ∀ tx, registered d' = some tx →
      (hub.channels tx).isClosed := by
  intro d' hd' tx htx
  split_ifs at hd' with hc
  · rcases List.mem_append.mp hd' with hold | hd
    · exact hremove d' hold tx htx
    · rw [List.mem_singleton] at hd
      subst hd
      exact hnew hc tx htx
  · exact hremove d' hd' tx htx

theorem advance_tidy (h : Tidy w) {call : Call} {i now : ℕ} (hcall : w.hub.calls[i]? = some call)
    (hev : Undisturbed w.hub (.advance i now)) :
    Tidy ⟨(w.hub.advance now call).2, w.registered⟩ ∧
      ∀ d ∈ (w.hub.advance now call).1.remove, ∀ tx, w.registered d = some tx →
        ((w.hub.advance now call).2.channels tx).isClosed := by
  have hremove := h.removed call (List.mem_of_getElem? hcall)
  cases call with
  | sending updates remove =>
    cases updates with
    | nil => exact ⟨h, hremove⟩
    | cons u rest =>
      obtain ⟨d, update⟩ := u
      obtain ⟨htidy, hnew, hstays⟩ := sendUpdate_tidy (d := d) h update
        fun tx hsub hopen => hev _ hcall d rfl tx hsub hopen
      refine ⟨htidy, closed_collect (fun d' hd' tx htx => ?_) fun hfailed tx htx => ?_⟩
      · exact hstays tx (hremove d' hd' tx htx)
      · exact hstays tx (hnew hfailed tx htx)
  | checking subscribers remove =>
    cases subscribers with
    | nil => exact ⟨h, hremove⟩
    | cons d rest =>
      exact ⟨⟨h.opened, h.latest, h.survives, h.removed⟩,
        closed_collect hremove (checkSubscriber_closed h now)⟩
  | removing remove =>
    cases remove with
    | nil => exact ⟨h, hremove⟩
    | cons d rest =>
      refine ⟨removeSubscriber_tidy h (hremove d (List.mem_cons_self ..)), fun d' hd' tx htx => ?_⟩
      exact hremove d' (List.mem_cons_of_mem _ hd') tx htx

theorem tidy_step (h : Tidy w) {ev : Event} (hev : Undisturbed w.hub ev) : Tidy (w.step ev) := by
  cases ev with
  | addSubscriber d => exact tidy_addSubscriber h hev
  | receive tx => exact tidy_onChannel h fun _ hc => hc
  | close tx => exact tidy_onChannel h fun _ _ => rfl
  | sendUpdates task => exact tidy_new h rfl
  | checkSubscribers order => exact tidy_new h rfl
  | advance i now =>
    cases hcall : w.hub.calls[i]? with
    | none => simpa [Watched.step, Hub.step, hcall] using h
    | some call =>
      obtain ⟨htidy, hremove⟩ := advance_tidy h hcall hev
      have hset := tidy_set (i := i) htidy hremove
      simpa [Watched.step, Hub.step, hcall] using hset

end Steps

theorem undisturbedRun_tidy {w : Watched} (h : UndisturbedRun w) : Tidy w := by
  induction h with
  | initial => exact tidy_initial
  | step ev _ hev ih => exact tidy_step ih hev

/-- In every run without such a disturbance, an open subscription survives. -/
theorem open_subscription_survives {w : Watched} (h : UndisturbedRun w) : KeepsOpen w :=
  (undisturbedRun_tidy h).survives

def groupVote : TaskEntry :=
  .voting ⟨⟨0, "Group", .group, .frost, .signChallenge, [⟨alice, 1⟩, ⟨bob, 1⟩], [], 0, []⟩, ∅, 2,
    .group 2 none⟩

/-- Alice gets one update, and the subscription stays. -/
theorem open_subscription_survives_update : KeepsOpen (Watched.initial.run
    [.addSubscriber alice.id, .sendUpdates groupVote, .advance 0 0]) := by
  have hadded : UndisturbedRun (Watched.initial.run [.addSubscriber alice.id]) :=
    .step _ .initial (by decide)
  have hcalled : UndisturbedRun (Watched.initial.run
      [.addSubscriber alice.id, .sendUpdates groupVote]) := .step _ hadded (by decide)
  exact open_subscription_survives (.step (.advance 0 0) hcalled (by decide +kernel))

/-- Nine updates while Alice does not read: the last one finds the channel full. -/
def burst : List Event :=
  .addSubscriber alice.id :: (List.range 9).flatMap fun i =>
    .sendUpdates groupVote :: List.replicate 4 (.advance i 0)

/-- Alice's channel is found closed, and Alice subscribes again before the removal. -/
def resubscription : List Event :=
  [.addSubscriber alice.id, .close 0, .checkSubscribers [alice.id], .advance 0 0,
    .addSubscriber alice.id, .advance 0 0, .advance 0 0]

/-- Both runs remove Alice, though the receiver of the last subscription is open. -/
theorem open_subscription_removed : ¬ KeepsOpen (Watched.initial.run burst) ∧
    ¬ KeepsOpen (Watched.initial.run resubscription) := by
  constructor
  · intro hsurvives
    have hsub := hsurvives alice.id 0 (by decide +kernel) (by decide +kernel)
    revert hsub
    decide +kernel
  · intro hsurvives
    have hsub := hsurvives alice.id 1 (by decide +kernel) (by decide +kernel)
    revert hsub
    decide +kernel

end Subscriptions
