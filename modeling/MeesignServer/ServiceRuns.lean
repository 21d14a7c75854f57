import MeesignServer.AnnouncedTasks
import MeesignServer.ServiceModel

/-!
# Runs of the service

Whatever requests arrive and in whatever order their calls are performed, the state goes
through a run of the server: the service adds no other way to change it. In this run, what
is done in the name of a device was asked for in a request that was authenticated as this
device.
-/
namespace ServiceRuns

open FallibleProgram DataModel RunningTaskModel DatabaseModel ServiceModel
open ServerModel (Env Op Server Fault)
open ServerOutcomes (cached)
open FoundTasks (getFormattedTask_loaded)
open TaskListings (CachesFound)
open PushModel (Node onState)
open AnnouncedTasks (outcome_bind outcome_discard)

section Pushes

variable [External] {P Q : PushModel.Event → Prop} {n n' n'' : Node}

/-- A run of the state in which every event is as `P` says. -/
def Pushes (P : PushModel.Event → Prop) (n n' : Node) : Prop :=
  ∃ events, PushModel.run n events = n' ∧ ∀ ev ∈ events, P ev

theorem Pushes.refl (n : Node) : Pushes P n n := ⟨[], rfl, fun _ h => absurd h List.not_mem_nil⟩

theorem Pushes.trans (h : Pushes P n n') (h' : Pushes P n' n'') : Pushes P n n'' := by
  obtain ⟨events, rfl, hP⟩ := h
  obtain ⟨events', rfl, hP'⟩ := h'
  refine ⟨events ++ events', List.foldl_append, fun ev hev => ?_⟩
  rcases List.mem_append.mp hev with hev | hev
  · exact hP ev hev
  · exact hP' ev hev

theorem Pushes.single {ev : PushModel.Event} (h : P ev) (n : Node) :
    Pushes P n (PushModel.next n ev) :=
  ⟨[ev], rfl, fun _ hev => List.mem_singleton.mp hev ▸ h⟩

end Pushes

section Identity

variable [Wire] (env : ServiceEnv) (s : Service)

def secretAt : Bytes :=
  match s.secret with
  | some secret => secret
  | none => (if env.secretReadable then s.secretFile else none).getD env.newSecret

def withSecret : Service :=
  match s.secret with
  | some _ => s
  | none =>
    { s with
      secret := some (secretAt env s)
      secretFile :=
        if env.secretReadable ∧ s.secretFile.isSome ∨ ¬ env.secretWritable then s.secretFile
        else some env.newSecret }

def identified (request : Request) : Option Bytes :=
  match request.peerCerts.bind List.head? with
  | some cert => some (certToId cert)
  | none =>
    match request.authorization with
    | some (some header) => (validateJwt (secretAt env s) (bearerToken header)).toOption
    | _ => none

omit [Wire] in
theorem jwtSecret_post : post (jwtSecret env) s fun r t =>
    r = .ok (secretAt env s) ∧ t = withSecret env s := by
  unfold jwtSecret secretAt withSecret secretAt
  simp only [post_bind, post_get]
  cases s.secret with
  | some secret => exact ⟨rfl, rfl⟩
  | none =>
    cases hr : env.secretReadable with
    | false => cases hw : env.secretWritable <;> simp
    | true =>
      cases hf : s.secretFile with
      | some key => simp
      | none => cases hw : env.secretWritable <;> simp

omit [Wire] in
theorem secretAt_withSecret : secretAt env (withSecret env s) = secretAt env s := by
  unfold withSecret
  cases h : s.secret with
  | some secret => rfl
  | none => rfl

def Keyed (t : Service) : Prop := t = s ∨ t = withSecret env s

variable {env s} {t : Service} {request : Request}

omit [Wire] in
theorem Keyed.node (h : Keyed env s t) : t.node = s.node ∧ t.pending = s.pending := by
  rcases h with rfl | rfl
  · exact ⟨rfl, rfl⟩
  · unfold withSecret
    cases s.secret <;> exact ⟨rfl, rfl⟩

omit [Wire] in
theorem Keyed.withSecret (h : Keyed env s t) : Keyed env s (withSecret env t) := by
  rcases h with rfl | rfl
  · exact .inr rfl
  · right
    unfold ServiceRuns.withSecret
    cases hs : s.secret with
    | some secret => simp only [hs]
    | none => rfl

omit [Wire] in
theorem Keyed.withNode (h : Keyed env s t) (n : PushModel.Node) :
    Keyed env { s with node := n } { t with node := n } := by
  rcases h with rfl | rfl
  · exact .inl rfl
  · obtain ⟨node, secret, secretFile, pending⟩ := s
    cases secret <;> exact .inr rfl

theorem Keyed.identified (h : Keyed env s t) (request : Request) :
    identified env t request = identified env s request := by
  rcases h with rfl | rfl
  · rfl
  · unfold ServiceRuns.identified
    rw [secretAt_withSecret]

theorem extractDeviceId_post (request : Request) (h : Keyed env s t) :
    post (extractDeviceId env request) t fun r t' =>
      r = .ok (identified env s request) ∧ Keyed env s t' := by
  rw [← h.identified request]
  unfold extractDeviceId ServiceRuns.identified
  cases request.peerCerts.bind List.head? with
  | some cert => exact ⟨rfl, h⟩
  | none =>
    cases request.authorization with
    | none => exact ⟨rfl, h⟩
    | some header =>
      cases header with
      | none => exact ⟨rfl, h⟩
      | some header =>
        refine post_seq (jwtSecret_post env t) ?_ ?_
        · rintro secret t' ⟨hsecret, rfl⟩
          cases hsecret
          exact ⟨rfl, h.withSecret⟩
        · rintro refusal t' ⟨herr, -⟩
          cases herr

theorem checkClientAuth_post (request : Request) (required : Bool) :
    post (checkClientAuth env request required) s fun r t => Keyed env s t ∧
      match r with
      | .ok () => match identified env s request with
        | some d => (s.node.server.devices d).isSome
        | none => required = false
      | .error refusal => refusal ≠ .crashed := by
  unfold checkClientAuth
  refine post_seq (extractDeviceId_post request (.inl rfl)) ?_ ?_
  · rintro found t ⟨hfound, ht⟩
    cases hfound
    cases hid : ServiceRuns.identified env s request with
    | some d =>
      simp only [post_bind, post_get, ht.node.1]
      cases hd : s.node.server.devices d with
      | none => exact ⟨ht, fun h => by cases h⟩
      | some device => exact ⟨ht, rfl⟩
    | none =>
      cases required with
      | true => exact ⟨ht, fun h => by cases h⟩
      | false => exact ⟨ht, rfl⟩
  · rintro refusal t ⟨herr, -⟩
    cases herr

theorem requiredDevice_post (request : Request) :
    post (requiredDevice env request) s fun r t => Keyed env s t ∧
      match r with
      | .ok d => identified env s request = some d ∧ (s.node.server.devices d).isSome
      | .error refusal => refusal ≠ .crashed := by
  unfold requiredDevice
  refine post_seq (checkClientAuth_post request true) ?_ fun refusal t h => h
  rintro _ t ⟨ht, hauth⟩
  refine post_seq (extractDeviceId_post request ht) ?_ ?_
  · rintro found t' ⟨hfound, ht'⟩
    cases hfound
    cases hid : ServiceRuns.identified env s request with
    | some d =>
      rw [hid] at hauth
      exact ⟨ht', rfl, hauth⟩
    | none =>
      rw [hid] at hauth
      cases hauth
  · rintro refusal t' ⟨herr, -⟩
    cases herr

end Identity

section Calls

variable {α : Type} (s : Service)

def translated (status : Error → Status) : Except Stop α → Except Refusal α
  | .ok a => .ok a
  | .error (.err e) => .error (.status (status e))
  | .error (.panic _) => .error .panicked
  | .error .crash => .error .crashed

theorem caught_outcome (status : Error → Status) (m : EStateM Stop Node α) :
    outcome (caught status m) s =
      (translated status (outcome m s.node).1, { s with node := (outcome m s.node).2 }) := by
  simp only [outcome, caught]
  cases m s.node with
  | ok a node => rfl
  | error stop node => cases stop <;> rfl

theorem onState_outcome (m : EStateM Stop Server α) (n : Node) : outcome (onState m) n =
    ((outcome m n.server).1, { n with server := (outcome m n.server).2 }) := by
  simp only [outcome, onState, zoom]
  cases m n.server <;> rfl

theorem onState_discard (m : EStateM Stop Server α) :
    onState (discard m) = discard (onState m) := by
  change onState ((fun _ => ()) <$> m) = (fun _ => ()) <$> onState m
  funext n
  simp only [onState, zoom, Functor.map, EStateM.map]
  cases m n.server <;> rfl

end Calls

/-- What has been sent, with the registered device that the request was authenticated as, and
whether the timer has looked for stale tasks and for subscribers. -/
structure Log where
  sent : Option Bytes → Message → Prop
  sweeps : Prop
  checks : Prop

/-- The requests that note a device as active. Some name any device, and a listing of the devices
notes those that have not been seen before. -/
def Activates (sender : Option Bytes) (d : Bytes) : Message → Prop
  | .task _ deviceId => deviceId = some d
  | .tasks deviceId => deviceId = some d
  | .groups deviceId => deviceId = some d
  | .taskUpdate .. | .log _ | .taskDecision .. | .taskAcknowledgement _ => sender = some d
  | .devices => True
  | .serverInfo | .registration .. | .sign .. | .decrypt .. | .group .. | .subscribe => False

section Vouched

variable [Wire] (L : Log)

/-- An operation goes back to a message that asks for it, unless it comes from the timer or with a
new process. What is done in the name of a device goes back to a message of the device, except for
its activations, and a new device is identified by its certificate. -/
def VouchedOp : Op → Prop
  | .addDevice device => device.id = certToId device.certificate ∧ device.kind = .user ∧
      ∃ sender csr, L.sent sender (.registration device.name csr)
  | .addGroupTask name deviceIds threshold protocolType keyType note => note = none ∧
      ∃ sender protocol key, protocolTryFrom protocol = some protocolType ∧
        keyTypeTryFrom key = some keyType ∧
        L.sent sender (.group name deviceIds threshold protocol key)
  | .addSignTask groupId name data => ∃ sender, L.sent sender (.sign groupId name data)
  | .addDecryptTask groupId name data dataType creator =>
      L.sent creator (.decrypt groupId name data dataType)
  | .decideTask taskId d accept => ∃ task, uuidFromSlice task = some taskId ∧
      L.sent (some d) (.taskDecision task accept)
  | .updateTask taskId d messages attempt => ∃ task data, uuidFromSlice task = some taskId ∧
      data ≠ [] ∧ data.mapM Wire.decodeClientMessage = some messages ∧
      L.sent (some d) (.taskUpdate task data attempt)
  | .acknowledgeTask taskId d => ∃ task, uuidFromSlice task = some taskId ∧
      L.sent (some d) (.taskAcknowledgement task)
  | .activateDevice d => L.checks ∨ ∃ sender m, L.sent sender m ∧ Activates sender d m
  | .getFormattedTask taskId viewer =>
      (∃ sender task, uuidFromSlice task = some taskId ∧ L.sent sender (.task task viewer)) ∨
      viewer = none ∧ ∃ sender d, L.sent sender (.tasks d)
  | .restartStaleTasks => L.sweeps
  | .restartServer => True

def Vouched : PushModel.Event → Prop
  | .call _ op => VouchedOp L op
  | .addSubscriber d => L.sent (some d) .subscribe
  | .checkSubscribers .. => L.checks
  | .receive _ | .close _ => True

def opOf : Call → Option Op
  | .register device => some (.addDevice device)
  | .sign groupId name data => some (.addSignTask groupId name data)
  | .decrypt groupId name data dataType creator =>
    some (.addDecryptTask groupId name data dataType creator)
  | .getTask taskId deviceId => some (.getFormattedTask taskId deviceId)
  | .updateTask taskId deviceId messages attempt =>
    some (.updateTask taskId deviceId messages attempt)
  | .group name deviceIds threshold protocol keyType =>
    some (.addGroupTask name deviceIds threshold protocol keyType none)
  | .decideTask taskId deviceId accept => some (.decideTask taskId deviceId accept)
  | .acknowledgeTask taskId deviceId => some (.acknowledgeTask taskId deviceId)
  | .getTasks _ | .getGroups _ => none

def VouchedCall : Call → Prop
  | .getTasks deviceId => ∃ sender, L.sent sender (.tasks deviceId)
  | .getGroups deviceId => ∃ sender, L.sent sender (.groups deviceId)
  | call => ∀ op, opOf call = some op → VouchedOp L op

variable {L} in
theorem vouched_op {call : Call} {op : Op} (h : VouchedCall L call) (hop : opOf call = some op) :
    VouchedOp L op := by
  cases call with
  | getTasks | getGroups => cases hop
  | register | sign | decrypt | getTask | updateTask | group | decideTask | acknowledgeTask =>
    exact h op hop

end Vouched

section Arrivals

variable [External] [Wire] {L : Log} {env : ServiceEnv} {s t : Service} {request : Request}
  {α : Type}

/-- The first part of a handler so far: the secret may have been used, and the state as the log
allows. -/
structure HandledSoFar (L : Log) (env : ServiceEnv) (s t : Service) : Prop where
  keyed : Keyed env { s with node := t.node } t
  pushes : Pushes (Vouched L) s.node t.node

def Begins (L : Log) (env : ServiceEnv) (s : Service) (r : Except Refusal Begun)
    (t : Service) : Prop :=
  HandledSoFar L env s t ∧
    match r with
    | .ok (.awaits call) => VouchedCall L call
    | .ok (.answered _) => True
    | .error refusal => refusal ≠ .crashed

theorem Keyed.started (h : Keyed env s t) : HandledSoFar L env s t := by
  obtain ⟨hnode, -⟩ := h.node
  refine ⟨?_, hnode.symm ▸ .refl _⟩
  rw [hnode]
  exact h

theorem HandledSoFar.trans (h : HandledSoFar L env s t) {n : Node}
    (hn : Pushes (Vouched L) t.node n) :
    HandledSoFar L env s { t with node := n } :=
  ⟨h.keyed.withNode n, h.pushes.trans hn⟩

theorem HandledSoFar.next (h : HandledSoFar L env s t) {ev : PushModel.Event} (hev : Vouched L ev) :
    HandledSoFar L env s { t with node := PushModel.next t.node ev } :=
  h.trans (.single hev t.node)

def Logs (L : Log) (env : ServiceEnv) (s : Service) (request : Request) : Prop :=
  (∀ d, identified env s request = some d → (s.node.server.devices d).isSome) →
    L.sent (identified env s request) request.message

theorem checked_begins {f : Handler Begun} (hL : Logs L env s request)
    (h : ∀ t, Keyed env s t → L.sent (identified env s request) request.message →
      post f t (Begins L env s)) :
    post (checkClientAuth env request false >>= fun _ => f) s (Begins L env s) := by
  refine post_seq (checkClientAuth_post request false) ?_ fun refusal t h => ⟨h.1.started, h.2⟩
  rintro _ t ⟨ht, hauth⟩
  refine h t ht (hL fun d hd => ?_)
  rw [hd] at hauth
  exact hauth

theorem required_begins {f : Bytes → Handler Begun} (hL : Logs L env s request)
    (h : ∀ d t, Keyed env s t → L.sent (some d) request.message → post (f d) t (Begins L env s)) :
    post (requiredDevice env request >>= f) s (Begins L env s) := by
  refine post_seq (requiredDevice_post request) ?_ fun refusal t h => ⟨h.1.started, h.2⟩
  rintro d t ⟨ht, hid, hd⟩
  refine h d t ht (hid ▸ hL fun d' hd' => ?_)
  cases hid.symm.trans hd'
  exact hd

theorem extract_begins {f : Option Bytes → Handler Begun} (ht : Keyed env s t)
    (h : ∀ t', Keyed env s t' → post (f (identified env s request)) t' (Begins L env s)) :
    post (extractDeviceId env request >>= f) t (Begins L env s) := by
  refine post_seq (extractDeviceId_post request ht) ?_ ?_
  · rintro found t' ⟨hfound, ht'⟩
    cases hfound
    exact h t' ht'
  · rintro refusal t' ⟨herr, -⟩
    cases herr

theorem unwrap_begins {o : Option α} {f : α → Handler Begun} (ht : HandledSoFar L env s t)
    (h : ∀ a, o = some a → post (f a) t (Begins L env s)) :
    post (unwrap o >>= f) t (Begins L env s) := by
  cases o with
  | some a => exact h a rfl
  | none => exact ⟨ht, fun h => by cases h⟩

theorem activate_begins {f : Handler Begun} {d : Bytes} (ht : HandledSoFar L env s t)
    (hd : VouchedOp L (.activateDevice d))
    (h : ∀ t', HandledSoFar L env s t' → post f t' (Begins L env s)) :
    post (activate env d >>= fun _ => f) t (Begins L env s) := by
  have hev : Vouched L (.call env.toEnv (.activateDevice d)) := hd
  exact h _ (ht.next hev)

theorem activateIfGiven_begins {f : Handler Begun} {d : Option Bytes} (ht : HandledSoFar L env s t)
    (hd : ∀ d', d = some d' → VouchedOp L (.activateDevice d'))
    (h : ∀ t', HandledSoFar L env s t' → post f t' (Begins L env s)) :
    post (activateIfGiven env d >>= fun _ => f) t (Begins L env s) := by
  cases d with
  | some d => exact activate_begins ht (hd d rfl) h
  | none => exact h t ht

/-- Work on the server alone, as a run of the state. -/
def ServerPushes (L : Log) (srv srv' : Server) : Prop :=
  ∀ feeds, Pushes (Vouched L) ⟨srv, feeds⟩ ⟨srv', feeds⟩

theorem getDeviceLastActivation_pushes {d : Bytes} (hd : VouchedOp L (.activateDevice d))
    (srv : Server) : post (ServerModel.getDeviceLastActivation env.toEnv d) srv fun r srv' =>
      (∃ last, r = .ok last) ∧ ServerPushes L srv srv' := by
  simp only [ServerModel.getDeviceLastActivation, post_bind, post_get]
  cases srv.deviceLastActivations d with
  | some last => exact ⟨⟨last, rfl⟩, fun feeds => .refl _⟩
  | none =>
    have hev : Vouched L (.call env.toEnv (.activateDevice d)) := hd
    exact ⟨⟨env.now, rfl⟩, fun feeds => .single hev ⟨srv, feeds⟩⟩

theorem getDevices_pushes (env : ServiceEnv) (hd : ∀ d, VouchedOp L (.activateDevice d))
    (l : List Bytes) (srv : Server) : post (getDevices env l) srv fun r srv' =>
      (∃ devices, r = .ok devices) ∧ ServerPushes L srv srv' := by
  induction l generalizing srv with
  | nil => exact ⟨⟨[], rfl⟩, fun feeds => .refl _⟩
  | cons d rest ih =>
    simp only [getDevices, post_bind, post_get]
    cases srv.devices d with
    | none => exact ih srv
    | some device =>
      refine post_seq (getDeviceLastActivation_pushes (hd d) srv) ?_ ?_
      · rintro last srv₁ ⟨-, h₁⟩
        refine post_seq (ih srv₁) ?_ ?_
        · rintro devices srv₂ ⟨-, h₂⟩
          exact ⟨⟨_, rfl⟩, fun feeds => (h₁ feeds).trans (h₂ feeds)⟩
        · rintro stop srv₂ ⟨⟨_, herr⟩, -⟩
          cases herr
      · rintro stop srv₁ ⟨⟨_, herr⟩, -⟩
        cases herr

/-- The first part of every handler uses the state as its request may. -/
theorem receive_post (hL : Logs L env s request) :
    post (receive env request) s (Begins L env s) := by
  cases hm : request.message with
  | serverInfo =>
    simp only [receive, hm]
    exact checked_begins hL fun t ht _ => ⟨ht.started, trivial⟩
  | registration name csr =>
    simp only [receive, hm]
    refine checked_begins hL fun t ht hsent => ?_
    cases env.issueCertificate name csr with
    | certificate certificate =>
      refine ⟨ht.started, fun op hop => ?_⟩
      cases hop
      exact ⟨rfl, rfl, _, csr, hm ▸ hsent⟩
    | invalidSignature => exact ⟨ht.started, fun h => by cases h⟩
    | panics => exact ⟨ht.started, fun h => by cases h⟩
  | sign groupId name data =>
    simp only [receive, hm]
    refine checked_begins hL fun t ht hsent => ⟨ht.started, fun op hop => ?_⟩
    cases hop
    exact ⟨_, hm ▸ hsent⟩
  | decrypt groupId name data dataType =>
    simp only [receive, hm]
    refine checked_begins hL fun t ht hsent => extract_begins ht fun t' ht' =>
      ⟨ht'.started, fun op hop => ?_⟩
    cases hop
    rw [hm] at hsent
    exact hsent
  | task taskId deviceId =>
    simp only [receive, hm]
    refine checked_begins hL fun t ht hsent => unwrap_begins ht.started fun id hid => ?_
    rw [hm] at hsent
    refine activateIfGiven_begins ht.started (fun d hd => .inr ⟨_, _, hsent, hd⟩) fun t' ht' =>
      ⟨ht', fun op hop => ?_⟩
    cases hop
    exact .inl ⟨_, taskId, hid, hsent⟩
  | taskUpdate task data attempt =>
    simp only [receive, hm]
    refine required_begins hL fun d t ht hsent => unwrap_begins ht.started fun id hid => ?_
    split_ifs with hempty
    · exact ⟨ht.started, fun h => by cases h⟩
    · cases hmessages : data.mapM Wire.decodeClientMessage with
      | none => exact ⟨ht.started, fun h => by cases h⟩
      | some messages =>
        rw [hm] at hsent
        refine activate_begins ht.started (.inr ⟨_, _, hsent, rfl⟩) fun t' ht' =>
          ⟨ht', fun op hop => ?_⟩
        cases hop
        refine ⟨task, data, hid, ?_, hmessages, hsent⟩
        rintro rfl
        exact hempty rfl
  | tasks deviceId | groups deviceId =>
    simp only [receive, hm]
    refine checked_begins hL fun t ht hsent => ?_
    rw [hm] at hsent
    exact activateIfGiven_begins ht.started (fun d hd => .inr ⟨_, _, hsent, hd⟩) fun t' ht' =>
      ⟨ht', _, hsent⟩
  | group name deviceIds threshold protocol keyType =>
    simp only [receive, hm]
    refine checked_begins hL fun t ht hsent => unwrap_begins ht.started fun _ hprotocol => ?_
    refine unwrap_begins ht.started fun _ hkey => ⟨ht.started, fun op hop => ?_⟩
    cases hop
    exact ⟨rfl, _, protocol, keyType, hprotocol, hkey, hm ▸ hsent⟩
  | devices =>
    simp only [receive, hm]
    refine checked_begins hL fun t ht hsent => ?_
    rw [hm] at hsent
    have hstarted : HandledSoFar L env s t := ht.started
    obtain ⟨⟨devices, hok⟩, hpushes⟩ := getDevices_pushes env
      (fun d => .inr ⟨_, _, hsent, trivial⟩) env.deviceOrder t.node.server
    rw [post_bind, called, post, caught_outcome, onState_outcome, hok]
    exact ⟨hstarted.trans (hpushes t.node.feeds), trivial⟩
  | log message =>
    simp only [receive, hm]
    refine checked_begins hL fun t ht hsent => ?_
    rw [hm] at hsent
    refine extract_begins ht fun t' ht' => ?_
    exact activateIfGiven_begins ht'.started (fun d hd => .inr ⟨_, _, hsent, hd⟩)
      fun t'' ht'' => ⟨ht'', trivial⟩
  | taskDecision task accept =>
    simp only [receive, hm]
    refine required_begins hL fun d t ht hsent => unwrap_begins ht.started fun id hid => ?_
    rw [hm] at hsent
    refine activate_begins ht.started (.inr ⟨_, _, hsent, rfl⟩) fun t' ht' =>
      ⟨ht', fun op hop => ?_⟩
    cases hop
    exact ⟨task, hid, hsent⟩
  | taskAcknowledgement task =>
    simp only [receive, hm]
    refine required_begins hL fun d t ht hsent => ?_
    rw [hm] at hsent
    refine activate_begins ht.started (.inr ⟨_, _, hsent, rfl⟩) fun t' ht' => ?_
    refine unwrap_begins ht' fun id hid => ⟨ht', fun op hop => ?_⟩
    cases hop
    exact ⟨task, hid, hsent⟩
  | subscribe =>
    simp only [receive, hm]
    refine required_begins hL fun d t ht hsent => ?_
    rw [hm] at hsent
    have hev : Vouched L (.addSubscriber d) := hsent
    exact ⟨ht.started.next hev, trivial⟩

end Arrivals

section Performed

variable [External] [Wire] {L : Log} {env : ServiceEnv} {s t : Service} {n n' : Node} {α : Type}

def afterCall (r : Except Stop α) (n : Node) : Node :=
  match r with
  | .error .crash => ⟨Server.restore n.server.db, n.feeds.restore⟩
  | _ => n

def settled (p : Except Refusal Reply × Service) : Service :=
  match p with
  | (.error .crashed, s) => s.restore
  | (_, s) => s

omit [Wire] in
theorem call_exec (env : Env) (op : Op) (n : Node) : PushModel.call env op n =
    afterCall (outcome (PushModel.exec env op) n).1 (outcome (PushModel.exec env op) n).2 := by
  unfold PushModel.call afterCall
  rcases outcome (PushModel.exec env op) n with ⟨r, n'⟩
  cases r with
  | ok => rfl
  | error stop => cases stop <;> rfl

omit [Wire] in
theorem call_discard {env : Env} {op : Op} {m : EStateM Stop Node α}
    (h : PushModel.exec env op = discard m) (n : Node) :
    PushModel.call env op n = afterCall (outcome m n).1 (outcome m n).2 := by
  rw [call_exec, h, outcome_discard]
  cases (outcome m n).1 with
  | ok => rfl
  | error stop => cases stop <;> rfl

theorem afterCall_pushes {r : Except Stop α} (h : Pushes (Vouched L) n n') :
    Pushes (Vouched L) n (afterCall r n') := by
  have hrestart : Vouched L (.call (ServerModel.servingEnv 0 0) .restartServer) := trivial
  unfold afterCall
  split
  · exact h.trans (.single hrestart n')
  · exact h

/-- The handler leaves the state as its call does. The secret may have been used, or a new process
has started. -/
def Settles (env : ServiceEnv) (s : Service) (n : Node) (p : Except Refusal Reply × Service) :
    Prop :=
  Keyed env { s with node := n } (settled p) ∨ settled p = ⟨n, none, s.secretFile, []⟩

omit [External] [Wire] in
theorem Settles.node {p : Except Refusal Reply × Service} (h : Settles env s n p) :
    (settled p).node = n := by
  rcases h with h | h
  · exact h.node.1
  · rw [h]

omit [External] [Wire] in
theorem Settles.pending {p : Except Refusal Reply × Service} (h : Settles env s n p) :
    ∀ call ∈ (settled p).pending, call ∈ s.pending := by
  rcases h with h | h
  · rw [h.node.2]
    exact fun _ hcall => hcall
  · rw [h]
    exact fun _ hcall => absurd hcall List.not_mem_nil

omit [External] [Wire] in
theorem refused_settles (refusal : Refusal) (r : Except Stop α)
    (hr : refusal = .crashed ↔ r = .error .crash) (n : Node) :
    Settles env s (afterCall r n) (.error refusal, { s with node := n }) := by
  cases refusal with
  | crashed =>
    rw [hr.mp rfl]
    exact .inr rfl
  | status | panicked =>
    have hn : afterCall r n = n := by
      unfold afterCall
      split
      · cases hr.mpr rfl
      · rfl
    rw [hn]
    exact .inl (.inl rfl)

omit [External] [Wire] in
theorem caught_settles {status : Error → Status} {m : EStateM Stop Node α} {f : α → Handler Reply}
    (hf : ∀ a t, post (f a) t fun r t' => (∃ reply, r = .ok reply) ∧ Keyed env t t') :
    Settles env s (afterCall (outcome m s.node).1 (outcome m s.node).2)
      (outcome (caught status m >>= f) s) := by
  rw [outcome_bind, caught_outcome]
  cases hr : (outcome m s.node).1 with
  | ok a =>
    obtain ⟨⟨reply, hok⟩, hkeyed⟩ := hf a { s with node := (outcome m s.node).2 }
    have hend : outcome (f a) { s with node := (outcome m s.node).2 } = (.ok reply, _) :=
      Prod.ext hok rfl
    simp only [translated]
    rw [hend]
    exact .inl hkeyed
  | error stop =>
    cases stop with
    | err e => exact refused_settles _ _ (by simp) _
    | panic p => exact refused_settles _ _ (by simp) _
    | crash => exact refused_settles _ _ (by simp) _

omit [External] [Wire] in
theorem logged_settles (m : EStateM Stop Node Unit) (reply : Reply) :
    Settles env s (afterCall (outcome m s.node).1 (outcome m s.node).2)
      (outcome (logged m >>= fun _ => pure reply) s) := by
  rw [outcome_bind]
  simp only [outcome, logged]
  cases m s.node with
  | ok u n => exact .inl (.inl rfl)
  | error stop n =>
    cases stop with
    | err e => exact .inl (.inl rfl)
    | panic p => exact .inl (.inl rfl)
    | crash => exact .inr rfl

theorem perform_settles {call : Call} {op : Op} (h : opOf call = some op) :
    Settles env s (PushModel.call env.toEnv op s.node) (outcome (perform env call) s) := by
  have hanswer : ∀ {α : Type} (f : α → Reply) (a : α) (t : Service),
      post (pure (f a) : Handler Reply) t fun r t' => (∃ reply, r = .ok reply) ∧ Keyed env t t' :=
    fun f a t => ⟨⟨f a, rfl⟩, .inl rfl⟩
  cases call with
  | register device =>
    cases h
    rw [call_exec]
    refine caught_settles fun _ t => ?_
    refine post_seq (jwtSecret_post env t) ?_ ?_
    · rintro secret t' ⟨-, rfl⟩
      exact ⟨⟨_, rfl⟩, .inr rfl⟩
    · rintro refusal t' ⟨herr, -⟩
      cases herr
  | sign groupId name data =>
    cases h
    rw [call_discard rfl]
    exact caught_settles (hanswer _)
  | decrypt groupId name data dataType creator =>
    cases h
    rw [call_discard rfl]
    exact caught_settles (hanswer _)
  | getTask taskId deviceId =>
    cases h
    have hexec : PushModel.exec env.toEnv (.getFormattedTask taskId deviceId) =
        discard (onState (ServerModel.getFormattedTask env.toEnv taskId deviceId)) :=
      onState_discard _
    rw [call_discard hexec]
    exact caught_settles (hanswer _)
  | updateTask taskId deviceId messages attempt =>
    cases h
    rw [call_exec]
    exact caught_settles (hanswer _)
  | group name deviceIds threshold protocol keyType =>
    cases h
    rw [call_discard rfl]
    exact caught_settles (hanswer _)
  | decideTask taskId deviceId accept =>
    cases h
    rw [call_exec]
    exact logged_settles _ _
  | acknowledgeTask taskId deviceId =>
    cases h
    rw [call_exec]
    exact logged_settles _ _
  | getTasks deviceId => cases h
  | getGroups deviceId => cases h

theorem reads_pushes {env : Env} {srv srv' : Server}
    (hlist : ∃ sender d, L.sent sender (.tasks d)) (h : CachesFound env srv srv') :
    ServerPushes L srv srv' := by
  induction h with
  | done srv => exact fun feeds => .refl _
  | @read srv t id e loaded _ ih =>
    intro feeds
    have hexec : PushModel.exec env (.getFormattedTask id none) =
        discard (onState (ServerModel.getFormattedTask env id none)) := onState_discard _
    have hread : PushModel.call env (.getFormattedTask id none) ⟨srv, feeds⟩ =
        ⟨cached srv id e, feeds⟩ := by
      rw [call_discard hexec, onState_outcome, getFormattedTask_loaded loaded]
      rfl
    have hev : Vouched L (.call env (.getFormattedTask id none)) := .inr ⟨rfl, hlist⟩
    have hsingle := Pushes.single hev ⟨srv, feeds⟩
    rw [PushModel.next, hread] at hsingle
    exact hsingle.trans (ih feeds)

theorem reading_settles {m : EStateM Stop Server α}
    (hm : post m s.node.server fun _ t => ServerPushes L s.node.server t)
    (env : ServiceEnv) (f : α → Reply) :
    ∃ n, Pushes (Vouched L) s.node n ∧
      Settles env s n (outcome (called (onState m) >>= fun a => pure (f a)) s) := by
  refine ⟨_, ?_, caught_settles fun a t => ⟨⟨f a, rfl⟩, .inl rfl⟩⟩
  rw [onState_outcome]
  exact afterCall_pushes (hm s.node.feeds)

omit [Wire] in
theorem repoQuery_aside {α : Type} {query : Fault} {f : Server → α} {srv : Server} [Wire] :
    post (do TaskListings.repoQuery query; return f (← get)) srv fun _ t =>
      ServerPushes L srv t := by
  cases query <;> exact fun feeds => .refl _

theorem perform_pushes (env : ServiceEnv) (s : Service) {call : Call} (h : VouchedCall L call) :
    ∃ n, Pushes (Vouched L) s.node n ∧ Settles env s n (outcome (perform env call) s) := by
  cases hop : opOf call with
  | some op =>
    have hev : Vouched L (.call env.toEnv op) := vouched_op h hop
    exact ⟨_, .single hev s.node, perform_settles hop⟩
  | none =>
    cases call with
    | getTasks deviceId =>
      obtain ⟨sender, hsent⟩ := h
      have hlist : ∃ sender d, L.sent sender (.tasks d) := ⟨sender, deviceId, hsent⟩
      cases deviceId with
      | none =>
        have hread := post_mono (TaskListings.listing_post env.toEnv env.query none
          TaskListings.getTasks s.node.server) fun r t h => reads_pushes hlist h.1
        exact reading_settles hread env .tasks
      | some d =>
        have hread := post_mono (TaskListings.listing_post env.toEnv env.query (some d)
          (TaskListings.getActiveDeviceTasks · d) s.node.server) fun r t h =>
          reads_pushes hlist h.1
        exact reading_settles hread env .tasks
    | getGroups deviceId =>
      cases deviceId with
      | none => exact reading_settles repoQuery_aside env _
      | some d => exact reading_settles repoQuery_aside env _
    | register | sign | decrypt | getTask | updateTask | group | decideTask | acknowledgeTask =>
      cases hop

end Performed

section Runs

variable [External] [Wire] {L : Log} {s t : Service}

def sends (s : Service) : ServiceModel.Event → Option (Option Bytes × Message)
  | .arrive env request =>
    match identified env s request with
    | some d =>
      if (s.node.server.devices d).isSome then some (some d, request.message) else none
    | none => some (none, request.message)
  | _ => none

def sentIn (s : Service) : List ServiceModel.Event → List (Option Bytes × Message)
  | [] => []
  | ev :: rest => (sends s ev).toList ++ sentIn (ServiceModel.next s ev) rest

def logOf (s : Service) (events : List ServiceModel.Event) : Log where
  sent sender m := (sender, m) ∈ sentIn s events
  sweeps := ∃ env, .checkTasks env ∈ events
  checks := ∃ now order, .checkSubscribers now order ∈ events

/-- A step of the service, seen from the state. -/
structure Serves (L : Log) (s t : Service) : Prop where
  pushes : Pushes (Vouched L) s.node t.node
  pending : (∀ call ∈ s.pending, VouchedCall L call) → ∀ call ∈ t.pending, VouchedCall L call

theorem arrive_serves (env : ServiceEnv) (request : Request)
    (hL : ∀ p, sends s (.arrive env request) = some p → L.sent p.1 p.2) :
    Serves L s (arrive env request s) := by
  have hlogs : Logs L env s request := by
    intro hreg
    have hsends : sends s (.arrive env request) =
        some (identified env s request, request.message) := by
      simp only [sends]
      cases hid : identified env s request with
      | none => rfl
      | some d => exact if_pos (hreg d hid)
    exact hL _ hsends
  have hreceived := receive_post hlogs
  unfold arrive
  rw [post] at hreceived
  generalize outcome (receive env request) s = p at hreceived ⊢
  obtain ⟨r, t⟩ := p
  obtain ⟨hstarted, hr⟩ := hreceived
  cases r with
  | ok begun =>
    cases begun with
    | answered reply => exact ⟨hstarted.pushes, fun h => hstarted.keyed.node.2 ▸ h⟩
    | awaits call =>
      refine ⟨hstarted.pushes, fun h c hc => ?_⟩
      rcases List.mem_append.mp hc with hc | hc
      · exact h c (hstarted.keyed.node.2 ▸ hc)
      · exact List.mem_singleton.mp hc ▸ hr
  | error refusal =>
    cases refusal with
    | crashed => exact absurd rfl hr
    | status | panicked => exact ⟨hstarted.pushes, fun h => hstarted.keyed.node.2 ▸ h⟩

theorem restore_serves (h : Serves L s t) : Serves L s t.restore := by
  have hev : Vouched L (.call (ServerModel.servingEnv 0 0) .restartServer) := trivial
  exact ⟨h.pushes.trans (.single hev t.node), fun _ call hcall => absurd hcall List.not_mem_nil⟩

theorem next_perform {env : ServiceEnv} {index : ℕ} {call : Call}
    (h : s.pending[index]? = some call) : ServiceModel.next s (.perform env index) =
      settled (outcome (perform env call) { s with pending := s.pending.eraseIdx index }) := by
  simp only [ServiceModel.next, performed, h, Option.map_some]
  rcases outcome (perform env call) { s with pending := s.pending.eraseIdx index } with ⟨r, t⟩
  cases r with
  | ok reply => rfl
  | error refusal => cases refusal <;> rfl

theorem perform_serves (env : ServiceEnv) (index : ℕ)
    (hs : ∀ call ∈ s.pending, VouchedCall L call) :
    Serves L s (ServiceModel.next s (.perform env index)) := by
  cases hcall : s.pending[index]? with
  | none =>
    simp only [ServiceModel.next, performed, hcall, Option.map_none]
    exact ⟨.refl _, id⟩
  | some call =>
    rw [next_perform hcall]
    obtain ⟨n, hpushes, hsettles⟩ := perform_pushes env
      { s with pending := s.pending.eraseIdx index } (hs call (List.mem_of_getElem? hcall))
    refine ⟨hsettles.node ▸ hpushes, fun _ c hc => hs c ?_⟩
    exact List.mem_of_mem_eraseIdx (hsettles.pending c hc)

theorem checkTasks_serves (env : Env) (hL : L.sweeps) : Serves L s (checkTasks env s) := by
  have hev : Vouched L (.call env .restartStaleTasks) := hL
  have hswept := Pushes.single hev s.node
  rw [PushModel.next, call_exec, PushModel.exec] at hswept
  unfold checkTasks
  generalize outcome (PushModel.restartStaleTasks env) s.node = p at hswept ⊢
  obtain ⟨r, n⟩ := p
  cases r with
  | ok => exact ⟨hswept, id⟩
  | error stop =>
    cases stop with
    | crash => exact ⟨hswept, fun _ call hcall => absurd hcall List.not_mem_nil⟩
    | err | panic =>
      have hserves : Serves L s { s with node := n } := ⟨hswept, id⟩
      exact restore_serves hserves

theorem serverRun_vouched {n : Node} {pushed : List PushModel.Event}
    (h : ∀ ev ∈ pushed, Vouched L ev) :
    ∀ p ∈ AnnouncedTasks.serverRun n pushed, VouchedOp L p.2 := by
  induction pushed generalizing n with
  | nil => exact fun p hp => absurd hp List.not_mem_nil
  | cons ev rest ih =>
    intro p hp
    rcases List.mem_append.mp hp with hp | hp
    · have hev := h ev List.mem_cons_self
      cases ev with
      | call env op =>
        cases List.mem_singleton.mp hp
        exact hev
      | checkSubscribers now order =>
        obtain ⟨d, -, rfl⟩ := List.mem_map.mp hp
        exact .inl hev
      | addSubscriber | receive | close => cases hp
    · exact ih (fun ev hev => h ev (List.mem_cons_of_mem _ hev)) p hp

/-- One step of the service is a run of the state that the log vouches for. -/
theorem next_serves {ev : ServiceModel.Event} (hL : ∀ p, sends s ev = some p → L.sent p.1 p.2)
    (hsweep : ∀ env, ev = .checkTasks env → L.sweeps)
    (hcheck : ∀ now order, ev = .checkSubscribers now order → L.checks)
    (hs : ∀ call ∈ s.pending, VouchedCall L call) : Serves L s (ServiceModel.next s ev) := by
  cases ev with
  | arrive env request => exact arrive_serves env request hL
  | perform env index => exact perform_serves env index hs
  | checkTasks env => exact checkTasks_serves env (hsweep env rfl)
  | checkSubscribers now order =>
    have hev : Vouched L (.checkSubscribers now order) := hcheck now order rfl
    exact ⟨.single hev s.node, id⟩
  | read channel =>
    have hev : Vouched L (.receive channel) := trivial
    exact ⟨.single hev s.node, id⟩
  | hangUp channel =>
    have hev : Vouched L (.close channel) := trivial
    exact ⟨.single hev s.node, id⟩
  | restart => exact restore_serves ⟨.refl _, id⟩

theorem run_serves (events : List ServiceModel.Event)
    (hL : ∀ p ∈ sentIn s events, L.sent p.1 p.2)
    (hsweep : ∀ env, .checkTasks env ∈ events → L.sweeps)
    (hcheck : ∀ now order, .checkSubscribers now order ∈ events → L.checks)
    (hs : ∀ call ∈ s.pending, VouchedCall L call) :
    Serves L s (ServiceModel.run s events) := by
  induction events generalizing s with
  | nil => exact ⟨.refl _, id⟩
  | cons ev rest ih =>
    have hstep : Serves L s (ServiceModel.next s ev) := by
      refine next_serves (fun p hsent => hL p ?_) (fun env hev => hsweep env ?_)
        (fun now order hev => hcheck now order ?_) hs
      · rw [sentIn, hsent]
        exact List.mem_append_left _ List.mem_cons_self
      · rw [hev]
        exact List.mem_cons_self
      · rw [hev]
        exact List.mem_cons_self
    have hrest := ih (fun p hp => hL p (List.mem_append_right _ hp))
      (fun env hev => hsweep env (List.mem_cons_of_mem _ hev))
      (fun now order hev => hcheck now order (List.mem_cons_of_mem _ hev)) (hstep.pending hs)
    exact ⟨hstep.pushes.trans hrest.pushes, fun h => hrest.pending (hstep.pending h)⟩

theorem Serves.server (h : Serves L s t) : ∃ ops,
    t.node.server = ServerModel.runOps s.node.server ops ∧ ∀ p ∈ ops, VouchedOp L p.2 := by
  obtain ⟨pushed, hrun, hvouched⟩ := h.pushes
  rw [← hrun]
  exact ⟨_, AnnouncedTasks.run_server _ _, serverRun_vouched hvouched⟩

theorem initial_serves (events : List ServiceModel.Event) :
    Serves (logOf initial events) initial (ServiceModel.run initial events) :=
  run_serves events (fun _ h => h) (fun env h => ⟨env, h⟩) (fun now order h => ⟨now, order, h⟩)
    fun _ h => absurd h List.not_mem_nil

end Runs

end ServiceRuns
