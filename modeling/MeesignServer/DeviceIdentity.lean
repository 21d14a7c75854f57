import MeesignServer.TaskAuthority

/-!
# The identity of a device

A device is identified by the digest of its certificate, or by a token that is signed with the
secret of the server. Devices are never removed, so the certificate that a registration returns
identifies the device from then on. The token does so as long as the server can use the file of
its secret: the secret that a process makes up is kept there, and a new process reads it.
-/
namespace DeviceIdentity

open FallibleProgram DataModel RunningTaskModel DatabaseModel ServerOutcomes TableFrames
open ServerInvariant ServerMoves ServiceModel ServiceRuns TaskAuthority
open ServerModel (Env Op Server plainExternal)
open PushModel (Node onState)
open AnnouncedTasks (outcome_bind)

section Secret

variable {env : ServiceEnv} {s t : Service} {key : Bytes}

/-- The file of the secret can be read and written when the service needs it. -/
def KeysUsable (env : ServiceEnv) : Prop := env.secretReadable ∧ env.secretWritable

def Usable : ServiceModel.Event → Prop
  | .arrive env _ | .perform env _ => KeysUsable env
  | .checkTasks _ | .checkSubscribers .. | .read _ | .hangUp _ | .restart => True

def SecretFiled (s : Service) : Prop := ∀ key, s.secret = some key → s.secretFile = some key

/-- The secret of the process is the given one, or it will be when it is used. -/
structure Holds (key : Bytes) (s : Service) : Prop where
  file : s.secretFile = some key
  process : ∀ key', s.secret = some key' → key' = key

/-- What becomes of the secret in a step: nothing, it is used, or the process is a new one. -/
inductive KeyStep (s t : Service) : Prop where
  | same (secret : t.secret = s.secret) (file : t.secretFile = s.secretFile)
  | used (env : ServiceEnv) (usable : KeysUsable env)
      (secret : t.secret = (withSecret env s).secret)
      (file : t.secretFile = (withSecret env s).secretFile)
  | forgotten (secret : t.secret = none) (file : t.secretFile = s.secretFile)

theorem SecretFiled.withSecret (h : SecretFiled s) (hu : KeysUsable env) :
    (withSecret env s).secret = some (secretAt env s) ∧
      (withSecret env s).secretFile = some (secretAt env s) := by
  unfold ServiceRuns.withSecret secretAt
  cases hs : s.secret with
  | some key => exact ⟨hs, h key hs⟩
  | none =>
    refine ⟨rfl, ?_⟩
    cases hf : s.secretFile with
    | none => simp [hu.1, hu.2]
    | some key => simp [hu.1]

theorem Holds.secretAt (h : Holds key s) (hu : env.secretReadable) : secretAt env s = key := by
  unfold ServiceRuns.secretAt
  cases hs : s.secret with
  | some key' => exact h.process key' hs
  | none => simp [hu, h.file]

theorem SecretFiled.next (h : SecretFiled s) (hk : KeyStep s t) : SecretFiled t := by
  intro key hkey
  cases hk with
  | same secret file => exact file.trans (h key (secret.symm.trans hkey))
  | used env usable secret file =>
    obtain ⟨hsecret, hfile⟩ := h.withSecret usable
    rw [secret, hsecret] at hkey
    rw [file, hfile, hkey]
  | forgotten secret => cases secret.symm.trans hkey

theorem Holds.next (h : Holds key s) (hk : KeyStep s t) : Holds key t := by
  cases hk with
  | same secret file => exact ⟨file.trans h.file, fun key' hkey => h.process key' (secret ▸ hkey)⟩
  | used env usable secret file =>
    have hkept : SecretFiled s := fun key' hkey => (h.process key' hkey).symm ▸ h.file
    obtain ⟨hsecret, hfile⟩ := hkept.withSecret usable
    have hkey := h.secretAt usable.1
    refine ⟨file.trans (hfile.trans (congrArg some hkey)), fun key' hkey' => ?_⟩
    rw [secret, hsecret, hkey] at hkey'
    exact (Option.some.inj hkey').symm
  | forgotten secret file =>
    exact ⟨file.trans h.file, fun key' hkey => by cases secret.symm.trans hkey⟩

theorem keyStep_keyed {n : Node} {l : List Call} (hu : KeysUsable env)
    (h : Keyed env { s with node := n, pending := l } t) : KeyStep s t := by
  obtain ⟨node, secret, secretFile, pending⟩ := s
  rcases h with rfl | rfl
  · exact .same rfl rfl
  · cases secret with
    | some key => exact .same rfl rfl
    | none => exact .used env hu rfl rfl

theorem KeyStep.withPending (h : KeyStep s t) (pending : List Call) :
    KeyStep s { t with pending } := by
  cases h with
  | same secret file => exact .same secret file
  | used env usable secret file => exact .used env usable secret file
  | forgotten secret file => exact .forgotten secret file

variable [External] [Wire]

theorem keyStep_arrive (hu : KeysUsable env) (request : Request) :
    KeyStep s (arrive env request s) := by
  have hreceived : post (receive env request) s (Begins ⟨fun _ _ => True, True, True⟩ env s) :=
    receive_post fun _ => trivial
  unfold arrive
  rw [post] at hreceived
  generalize outcome (receive env request) s = p at hreceived ⊢
  obtain ⟨r, t⟩ := p
  obtain ⟨hstarted, hr⟩ := hreceived
  have hstep := keyStep_keyed hu hstarted.keyed
  cases r with
  | ok begun =>
    cases begun with
    | answered => exact hstep
    | awaits call => exact hstep.withPending _
  | error refusal =>
    cases refusal with
    | crashed => exact absurd rfl hr
    | status | panicked => exact hstep

theorem perform_ends (env : ServiceEnv) (s : Service) (call : Call) :
    ∃ n, Settles env s n (outcome (perform env call) s) := by
  cases hop : opOf call with
  | some op => exact ⟨_, perform_settles hop⟩
  | none =>
    have hvouched : VouchedCall ⟨fun _ _ => True, True, True⟩ call := by
      cases call with
      | getTasks | getGroups => exact ⟨none, trivial⟩
      | register | sign | decrypt | getTask | updateTask | group | decideTask | acknowledgeTask =>
        cases hop
    obtain ⟨n, -, hsettles⟩ := perform_pushes env s hvouched
    exact ⟨n, hsettles⟩

theorem keyStep_perform (hu : KeysUsable env) (index : ℕ) :
    KeyStep s (ServiceModel.next s (.perform env index)) := by
  cases hcall : s.pending[index]? with
  | none =>
    simp only [ServiceModel.next, performed, hcall, Option.map_none]
    exact .same rfl rfl
  | some call =>
    rw [next_perform hcall]
    obtain ⟨n, h⟩ := perform_ends env { s with pending := s.pending.eraseIdx index } call
    rcases h with h | h
    · exact keyStep_keyed hu h
    · rw [h]
      exact .forgotten rfl rfl

omit [Wire] in
theorem keyStep_checkTasks (env : Env) : KeyStep s (checkTasks env s) := by
  unfold checkTasks
  split
  · exact .same rfl rfl
  · exact .forgotten rfl rfl

theorem next_keyStep {ev : ServiceModel.Event} (hu : Usable ev) :
    KeyStep s (ServiceModel.next s ev) := by
  cases ev with
  | arrive env request => exact keyStep_arrive hu request
  | perform env index => exact keyStep_perform hu index
  | checkTasks env => exact keyStep_checkTasks env
  | checkSubscribers | read | hangUp => exact .same rfl rfl
  | restart => exact .forgotten rfl rfl

theorem run_keeps {P : Service → Prop} (hstep : ∀ s t, P s → KeyStep s t → P t)
    {events : List ServiceModel.Event} (hu : ∀ ev ∈ events, Usable ev) (h : P s) :
    P (ServiceModel.run s events) := by
  induction events generalizing s with
  | nil => exact h
  | cons ev rest ih =>
    exact ih (fun ev hev => hu ev (List.mem_cons_of_mem _ hev))
      (hstep _ _ h (next_keyStep (hu ev List.mem_cons_self)))

end Secret

section Registration

variable [External] [Wire] {env : ServiceEnv} {s s' : Service} {device : Device} {id cert : Bytes}
  {token : Option String} {α : Type}

omit [External] [Wire] in
theorem addDevice_devices (env : Env) (device : Device) (srv : Server) :
    post (ServerModel.addDevice env device) srv fun r t =>
      r = .ok () → t.devices device.id = some device := by
  rw [ServerModel.addDevice, post_bind]
  refine repoWrite_post (fun stop _ h => by cases h) fun db _ _ => ?_
  exact Function.update_self ..

def Other (r : Except Refusal Reply) : Prop :=
  ∀ id cert token, r ≠ .ok (.registration id cert token)

omit [External] [Wire] in
theorem caught_other {status : Error → Status} {m : EStateM Stop Node α} {f : α → Reply}
    (hf : ∀ a, Other (.ok (f a))) :
    post (caught status m >>= fun a => pure (f a)) s fun r _ => Other r := by
  rw [post_bind, post, caught_outcome]
  cases (outcome m s.node).1 with
  | ok a => exact hf a
  | error stop => cases stop <;> exact fun _ _ _ h => by cases h

omit [External] [Wire] in
theorem logged_other {m : EStateM Stop Node Unit} {reply : Reply} (hreply : Other (.ok reply)) :
    post (logged m >>= fun _ => pure reply) s fun r _ => Other r := by
  rw [post_bind]
  simp only [post, outcome, logged]
  cases m s.node with
  | ok u n => exact hreply
  | error stop n =>
    cases stop with
    | err e => exact hreply
    | panic | crash => exact fun _ _ _ h => by cases h

structure Registered (env : ServiceEnv) (s : Service) (device : Device) (token : Option String)
    (t : Service) : Prop where
  devices : t.node.server.devices device.id = some device
  token : token = (generateJwt env (secretAt env s) device.id).toOption
  secret : t = withSecret env { s with node := t.node }

omit [External] in
theorem Registered.holds (h : Registered env s device token s') (hk : SecretFiled s)
    (hu : KeysUsable env) : Holds (secretAt env s) s' := by
  have hkept : SecretFiled { s with node := s'.node } := hk
  obtain ⟨hsecret, hfile⟩ := hkept.withSecret hu
  rw [h.secret]
  refine ⟨hfile, fun key hkey => ?_⟩
  exact (Option.some.inj (hsecret.symm.trans hkey)).symm

theorem registration_post (env : ServiceEnv) (s : Service) (call : Call) :
    post (perform env call) s fun r t => ∀ id cert token, r = .ok (.registration id cert token) →
      ∃ device, call = .register device ∧ device.id = id ∧ device.certificate = cert ∧
        Registered env s device token t := by
  have hother : ∀ {m : Handler Reply}, post m s (fun r _ => Other r) →
      post m s fun r t => ∀ id cert token, r = .ok (.registration id cert token) →
        ∃ device, call = .register device ∧ device.id = id ∧ device.certificate = cert ∧
          Registered env s device token t :=
    fun h => post_mono h fun _ _ hne id cert token heq => absurd heq (hne id cert token)
  cases call with
  | register device =>
    simp only [perform]
    rw [post_bind, post, caught_outcome, onState_outcome]
    have hadd := addDevice_devices env.toEnv device s.node.server
    rw [post] at hadd
    generalize outcome (ServerModel.addDevice env.toEnv device) s.node.server = p at hadd ⊢
    obtain ⟨r, srv⟩ := p
    cases r with
    | ok u =>
      have hknown := hadd rfl
      have hreg : Registered env s device (generateJwt env (secretAt env s) device.id).toOption
          (withSecret env { s with node := ⟨srv, s.node.feeds⟩ }) := by
        have hkeyed : Keyed env { s with node := ⟨srv, s.node.feeds⟩ } _ := .inr rfl
        refine ⟨?_, rfl, ?_⟩
        · rw [hkeyed.node.1]
          exact hknown
        · rw [hkeyed.node.1]
      refine post_seq (jwtSecret_post env { s with node := ⟨srv, s.node.feeds⟩ }) ?_ ?_
      · rintro secret t ⟨hsecret, rfl⟩ id cert token hreply
        cases hsecret
        cases hreply
        exact ⟨device, rfl, rfl, rfl, hreg⟩
      · rintro refusal t ⟨herr, -⟩
        cases herr
    | error stop => cases stop <;> exact fun _ _ _ h => by cases h
  | sign => exact hother (caught_other fun _ _ _ _ h => by cases h)
  | decrypt => exact hother (caught_other fun _ _ _ _ h => by cases h)
  | getTask => exact hother (caught_other fun _ _ _ _ h => by cases h)
  | updateTask => exact hother (caught_other fun _ _ _ _ h => by cases h)
  | getTasks deviceId => cases deviceId <;> exact hother (caught_other fun _ _ _ _ h => by cases h)
  | getGroups deviceId => cases deviceId <;> exact hother (caught_other fun _ _ _ _ h => by cases h)
  | group => exact hother (caught_other fun _ _ _ _ h => by cases h)
  | decideTask => exact hother (logged_other fun _ _ _ h => by cases h)
  | acknowledgeTask => exact hother (logged_other fun _ _ _ h => by cases h)

theorem performed_registration {index : ℕ} {t : Service}
    (h : performed env index s = some (.ok (.registration id cert token), t)) : ∃ device,
      .register device ∈ s.pending ∧ device.id = id ∧ device.certificate = cert ∧
      Registered env { s with pending := s.pending.eraseIdx index } device token t ∧
      ServiceModel.next s (.perform env index) = t := by
  obtain ⟨call, hcall, hp⟩ := Option.map_eq_some_iff.mp h
  have hreg := registration_post env { s with pending := s.pending.eraseIdx index } call
  rw [post, hp] at hreg
  obtain ⟨device, rfl, hid, hcert, hreg⟩ := hreg id cert token rfl
  refine ⟨device, List.mem_of_getElem? hcall, hid, hcert, hreg, ?_⟩
  rw [next_perform hcall, hp]
  rfl

end Registration

section Authentication

variable [External] [Wire] {env : ServiceEnv} {s : Service} {request : Request} {d : Bytes}

omit [External] [Wire] in
theorem bearerToken_bearer (token : String) : bearerToken ("Bearer " ++ token) = token := by
  simp [bearerToken, String.toList_append]

omit [External] in
theorem validateJwt_generateJwt {key : Bytes} {token : String}
    (h : (generateJwt env key d).toOption = some token) : validateJwt key token = .ok d := by
  cases he : Wire.encodeToken key ⟨HexFormat.encode d, env.now⟩ with
  | error e =>
    rw [generateJwt, he] at h
    cases h
  | ok token' =>
    rw [generateJwt, he] at h
    cases h
    simp only [validateJwt, Wire.decode_encode _ _ _ he, HexFormat.decode_encode]

omit [External] in
theorem requiredDevice_registered (hid : identified env s request = some d)
    (hd : (s.node.server.devices d).isSome) :
    (outcome (requiredDevice env request) s).1 = .ok d := by
  have hcheck : post (checkClientAuth env request true) s fun r t =>
      r = .ok () ∧ Keyed env s t := by
    unfold checkClientAuth
    refine post_seq (extractDeviceId_post request (.inl rfl)) ?_ ?_
    · rintro found t ⟨hfound, ht⟩
      cases hfound
      simp only [hid, post_bind, post_get, ht.node.1]
      obtain ⟨device, hdevice⟩ := Option.isSome_iff_exists.mp hd
      rw [hdevice]
      exact ⟨rfl, ht⟩
    · rintro refusal t ⟨herr, -⟩
      cases herr
  have hrequired : post (requiredDevice env request) s fun r _ => r = .ok d := by
    refine post_seq hcheck ?_ ?_
    · rintro _ t ⟨-, ht⟩
      refine post_seq (extractDeviceId_post request ht) ?_ ?_
      · rintro found t' ⟨hfound, -⟩
        cases hfound
        rw [hid]
        rfl
      · rintro refusal t' ⟨herr, -⟩
        cases herr
    · rintro refusal t ⟨herr, -⟩
      cases herr
  exact hrequired

omit [Wire] in
theorem runOps_extends (ops : List (Env × Op)) {srv : Server} (h : Invariant srv) :
    Extends srv.db (ServerModel.runOps srv ops).db := by
  induction ops generalizing srv with
  | nil => exact .refl _
  | cons p ops ih =>
    obtain ⟨hi, hx⟩ := next_invariant p.1 p.2 srv h
    exact hx.trans (ih hi)

theorem devices_last {events more : List ServiceModel.Event} {device : Device}
    (h : (ServiceModel.run initial events).node.server.devices d = some device) :
    (ServiceModel.run initial (events ++ more)).node.server.devices d = some device := by
  have hsplit : ServiceModel.run initial (events ++ more) =
      ServiceModel.run (ServiceModel.run initial events) more := List.foldl_append
  have hall : Serves ⟨fun _ _ => True, True, True⟩ initial (ServiceModel.run initial events) :=
    run_serves events (fun _ _ => trivial) (fun _ _ => trivial) (fun _ _ _ => trivial)
      fun _ h => absurd h List.not_mem_nil
  have hserves : Serves ⟨fun _ _ => True, True, True⟩ (ServiceModel.run initial events)
      (ServiceModel.run (ServiceModel.run initial events) more) :=
    run_serves more (fun _ _ => trivial) (fun _ _ => trivial) (fun _ _ _ => trivial)
      (hall.pending fun _ h => absurd h List.not_mem_nil)
  obtain ⟨ops, hrun, -⟩ := hserves.server
  have hi := service_invariant events
  have hi' := service_invariant (events ++ more)
  rw [hi.devices] at h
  rw [hi'.devices, hsplit, hrun]
  exact (runOps_extends ops hi).device d device h

/-- What a registration returns identifies the device in every later state. The certificate does
so in any case, and the token if the file of the secret has been usable all the time. -/
theorem registration_lasts (earlier later : List ServiceModel.Event) (env : ServiceEnv) (index : ℕ)
    (id cert : Bytes) (token : Option String) (t : Service)
    (h : performed env index (ServiceModel.run initial earlier) =
      some (.ok (.registration id cert token), t)) :
    let events := earlier ++ .perform env index :: later
    (∀ env' request, request.peerCerts.bind List.head? = some cert →
      (outcome (requiredDevice env' request) (ServiceModel.run initial events)).1 = .ok id) ∧
    ((∀ ev ∈ events, Usable ev) → ∀ env' request text, env'.secretReadable →
      request.peerCerts.bind List.head? = none → token = some text →
      request.authorization = some (some ("Bearer " ++ text)) →
      (outcome (requiredDevice env' request) (ServiceModel.run initial events)).1 = .ok id) := by
  intro events
  obtain ⟨device, hpending, rfl, rfl, hreg, hnext⟩ := performed_registration h
  have hid : device.id = certToId device.certificate :=
    ((initial_serves earlier).pending (fun _ h => absurd h List.not_mem_nil) _ hpending _ rfl).1
  have hevents : events = (earlier ++ [.perform env index]) ++ later := by simp [events]
  have ht : ServiceModel.run initial (earlier ++ [.perform env index]) = t :=
    List.foldl_append.trans hnext
  have hdevice : ((ServiceModel.run initial events).node.server.devices device.id).isSome := by
    rw [hevents, devices_last (ht ▸ hreg.devices)]
    rfl
  refine ⟨fun env' request hcert => ?_,
    fun husable env' request text hread hnone htoken hauth => ?_⟩
  · refine requiredDevice_registered ?_ hdevice
    rw [identified, hcert, hid]
  · refine requiredDevice_registered ?_ hdevice
    have hsigned := hreg.token.symm.trans htoken
    rw [hevents] at husable
    have hkept : SecretFiled (ServiceModel.run initial earlier) :=
      run_keeps (fun _ _ => SecretFiled.next) (fun ev hev => husable ev (by simp [hev]))
        fun _ hkey => by cases hkey
    have hu : KeysUsable env := husable (.perform env index) (by simp)
    have hholds : Holds _ (ServiceModel.run t later) :=
      run_keeps (fun _ _ => Holds.next) (fun ev hev => husable ev (by simp [hev]))
        (hreg.holds hkept hu)
    have hrun : ServiceModel.run initial events = ServiceModel.run t later := by
      rw [hevents, ← ht]
      exact List.foldl_append
    rw [← hrun] at hholds
    rw [identified, hnone, hauth]
    simp only [bearerToken_bearer, hholds.secretAt hread, validateJwt_generateJwt hsigned]
    rfl

def registrationOf :
    Option (Except Refusal Reply × Service) → Option (Bytes × Bytes × Option String)
  | some (.ok (.registration id cert token), _) => some (id, cert, token)
  | _ => none

omit [External] [Wire] in
theorem registrationOf_eq {o : Option (Except Refusal Reply × Service)} {id cert : Bytes}
    {token : Option String} (h : registrationOf o = some (id, cert, token)) :
    ∃ t, o = some (.ok (.registration id cert token), t) := by
  unfold registrationOf at h
  split at h
  · cases h
    exact ⟨_, rfl⟩
  · cases h

def aliceAsks : List ServiceModel.Event := [anonymous (.registration "Alice" [1])]

omit [External] [Wire] in
/-- Alice registers, the server restarts, and Alice subscribes with the token. -/
theorem registration_lasts_alice :
    registrationOf (@performed plainExternal plainWire (plainEnv 0 0) 0
      (@ServiceModel.run plainExternal plainWire initial aliceAsks)) =
        some ([1], [1], some "001") ∧
    (outcome (@requiredDevice plainWire (plainEnv 1 0)
      ⟨none, some (some ("Bearer " ++ "001")), .subscribe⟩)
      (@ServiceModel.run plainExternal plainWire initial
        (aliceAsks ++ [performFirst, .restart]))).1 = .ok [1] := by
  have hreply : registrationOf (@performed plainExternal plainWire (plainEnv 0 0) 0
      (@ServiceModel.run plainExternal plainWire initial aliceAsks)) =
        some ([1], [1], some "001") := by decide +kernel
  obtain ⟨t, ht⟩ := registrationOf_eq hreply
  refine ⟨hreply, (@registration_lasts plainExternal plainWire aliceAsks [.restart] (plainEnv 0 0) 0
    [1] [1] (some "001") t ht).2 ?_ (plainEnv 1 0) _ "001" rfl rfl rfl rfl⟩
  intro ev hev
  simp only [aliceAsks, anonymous, List.cons_append, List.nil_append, List.mem_cons,
    List.not_mem_nil, or_false] at hev
  rcases hev with rfl | rfl | rfl
  · exact ⟨rfl, rfl⟩
  · exact ⟨rfl, rfl⟩
  · trivial

end Authentication

end DeviceIdentity
