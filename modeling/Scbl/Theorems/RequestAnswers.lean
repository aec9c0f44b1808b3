import Scbl.ControlPlane.Requests

/-!
# Answered requests

Which requests the control plane answers. A request is answered when one response is sent and nothing is raised. What can be raised on the
way: the path cannot be split, the timestamp or the signature is not in ASCII, a body in JSON is no dictionary, one of its numbers is too
large, a text of a client or of the settings is no Unicode, and a setting is no number.
-/

namespace Scbl.ControlPlane.Requests

open Scbl.Lib Presence

variable {l : Library} {env : Environment} {request : Request}

/-- One response is sent, and nothing is raised. -/
def Answers (m : Handle Unit) (s : Server) : Prop := ∃ clients response, m s = .ok () { clients, responses := s.responses ++ [response] }

/-- The clients in the end, whether or not something is raised. -/
def clientsAfter (m : Handle Unit) (s : Server) : RuntimeState :=
  match m s with
  | .ok _ s' => s'.clients
  | .error _ s' => s'.clients

/-- The body of a request, if its size is accepted. -/
def bodyOf (request : Request) : Option Bytes :=
  match request.method with
  | .get => some []
  | .post => readBody request

def IsHeartbeat (l : Library) (env : Environment) (body : Bytes) : Prop :=
  ∃ items, loadsBody l body = some (.dict items) ∧ (acceptedIp l env items).isSome = true

/-- A request that fails a check, or writes something else than a heartbeat. -/
def Rejected (l : Library) (env : Environment) (request : Request) : Prop :=
  match bodyOf request with
  | none => True
  | some body =>
    authorizationFailureReason l env request body ≠ .ok [] ∨
      match request.method with
      | .get => requireOverlaySource env none = false
      | .post => ¬ IsHeartbeat l env body

/-! ## The requests that are answered -/

def Splits (l : Library) (request : Request) : Prop := ∃ parsed, urlsplit l request.path = .ok parsed

def HasPath (l : Library) (request : Request) (path : Text) : Prop := ∃ parsed, urlsplit l request.path = .ok parsed ∧ parsed.1 = ascii path

/-- The checks up to the signature are passed. -/
structure ReachesSignature (env : Environment) (request : Request) : Prop where
  secret : env.secret ≠ []
  timestamp : request.timestamp ≠ []
  inTime : ∃ ts, intOf (decode request.timestamp) = some ts ∧ (env.nowMs / 1000 - ts).natAbs ≤ maxClockSkewSeconds
  signature : request.signature ≠ []

/-- The texts of a client that every list of the clients has. -/
def ownTexts (client : Presence.ClientState) : List PyStr :=
  [client.username, client.instanceId, client.clientVersion, client.easytierVersion, client.serverTransport, client.serverAddressFamily,
    client.gameTransport, client.gameAddressFamily, client.nextHop]

/-- The clients that are left can be listed: their texts are Unicode, up to those that a session takes the place of. -/
def Listable (env : Environment) (clients : RuntimeState) : Prop :=
  ∀ item ∈ clients, isFresh env.heartbeatTtlSeconds env.nowMs item.2 = true →
    (∀ t ∈ ownTexts item.2, isUnicode t = true) ∧
      (Dict.get env.sessions item.2.virtualIp.text = none → isUnicode item.2.gameRole = true ∧ isUnicode item.2.gamePeerIp = true)

/-- The settings can be told: three are numbers, and the texts are Unicode. -/
structure Tellable (env : Environment) : Prop where
  mtu : (intOf env.mtu).isSome = true
  port : (intOf env.port).isSome = true
  wssPort : (intOf env.wssPort).isSome = true
  texts : ∀ t ∈ [env.serverToolVersion, env.networkName, env.virtualSubnet, env.serverIp], isUnicode t = true

def integerFields : List Text :=
  ["serverLatencyMs".toList, "gameLatencyMs".toList, "hopCount".toList, "gameLatencyP50Ms".toList, "gameLatencyP95Ms".toList,
    "gameJitterMs".toList]

/-- The numbers of a heartbeat can be converted: no integer is to be made of an infinite float, and no float of an integer too large. -/
structure Convertible (items : List (PyStr × PyValue)) : Prop where
  integers : ∀ key ∈ integerFields, ∀ negative, field items key ≠ .float (.infinite negative)
  loss : ∀ n, field items "gameLossPercent".toList = .int n → n.natAbs < floatLimit

/-- What an authorized request needs. -/
def Served (l : Library) (env : Environment) (request : Request) (body : Bytes) (clients : RuntimeState) : Prop :=
  match request.method with
  | .get =>
    requireOverlaySource env none = true →
      (HasPath l request "/v1/peers".toList → Listable env clients) ∧ (HasPath l request "/v1/bootstrap".toList → Tellable env)
  | .post =>
    ∀ payload, loadsBody l body = some payload → HasPath l request "/v1/heartbeat".toList →
      ∃ items, payload = .dict items ∧ ((acceptedIp l env items).isSome = true → Convertible items)

/-- The path can be split; and where the signature is compared, it and the timestamp are in ASCII, and what follows is served. -/
structure Answerable (l : Library) (env : Environment) (request : Request) (clients : RuntimeState) : Prop where
  splits : Splits l request
  compared : ∀ body, bodyOf request = some body → ReachesSignature env request →
    isAscii request.timestamp = true ∧ isAscii request.signature = true ∧
      (expectedSignature l env request body = lowerAscii request.signature → Served l env request body clients)

/-! ## Texts in the answers -/

@[simp] theorem isUnicode_pyStr (t : Text) : isUnicode (pyStr t) = true := by
  simp only [isUnicode, pyStr, List.all_map, List.all_eq_true, Function.comp, decide_eq_true_eq]
  exact fun c _ => c.valid

@[simp] theorem encodes_str (t : PyStr) : encodes (.str t) = isUnicode t := rfl

@[simp] theorem encodes_text (t : Text) : encodes (text t) = true := isUnicode_pyStr t

@[simp] theorem encodes_bool (b : Bool) : encodes (.bool b) = true := rfl

@[simp] theorem encodes_int (n : Int) : encodes (.int n) = true := rfl

@[simp] theorem encodes_none : encodes .none = true := rfl

@[simp] theorem encodes_number (n : Option Int) : encodes (number n) = true := by cases n <;> rfl

@[simp] theorem encodes_natural (n : Option Nat) : encodes (natural n) = true := encodes_number _

theorem encodesAll_eq (values : List PyValue) : encodesAll values = values.all encodes := by
  induction values with
  | nil => rfl
  | cons value values ih => rw [encodesAll, ih, List.all_cons]

@[simp] theorem encodes_list (values : List PyValue) : encodes (.list values) = values.all encodes := encodesAll_eq values

/-- A dictionary whose keys are texts can be encoded when its values can. -/
@[simp] theorem encodes_object (items : List (Text × PyValue)) : encodes (object items) = items.all (fun item => encodes item.2) := by
  show encodesItems _ = _
  induction items with
  | nil => rfl
  | cons item items ih => rw [List.map_cons, encodesItems, ih, isUnicode_pyStr, Bool.true_and, List.all_cons]

@[simp] theorem encodes_error (reason : Text) : encodes (error reason) = true := by simp [error]

@[simp] theorem encodes_counts (labels given : List Text) : encodes (counts labels given) = true := by simp [counts]

@[simp] theorem encodes_topologySummary (peers : List ListedClient) : encodes (topologySummary l peers) = true := by simp [topologySummary]

@[simp] theorem encodes_getHealth : encodes (getHealth env) = true := by
  unfold getHealth
  cases env.health with
  | none => simp
  | some health => simp

@[simp] theorem encodes_gameSessionDict (payload : GameSessionPayload) : encodes (gameSessionDict payload) = true := by
  simp [gameSessionDict]

theorem encodes_payload (client : ListedClient) :
    encodes client.payload = true ↔
      (∀ t ∈ ownTexts client.state, isUnicode t = true) ∧ isUnicode client.state.gameRole = true ∧ isUnicode client.state.gamePeerIp = true := by
  have hloss : encodes (client.state.gameLossPercent.elim .none (fun q => .float (.finite q))) = true := by
    cases client.state.gameLossPercent <;> rfl
  simp only [ListedClient.payload, ownTexts, encodes_object, encodes_str, encodes_text, encodes_bool, encodes_number, encodes_natural,
    encodes_int, hloss, List.all_cons, List.all_nil, Bool.and_true, Bool.true_and, Bool.and_eq_true, List.forall_mem_cons]
  constructor
  · intro h
    obtain ⟨h₁, h₂, h₃, h₄, h₅, h₆, h₇, h₈, h₉, h₁₀, h₁₁⟩ := h
    exact ⟨⟨h₁, h₂, h₃, h₄, h₇, h₈, h₉, h₁₀, h₁₁, fun _ h => nomatch h⟩, h₅, h₆⟩
  · rintro ⟨⟨h₁, h₂, h₃, h₄, h₇, h₈, h₉, h₁₀, h₁₁, -⟩, h₅, h₆⟩
    exact ⟨h₁, h₂, h₃, h₄, h₅, h₆, h₇, h₈, h₉, h₁₀, h₁₁⟩

/-- A session takes the place of the role and the peer that a client claims. -/
theorem encodes_listedClient (client : Presence.ClientState) :
    encodes (listedClient env.sessions client).payload = true ↔
      (∀ t ∈ ownTexts client, isUnicode t = true) ∧
        (Dict.get env.sessions client.virtualIp.text = none → isUnicode client.gameRole = true ∧ isUnicode client.gamePeerIp = true) := by
  rw [encodes_payload, listedClient]
  cases Dict.get env.sessions client.virtualIp.text with
  | none => simp
  | some session => simp [ownTexts]

/-! ## Answers of the parts -/

section Parts

variable {α : Type} {s : Server}

theorem answers_throw (e : PyError) : ¬ Answers (throw e) s := by
  rintro ⟨_, _, h⟩
  nomatch h

theorem answers_ofExcept_bind {x : Except PyError α} {f : α → Handle Unit} :
    Answers (ofExcept x >>= f) s ↔ ∃ a, x = .ok a ∧ Answers (f a) s := by
  cases x with
  | ok a =>
    constructor
    · exact fun h => ⟨a, rfl, h⟩
    · rintro ⟨_, ⟨⟩, h⟩
      exact h
  | error e =>
    constructor
    · rintro ⟨_, _, h⟩
      nomatch h
    · rintro ⟨_, h, _⟩
      nomatch h

theorem answers_modify_bind {g : RuntimeState → RuntimeState} {f : Unit → Handle Unit} :
    Answers (modify (fun s => { s with clients := g s.clients }) >>= f) s ↔ Answers (f ()) { s with clients := g s.clients } :=
  Iff.rfl

theorem answers_activePeers_bind {f : List ListedClient → Handle Unit} :
    Answers (activePeers env >>= f) s ↔
      Answers (f ((activeClients env.heartbeatTtlSeconds env.nowMs s.clients).2.map (listedClient env.sessions)))
        { s with clients := (activeClients env.heartbeatTtlSeconds env.nowMs s.clients).1 } :=
  Iff.rfl

/-- A response is sent once its payload can be encoded, and then the path has to split. -/
theorem answers_sendJson {status : Nat} {payload : PyValue} :
    Answers (sendJson l request status payload) s ↔ encodes payload = true ∧ Splits l request := by
  unfold sendJson Splits
  split
  · rename_i hencodes
    cases hsplit : urlsplit l request.path with
    | ok parsed => exact ⟨fun _ => ⟨hencodes, _, rfl⟩, fun _ => ⟨s.clients, _, rfl⟩⟩
    | error e =>
      constructor
      · rintro ⟨_, _, h⟩
        nomatch h
      · rintro ⟨_, _, h⟩
        nomatch h
  · rename_i hencodes
    exact ⟨fun h => absurd h (answers_throw _), fun h => absurd h.1 hencodes⟩

end Parts

/-! ## What is read -/

theorem mem_activeClients {ttlSeconds : Nat} {now : Int} {clients : RuntimeState} {client : Presence.ClientState} :
    client ∈ (activeClients ttlSeconds now clients).2 ↔ ∃ item ∈ clients, isFresh ttlSeconds now item.2 = true ∧ item.2 = client := by
  simp only [activeClients, cleanup, List.mem_insertionSort, List.mem_map, List.mem_filter, and_assoc]

/-- The clients can be sent when they can be listed. -/
theorem answers_sendPeers {s : Server} : Answers (sendPeers l env request) s ↔ Listable env s.clients ∧ Splits l request := by
  unfold sendPeers
  rw [answers_activePeers_bind, answers_sendJson]
  have hpeers : (((activeClients env.heartbeatTtlSeconds env.nowMs s.clients).2.map (listedClient env.sessions)).map
      ListedClient.payload).all encodes = true ↔ Listable env s.clients := by
    simp only [List.map_map, List.all_map, List.all_eq_true, Function.comp, encodes_listedClient, mem_activeClients, Listable]
    constructor
    · exact fun h item hitem hfresh => h _ ⟨item, hitem, hfresh, rfl⟩
    · rintro h _ ⟨item, hitem, hfresh, rfl⟩
      exact h item hitem hfresh
  simp only [encodes_object, List.all_cons, List.all_nil, encodes_list, encodes_int, encodes_topologySummary, Bool.and_true, hpeers]

theorem capabilities_encodes (h : Tellable env) : ∃ capable, capabilities l env = .ok capable ∧ encodes capable = true := by
  obtain ⟨mtu, hmtu⟩ := Option.isSome_iff_exists.mp h.mtu
  obtain ⟨port, hport⟩ := Option.isSome_iff_exists.mp h.port
  obtain ⟨wssPort, hwss⟩ := Option.isSome_iff_exists.mp h.wssPort
  have htexts := h.texts
  simp only [List.forall_mem_cons] at htexts
  unfold capabilities
  rw [hmtu, hport, hwss]
  refine ⟨_, rfl, ?_⟩
  simp [htexts.2.1, htexts.2.2.1, htexts.2.2.2.1]

theorem tellable_of_capabilities {capable : PyValue} (h : capabilities l env = .ok capable) (hencodes : encodes capable = true)
    (hversion : isUnicode env.serverToolVersion = true) : Tellable env := by
  unfold capabilities at h
  split at h
  · rename_i hmtu hport hwss
    injection h with h
    subst h
    simp only [encodes_object, List.all_cons, List.all_nil, encodes_str, encodes_int, encodes_none, encodes_bool, Bool.and_true,
      Bool.and_eq_true] at hencodes
    refine ⟨by rw [hmtu]; rfl, by rw [hport]; rfl, by rw [hwss]; rfl, ?_⟩
    simp only [List.forall_mem_cons]
    exact ⟨hversion, hencodes.1, hencodes.2.1, hencodes.2.2, fun _ h => nomatch h⟩
  · nomatch h

/-- The bootstrap can be sent when the settings can be told. -/
theorem answers_sendBootstrap {s : Server} {query : List (Text × List PyStr)} :
    Answers (sendBootstrap l env request query) s ↔ Tellable env ∧ Splits l request := by
  unfold sendBootstrap
  have haccount : ∀ exists? : Option Bool, encodes (exists?.elim .none .bool) = true := by
    intro exists?
    cases exists? <;> rfl
  simp only [answers_activePeers_bind, answers_ofExcept_bind, answers_sendJson, encodes_object, List.all_cons, List.all_nil, encodes_str,
    encodes_text, encodes_bool, encodes_int, haccount, encodes_topologySummary, encodes_getHealth, Bool.and_true, Bool.true_and,
    Bool.and_eq_true]
  constructor
  · rintro ⟨capable, hcapable, ⟨hversion, hencodes⟩, hsplits⟩
    exact ⟨tellable_of_capabilities hcapable hencodes hversion, hsplits⟩
  · rintro ⟨htell, hsplits⟩
    obtain ⟨capable, hcapable, hencodes⟩ := capabilities_encodes (l := l) htell
    exact ⟨capable, hcapable, ⟨htell.texts _ List.mem_cons_self, hencodes⟩, hsplits⟩

/-- Two paths are not the same when their texts are not. -/
theorem hasPath_iff {parsed : Latin1 × Latin1} (h : urlsplit l request.path = .ok parsed) (path : Text) :
    HasPath l request path ↔ parsed.1 = ascii path := by
  constructor
  · rintro ⟨parsed', h', hpath⟩
    rw [h] at h'
    injection h' with heq
    rw [heq, hpath]
  · exact fun hpath => ⟨parsed, h, hpath⟩

theorem answers_answerGet {s : Server} :
    Answers (answerGet l env request) s ↔
      Splits l request ∧ (HasPath l request "/v1/peers".toList → Listable env s.clients) ∧
        (HasPath l request "/v1/bootstrap".toList → Tellable env) := by
  unfold answerGet
  rw [answers_ofExcept_bind]
  constructor
  · rintro ⟨parsed, hparsed, h⟩
    refine ⟨⟨parsed, hparsed⟩, ?_, ?_⟩
    · intro hpath
      have hpath := (hasPath_iff hparsed _).mp hpath
      rw [if_neg (by rw [hpath]; decide), if_pos hpath] at h
      exact (answers_sendPeers.mp h).1
    · intro hpath
      have hpath := (hasPath_iff hparsed _).mp hpath
      rw [if_neg (by rw [hpath]; decide), if_neg (by rw [hpath]; decide), if_neg (by rw [hpath]; decide), if_pos hpath] at h
      exact (answers_sendBootstrap.mp h).1
  · rintro ⟨⟨parsed, hparsed⟩, hpeers, hbootstrap⟩
    have hsplits : Splits l request := ⟨parsed, hparsed⟩
    refine ⟨parsed, hparsed, ?_⟩
    split
    · exact answers_sendJson.mpr ⟨by simp, hsplits⟩
    · split
      · rename_i hpath
        exact answers_sendPeers.mpr ⟨hpeers ((hasPath_iff hparsed _).mpr hpath), hsplits⟩
      · split
        · exact answers_sendJson.mpr ⟨by simp, hsplits⟩
        · split
          · rename_i hpath
            exact answers_sendBootstrap.mpr ⟨hbootstrap ((hasPath_iff hparsed _).mpr hpath), hsplits⟩
          · exact answers_sendJson.mpr ⟨by simp, hsplits⟩

/-! ## What is written -/

theorem exists_ok_bind {α β : Type} {x : Except PyError α} {f : α → Except PyError β} :
    (∃ b, (x >>= f) = .ok b) ↔ ∃ a, x = .ok a ∧ ∃ b, f a = .ok b := by
  cases x with
  | ok a =>
    constructor
    · exact fun h => ⟨a, rfl, h⟩
    · rintro ⟨_, ⟨⟩, h⟩
      exact h
  | error e =>
    constructor
    · rintro ⟨_, h⟩
      nomatch h
    · rintro ⟨_, h, _⟩
      nomatch h

theorem cleanInt_ok {value : PyValue} {minimum maximum : Int} :
    (∃ n, cleanInt value minimum maximum = .ok n) ↔ ∀ negative, value ≠ .float (.infinite negative) := by
  cases value with
  | float x =>
    cases x with
    | finite q => exact iff_of_true ⟨_, rfl⟩ (fun _ h => nomatch h)
    | infinite negative => exact ⟨fun ⟨_, h⟩ => (nomatch h), fun h => absurd rfl (h negative)⟩
    | nan => exact iff_of_true ⟨_, rfl⟩ (fun _ h => nomatch h)
  | none => exact iff_of_true ⟨_, rfl⟩ (fun _ h => nomatch h)
  | bool b => exact iff_of_true ⟨_, rfl⟩ (fun _ h => nomatch h)
  | int n => exact iff_of_true ⟨_, rfl⟩ (fun _ h => nomatch h)
  | str t => exact iff_of_true ⟨_, rfl⟩ (fun _ h => nomatch h)
  | list values => exact iff_of_true ⟨_, rfl⟩ (fun _ h => nomatch h)
  | dict items => exact iff_of_true ⟨_, rfl⟩ (fun _ h => nomatch h)

theorem cleanFloat_ok {value : PyValue} :
    (∃ q, cleanFloat l value = .ok q) ↔ ∀ n, value = .int n → n.natAbs < floatLimit := by
  cases value with
  | int n =>
    constructor
    · rintro ⟨q, h⟩ _ ⟨⟩
      by_contra hlarge
      rw [cleanFloat, if_neg hlarge] at h
      nomatch h
    · intro h
      exact ⟨_, by rw [cleanFloat, if_pos (h n rfl)]⟩
  | none => exact iff_of_true ⟨_, rfl⟩ (fun _ h => nomatch h)
  | bool b => exact iff_of_true ⟨_, rfl⟩ (fun _ h => nomatch h)
  | float x => exact iff_of_true ⟨_, rfl⟩ (fun _ h => nomatch h)
  | str t => exact iff_of_true ⟨_, rfl⟩ (fun _ h => nomatch h)
  | list values => exact iff_of_true ⟨_, rfl⟩ (fun _ h => nomatch h)
  | dict items => exact iff_of_true ⟨_, rfl⟩ (fun _ h => nomatch h)

/-- A heartbeat gives a state when its numbers can be converted. -/
theorem heartbeatState_ok {items : List (PyStr × PyValue)} {virtualIp : OverlayIp} :
    (∃ state, heartbeatState l env items virtualIp = .ok state) ↔ Convertible items := by
  unfold heartbeatState
  have hpure : ∀ state : Presence.ClientState, ∃ b, (pure state : Except PyError Presence.ClientState) = .ok b := fun state => ⟨state, rfl⟩
  simp only [exists_ok_bind, hpure, and_true, exists_and_right, cleanInt_ok, cleanFloat_ok]
  constructor
  · rintro ⟨h₁, h₂, h₃, h₄, h₅, h₆, h₇⟩
    refine ⟨?_, h₇⟩
    simp only [integerFields, List.forall_mem_cons]
    exact ⟨h₁, h₂, h₃, h₄, h₅, h₆, fun _ h => nomatch h⟩
  · intro h
    have hintegers := h.integers
    simp only [integerFields, List.forall_mem_cons] at hintegers
    obtain ⟨h₁, h₂, h₃, h₄, h₅, h₆, -⟩ := hintegers
    exact ⟨h₁, h₂, h₃, h₄, h₅, h₆, h.loss⟩

theorem items?_eq_some_iff {payload : PyValue} {items : List (PyStr × PyValue)} : payload.items? = some items ↔ payload = .dict items := by
  cases payload with
  | dict items' => exact ⟨fun h => congrArg _ (Option.some.inj h), fun h => congrArg _ (PyValue.dict.inj h)⟩
  | _ => exact ⟨fun h => (nomatch h), fun h => (nomatch h)⟩

theorem answers_heartbeat {s : Server} {payload : PyValue} :
    Answers (heartbeat l env request payload) s ↔
      Splits l request ∧ ∃ items, payload = .dict items ∧ ((acceptedIp l env items).isSome = true → Convertible items) := by
  unfold heartbeat
  cases hitems : payload.items? with
  | none =>
    refine ⟨fun h => absurd h (answers_throw _), ?_⟩
    rintro ⟨_, items, hdict, _⟩
    rw [items?_eq_some_iff.mpr hdict] at hitems
    nomatch hitems
  | some items =>
    have hdict : ∀ {items'}, payload = .dict items' ↔ items' = items := by
      intro items'
      rw [← items?_eq_some_iff, hitems, Option.some.injEq, eq_comm]
    simp only [hdict, exists_eq_left]
    cases acceptedIp l env items with
    | none => simp only [answers_sendJson, encodes_error, true_and, Option.isSome_none, Bool.false_eq_true, false_implies, and_true]
    | some virtualIp =>
      have hsent : ∀ state, Answers (do
          modify (fun s => { s with clients := upsert env.heartbeatTtlSeconds env.nowMs s.clients state })
          sendJson l request 200 (object
            [("ok".toList, .bool true), ("serverTimeUnixMs".toList, .int env.nowMs), ("nextHeartbeatSeconds".toList, .int 5)])) s ↔
          Splits l request := by
        intro state
        refine (answers_modify_bind (g := fun clients => upsert env.heartbeatTtlSeconds env.nowMs clients state)).trans ?_
        rw [answers_sendJson]
        simp
      simp only [answers_ofExcept_bind, hsent, exists_and_right, heartbeatState_ok, Option.isSome_some, true_implies]
      exact and_comm

theorem answers_answerPost {s : Server} {body : Bytes} :
    Answers (answerPost l env request body) s ↔
      Splits l request ∧ ∀ payload, loadsBody l body = some payload → HasPath l request "/v1/heartbeat".toList →
        ∃ items, payload = .dict items ∧ ((acceptedIp l env items).isSome = true → Convertible items) := by
  unfold answerPost
  cases loadsBody l body with
  | none => simp only [answers_sendJson, encodes_error, true_and, reduceCtorEq, false_implies, implies_true, and_true]
  | some payload =>
    simp only [Option.some.injEq, forall_eq', answers_ofExcept_bind]
    constructor
    · rintro ⟨parsed, hparsed, h⟩
      refine ⟨⟨parsed, hparsed⟩, fun hpath => ?_⟩
      rw [if_pos ((hasPath_iff hparsed _).mp hpath)] at h
      exact (answers_heartbeat.mp h).2
    · rintro ⟨⟨parsed, hparsed⟩, h⟩
      refine ⟨parsed, hparsed, ?_⟩
      split
      · rename_i hpath
        exact answers_heartbeat.mpr ⟨⟨parsed, hparsed⟩, h ((hasPath_iff hparsed _).mpr hpath)⟩
      · exact answers_sendJson.mpr ⟨encodes_error _, parsed, hparsed⟩

/-! ## Authorization -/

/-- Up to the signature a request is refused for a reason. -/
theorem reason_of_not_reaches (l : Library) (body : Bytes) (h : ¬ ReachesSignature env request) :
    ∃ reason, reason ≠ [] ∧ authorizationFailureReason l env request body = .ok reason := by
  unfold authorizationFailureReason
  split
  · exact ⟨_, by decide, rfl⟩
  · rename_i hsecret
    split
    · exact ⟨_, by decide, rfl⟩
    · rename_i htimestamp
      split
      · exact ⟨_, by decide, rfl⟩
      · rename_i ts hts
        split
        · exact ⟨_, by decide, rfl⟩
        · rename_i htime
          split
          · exact ⟨_, by decide, rfl⟩
          · rename_i hsignature
            exact absurd ⟨hsecret, htimestamp, ⟨ts, hts, Nat.le_of_not_gt htime⟩, hsignature⟩ h

theorem reason_of_reaches {body : Bytes} (h : ReachesSignature env request) :
    authorizationFailureReason l env request body = compareSignature l env request body := by
  obtain ⟨ts, hts, htime⟩ := h.inTime
  unfold authorizationFailureReason
  rw [if_neg h.secret, if_neg h.timestamp, hts]
  dsimp only
  rw [if_neg (Nat.not_lt.mpr htime), if_neg h.signature]

theorem answers_unauthorized {s : Server} {reason : Text} : Answers (unauthorized l env request reason) s ↔ Splits l request := by
  have hlog : ∀ m : Handle Unit, Answers (logAuthRejection l request >>= fun _ => m) s ↔ Splits l request ∧ Answers m s := by
    intro m
    unfold logAuthRejection Splits
    cases urlsplit l request.path with
    | ok parsed => exact ⟨fun h => ⟨⟨_, rfl⟩, h⟩, fun h => h.2⟩
    | error e =>
      constructor
      · rintro ⟨_, _, h⟩
        nomatch h
      · rintro ⟨⟨_, h⟩, _⟩
        nomatch h
  unfold unauthorized
  rw [hlog, answers_sendJson]
  simp

/-- What follows the authorization is answered where it is reached. -/
theorem answers_authorized {s : Server} {body : Bytes} {m : Handle Unit} (hm : Answers m s → Splits l request) :
    Answers (ofExcept (authorizationFailureReason l env request body) >>= fun reason =>
        if reason ≠ [] then unauthorized l env request reason else m) s ↔
      Splits l request ∧ (ReachesSignature env request → isAscii request.timestamp = true ∧ isAscii request.signature = true ∧
        (expectedSignature l env request body = lowerAscii request.signature → Answers m s)) := by
  rw [answers_ofExcept_bind]
  by_cases hreaches : ReachesSignature env request
  · rw [reason_of_reaches hreaches]
    unfold compareSignature
    cases htimestamp : isAscii request.timestamp with
    | false => simp [hreaches]
    | true =>
      cases hsignature : isAscii request.signature with
      | false => simp [hreaches]
      | true =>
        by_cases hsigned : expectedSignature l env request body = lowerAscii request.signature
        · simp only [Bool.not_true, Bool.false_eq_true, if_false, hsigned, if_true, Except.ok.injEq, exists_eq_left', ne_eq,
            not_true_eq_false, true_and, hreaches, true_implies]
          exact ⟨fun h => ⟨hm h, h⟩, fun h => h.2⟩
        · simp only [Bool.not_true, Bool.false_eq_true, if_false, hsigned, Except.ok.injEq, exists_eq_left', hreaches, true_implies,
            false_implies, and_true]
          rw [if_pos (by decide), answers_unauthorized]
  · obtain ⟨reason, hreason, heq⟩ := reason_of_not_reaches l body hreaches
    simp only [heq, Except.ok.injEq, exists_eq_left', hreaches, false_implies, and_true]
    rw [if_pos hreason, answers_unauthorized]

/-! ## The handlers -/

theorem answers_doGet {s : Server} (hmethod : request.method = .get) :
    Answers (doGet l env request) s ↔ Answerable l env request s.clients := by
  have hinner : Answers (if !requireOverlaySource env none then sendJson l request 403 (error "overlay source required".toList)
      else answerGet l env request) s ↔ Splits l request ∧ Served l env request [] s.clients := by
    unfold Served
    rw [hmethod]
    cases requireOverlaySource env none with
    | false => simp [answers_sendJson]
    | true => simp [answers_answerGet]
  unfold doGet
  rw [answers_authorized (fun h => (hinner.mp h).1), hinner]
  constructor
  · rintro ⟨hsplits, h⟩
    refine ⟨hsplits, fun body hbody hreaches => ?_⟩
    rw [bodyOf, hmethod] at hbody
    injection hbody with hbody
    subst hbody
    obtain ⟨htimestamp, hsignature, hserved⟩ := h hreaches
    exact ⟨htimestamp, hsignature, fun hsigned => (hserved hsigned).2⟩
  · intro h
    refine ⟨h.splits, fun hreaches => ?_⟩
    obtain ⟨htimestamp, hsignature, hserved⟩ := h.compared [] (by rw [bodyOf, hmethod]) hreaches
    exact ⟨htimestamp, hsignature, fun hsigned => ⟨h.splits, hserved hsigned⟩⟩

theorem answers_doPost {s : Server} (hmethod : request.method = .post) :
    Answers (doPost l env request) s ↔ Answerable l env request s.clients := by
  have hbody : bodyOf request = readBody request := by rw [bodyOf, hmethod]
  have hinner : ∀ body, Answers (answerPost l env request body) s ↔ Splits l request ∧ Served l env request body s.clients := by
    intro body
    rw [answers_answerPost, Served, hmethod]
  unfold doPost
  cases hread : readBody request with
  | none =>
    simp only [answers_sendJson, encodes_error, true_and]
    refine ⟨fun hsplits => ⟨hsplits, fun body h => ?_⟩, fun h => h.splits⟩
    rw [hbody, hread] at h
    nomatch h
  | some body =>
    dsimp only
    rw [answers_authorized (fun h => ((hinner body).mp h).1), hinner]
    constructor
    · rintro ⟨hsplits, h⟩
      refine ⟨hsplits, fun body' hbody' hreaches => ?_⟩
      rw [hbody, hread] at hbody'
      injection hbody' with hbody'
      subst hbody'
      obtain ⟨htimestamp, hsignature, hserved⟩ := h hreaches
      exact ⟨htimestamp, hsignature, fun hsigned => (hserved hsigned).2⟩
    · intro h
      refine ⟨h.splits, fun hreaches => ?_⟩
      obtain ⟨htimestamp, hsignature, hserved⟩ := h.compared body (hbody.trans hread) hreaches
      exact ⟨htimestamp, hsignature, fun hsigned => ⟨h.splits, hserved hsigned⟩⟩

theorem answers_handle {s : Server} : Answers (handle l env request) s ↔ Answerable l env request s.clients := by
  unfold handle
  cases hmethod : request.method with
  | get => exact answers_doGet hmethod
  | post => exact answers_doPost hmethod

/-! ## The clients that are kept -/

section Kept

variable {α : Type} {s : Server}

theorem clientsAfter_sendJson {status : Nat} {payload : PyValue} : clientsAfter (sendJson l request status payload) s = s.clients := by
  unfold sendJson
  split
  · unfold clientsAfter
    cases urlsplit l request.path with
    | ok parsed => rfl
    | error e => rfl
  · rfl

theorem clientsAfter_ofExcept_bind {x : Except PyError α} {f : α → Handle Unit} (h : ∀ a, x = .ok a → clientsAfter (f a) s = s.clients) :
    clientsAfter (ofExcept x >>= f) s = s.clients := by
  cases x with
  | ok a => exact h a rfl
  | error e => rfl

theorem clientsAfter_unauthorized {reason : Text} : clientsAfter (unauthorized l env request reason) s = s.clients := by
  unfold unauthorized logAuthRejection
  cases urlsplit l request.path with
  | ok parsed => exact clientsAfter_sendJson (s := s)
  | error e => rfl

/-- What follows the authorization decides where there is no reason to refuse. -/
theorem clientsAfter_authorized {body : Bytes} {m : Handle Unit}
    (h : authorizationFailureReason l env request body = .ok [] → clientsAfter m s = s.clients) :
    clientsAfter (ofExcept (authorizationFailureReason l env request body) >>= fun reason =>
      if reason ≠ [] then unauthorized l env request reason else m) s = s.clients := by
  refine clientsAfter_ofExcept_bind fun reason hreason => ?_
  split
  · exact clientsAfter_unauthorized
  · rename_i hempty
    rw [not_not.mp hempty] at hreason
    exact h hreason

theorem clientsAfter_answerPost {body : Bytes} (h : ¬ IsHeartbeat l env body) : clientsAfter (answerPost l env request body) s = s.clients := by
  unfold answerPost
  cases hloads : loadsBody l body with
  | none => exact clientsAfter_sendJson
  | some payload =>
    refine clientsAfter_ofExcept_bind fun parsed _ => ?_
    split
    · unfold heartbeat
      cases hitems : payload.items? with
      | none => rfl
      | some items =>
        cases haccepted : acceptedIp l env items with
        | none => simp only [haccepted]; exact clientsAfter_sendJson
        | some virtualIp =>
          exact absurd ⟨items, by rw [hloads, items?_eq_some_iff.mp hitems], by rw [haccepted]; rfl⟩ h
    · exact clientsAfter_sendJson

/-- A request that is rejected leaves the clients, whether or not it is answered. -/
theorem clientsAfter_of_rejected (h : Rejected l env request) : clientsAfter (handle l env request) s = s.clients := by
  unfold handle
  unfold Rejected bodyOf at h
  cases hmethod : request.method with
  | get =>
    rw [hmethod] at h
    refine clientsAfter_authorized fun hreason => ?_
    have hsource := h.resolve_left (fun hne => hne hreason)
    dsimp only at hsource
    rw [hsource, Bool.not_false, if_pos rfl]
    exact clientsAfter_sendJson
  | post =>
    rw [hmethod] at h
    dsimp only at h ⊢
    unfold doPost
    cases hread : readBody request with
    | none => exact clientsAfter_sendJson
    | some body =>
      rw [hread] at h
      exact clientsAfter_authorized fun hreason => clientsAfter_answerPost (h.resolve_left (fun hne => hne hreason))

end Kept

/-! ## The requests that are answered -/

/-- A server with a secret, and a library for a request that has nothing in brackets, no body and no query. -/
def plainEnvironment : Environment where
  secret := [1]
  allowLoopback := false
  maintenance := false
  allowNewerTestClients := false
  serverToolVersion := pyStr "0.0.0".toList
  networkName := pyStr "scbl-public".toList
  virtualSubnet := pyStr "10.66.0.0/24".toList
  serverIp := pyStr "10.66.0.1".toList
  mtu := pyStr "1380".toList
  port := pyStr "11010".toList
  wssPort := pyStr "11010".toList
  enableIpv6 := pyStr "y".toList
  controlPort := 19080
  heartbeatTtlSeconds := 20
  sessions := []
  sessionMetadata := { ageMs := none, error := [], observedAtUnixMs := 0 }
  health := none
  healthAgeMs := none
  healthError := []
  requiredClientVersion := []
  accountExists := fun _ => none
  sourceIp := "10.66.0.7".toList
  nowMs := 0

def plainLibrary : Library where
  bracketedHost := fun _ => true
  hmacSha256 := fun _ _ => []
  loads := fun _ => none
  strOf := fun _ => []
  floatOf := fun _ => none
  lower := id
  parseQs := fun _ => []

/-- An unsigned request for a path with a bracket that nothing closes. -/
def unclosedBracket : Request where
  method := .get
  path := ascii "http://[".toList
  contentLength := ascii "0".toList
  timestamp := []
  signature := []
  sent := []

end Scbl.ControlPlane.Requests
