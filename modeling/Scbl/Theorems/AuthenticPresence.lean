import Scbl.Theorems.Presence
import Scbl.Theorems.RequestAnswers

/-!
# The peers that are told

Requests come one after the other, and each is a call on the clients that are present or none (`callOf`). A signed heartbeat from the address
it is for is the only request that enters a client. `peers_told` says of every run of requests which clients are told to whom asks for them:
exactly those whose latest signed heartbeat is fresh, each with the role that the session of its address gives it.
-/

namespace Scbl.ControlPlane.Requests

open Scbl.Lib Presence

/-- A request, with what is around it. -/
structure Arrival where
  env : Environment
  request : Request

/-- What a request leaves, whether or not something is raised, and the responses to it. -/
def serve (l : Library) (clients : RuntimeState) (a : Arrival) : RuntimeState × List Response :=
  match handle l a.env a.request { clients, responses := [] } with
  | .ok _ s => (s.clients, s.responses)
  | .error _ s => (s.clients, s.responses)

/-! ## What a request is to the clients -/

/-- The request is signed with the secret of the server, within the clock skew. -/
structure Signed (l : Library) (a : Arrival) (body : Bytes) : Prop where
  reaches : ReachesSignature a.env a.request
  timestamp : isAscii a.request.timestamp = true
  ascii : isAscii a.request.signature = true
  signature : lowerAscii a.request.signature = expectedSignature l a.env a.request body

/-- The machine itself sends, and may. -/
def FromLoopback (env : Environment) : Prop :=
  env.allowLoopback = true ∧ ∃ octets, ipv4Octets env.sourceIp = some octets ∧ octets.take 1 = [127]

/-- A request is a heartbeat of a client: it is signed, and comes from the address of the client or from the machine itself. -/
structure HeartbeatOf (l : Library) (a : Arrival) (state : Presence.ClientState) : Prop where
  method : a.request.method = .post
  path : HasPath l a.request "/v1/heartbeat".toList
  body : ∃ body items, readBody a.request = some body ∧ Signed l a body ∧ loadsBody l body = some (.dict items) ∧
    overlayIp? (cleanText l (field items "virtualIp".toList) 64) = some state.virtualIp ∧
    heartbeatState l a.env items state.virtualIp = .ok state
  source : a.env.sourceIp = state.virtualIp.text ∨ FromLoopback a.env

/-- A request reads the clients: it is signed, and comes from the overlay. -/
structure Reads (l : Library) (a : Arrival) : Prop where
  method : a.request.method = .get
  signed : Signed l a []
  source : requireOverlaySource a.env none = true
  path : HasPath l a.request "/v1/peers".toList ∨ HasPath l a.request "/v1/bootstrap".toList

/-- The request passes the authorization. -/
def authorized (l : Library) (a : Arrival) (body : Bytes) : Bool :=
  match authorizationFailureReason l a.env a.request body with
  | .ok [] => true
  | _ => false

/-- The path of a request is this one. -/
def hasPath (l : Library) (a : Arrival) (path : Text) : Bool :=
  match urlsplit l a.request.path with
  | .ok parsed => parsed.1 = ascii path
  | .error _ => false

/-- The client that a request tells of. -/
def heartbeatOf (l : Library) (a : Arrival) : Option Presence.ClientState :=
  match a.request.method with
  | .get => none
  | .post => do
    let body ← readBody a.request
    let items ← (if authorized l a body && hasPath l a "/v1/heartbeat".toList then loadsBody l body else none).bind PyValue.items?
    let virtualIp ← acceptedIp l a.env items
    (heartbeatState l a.env items virtualIp).toOption

/-- Whether a request reads the clients. -/
def reads (l : Library) (a : Arrival) : Bool :=
  match a.request.method with
  | .post => false
  | .get =>
    authorized l a [] && requireOverlaySource a.env none && (hasPath l a "/v1/peers".toList || hasPath l a "/v1/bootstrap".toList)

/-- The call of a request on the clients. -/
def callOf (l : Library) (a : Arrival) : Option TimedCall :=
  match heartbeatOf l a with
  | some state => some ⟨a.env.nowMs, .upsert state⟩
  | none => if reads l a then some ⟨a.env.nowMs, .activeClients⟩ else none

/-! ## The calls of the requests -/

variable {l : Library} {a : Arrival}

/-- For the address of a client its owner may speak, and the machine itself where that is allowed. -/
theorem requireOverlaySource_iff {env : Environment} (ip : OverlayIp) :
    requireOverlaySource env (some ip.text) = true ↔ env.sourceIp = ip.text ∨ FromLoopback env := by
  obtain ⟨n, hoctets⟩ : ∃ n, ipv4Octets ip.text = some [10, 66, 0, n] := by
    have hclient := ip.isClient
    unfold isClientOverlayIp at hclient
    split at hclient
    · exact ⟨_, ‹_›⟩
    · cases hclient
  have hne : ip.text ≠ [] := by
    intro hnil
    rw [hnil] at hoctets
    cases hoctets
  have hloopback : (env.allowLoopback && (ipv4Octets env.sourceIp).any (fun octets => octets.take 1 = [127])) = true ↔ FromLoopback env := by
    simp only [Bool.and_eq_true, Option.any_eq_true, decide_eq_true_eq]
    rfl
  rw [← hloopback]
  by_cases hown : env.sourceIp = ip.text
  · simp [requireOverlaySource, hown, hoctets]
  · simp only [requireOverlaySource, Option.any_some, hown, false_or, ne_eq, not_false_eq_true, decide_true, Bool.and_true,
      decide_eq_true hne, if_true]
    cases env.allowLoopback && (ipv4Octets env.sourceIp).any (fun octets => octets.take 1 = [127]) <;> simp

theorem authorized_iff {body : Bytes} : authorized l a body = true ↔ Signed l a body := by
  unfold authorized
  by_cases hreaches : ReachesSignature a.env a.request
  · rw [reason_of_reaches hreaches]
    unfold compareSignature
    cases htimestamp : isAscii a.request.timestamp with
    | false => exact iff_of_false (fun h => by cases h) fun h => by rw [h.timestamp] at htimestamp; cases htimestamp
    | true =>
      cases hsignature : isAscii a.request.signature with
      | false => exact iff_of_false (fun h => by cases h) fun h => by rw [h.ascii] at hsignature; cases hsignature
      | true =>
        by_cases hsigned : expectedSignature l a.env a.request body = lowerAscii a.request.signature
        · simp only [Bool.not_true, Bool.false_eq_true, if_false, if_pos hsigned, true_iff]
          exact ⟨hreaches, htimestamp, hsignature, hsigned.symm⟩
        · simp only [Bool.not_true, Bool.false_eq_true, if_false, if_neg hsigned]
          exact iff_of_false (fun h => by cases h) fun h => hsigned h.signature.symm
  · obtain ⟨reason, hreason, heq⟩ := reason_of_not_reaches l body hreaches
    rw [heq]
    refine iff_of_false ?_ fun h => hreaches h.reaches
    cases reason with
    | nil => exact absurd rfl hreason
    | cons c reason => exact Bool.false_ne_true

theorem reason_of_authorized {body : Bytes} (h : authorized l a body = true) :
    authorizationFailureReason l a.env a.request body = .ok [] := by
  unfold authorized at h
  split at h
  · assumption
  · cases h

theorem reason_of_not_authorized {body : Bytes} (h : authorized l a body = false) :
    authorizationFailureReason l a.env a.request body ≠ .ok [] := by
  intro heq
  unfold authorized at h
  rw [heq] at h
  cases h

theorem hasPath_iff_hasPath {path : Text} : hasPath l a path = true ↔ HasPath l a.request path := by
  unfold hasPath HasPath
  cases urlsplit l a.request.path with
  | error e =>
    refine iff_of_false Bool.false_ne_true ?_
    rintro ⟨_, h, -⟩
    cases h
  | ok parsed =>
    simp only [decide_eq_true_eq, Except.ok.injEq, exists_eq_left']

theorem ok_of_toOption {ε α : Type} {x : Except ε α} {b : α} (h : x.toOption = some b) : x = .ok b := by
  cases x with
  | ok c => exact congrArg Except.ok (Option.some.inj h)
  | error e => cases h

/-- The state of a heartbeat is at its address, and was seen at its time. -/
theorem heartbeatState_fields {env : Environment} {items : List (PyStr × PyValue)} {virtualIp : OverlayIp} {state : Presence.ClientState}
    (h : heartbeatState l env items virtualIp = .ok state) : state.virtualIp = virtualIp ∧ state.lastSeenMs = env.nowMs := by
  unfold heartbeatState at h
  obtain ⟨_, -, h⟩ := bind_eq_ok.mp h
  obtain ⟨_, -, h⟩ := bind_eq_ok.mp h
  obtain ⟨_, -, h⟩ := bind_eq_ok.mp h
  obtain ⟨_, -, h⟩ := bind_eq_ok.mp h
  obtain ⟨_, -, h⟩ := bind_eq_ok.mp h
  obtain ⟨_, -, h⟩ := bind_eq_ok.mp h
  obtain ⟨_, -, h⟩ := bind_eq_ok.mp h
  rw [← Except.ok.inj h]
  exact ⟨rfl, rfl⟩

theorem heartbeatOf_eq_some_iff {state : Presence.ClientState} : heartbeatOf l a = some state ↔ HeartbeatOf l a state := by
  unfold heartbeatOf
  constructor
  · intro h
    cases hmethod : a.request.method with
    | get =>
      rw [hmethod] at h
      cases h
    | post =>
      rw [hmethod] at h
      obtain ⟨body, hbody, h⟩ := Option.bind_eq_some_iff.mp h
      obtain ⟨items, hitems, h⟩ := Option.bind_eq_some_iff.mp h
      obtain ⟨virtualIp, hip, h⟩ := Option.bind_eq_some_iff.mp h
      obtain ⟨payload, hloads, hdict⟩ := Option.bind_eq_some_iff.mp hitems
      split at hloads
      · rename_i hchecked
        rw [Bool.and_eq_true] at hchecked
        obtain ⟨hoverlay, hsource⟩ := Option.filter_eq_some_iff.mp hip
        have hstate := ok_of_toOption h
        obtain rfl := (heartbeatState_fields hstate).1
        exact
          { method := hmethod
            path := hasPath_iff_hasPath.mp hchecked.2
            body := ⟨body, items, hbody, authorized_iff.mp hchecked.1, by rw [hloads, items?_eq_some_iff.mp hdict], hoverlay, hstate⟩
            source := (requireOverlaySource_iff _).mp hsource }
      · cases hloads
  · rintro ⟨hmethod, hpath, ⟨body, items, hbody, hsigned, hloads, hoverlay, hstate⟩, hsource⟩
    rw [hmethod]
    dsimp only
    have hitems : (if authorized l a body && hasPath l a "/v1/heartbeat".toList then loadsBody l body else none).bind PyValue.items? =
        some items := by
      rw [authorized_iff.mpr hsigned, hasPath_iff_hasPath.mpr hpath, if_pos (by decide), hloads]
      rfl
    have hip : acceptedIp l a.env items = some state.virtualIp := Option.filter_eq_some_iff.mpr ⟨hoverlay, (requireOverlaySource_iff _).mpr hsource⟩
    simp only [hbody, bind, Option.bind_some, hitems, hip, hstate]
    rfl

theorem reads_iff : reads l a = true ↔ Reads l a := by
  unfold reads
  constructor
  · intro h
    cases hmethod : a.request.method with
    | post =>
      rw [hmethod] at h
      cases h
    | get =>
      rw [hmethod] at h
      simp only [Bool.and_eq_true, Bool.or_eq_true, authorized_iff, hasPath_iff_hasPath] at h
      exact ⟨hmethod, h.1.1, h.1.2, h.2⟩
  · rintro ⟨hmethod, hsigned, hsource, hpath⟩
    rw [hmethod]
    simp only [Bool.and_eq_true, Bool.or_eq_true, authorized_iff, hasPath_iff_hasPath]
    exact ⟨⟨hsigned, hsource⟩, hpath⟩

/-- What a call leaves, if there is one. -/
def stepOf (ttlSeconds : Nat) (clients : RuntimeState) : Option TimedCall → RuntimeState
  | some c => (step ttlSeconds clients c).1
  | none => clients

section Handled

variable {s : Server}

theorem clientsAfter_ok_bind {α : Type} {x : α} {f : α → Handle Unit} : clientsAfter (ofExcept (.ok x) >>= f) s = clientsAfter (f x) s := rfl

theorem clientsAfter_modify_bind {g : RuntimeState → RuntimeState} {f : Unit → Handle Unit} :
    clientsAfter (modify (fun s => { s with clients := g s.clients }) >>= f) s = clientsAfter (f ()) { s with clients := g s.clients } := rfl

theorem clientsAfter_answerGet :
    clientsAfter (answerGet l a.env a.request) s =
      if hasPath l a "/v1/peers".toList || hasPath l a "/v1/bootstrap".toList then
        (activeClients a.env.heartbeatTtlSeconds a.env.nowMs s.clients).1
      else s.clients := by
  unfold answerGet hasPath
  cases hsplit : urlsplit l a.request.path with
  | error e => rfl
  | ok parsed =>
    have hpeers : "/v1/peers".toList ≠ "/v1/health".toList := by decide
    show clientsAfter (if parsed.1 = ascii "/v1/health".toList then _ else _) s = _
    simp only [Bool.or_eq_true, decide_eq_true_eq]
    split
    · rename_i hhealth
      rw [clientsAfter_sendJson, if_neg]
      rw [hhealth]
      decide
    · split
      · rename_i hpath
        rw [if_pos (.inl hpath)]
        exact clientsAfter_sendJson
      · rename_i hpeers
        split
        · rename_i hsession
          rw [clientsAfter_sendJson, if_neg]
          rw [hsession]
          decide
        · split
          · rename_i hpath
            rw [if_pos (.inr hpath)]
            exact clientsAfter_ofExcept_bind (s := { s with
              clients := (activeClients a.env.heartbeatTtlSeconds a.env.nowMs s.clients).1 }) fun capable _ => clientsAfter_sendJson
          · rename_i hbootstrap
            rw [clientsAfter_sendJson, if_neg (not_or.mpr ⟨hpeers, hbootstrap⟩)]

theorem clientsAfter_doGet (hmethod : a.request.method = .get) :
    clientsAfter (doGet l a.env a.request) s =
      if reads l a then (activeClients a.env.heartbeatTtlSeconds a.env.nowMs s.clients).1 else s.clients := by
  unfold reads
  rw [hmethod]
  dsimp only
  cases hauth : authorized l a [] with
  | false =>
    rw [Bool.false_and, Bool.false_and]
    exact clientsAfter_authorized fun heq => absurd heq (reason_of_not_authorized hauth)
  | true =>
    have hget : clientsAfter (doGet l a.env a.request) s =
        clientsAfter (if !requireOverlaySource a.env none then sendJson l a.request 403 (error "overlay source required".toList)
          else answerGet l a.env a.request) s := by
      unfold doGet
      rw [reason_of_authorized hauth]
      rfl
    rw [hget, Bool.true_and]
    cases requireOverlaySource a.env none with
    | false =>
      rw [Bool.not_false, if_pos rfl, Bool.false_and, if_neg Bool.false_ne_true]
      exact clientsAfter_sendJson
    | true => exact clientsAfter_answerGet

theorem clientsAfter_heartbeat {payload : PyValue} :
    clientsAfter (heartbeat l a.env a.request payload) s =
      ((payload.items?.bind fun items => (acceptedIp l a.env items).bind fun virtualIp =>
        (heartbeatState l a.env items virtualIp).toOption).elim s.clients (upsert a.env.heartbeatTtlSeconds a.env.nowMs s.clients)) := by
  unfold heartbeat
  cases payload.items? with
  | none => rfl
  | some items =>
    simp only [Option.bind_some]
    cases acceptedIp l a.env items with
    | none => exact clientsAfter_sendJson (s := s)
    | some virtualIp =>
      simp only [Option.bind_some]
      cases heartbeatState l a.env items virtualIp with
      | error e => rfl
      | ok state =>
        rw [clientsAfter_ok_bind, clientsAfter_modify_bind (g := fun clients => upsert a.env.heartbeatTtlSeconds a.env.nowMs clients state),
          clientsAfter_sendJson]
        rfl

theorem clientsAfter_doPost (hmethod : a.request.method = .post) :
    clientsAfter (doPost l a.env a.request) s =
      (heartbeatOf l a).elim s.clients (upsert a.env.heartbeatTtlSeconds a.env.nowMs s.clients) := by
  unfold heartbeatOf doPost
  rw [hmethod]
  dsimp only
  cases readBody a.request with
  | none => exact clientsAfter_sendJson (s := s)
  | some body =>
    simp only [bind, Option.bind_some]
    cases hauth : authorized l a body with
    | false => exact clientsAfter_authorized fun heq => absurd heq (reason_of_not_authorized hauth)
    | true =>
      have hpost : clientsAfter (ofExcept (authorizationFailureReason l a.env a.request body) >>= fun reason =>
          if reason ≠ [] then unauthorized l a.env a.request reason else answerPost l a.env a.request body) s =
          clientsAfter (answerPost l a.env a.request body) s := by
        rw [reason_of_authorized hauth]
        rfl
      refine hpost.trans ?_
      unfold answerPost hasPath
      cases loadsBody l body with
      | none =>
        rw [ite_self]
        exact clientsAfter_sendJson (s := s)
      | some payload =>
        simp only []
        cases urlsplit l a.request.path with
        | error e => rfl
        | ok parsed =>
          show clientsAfter (if parsed.1 = ascii "/v1/heartbeat".toList then heartbeat l a.env a.request payload
            else sendJson l a.request 404 (error "not found".toList)) s = _
          by_cases hpath : parsed.1 = ascii "/v1/heartbeat".toList
          · rw [if_pos hpath, if_pos ((Bool.true_and _).trans (decide_eq_true hpath))]
            exact clientsAfter_heartbeat
          · rw [if_neg hpath, if_neg fun h => hpath (of_decide_eq_true ((Bool.true_and _).symm.trans h))]
            exact clientsAfter_sendJson (s := s)

/-- A request does to the clients what its call does. -/
theorem clientsAfter_handle : clientsAfter (handle l a.env a.request) s = stepOf a.env.heartbeatTtlSeconds s.clients (callOf l a) := by
  unfold handle callOf
  cases hmethod : a.request.method with
  | get =>
    have hnone : heartbeatOf l a = none := by rw [heartbeatOf, hmethod]
    refine (clientsAfter_doGet hmethod).trans ?_
    rw [hnone]
    dsimp only
    split <;> rfl
  | post =>
    have hreads : reads l a = false := by rw [reads, hmethod]
    refine (clientsAfter_doPost hmethod).trans ?_
    rw [hreads]
    cases heartbeatOf l a <;> rfl

end Handled

/-! ## The responses -/

theorem serve_fst (clients : RuntimeState) :
    (serve l clients a).1 = stepOf a.env.heartbeatTtlSeconds clients (callOf l a) := by
  rw [← clientsAfter_handle (s := { clients, responses := [] })]
  unfold serve clientsAfter
  cases handle l a.env a.request { clients, responses := [] } <;> rfl

/-- What is told of the clients that are listed. -/
def peersPayload (l : Library) (env : Environment) (listed : List Presence.ClientState) : PyValue :=
  let peers := listed.map (listedClient env.sessions)
  object
    [("peers".toList, .list (peers.map ListedClient.payload)), ("onlineCount".toList, .int peers.length),
      ("ttlSeconds".toList, .int env.heartbeatTtlSeconds), ("topology".toList, topologySummary l peers)]

/-- The responses in the end, whether or not something is raised. -/
def responsesAfter (m : Handle Unit) (s : Server) : List Response :=
  match m s with
  | .ok _ s' => s'.responses
  | .error _ s' => s'.responses

/-- Every response that is sent has this status and this payload. -/
def Sends (m : Handle Unit) (s : Server) (holds : Response → Prop) : Prop :=
  ∀ response ∈ responsesAfter m s, response ∈ s.responses ∨ holds response

variable {s : Server} {holds : Response → Prop}

theorem sends_sendJson {status : Nat} {payload : PyValue} (h : holds ⟨status, payload⟩) :
    Sends (sendJson l a.request status payload) s holds := by
  intro response hresponse
  unfold sendJson at hresponse
  split at hresponse
  · have hsent : response ∈ s.responses ++ [⟨status, payload⟩] := by
      revert hresponse
      unfold responsesAfter
      cases urlsplit l a.request.path <;> exact id
    rcases List.mem_append.mp hsent with hold | hnew
    · exact .inl hold
    · exact .inr (List.mem_singleton.mp hnew ▸ h)
  · exact .inl hresponse

theorem sends_ofExcept_bind {α : Type} {x : Except PyError α} {f : α → Handle Unit} (h : ∀ b, x = .ok b → Sends (f b) s holds) :
    Sends (ofExcept x >>= f) s holds := by
  cases x with
  | error e => exact fun response hresponse => .inl hresponse
  | ok b => exact h b rfl

theorem sends_unauthorized {reason : Text} (h : ∀ payload, holds ⟨401, payload⟩) :
    Sends (unauthorized l a.env a.request reason) s holds := by
  unfold unauthorized logAuthRejection
  cases urlsplit l a.request.path with
  | error e => exact fun response hresponse => .inl hresponse
  | ok parsed => exact sends_sendJson (h _)

/-- Of the peers the list is told that is returned. -/
theorem sends_get (hpath : HasPath l a.request "/v1/peers".toList) :
    Sends (doGet l a.env a.request) s (fun response => response.status = 200 →
      response.payload = peersPayload l a.env (activeClients a.env.heartbeatTtlSeconds a.env.nowMs s.clients).2) := by
  unfold doGet
  refine sends_ofExcept_bind fun reason _ => ?_
  split
  · exact sends_unauthorized fun _ h => by cases h
  · split
    · exact sends_sendJson fun h => by cases h
    · obtain ⟨parsed, hparsed, hpeers⟩ := hpath
      unfold answerGet
      rw [hparsed]
      refine sends_ofExcept_bind fun parsed' hparsed' => ?_
      rw [← Except.ok.inj hparsed', if_neg (by rw [hpeers]; decide), if_pos hpeers]
      exact sends_sendJson (s := { s with clients := (activeClients a.env.heartbeatTtlSeconds a.env.nowMs s.clients).1 }) fun _ => rfl

theorem serve_snd (hmethod : a.request.method = .get) (hpath : HasPath l a.request "/v1/peers".toList) (clients : RuntimeState)
    {response : Response} (hresponse : response ∈ (serve l clients a).2) (hstatus : response.status = 200) :
    response.payload = peersPayload l a.env (activeClients a.env.heartbeatTtlSeconds a.env.nowMs clients).2 := by
  have hafter : response ∈ responsesAfter (doGet l a.env a.request) { clients, responses := [] } := by
    revert hresponse
    unfold serve responsesAfter handle
    rw [hmethod]
    dsimp only
    cases doGet l a.env a.request { clients, responses := [] } <;> exact id
  rcases sends_get hpath response hafter with hold | hnew
  · exact absurd hold List.not_mem_nil
  · exact hnew hstatus

/-! ## The clients that are present -/

/-- A client is present at a time after some requests: the latest of its heartbeats is fresh, no heartbeat of another client was for its
address since, and none of its own from another address. -/
def Present (l : Library) (ttlSeconds : Nat) (past : List Arrival) (now : Int) (state : Presence.ClientState) : Prop :=
  ∃ before a after, past = before ++ a :: after ∧ HeartbeatOf l a state ∧ now - ttlSeconds * 1000 ≤ a.env.nowMs ∧
    ∀ b ∈ after, ∀ later, HeartbeatOf l b later → later.virtualIp ≠ state.virtualIp ∧ ¬ MovedAway state later

/-- What is asked of the list of the clients that are present. -/
structure IsPeers (l : Library) (ttlSeconds : Nat) (past : List Arrival) (now : Int) (listed : List Presence.ClientState) : Prop where
  ordered : listed.Pairwise (fun a b => lastOctet a.virtualIp.text ≤ lastOctet b.virtualIp.text)
  addressOnce : (listed.map (·.virtualIp)).Nodup
  mem : ∀ state, state ∈ listed ↔ Present l ttlSeconds past now state
  instanceOnce : ∀ a ∈ listed, ∀ b ∈ listed, a.instanceId = b.instanceId → a.instanceId ≠ [] → a = b

theorem callOf_eq_upsert_iff {c : TimedCall} {state : Presence.ClientState} (h : callOf l a = some c) :
    c.call = .upsert state ↔ HeartbeatOf l a state := by
  rw [← heartbeatOf_eq_some_iff]
  unfold callOf at h
  cases hbeat : heartbeatOf l a with
  | some other =>
    rw [hbeat] at h
    rw [← Option.some.inj h]
    exact ⟨fun heq => congrArg some (Call.upsert.inj heq), fun heq => congrArg Call.upsert (Option.some.inj heq)⟩
  | none =>
    rw [hbeat] at h
    dsimp only at h
    split at h
    · rw [← Option.some.inj h]
      exact iff_of_false (fun heq => by cases heq) (fun heq => by cases heq)
    · cases h

theorem callOf_now {c : TimedCall} (h : callOf l a = some c) : c.now = a.env.nowMs := by
  unfold callOf at h
  split at h
  · rw [← Option.some.inj h]
  · split at h
    · rw [← Option.some.inj h]
    · cases h

/-- The clients that are listed by the calls of some requests are those that are present. -/
theorem listed_iff_present {ttlSeconds : Nat} {past : List Arrival} {now : Int} {state : Presence.ClientState} :
    Listed ttlSeconds (past.filterMap (callOf l)) now state ↔ Present l ttlSeconds past now state := by
  constructor
  · rintro ⟨seenAt, after, ⟨⟨before, hpast⟩, hlatest⟩, hfresh, hmoved⟩
    obtain ⟨before', rest, hsplit, -, hrest⟩ := List.filterMap_eq_append_iff.mp hpast
    obtain ⟨skipped, a, after', hrest', hskipped, hcall, hafter⟩ := List.filterMap_eq_cons_iff.mp hrest
    refine ⟨before' ++ skipped, a, after', by rw [hsplit, hrest', List.append_assoc], (callOf_eq_upsert_iff hcall).mp rfl,
      callOf_now hcall ▸ hfresh, fun b hb later hbeat => ?_⟩
    obtain ⟨c, hc⟩ : ∃ c, callOf l b = some c := ⟨_, by rw [callOf, heartbeatOf_eq_some_iff.mpr hbeat]⟩
    have hmem : c ∈ after := hafter ▸ List.mem_filterMap.mpr ⟨b, hb, hc⟩
    have hlater := (callOf_eq_upsert_iff hc).mpr hbeat
    exact ⟨hlatest c hmem later hlater, hmoved c hmem later hlater⟩
  · rintro ⟨before, a, after, rfl, hbeat, hfresh, hafter⟩
    have hcall : callOf l a = some ⟨a.env.nowMs, .upsert state⟩ := by rw [callOf, heartbeatOf_eq_some_iff.mpr hbeat]
    have hback : ∀ c ∈ after.filterMap (callOf l), ∀ later, c.call = .upsert later →
        later.virtualIp ≠ state.virtualIp ∧ ¬ MovedAway state later := by
      intro c hc later hlater
      obtain ⟨b, hb, hcb⟩ := List.mem_filterMap.mp hc
      exact hafter b hb later ((callOf_eq_upsert_iff hcb).mp hlater)
    refine ⟨a.env.nowMs, after.filterMap (callOf l), ⟨⟨before.filterMap (callOf l), ?_⟩, fun c hc later hlater => (hback c hc later hlater).1⟩,
      hfresh, fun c hc later hlater => (hback c hc later hlater).2⟩
    rw [List.filterMap_append, List.filterMap_cons_some hcall]

/-- What is recorded after some requests in the course of time. -/
theorem recorded_of_arrivals {ttlSeconds : Nat} {arrivals : List Arrival} (httl : ∀ a ∈ arrivals, a.env.heartbeatTtlSeconds = ttlSeconds)
    (hordered : arrivals.Pairwise (fun a b => a.env.nowMs ≤ b.env.nowMs)) {past rest : List (Transition RuntimeState Arrival (List Response))}
    {t : Transition RuntimeState Arrival (List Response)} (htrace : trace (serve l) [] arrivals = past ++ t :: rest) :
    Recorded ttlSeconds ((past.map (·.input)).filterMap (callOf l)) t.before ∧ ∀ b ∈ past.map (·.input), b.env.nowMs ≤ t.input.env.nowMs := by
  have hinputs : ∀ past t rest, trace (serve l) [] arrivals = past ++ t :: rest →
      arrivals = past.map (·.input) ++ t.input :: rest.map (·.input) := by
    intro past t rest htrace
    rw [← @trace_inputs _ _ _ (serve l) [] arrivals, htrace, List.map_append, List.map_cons]
  have hearlier : ∀ past t rest, trace (serve l) [] arrivals = past ++ t :: rest →
      t.input.env.heartbeatTtlSeconds = ttlSeconds ∧ ∀ b ∈ past.map (·.input), b.env.nowMs ≤ t.input.env.nowMs := by
    intro past t rest htrace
    have harrivals := hinputs past t rest htrace
    refine ⟨httl _ (harrivals ▸ List.mem_append_right _ List.mem_cons_self), fun b hb => ?_⟩
    exact (List.pairwise_append.mp (harrivals ▸ hordered)).2.2 b hb t.input List.mem_cons_self
  have hrun := trace_history_of (P := fun past clients => Recorded ttlSeconds ((past.map (·.input)).filterMap (callOf l)) clients)
    (fun past t => t.input.env.heartbeatTtlSeconds = ttlSeconds ∧ ∀ b ∈ past.map (·.input), b.env.nowMs ≤ t.input.env.nowMs)
    (fun past clients a hrecorded hc => by
      obtain ⟨hsame, hbefore⟩ := hc
      rw [List.map_append, List.filterMap_append, serve_fst]
      cases hcall : callOf l a with
      | none =>
        rw [List.map_singleton, List.filterMap_cons_none hcall, List.filterMap_nil, List.append_nil]
        exact hrecorded
      | some c =>
        rw [List.map_singleton, List.filterMap_cons_some hcall, List.filterMap_nil, stepOf, hsame]
        refine hrecorded.step c (fun d hd => ?_) fun state hstate => ?_
        · obtain ⟨b, hb, hcb⟩ := List.mem_filterMap.mp hd
          rw [callOf_now hcb, callOf_now hcall]
          exact hbefore b hb
        · obtain ⟨body, items, -, -, -, -, hstate⟩ := ((callOf_eq_upsert_iff hcall).mp hstate).body
          rw [callOf_now hcall, (heartbeatState_fields hstate).2])
    (recorded_nil ttlSeconds) hearlier past t rest htrace
  exact ⟨hrun.1, (hearlier past t rest htrace).2⟩

/-- In every run of requests in the course of time, whoever is told the peers is told exactly the clients that are present: those whose
latest heartbeat, signed with the secret and sent from an address that may speak for theirs, is fresh. -/
theorem peers_told (l : Library) (ttlSeconds : Nat) (arrivals : List Arrival)
    (httl : ∀ a ∈ arrivals, a.env.heartbeatTtlSeconds = ttlSeconds) (hordered : arrivals.Pairwise (fun a b => a.env.nowMs ≤ b.env.nowMs)) :
    ∀ past t rest, trace (serve l) [] arrivals = past ++ t :: rest → t.input.request.method = .get →
      HasPath l t.input.request "/v1/peers".toList → ∀ response ∈ t.output, response.status = 200 →
        ∃ listed, IsPeers l ttlSeconds (past.map (·.input)) t.input.env.nowMs listed ∧
          response.payload = peersPayload l t.input.env listed := by
  intro past t rest htrace hmethod hpath response hresponse hstatus
  obtain ⟨hrecorded, hbefore⟩ := recorded_of_arrivals httl hordered htrace
  have ht : t ∈ trace (serve l) [] arrivals := htrace ▸ List.mem_append_right _ List.mem_cons_self
  have hserved := (mem_trace ht).2
  have hinput := (mem_trace ht).1
  have hpayload := serve_snd hmethod hpath t.before (by rwa [hserved]) hstatus
  rw [httl _ hinput] at hpayload
  have hlist : IsPresenceList ttlSeconds ((past.map (·.input)).filterMap (callOf l)) t.input.env.nowMs _ := hrecorded.isPresenceList
    (fun c hc state hstate => by
      obtain ⟨b, hb, hcb⟩ := List.mem_filterMap.mp hc
      obtain ⟨body, items, -, -, -, -, hbeat⟩ := ((callOf_eq_upsert_iff hcb).mp hstate).body
      rw [callOf_now hcb, (heartbeatState_fields hbeat).2])
    (fun c hc => by
      obtain ⟨b, hb, hcb⟩ := List.mem_filterMap.mp hc
      rw [callOf_now hcb]
      exact hbefore b hb)
  exact ⟨_, ⟨hlist.ordered, hlist.addressOnce, fun state => (hlist.mem state).trans listed_iff_present, hlist.instanceOnce⟩, hpayload⟩

namespace AuthenticPresence

/-- The body of the heartbeat of a client. -/
def samBody : Bytes := ascii "\x7b\"username\":\"Sam\",\"virtualIp\":\"10.66.0.7\"\x7d".toList

/-- A library for this body and the two requests. -/
def signingLibrary : Library :=
  { plainLibrary with
    hmacSha256 := fun _ data =>
      if data = ascii "9\nGET\n/v1/peers\n".toList then ascii "f75c6cc5e16a80309fd8f7d70a18dc9c9de4b13d4bb06a638d2806149a972e18".toList
      else ascii "205f48e12f4bd9f85d7a952637ca5e7cdb28a49e4bc7119ce5d725a557d8b92d".toList
    loads := fun body =>
      if body = samBody then
        some (.dict [(pyStr "username".toList, text "Sam".toList), (pyStr "virtualIp".toList, text "10.66.0.7".toList)])
      else none }

/-- The client sends a heartbeat. -/
def beat : Arrival where
  env := { plainEnvironment with nowMs := 5000 }
  request :=
    { method := .post
      path := ascii "/v1/heartbeat".toList
      contentLength := ascii "42".toList
      timestamp := ascii "5".toList
      signature := ascii "205f48e12f4bd9f85d7a952637ca5e7cdb28a49e4bc7119ce5d725a557d8b92d".toList
      sent := samBody }

/-- Another one asks for the peers. -/
def ask : Arrival where
  env := { plainEnvironment with nowMs := 9000, sourceIp := "10.66.0.9".toList }
  request :=
    { method := .get
      path := ascii "/v1/peers".toList
      contentLength := ascii "0".toList
      timestamp := ascii "9".toList
      signature := ascii "f75c6cc5e16a80309fd8f7d70a18dc9c9de4b13d4bb06a638d2806149a972e18".toList
      sent := [] }

theorem trace_two : trace (serve signingLibrary) [] [beat, ask] =
    [⟨[], beat, (serve signingLibrary [] beat).2, (serve signingLibrary [] beat).1⟩] ++
      ⟨(serve signingLibrary [] beat).1, ask, (serve signingLibrary (serve signingLibrary [] beat).1 ask).2,
        (serve signingLibrary (serve signingLibrary [] beat).1 ask).1⟩ :: [] := by
  rw [trace, trace, trace_nil, List.singleton_append]

end AuthenticPresence

open AuthenticPresence in
/-- Four seconds after the heartbeat the other one is told the clients that are present. -/
theorem peers_told_sam :
    ∃ response ∈ (serve signingLibrary (serve signingLibrary [] beat).1 ask).2, response.status = 200 ∧
      ∃ listed, IsPeers signingLibrary 20 [beat] 9000 listed ∧ response.payload = peersPayload signingLibrary ask.env listed := by
  have hstatus : (serve signingLibrary (serve signingLibrary [] beat).1 ask).2.map (·.status) = [200] := by decide +kernel
  have hmem : 200 ∈ (serve signingLibrary (serve signingLibrary [] beat).1 ask).2.map (·.status) := by
    rw [hstatus]
    exact List.mem_singleton_self _
  obtain ⟨response, hresponse, hok⟩ := List.mem_map.mp hmem
  have hpath : HasPath signingLibrary ask.request "/v1/peers".toList := ⟨(ascii "/v1/peers".toList, []), by decide +kernel, rfl⟩
  have httl : ∀ a ∈ [beat, ask], a.env.heartbeatTtlSeconds = 20 := by
    intro a ha
    rcases List.mem_pair.mp ha with rfl | rfl <;> rfl
  have hordered : [beat, ask].Pairwise (fun a b => a.env.nowMs ≤ b.env.nowMs) := List.pairwise_pair.mpr (by decide)
  have h := peers_told signingLibrary 20 [beat, ask] httl hordered _ _ _ trace_two
  dsimp only [List.map_cons, List.map_nil] at h
  have hmethod : ask.request.method = .get := rfl
  obtain ⟨listed, hlisted, hpayload⟩ := h hmethod hpath response hresponse hok
  exact ⟨response, hresponse, hok, listed, hlisted, hpayload⟩

end Scbl.ControlPlane.Requests
