import Scbl.Auth.TicketGranting
import Scbl.Lemmas.Accounts

/-!
# Who is authenticated

Whether a connection has a user, or a ticket is handed out for one, only after a password of that user was verified on that
connection. `login_ex` verifies a password; `request_ticket` goes by the user of the connection; `login` sets that user and hands
out a ticket without looking at a password.
-/

namespace Scbl.Auth

open Scbl.Lib Scbl.Rmc Scbl.Storage

/-- A transition of the service. -/
abbrev AuthTransition : Type := Transition AuthState AuthCall (Option Answer)

/-- The password verifies for a user with the name. -/
def PassesLogin (argon2 : Argon2) (db : Database) (username password : Text) (userId : UInt32) : Prop :=
  ∃ user ∈ db.users, user.username = username ∧ UInt32.ofNat user.id = userId ∧ verifyPassword argon2 user password = .ok true

/-- A `login_ex` on the connection was made with a password that verified for the user. -/
def Verified (svc : AuthService) (past : List AuthTransition) (connection userId : UInt32) : Prop :=
  ∃ t ∈ past, ∃ entropy request data, t.input = .loginEx connection entropy request ∧ request.loginData = .ok data ∧
    PassesLogin svc.argon2 t.before.storage data.userName data.password userId

/-- What was verified stays verified. -/
theorem Verified.append {svc : AuthService} {past more : List AuthTransition} {connection userId : UInt32}
    (h : Verified svc past connection userId) : Verified svc (past ++ more) connection userId := by
  obtain ⟨t, ht, hrest⟩ := h
  exact ⟨t, List.mem_append_left _ ht, hrest⟩

/-- The users of all connections, and the user of the ticket handed out, are verified. -/
structure Authenticated (svc : AuthService) (past : List AuthTransition) (t : AuthTransition) : Prop where
  users : ∀ connection userId, t.after.userId connection = some userId → Verified svc (past ++ [t]) connection userId
  ticket : ∀ answer ∈ t.output, ∀ ticket ∈ answer.granted, ∀ connection ∈ t.input.connection?,
    Verified svc (past ++ [t]) connection ticket.internal.principleId

/-- A `login` names a user that was not verified on the connection. -/
def SkipsPassword (svc : AuthService) (past : List AuthTransition) (t : AuthTransition) : Prop :=
  ∃ connection entropy username userId, t.input = .login connection entropy username ∧
    findUserIdByName t.before.storage username = some userId ∧ ¬ Verified svc past connection userId

namespace Authentication

variable {svc : AuthService}

/-- The users of all connections are verified. -/
def UsersVerified (svc : AuthService) (past : List AuthTransition) (st : AuthState) : Prop :=
  ∀ connection userId, st.userId connection = some userId → Verified svc past connection userId

/-- A login that succeeds had a password that verified. -/
theorem passesLogin_of_loginUser {argon2 : Argon2} {username password : Text} {db : Database} {id : Nat}
    (h : (loginUser argon2 username password db).2 = .ok (.ok id)) :
    PassesLogin argon2 db username password (UInt32.ofNat id) := by
  obtain ⟨user, huser, hname, hid, hverified⟩ := user_of_loginUser h
  exact ⟨user, huser, hname, congrArg UInt32.ofNat hid, hverified⟩

/-- The user of a connection is set, and a ticket for that user is handed out. -/
structure Grants (st st' : AuthState) (answer : Option Answer) (connection userId : UInt32) : Prop where
  users : st'.userId = (st.setUserId connection userId).userId
  granted : ∃ a ticket, answer = some a ∧ a.granted = some ticket ∧ ticket.internal.principleId = userId

/-- `login` with the name of a user makes that user the user of the connection. -/
theorem login_grants (svc : AuthService) (entropy : Entropy) (st : AuthState) (connection : UInt32) {username : Text}
    {userId : UInt32} (h : findUserIdByName st.storage username = some userId) :
    let r := authStep svc st (.login connection entropy username)
    Grants st r.1 r.2 connection userId := by
  obtain ⟨buffer, hbuffer⟩ := (KerberosTicket.grant userId SERVER_PID entropy.sessionKey).asBytes_ok svc.digests svc.box
    entropy.nonce userId (findPasswordForUser st.storage userId) svc.ctx.ticketKey
  simp only [authStep, login, h, hbuffer]
  exact ⟨rfl, _, _, rfl, rfl, rfl⟩

/-- `login_ex` with a password that verifies makes the user the user of the connection. -/
theorem loginEx_grants (svc : AuthService) (entropy : Entropy) (st : AuthState) (connection : UInt32) {request : LoginExRequest}
    {data : UbiAuthenticationLoginCustomData} {id : Nat} (hdata : request.loginData = .ok data)
    (hlogin : (loginUser svc.argon2 data.userName data.password st.storage).2 = .ok (.ok id)) :
    let r := authStep svc st (.loginEx connection entropy request)
    Grants st r.1 r.2 connection (UInt32.ofNat id) := by
  obtain ⟨buffer, hbuffer⟩ := (KerberosTicket.grant (UInt32.ofNat id) SERVER_PID entropy.sessionKey).asBytes_ok svc.digests
    svc.box entropy.nonce (UInt32.ofNat id) none svc.ctx.ticketKey
  cases hr : loginUser svc.argon2 data.userName data.password st.storage with
  | mk storage outcome =>
    rw [hr] at hlogin
    cases hlogin
    simp only [authStep, loginEx, hdata, hr, hbuffer]
    exact ⟨rfl, _, _, rfl, rfl, rfl⟩

/-- What a step does: it leaves the users alone and hands out no ticket, or it grants a connection a user, who was named by a
`login`, was verified by a `login_ex`, or was the user of the connection. -/
theorem authStep_cases (svc : AuthService) (st : AuthState) (call : AuthCall) :
    let r := authStep svc st call
    (r.1.userId = st.userId ∧ ∀ answer ∈ r.2, answer.granted = none) ∨
      ∃ connection userId, call.connection? = some connection ∧ Grants st r.1 r.2 connection userId ∧
        ((∃ entropy username, call = .login connection entropy username ∧ findUserIdByName st.storage username = some userId) ∨
          (∃ entropy request data, call = .loginEx connection entropy request ∧ request.loginData = .ok data ∧
            PassesLogin svc.argon2 st.storage data.userName data.password userId) ∨
          st.userId connection = some userId) := by
  cases call with
  | login connection entropy username =>
    cases hfound : findUserIdByName st.storage username with
    | none =>
      refine .inl ?_
      simp only [authStep, login, hfound]
      exact ⟨rfl, by rintro _ ⟨⟩; rfl⟩
    | some userId =>
      exact .inr ⟨connection, userId, rfl, login_grants svc entropy st connection hfound, .inl ⟨entropy, username, rfl, hfound⟩⟩
  | loginEx connection entropy request =>
    cases hdata : request.loginData with
    | error e =>
      refine .inl ?_
      simp only [authStep, loginEx, hdata]
      cases e with
      | panic p => exact ⟨rfl, fun _ h => nomatch h⟩
      | fail e => exact ⟨rfl, by rintro _ ⟨⟩; rfl⟩
    | ok data =>
      cases hlogin : loginUser svc.argon2 data.userName data.password st.storage with
      | mk storage outcome =>
        rcases outcome with e | e | id
        · refine .inl ?_
          simp only [authStep, loginEx, hdata, hlogin]
          exact ⟨rfl, by rintro _ ⟨⟩; rfl⟩
        · refine .inl ?_
          simp only [authStep, loginEx, hdata, hlogin]
          exact ⟨rfl, by rintro _ ⟨⟩; rfl⟩
        · have hok := congrArg Prod.snd hlogin
          exact .inr ⟨connection, UInt32.ofNat id, rfl, loginEx_grants svc entropy st connection hdata hok,
            .inr (.inl ⟨entropy, request, data, rfl, hdata, passesLogin_of_loginUser hok⟩)⟩
  | requestTicket connection entropy request =>
    simp only [authStep, requestTicket]
    split
    · rename_i huser
      obtain ⟨buffer, hbuffer⟩ := (KerberosTicket.grant request.idSource request.idTarget entropy.sessionKey).asBytes_ok
        svc.digests svc.box entropy.nonce request.idSource
        (findPasswordForUser (st.storeSessionKey request.idSource entropy.sessionKey).storage request.idSource)
        svc.ctx.ticketKey
      refine .inr ⟨connection, request.idSource, rfl, ?_, .inr (.inr huser)⟩
      simp only [hbuffer]
      refine ⟨funext fun c => ?_, _, _, rfl, rfl, rfl⟩
      -- the connection has this user already
      by_cases hc : c = connection
      · rw [hc]
        exact huser.trans (if_pos rfl).symm
      · exact (if_neg hc).symm
    · exact .inl ⟨rfl, by rintro _ ⟨⟩; rfl⟩
  | storage call => exact .inl ⟨rfl, fun _ h => nomatch h⟩

/-- A step that skips no password keeps all users verified, and hands out tickets for verified users only. -/
theorem authenticated_step {past : List AuthTransition} {st : AuthState} {call : AuthCall} (h : UsersVerified svc past st)
    (hs : ¬ SkipsPassword svc past ⟨st, call, (authStep svc st call).2, (authStep svc st call).1⟩) :
    Authenticated svc past ⟨st, call, (authStep svc st call).2, (authStep svc st call).1⟩ := by
  rcases authStep_cases svc st call with ⟨husers, hnone⟩ | ⟨connection, userId, hconnection, hgrants, hreason⟩
  · constructor
    · intro c u hu
      simp only [husers] at hu
      exact (h c u hu).append
    · intro answer hanswer ticket hticket
      rw [hnone answer hanswer] at hticket
      exact nomatch hticket
  · have hverified : Verified svc (past ++ [⟨st, call, (authStep svc st call).2, (authStep svc st call).1⟩]) connection userId := by
      rcases hreason with ⟨entropy, username, hcall, hfound⟩ | ⟨entropy, request, data, hcall, hdata, hpasses⟩ | huser
      · by_contra hn
        exact hs ⟨connection, entropy, username, userId, hcall, hfound, fun hv => hn hv.append⟩
      · exact ⟨_, List.mem_append_right _ List.mem_cons_self, entropy, request, data, hcall, hdata, hpasses⟩
      · exact (h connection userId huser).append
    constructor
    · intro c u hu
      simp only [hgrants.users, AuthState.setUserId] at hu
      split at hu
      · rename_i hc
        cases hu
        rwa [hc]
      · exact (h c u hu).append
    · obtain ⟨a, ticket, ha, hticket, hprinciple⟩ := hgrants.granted
      intro answer hanswer ticket' hticket' c hc
      rw [ha] at hanswer
      cases hanswer
      rw [hticket] at hticket'
      cases hticket'
      rw [hconnection] at hc
      cases hc
      rwa [hprinciple]

end Authentication

open Authentication

/-- From a state in which no connection has a user, every step of a run leaves connections and tickets with verified users only
exactly when no `login` of the run names a user that was not verified on its connection before. -/
theorem authenticated_run_iff (svc : AuthService) (start : AuthState) (hstart : ∀ connection, start.userId connection = none)
    (calls : List AuthCall) :
    (∀ past t rest, trace (authStep svc) start calls = past ++ t :: rest → Authenticated svc past t) ↔
      ∀ past t rest, trace (authStep svc) start calls = past ++ t :: rest → ¬ SkipsPassword svc past t := by
  constructor
  · rintro h past t rest htrace ⟨connection, entropy, username, userId, hcall, hfound, hn⟩
    have hstep := (mem_trace (htrace ▸ List.mem_append_right past List.mem_cons_self : t ∈ trace (authStep svc) start calls)).2
    have hgrants := login_grants svc entropy t.before connection hfound
    rw [← hcall, hstep] at hgrants
    have huser : t.after.userId connection = some userId := by
      rw [hgrants.users, AuthState.setUserId_self]
    obtain ⟨t', ht', entropy', request, data, hcall', hrest⟩ := (h past t rest htrace).users connection userId huser
    rcases List.mem_append.mp ht' with ht' | ht'
    · exact hn ⟨t', ht', entropy', request, data, hcall', hrest⟩
    · rw [List.mem_singleton.mp ht', hcall] at hcall'
      exact nomatch hcall'
  · intro h past t rest htrace
    have hinv := trace_history_of (P := UsersVerified svc) (fun past t => ¬ SkipsPassword svc past t)
      (fun past st call hu hs => (authenticated_step hu hs).users)
      (fun connection userId hu => absurd ((hstart connection).symm.trans hu) (Option.some_ne_none _).symm) h past t rest htrace
    have hstep := (mem_trace (htrace ▸ List.mem_append_right past List.mem_cons_self : t ∈ trace (authStep svc) start calls)).2
    obtain ⟨before, input, output, after⟩ := t
    have hpair : authStep svc before input = (after, output) := hstep
    have hskips : ¬ SkipsPassword svc past ⟨before, input, (authStep svc before input).2, (authStep svc before input).1⟩ := by
      rw [hpair]
      exact h past _ rest htrace
    have hauth := authenticated_step hinv.1 hskips
    rwa [hpair] at hauth

namespace Authentication

/-- A service on stand-ins for the libraries. -/
def service : AuthService where
  ctx := Context.splinterCellBlacklist []
  argon2 := { verify := fun _ _ => none }
  digests := { md5 := fun _ => List.replicate 16 0, length_md5 := fun _ => rfl, hmacMd5 := fun _ _ => [] }
  box := { sealBox := fun msg _ _ => msg, openBox := fun data _ _ => some data, openBox_sealBox := fun _ _ _ => rfl }

/-- The migrated tables, and no connection with a user. -/
def started : AuthState := { storage := migrated, userId := fun _ => none }

/-- The random bytes of a request. -/
def entropy : Entropy := { sessionKey := List.replicate 16 7, nonce := List.replicate 24 9 }

/-- A text on the wire. -/
def wireText (t : Text) : Bytes := putU16 (UInt16.ofNat (t.length + 1)) ++ t.toBytes ++ [0]

/-- The user `Tracking` logs in with its password. -/
def trackingLogin : LoginExRequest where
  strUserName := "Tracking".toList
  oExtraData :=
    { typeName := "UbiAuthenticationLoginCustomData".toList
      data := wireText "Tracking".toList ++ wireText "key".toList ++ wireText "JaDe!".toList }

end Authentication

/-- A run with the right password: the connection gets the user. -/
theorem authenticated_run_tracking :
    ∃ t, trace (authStep service) started [.loginEx 7 entropy trackingLogin] = [t] ∧ t.after.userId 7 = some 105 ∧
      Authenticated service [] t := by
  have hdata : trackingLogin.loginData =
      .ok { userName := "Tracking".toList, onlineKey := "key".toList, password := "JaDe!".toList } := by decide +kernel
  have hlogin : (loginUser service.argon2 "Tracking".toList "JaDe!".toList started.storage).2 = .ok (.ok 105) := by
    decide +kernel
  have hgrants := loginEx_grants service entropy started 7 hdata hlogin
  have htrace := trace_singleton (authStep service) started (.loginEx 7 entropy trackingLogin)
  refine ⟨_, htrace, ?_, (authenticated_run_iff service started (fun _ => rfl) _).mpr ?_ [] _ [] htrace⟩
  · rw [hgrants.users, AuthState.setUserId_self]
    rfl
  · rintro past t rest hpast ⟨connection, entropy', username, userId, hcall, -⟩
    have hmem := (mem_trace (hpast ▸ List.mem_append_right past List.mem_cons_self)).1
    rw [List.mem_singleton.mp hmem] at hcall
    exact nomatch hcall

/-- A `login` with nothing but the name of a user whose password is stored as a hash: the connection gets the user. -/
theorem authenticated_run_false :
    ∃ t, trace (authStep service) started [.login 7 entropy "sam_the_fisher".toList] = [t] ∧ t.after.userId 7 = some 1002 ∧
      ¬ Authenticated service [] t := by
  have hfound : findUserIdByName started.storage "sam_the_fisher".toList = some 1002 := by decide +kernel
  have hgrants := login_grants service entropy started 7 hfound
  have huser : (authStep service started (.login 7 entropy "sam_the_fisher".toList)).1.userId 7 = some 1002 := by
    rw [hgrants.users, AuthState.setUserId_self]
  have htrace := trace_singleton (authStep service) started (.login 7 entropy "sam_the_fisher".toList)
  generalize authStep service started (.login 7 entropy "sam_the_fisher".toList) = r at huser htrace
  refine ⟨_, htrace, huser, fun h => ?_⟩
  obtain ⟨t, ht, entropy', request, data, hcall, -⟩ := h.users 7 1002 huser
  rw [List.mem_singleton.mp ht] at hcall
  exact nomatch hcall

end Scbl.Auth
