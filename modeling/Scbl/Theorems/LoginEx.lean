import Scbl.Lemmas.StationUrl
import Scbl.Theorems.Authentication

/-!
# Login requests of unknown classes

The login data of a `login_ex` request comes with the name of its class, which the client chooses. The handler has an error for login
data of another class, but the class is looked up before, and a name that is not registered is a panic. Nothing else in the decoding of
a request or in the handler panics.
-/

namespace Scbl

/-- The address of a socket is an IP address in print. -/
def SocketAddr.Printed (a : SocketAddr) : Prop := ∀ c ∈ a.ip, c.isDigit ∨ c ∈ "abcdef.:".toList

/-- The addresses of a context are IP addresses in print. -/
structure Context.Printed (ctx : Context) : Prop where
  listen : ctx.listen.Printed
  secureServerAddr : ∀ a, ctx.secureServerAddr = some a → a.Printed

theorem SocketAddr.Printed.semicolon_notMem {a : SocketAddr} (h : a.Printed) : ';' ∉ a.ip := by
  intro hmem
  rcases h ';' hmem with hdigit | hletter
  · nomatch hdigit
  · exact absurd hletter (by decide)

end Scbl

namespace Scbl.Auth

open Scbl.Lib Scbl.Rmc Scbl.Storage

namespace LoginExAux

/-- The parameters of the connection data behind the address and the port. -/
def connectionParams (pid : UInt32) (sid : Text) : AList (fun _ : Text => Text) where
  entries := [⟨"CID".toList, "1".toList⟩, ⟨"PID".toList, (toString pid).toList⟩, ⟨"sid".toList, sid⟩, ⟨"stream".toList, "3".toList⟩,
    ⟨"type".toList, "2".toList⟩]
  nodupKeys := by
    change (["CID".toList, "PID".toList, "sid".toList, "stream".toList, "type".toList] : List Text).Nodup
    decide

/-- The URL of the connection data. -/
def connectionUrl (scheme : Text) (a : SocketAddr) (pid : UInt32) (sid : Text) : StationURL where
  scheme := scheme
  address := a.ip
  port := a.port
  params := connectionParams pid sid

/-- The connection data is a station URL in print. -/
theorem getConnectionData_eq (ctx : Context) (pid : UInt32) :
    (getConnectionData ctx pid).urlRegularProtocols = (match ctx.secureServerAddr with
      | none => connectionUrl "prudp".toList ctx.listen pid "2".toList
      | some a => connectionUrl "prudps".toList a pid "1".toList).display .listed := by
  have hadd : ∀ (scheme : Text) (a : SocketAddr) (sid : Text), (connectionUrl scheme a pid sid).display .listed =
      scheme ++ ":/address=".toList ++ a.ip ++ ";port=".toList ++ (toString a.port).toList ++ ";CID=1;PID=".toList ++
        (toString pid).toList ++ ";sid=".toList ++ sid ++ ";stream=3;type=2".toList := by
    intro scheme a sid
    simp [StationURL.display, connectionUrl, connectionParams, joinWith, printParam]
  unfold getConnectionData
  cases ctx.secureServerAddr with
  | none =>
    rw [hadd]
    simp
  | some a =>
    rw [hadd]
    simp

/-- The URL of the connection data can be told apart in print. -/
theorem printable_connectionUrl {a : SocketAddr} (h : a.Printed) (pid : UInt32) {scheme sid : Text} (hscheme : ':' ∉ scheme)
    (hsid : ';' ∉ sid) : (connectionUrl scheme a pid sid).Printable where
  scheme rest := by
    have happ := splitOnce_append "/".toList rest hscheme
    simpa [connectionUrl] using happ
  address := h.semicolon_notMem
  keys e he := by
    have hkeys : ["CID".toList, "PID".toList, "sid".toList, "stream".toList, "type".toList].all (fun key =>
        '=' ∉ key ∧ ';' ∉ key ∧ key ≠ "address".toList ∧ key ≠ "port".toList) = true := by decide
    have hkey : e.1 ∈ ["CID".toList, "PID".toList, "sid".toList, "stream".toList, "type".toList] :=
      List.mem_map.mpr ⟨e, he, rfl⟩
    exact of_decide_eq_true (List.all_eq_true.mp hkeys e.1 hkey)
  values e he := by
    have hpid : ';' ∉ (toString pid).toList := by
      intro hmem
      have hdigits : (toString pid).toList = Nat.toDigits 10 pid.toNat := String.toList_ofList
      rw [hdigits] at hmem
      exact absurd (Nat.isDigit_of_mem_toDigits (by decide) (by decide) hmem) (by decide)
    have hvalue : e.2 ∈ ["1".toList, (toString pid).toList, sid, "3".toList, "2".toList] := List.mem_map.mpr ⟨e, he, rfl⟩
    simp only [List.mem_cons, List.not_mem_nil, or_false] at hvalue
    rcases hvalue with hvalue | hvalue | hvalue | hvalue | hvalue
    · rw [hvalue]
      decide
    · rw [hvalue]
      exact hpid
    · rw [hvalue]
      exact hsid
    · rw [hvalue]
      decide
    · rw [hvalue]
      decide

/-- The URL of the connection data is read back. -/
theorem parse_getConnectionData {ctx : Context} (h : ctx.Printed) (pid : UInt32) :
    ∃ u, StationURL.parse (getConnectionData ctx pid).urlRegularProtocols = .ok u := by
  rw [getConnectionData_eq]
  cases hsecure : ctx.secureServerAddr with
  | none =>
    obtain ⟨u, hu, -⟩ := StationURL.parse_display (printable_connectionUrl h.listen pid (by decide : ':' ∉ "prudp".toList)
      (by decide : ';' ∉ "2".toList)) .listed
    exact ⟨u, hu⟩
  | some a =>
    obtain ⟨u, hu, -⟩ := StationURL.parse_display (printable_connectionUrl (h.secureServerAddr a hsecure) pid
      (by decide : ':' ∉ "prudps".toList) (by decide : ';' ∉ "1".toList)) .listed
    exact ⟨u, hu⟩

/-- The name of the class of login data. -/
def loginClass : Text := "UbiAuthenticationLoginCustomData".toList

/-- The handler ends without a panic for login data of the registered class; the answer has the connection data of the context. -/
theorem loginEx_ends (svc : AuthService) (entropy : Entropy) (st : AuthState) (connection : UInt32) {request : LoginExRequest}
    (h : request.oExtraData.typeName = loginClass) :
    ∃ st' answer, loginEx svc entropy st connection request = .ok (st', answer) ∧
      ∀ ticket response, answer = .login ticket response → response.pConnectionData = getConnectionData svc.ctx SERVER_PID := by
  unfold loginClass at h
  cases hread : UbiAuthenticationLoginCustomData.fromStream request.oExtraData.data with
  | error e =>
    have hdata : request.loginData = .error (.fail e) := by
      rw [LoginExRequest.loginData, Any.intoInner, if_pos h, hread]
    simp only [loginEx, hdata]
    exact ⟨_, _, rfl, fun _ _ h => by cases h⟩
  | ok value =>
    have hdata : request.loginData = .ok value.1 := by
      rw [LoginExRequest.loginData, Any.intoInner, if_pos h, hread]
    simp only [loginEx, hdata]
    cases loginUser svc.argon2 value.1.userName value.1.password st.storage with
    | mk storage outcome =>
      cases outcome with
      | error e => exact ⟨_, _, rfl, fun _ _ h => by cases h⟩
      | ok found =>
        cases found with
        | error e => exact ⟨_, _, rfl, fun _ _ h => by cases h⟩
        | ok id =>
          obtain ⟨buffer, hbuffer⟩ := (KerberosTicket.grant (UInt32.ofNat id) SERVER_PID entropy.sessionKey).asBytes_ok svc.digests
            svc.box entropy.nonce (UInt32.ofNat id) none svc.ctx.ticketKey
          dsimp only
          rw [hbuffer]
          refine ⟨_, _, rfl, fun ticket response h => ?_⟩
          rw [← (Answer.login.inj h).2]

/-- It panics for login data of another class. -/
theorem loginEx_panics (svc : AuthService) (entropy : Entropy) (st : AuthState) (connection : UInt32) {request : LoginExRequest}
    (h : request.oExtraData.typeName ≠ loginClass) : loginEx svc entropy st connection request = .error .explicit := by
  have hdata : request.loginData = .error (.panic .explicit) := by
    unfold loginClass at h
    rw [LoginExRequest.loginData, Any.intoInner, if_neg h]
  simp only [loginEx, hdata]

end LoginExAux

open LoginExAux

/-- A `login_ex` request ends with an answer or an error, and not in a panic, exactly when it cannot be read or its login data is of
the registered class. -/
theorem loginEx_survives_iff (svc : AuthService) (hctx : svc.ctx.Printed) (entropy : Entropy) (st : AuthState) (connection : UInt32)
    (parameters : Bytes) :
    (∃ st' answer, handleLoginEx svc entropy st connection parameters = .ok (st', answer)) ↔
      ∀ request rest, LoginExRequest.fromStream parameters = .ok (request, rest) → request.oExtraData.typeName = loginClass := by
  unfold handleLoginEx
  cases hread : LoginExRequest.fromStream parameters with
  | error e =>
    constructor
    · exact fun _ _ _ h => nomatch h
    · exact fun _ => ⟨_, _, rfl⟩
  | ok result =>
    obtain ⟨request, rest⟩ := result
    dsimp only
    constructor
    · rintro ⟨st', answer, hcall⟩ request' rest' hread'
      obtain ⟨rfl, -⟩ := Prod.mk.inj (Except.ok.inj hread')
      by_contra hclass
      rw [loginEx_panics svc entropy st connection hclass] at hcall
      nomatch hcall
    · intro hclass
      obtain ⟨st', answer, hanswer, hdata⟩ := loginEx_ends svc entropy st connection (hclass request rest rfl)
      obtain ⟨u, hu⟩ := parse_getConnectionData hctx SERVER_PID
      rw [hanswer]
      cases answer with
      | login ticket response =>
        refine ⟨st', .login ticket response, ?_⟩
        dsimp only [bind, Except.bind]
        rw [hdata ticket response rfl, hu]
        rfl
      | refused e => exact ⟨st', _, rfl⟩
      | ticket ticket bufResponse => exact ⟨st', _, rfl⟩

/-- The parameters of a request with login data of a class. -/
def parametersOf (className : Text) (data : Bytes) : Bytes :=
  Authentication.wireText "Tracking".toList ++ Authentication.wireText className ++ putU32 (UInt32.ofNat (data.length + 4)) ++
    putU32 (UInt32.ofNat data.length) ++ data

/-- The user `Tracking` logs in. -/
theorem loginEx_survives_tracking :
    ∃ st' answer, handleLoginEx Authentication.service Authentication.entropy Authentication.started 7
      (parametersOf loginClass Authentication.trackingLogin.oExtraData.data) = .ok (st', answer) := by
  refine (loginEx_survives_iff Authentication.service ⟨?_, fun _ h => nomatch h⟩ _ _ _ _).mpr ?_
  · intro c hc
    have hip : "0.0.0.0".toList.all (fun c => c.isDigit ∨ c ∈ "abcdef.:".toList) = true := by decide
    exact of_decide_eq_true (List.all_eq_true.mp hip c hc)
  · intro request rest hread
    have hrequest : LoginExRequest.fromStream (parametersOf loginClass Authentication.trackingLogin.oExtraData.data) =
        .ok (Authentication.trackingLogin, []) := by decide +kernel
    obtain ⟨rfl, -⟩ := Prod.mk.inj (Except.ok.inj (hrequest.symm.trans hread))
    rfl

/-- Empty login data of the class `X` is a panic, whoever the client is. -/
theorem loginEx_survives_false :
    handleLoginEx Authentication.service Authentication.entropy Authentication.started 7 (parametersOf "X".toList []) =
      .error .explicit := by
  have hrequest : LoginExRequest.fromStream (parametersOf "X".toList []) =
      .ok ({ strUserName := "Tracking".toList, oExtraData := { typeName := "X".toList, data := [] } }, []) := by decide +kernel
  rw [handleLoginEx, hrequest]
  dsimp only
  rw [loginEx_panics _ _ _ _ (by decide)]
  rfl

end Scbl.Auth
