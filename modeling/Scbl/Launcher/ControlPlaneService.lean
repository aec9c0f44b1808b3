import Scbl.ControlPlane.Requests
import Scbl.Launcher.PeerProbeService

/-!
# Requests of the launcher to the control plane

`ControlPlaneService.cs`. `SendAsync` is cut where it waits, for a response or before another attempt; calls run side by side and share the
offset of the clock of the server. The pool of the connections and the lines of the log are left out.
-/

namespace Scbl.Launcher.ControlPlaneService

open Scbl.Lib PeerProbeService
open ControlPlane.Requests (Latin1 Method Request Response ascii)

/-! ## Requests -/

/-- The characters that stand for themselves in a part of a URL. -/
def isUnreserved (b : UInt8) : Bool :=
  let c := Char.ofNat b.toNat
  b < 128 && (c.isAlphanum || ['-', '_', '.', '~'].contains c)

def hexDigit (n : Nat) : Char := (Nat.digitChar n).toUpper

/-- `Uri.EscapeDataString`. -/
def escapeDataString (t : Text) : Text :=
  t.toBytes.flatMap (fun b =>
    if isUnreserved b then [Char.ofNat b.toNat] else ['%', hexDigit (b.toNat / 16), hexDigit (b.toNat % 16)])

/-- What is asked for; a heartbeat is sent as it is serialized. -/
inductive Call where
  | bootstrap (username clientVersion channel : Text)
  | peers
  | gameSession
  | heartbeat (payload : Text)
  deriving DecidableEq, Repr

namespace Call

def method : Call → Method
  | heartbeat _ => .post
  | _ => .get

def pathAndQuery : Call → Text
  | bootstrap username clientVersion channel =>
    "/v1/bootstrap?username=".toList ++ escapeDataString username ++ "&clientVersion=".toList ++ escapeDataString clientVersion ++
      "&clientChannel=".toList ++ escapeDataString channel
  | peers => "/v1/peers".toList
  | gameSession => "/v1/game-session".toList
  | heartbeat _ => "/v1/heartbeat".toList

def body : Call → Text
  | heartbeat payload => payload
  | _ => []

end Call

/-- `Sign`; the signature is in hexadecimal. -/
def sign (hmacSha256 : Bytes → Bytes → Latin1) (timestamp : Int) (method : Text) (pathAndQuery body tunnelSecret : Text) : Latin1 :=
  let canonical : Text := intText timestamp ++ "\n".toList ++ method ++ "\n".toList ++ pathAndQuery ++ "\n".toList ++ body
  hmacSha256 tunnelSecret.toBytes canonical.toBytes

/-- The request of an attempt, as the server gets it. -/
def signedRequest (hmacSha256 : Bytes → Bytes → Latin1) (call : Call) (tunnelSecret : Text) (timestamp : Int) : Request where
  method := call.method
  path := call.pathAndQuery.toBytes
  contentLength := ascii (Nat.toDigits 10 call.body.toBytes.length)
  timestamp := ascii (intText timestamp)
  signature := sign hmacSha256 timestamp call.method.name call.pathAndQuery call.body tunnelSecret
  sent := call.body.toBytes

/-! ## Responses -/

/-- What an attempt ends in without a response: no response in time, a cancelled token, or an exception of the connection, which can be
transient. -/
inductive Broken where
  | timedOut
  | cancelled
  | failed (transient : Bool)
  deriving DecidableEq, Repr

/-- What comes of an attempt; the body of a response can be no JSON. -/
inductive Received where
  | response (status : Nat) (body : Option PyValue)
  | broken (why : Broken)

/-- The values of `long`. -/
def isInt64 (n : Int) : Bool := -(2 : Int) ^ 63 ≤ n && n < (2 : Int) ^ 63

/-- The reason of a refusal. -/
def reasonOf (items : List (PyStr × PyValue)) : Option PyStr :=
  match Dict.get items (pyStr "reason".toList) with
  | none | some .none => some []
  | some (.str reason) => some reason
  | some _ => none

/-- The time of the server, if it is a whole number that fits. -/
def serverTimeOf (items : List (PyStr × PyValue)) : Option (Option Int) :=
  match Dict.get items (pyStr "serverTimeUnixMs".toList) with
  | none => some none
  | some (.int n) => some (if isInt64 n then some n else none)
  | some (.float _) => some none
  | some _ => none

/-- `TryReadAuthorizationFailure`: the reason and the time of the server, or `none` when a value is of another kind, which throws. -/
def tryReadAuthorizationFailure (body : Option PyValue) : Option (PyStr × Option Int) :=
  match body with
  | none => some ([], none)
  | some (.dict items) => do
    let reason ← reasonOf items
    let serverTimeUnixMs ← serverTimeOf items
    pure (reason, serverTimeUnixMs)
  | some _ => none

def isTransientStatus (status : Nat) : Bool := status = 408 || status = 429 || 500 ≤ status

def maxAttempts : Nat := 2

/-! ## Attempts -/

/-- What a call returns, if it does not throw because it is cancelled. -/
inductive Result where
  | value (payload : PyValue)
  | default
  | cancelled

/-- Where a call stands: an attempt waits for what comes back, or is about to be made, or the call has ended. -/
inductive Phase where
  | sent (attempt : Nat)
  | waits (attempt : Nat)
  | ended (result : Result)

/-- Another attempt, if there is one left. -/
def again (attempt : Nat) : Phase := if attempt < maxAttempts then .waits (attempt + 1) else .ended .default

/-- The time of the server that a refusal tells, which is taken over when there is another attempt. -/
def toldTime (attempt status : Nat) (failure : PyStr × Option Int) : Option Int :=
  if status = 401 ∧ failure.1.toText?.any (fun reason => equalsIgnoreCase reason "clock_skew".toList) ∧ attempt < maxAttempts then failure.2
  else none

/-- What a call makes of what comes back at a time of the launcher, and the offset then. -/
def receive (offset localMs : Int) (attempt : Nat) : Received → Phase × Int
  | .broken .cancelled => (.ended .cancelled, offset)
  | .broken .timedOut => (again attempt, offset)
  | .broken (.failed transient) => (if transient then again attempt else .ended .default, offset)
  | .response status body =>
    if 200 ≤ status ∧ status ≤ 299 then (.ended (body.elim .default .value), offset)
    else
      match tryReadAuthorizationFailure body with
      | none => (.ended .default, offset)
      | some failure =>
        match toldTime attempt status failure with
        | some serverTimeUnixMs => (.waits (attempt + 1), serverTimeUnixMs.tdiv 1000 - localMs / 1000)
        | none => (if isTransientStatus status then again attempt else .ended .default, offset)

/-- How a call begins: it is about to be made, where there are an address and a secret. -/
def begins (ordinal : OrdinalCase) (localBindIp tunnelSecret : Text) : Phase :=
  if !isScblClientIp ordinal localBindIp || isBlank tunnelSecret then .ended .default else .waits 1

end Scbl.Launcher.ControlPlaneService
