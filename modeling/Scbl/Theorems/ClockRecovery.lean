import Mathlib.Data.List.Basic
import Scbl.Launcher.ControlPlaneService
import Scbl.Theorems.AuthenticPresence

/-!
# The clock of the launcher

Calls of a launcher run side by side, and each attempt is on its way to the control plane for a while (`step`). The launcher starts with its
own clock, however wrong that is. `clock_recovered` says of every run: whatever the control plane refuses it refuses for the clock, with its
own time, and once such a refusal has come back to a first attempt, every request that is sent later is authorized.
-/

namespace Scbl.Launcher.ControlPlaneService

open Scbl.Lib
open ControlPlane.Presence (RuntimeState)
open ControlPlane.Requests

/-! ## Runs -/

/-- What the clocks of the launcher and of the server show at a moment. -/
structure Moment where
  localMs : Int
  serverMs : Int

/-- A request on its way, and its response when it is answered. -/
structure Flight where
  call : Call
  request : Request
  sentAt : Moment
  answer : Option (Moment × Response)

/-- The launcher, the requests by their call and their attempt, and the clients of the server. -/
structure System where
  serverClockOffsetSeconds : Int
  calls : List (Nat × Call × Phase)
  flights : List ((Nat × Nat) × Flight)
  clients : RuntimeState

inductive Action where
  | begin (k : Nat) (call : Call) (localBindIp : Text)
  /-- The next attempt of a call is sent. -/
  | send (k : Nat)
  /-- The server answers an attempt. -/
  | serve (k attempt : Nat) (env : Environment)
  /-- The response comes back. -/
  | deliver (k : Nat)
  /-- An attempt, or the wait for the next one, is broken off. -/
  | interrupt (k : Nat) (why : Broken)

structure Event where
  moment : Moment
  action : Action

def initial (clients : RuntimeState) : System where
  serverClockOffsetSeconds := 0
  calls := []
  flights := []
  clients

section Step

variable (l : Library) (ordinal : OrdinalCase) (tunnelSecret : Text)

/-- The request of an attempt, signed for the time of the server as far as the launcher knows it. -/
def flightOf (s : System) (moment : Moment) (call : Call) : Flight where
  call
  request := signedRequest l.hmacSha256 call tunnelSecret (moment.localMs / 1000 + s.serverClockOffsetSeconds)
  sentAt := moment
  answer := none

/-- A call makes something of what comes of its attempt. -/
def settle (s : System) (moment : Moment) (k attempt : Nat) (call : Call) (received : Received) : System :=
  let settled := receive s.serverClockOffsetSeconds moment.localMs attempt received
  { s with serverClockOffsetSeconds := settled.2, calls := Dict.set s.calls k (call, settled.1) }

/-- The answer to an attempt, if there is one. -/
def System.answerTo (s : System) (k attempt : Nat) : Option (Moment × Response) := (Dict.get s.flights (k, attempt)).bind (·.answer)

def next (s : System) (e : Event) : System :=
  match e.action with
  | .begin k call localBindIp =>
    match Dict.get s.calls k with
    | none => { s with calls := Dict.set s.calls k (call, begins ordinal localBindIp tunnelSecret) }
    | some _ => s
  | .send k =>
    match Dict.get s.calls k with
    | some (call, .waits attempt) =>
      { s with
        calls := Dict.set s.calls k (call, .sent attempt)
        flights := Dict.set s.flights (k, attempt) (flightOf l tunnelSecret s e.moment call) }
    | _ => s
  | .serve k attempt env =>
    match Dict.get s.flights (k, attempt) with
    | none => s
    | some flight =>
      if flight.answer.isSome then s
      else
        let served := serve l s.clients ⟨env, flight.request⟩
        { s with
          flights := Dict.set s.flights (k, attempt) { flight with answer := served.2.head?.map (e.moment, ·) }
          clients := served.1 }
  | .deliver k =>
    match Dict.get s.calls k with
    | some (call, .sent attempt) =>
      match s.answerTo k attempt with
      | some (_, response) => settle s e.moment k attempt call (.response response.status (some response.payload))
      | none => s
    | _ => s
  | .interrupt k why =>
    match Dict.get s.calls k with
    | some (call, .sent attempt) => settle s e.moment k attempt call (.broken why)
    | some (call, .waits _) => if why = .cancelled then { s with calls := Dict.set s.calls k (call, .ended .cancelled) } else s
    | _ => s

def step (s : System) (e : Event) : System × Unit := (next l ordinal tunnelSecret s e, ())

end Step

/-- A call takes over the time of the server, which the refusal of its attempt tells. -/
def TakesOver (s : System) (e : Event) (k : Nat) (serverTimeUnixMs : Int) : Prop :=
  ∃ call attempt servedAt response failure, e.action = .deliver k ∧ Dict.get s.calls k = some (call, .sent attempt) ∧
    s.answerTo k attempt = some (servedAt, response) ∧ ¬ (200 ≤ response.status ∧ response.status ≤ 299) ∧
    tryReadAuthorizationFailure (some response.payload) = some failure ∧
    toldTime attempt response.status failure = some serverTimeUnixMs

/-! ## Clocks -/

/-- How the clocks go and how long the network takes, in seconds: the clock of the server is ahead by `drift` and at most `window` more,
and neither a request nor a response is longer than `delay` on its way. -/
structure Circumstances where
  drift : Int
  window : Nat
  delay : Nat
  bounded : window + 2 * delay ≤ maxClockSkewSeconds

/-- The times of a moment are times after 1970, and as far apart as they should be. -/
structure Steady (c : Circumstances) (moment : Moment) : Prop where
  localTime : 0 ≤ moment.localMs ∧ moment.localMs < 2 ^ 62
  serverTime : 0 ≤ moment.serverMs ∧ moment.serverMs < 2 ^ 62
  ahead : c.drift ≤ moment.serverMs / 1000 - moment.localMs / 1000
  atMost : moment.serverMs / 1000 - moment.localMs / 1000 ≤ c.drift + c.window

/-- Between two moments the clock of the server goes on, and not by more than the network may take. -/
def Soon (c : Circumstances) (a b : Moment) : Prop :=
  a.serverMs / 1000 ≤ b.serverMs / 1000 ∧ b.serverMs / 1000 - a.serverMs / 1000 ≤ c.delay

/-- What happens in the circumstances: requests and responses come soon, the server has the secret of the launcher, and no heartbeat is
too long for it. -/
structure Regular (c : Circumstances) (tunnelSecret : Text) (s : System) (e : Event) : Prop where
  steady : Steady c e.moment
  begins : ∀ k call localBindIp, e.action = .begin k call localBindIp → call.body.toBytes.length ≤ maxBodyBytes
  served : ∀ k attempt env, e.action = .serve k attempt env → env.nowMs = e.moment.serverMs ∧ env.secret = tunnelSecret.toBytes ∧
    ∀ flight, Dict.get s.flights (k, attempt) = some flight → Soon c flight.sentAt e.moment
  delivered : ∀ k, e.action = .deliver k → ∀ attempt servedAt response, s.answerTo k attempt = some (servedAt, response) →
    Soon c servedAt e.moment

/-! ## Texts in ASCII -/

def AsciiText (t : Text) : Prop := ∀ c ∈ t, c.toNat < 128

theorem ascii_of_all {t : Text} (h : t.all (fun c => c.toNat < 128) = true) : AsciiText t := fun c hc =>
  of_decide_eq_true (List.all_eq_true.mp h c hc)

theorem toBytes_append (t u : Text) : (t ++ u).toBytes = t.toBytes ++ u.toBytes := List.flatMap_append

theorem toNat_byte {c : Char} (h : c.toNat < 128) : (UInt8.ofNat c.toNat).toNat = c.toNat :=
  UInt8.toNat_ofNat_of_lt' (Nat.lt_trans h (by decide))

theorem toBytes_of_ascii {t : Text} (h : AsciiText t) : t.toBytes = t.map (fun c => UInt8.ofNat c.toNat) := by
  unfold Text.toBytes
  induction t with
  | nil => rfl
  | cons c t ih =>
    have hc : c.val.toNat ≤ 127 := Nat.le_of_lt_succ (h c List.mem_cons_self)
    rw [List.flatMap_cons, List.map_cons, ih fun c' hc' => h c' (List.mem_cons_of_mem c hc'), String.utf8EncodeChar, if_pos hc]
    rfl

theorem isAscii_toBytes {t : Text} (h : AsciiText t) : isAscii t.toBytes = true := by
  rw [isAscii, toBytes_of_ascii h, List.all_eq_true]
  intro b hb
  obtain ⟨c, hc, rfl⟩ := List.mem_map.mp hb
  rw [decide_eq_true_eq, UInt8.lt_iff_toNat_lt, toNat_byte (h c hc)]
  exact h c hc

theorem utf8_toBytes {t : Text} (h : AsciiText t) : utf8 t.toBytes = t.toBytes := by
  have hread : (t.map (fun c => UInt8.ofNat c.toNat)).map (fun b => Char.ofNat b.toNat) = t := by
    rw [List.map_map]
    refine (List.map_congr_left fun c hc => ?_).trans t.map_id
    rw [Function.comp_apply, toNat_byte (h c hc), Char.ofNat_toNat, id]
  unfold utf8
  rw [toBytes_of_ascii h, hread, toBytes_of_ascii h]

theorem decode_toBytes {t : Text} (h : AsciiText t) : decode t.toBytes = pyStr t := by
  rw [decode, toBytes_of_ascii h, List.map_map]
  exact List.map_congr_left fun c hc => toNat_byte (h c hc)

theorem toText_pyStr (t : Text) : (pyStr t).toText? = some t := by
  unfold PyStr.toText? pyStr
  induction t with
  | nil => rfl
  | cons c t ih =>
    have hc : c.toNat.isValidChar := c.valid
    rw [List.map_cons, List.mapM_cons, if_pos hc, ih, Char.ofNat_toNat]
    rfl

theorem isDigit_or_minus {n : Int} : ∀ c ∈ intText n, c.isDigit = true ∨ c = '-' := by
  intro c hc
  cases n with
  | ofNat n => exact .inl (Nat.isDigit_of_mem_toDigits (by decide) (by decide) hc)
  | negSucc n =>
    rcases List.mem_cons.mp hc with rfl | hc
    · exact .inr rfl
    · exact .inl (Nat.isDigit_of_mem_toDigits (by decide) (by decide) hc)

theorem isDigit_bounds {c : Char} (h : c.isDigit = true) : 48 ≤ c.toNat ∧ c.toNat ≤ 57 := by
  simp only [Char.isDigit, Bool.and_eq_true, decide_eq_true_eq] at h
  exact ⟨UInt32.le_iff_toNat_le.mp h.1, UInt32.le_iff_toNat_le.mp h.2⟩

theorem bounds_intText {n : Int} : ∀ c ∈ intText n, 45 ≤ c.toNat ∧ c.toNat ≤ 57 := by
  intro c hc
  rcases isDigit_or_minus c hc with hdigit | rfl
  · have hbounds := isDigit_bounds hdigit
    omega
  · decide

theorem ascii_intText (n : Int) : AsciiText (intText n) := fun c hc => Nat.lt_of_le_of_lt (bounds_intText c hc).2 (by decide)

theorem decimalValue_digit {c : Char} (h : c.isDigit = true) : Manager.decimalValue c = some (c.toNat - 48) := by
  obtain ⟨hlow, hhigh⟩ := isDigit_bounds h
  have hfirst : Manager.decimalZeros.find? (fun first => first ≤ c.toNat ∧ c.toNat < first + 10) = some 48 :=
    List.find?_cons_of_pos (decide_eq_true ⟨hlow, Nat.lt_succ_of_le hhigh⟩)
  rw [Manager.decimalValue, hfirst]
  rfl

theorem decimalsValue_eq {t : Text} (h : ∀ c ∈ t, c.isDigit = true) : Manager.decimalsValue t = digitsValue t := by
  unfold Manager.decimalsValue digitsValue
  refine List.foldl_ext _ _ _ fun n c hc => ?_
  rw [decimalValue_digit (h c hc)]
  rfl

/-- Digits read as what they denote, as long as they are not too many. -/
theorem digitsOf_toDigits {n : Nat} (h : n < 2 ^ 64) : digitsOf (Nat.toDigits 10 n) = some n := by
  have hdigits : ∀ c ∈ Nat.toDigits 10 n, c.isDigit = true := fun c hc => Nat.isDigit_of_mem_toDigits (by decide) (by decide) hc
  have hsplit : (Nat.toDigits 10 n).splitOn '_' = [Nat.toDigits 10 n] := by
    have hnone : ∀ t ∈ [Nat.toDigits 10 n], '_' ∉ t := by
      intro t ht
      rw [List.mem_singleton.mp ht]
      exact Nat.underscore_not_in_toDigits
    have hjoin := splitOn_joinWith (List.cons_ne_nil _ _) hnone
    rwa [joinWith, List.flatMap_nil, List.append_nil] at hjoin
  have hlength : (Nat.toDigits 10 n).length ≤ Manager.maximumDigits := by
    have hlt : n < 10 ^ 20 := Nat.lt_trans h (by decide)
    exact Nat.le_trans ((Nat.length_toDigits_le_iff (by decide) (by decide)).mpr hlt) (by decide)
  have hmatches : Manager.matchesDecimals (Nat.toDigits 10 n) = true := by
    rw [Manager.matchesDecimals, Bool.and_eq_true, List.all_eq_true]
    exact ⟨decide_eq_true Nat.toDigits_ne_nil, fun c hc => by rw [decimalValue_digit (hdigits c hc)]; rfl⟩
  unfold digitsOf
  simp only [hsplit, List.all_cons, List.all_nil, hmatches, List.flatten_cons, List.flatten_nil, List.append_nil, Bool.and_true,
    decide_eq_true hlength, if_true, decimalsValue_eq hdigits, digitsValue_toDigits]

/-- The white space at the ends of a text that has none. -/
theorem stripOf_eq {space : Nat → Bool} {s : PyStr} (h : ∀ n ∈ s, space n = false) : stripOf space s = s := by
  have hdrop : ∀ s : PyStr, (∀ n ∈ s, space n = false) → s.dropWhile space = s := by
    intro s hs
    cases s with
    | nil => rfl
    | cons n s => exact List.dropWhile_cons_of_neg (by rw [hs n List.mem_cons_self]; exact Bool.false_ne_true)
  unfold stripOf
  rw [hdrop s h, hdrop s.reverse fun n hn => h n (List.mem_reverse.mp hn), List.reverse_reverse]

theorem intOf_intText {n : Int} (h : n.natAbs < 2 ^ 64) : intOf (decode (ascii (intText n))) = some n := by
  have hnone : ∀ m < 58, 45 ≤ m → isSpace m = false := by decide
  have hstrip : stripOf (isIntSpace (pyStr (intText n))) (pyStr (intText n)) = pyStr (intText n) := by
    refine stripOf_eq fun m hm => ?_
    obtain ⟨c, hc, rfl⟩ := List.mem_map.mp hm
    obtain ⟨hlow, hhigh⟩ := bounds_intText c hc
    rw [isIntSpace, Bool.and_eq_false_iff]
    left
    exact hnone c.toNat (Nat.lt_succ_of_le hhigh) hlow
  unfold intOf ascii
  rw [decode_toBytes (ascii_intText n), hstrip, toText_pyStr]
  cases n with
  | ofNat n =>
    have hread : digitsOf (intText (.ofNat n)) = some n := digitsOf_toDigits h
    have hhead : ∀ c ∈ (intText (.ofNat n)).head?, c.isDigit = true := fun c hc =>
      Nat.isDigit_of_mem_toDigits (by decide) (by decide) (List.mem_of_mem_head? hc)
    split
    · rename_i heq
      rw [Option.some.inj heq] at hhead
      exact absurd (hhead '-' rfl) (by decide)
    · rename_i heq
      rw [Option.some.inj heq] at hhead
      exact absurd (hhead '+' rfl) (by decide)
    · rename_i heq
      rw [← Option.some.inj heq, hread]
      rfl
    · rename_i heq
      cases heq
  | negSucc n =>
    have hread : digitsOf (Nat.toDigits 10 (n + 1)) = some (n + 1) := digitsOf_toDigits h
    simp only [intText, hread]
    rfl


theorem ascii_append {t u : Text} (ht : AsciiText t) (hu : AsciiText u) : AsciiText (t ++ u) := fun c hc =>
  (List.mem_append.mp hc).elim (ht c) (hu c)

theorem ascii_escape (t : Text) : AsciiText (escapeDataString t) := by
  intro c hc
  obtain ⟨b, -, hc⟩ := List.mem_flatMap.mp hc
  have hhex : ∀ n < 16, (hexDigit n).toNat < 128 := by decide
  have hread : ∀ n < 128, (Char.ofNat n).toNat = n := by decide
  have hb := b.toNat_lt
  split at hc
  · rename_i hunreserved
    have hlt : b < 128 := of_decide_eq_true (Bool.and_eq_true_iff.mp hunreserved).1
    rw [List.mem_singleton.mp hc]
    have hsmall : b.toNat < 128 := UInt8.lt_iff_toNat_lt.mp hlt
    rw [hread b.toNat hsmall]
    exact hsmall
  · rcases List.mem_cons.mp hc with rfl | hc
    · decide
    · rcases List.mem_cons.mp hc with rfl | hc
      · exact hhex _ (by omega)
      · rw [List.mem_singleton.mp hc]
        exact hhex _ (by omega)

theorem ascii_path (call : Call) : AsciiText call.pathAndQuery := by
  cases call with
  | bootstrap username clientVersion channel =>
    have hfixed : AsciiText "/v1/bootstrap?username=".toList ∧ AsciiText "&clientVersion=".toList ∧ AsciiText "&clientChannel=".toList := by
      exact ⟨ascii_of_all (by decide), ascii_of_all (by decide), ascii_of_all (by decide)⟩
    exact ascii_append (ascii_append (ascii_append (ascii_append (ascii_append hfixed.1 (ascii_escape _)) hfixed.2.1) (ascii_escape _))
      hfixed.2.2) (ascii_escape _)
  | peers => exact @ascii_of_all "/v1/peers".toList (by decide)
  | gameSession => exact @ascii_of_all "/v1/game-session".toList (by decide)
  | heartbeat payload => exact @ascii_of_all "/v1/heartbeat".toList (by decide)

/-- The paths begin so. -/
theorem path_eq (call : Call) : ∃ rest, call.pathAndQuery = "/v1/".toList ++ rest := by
  cases call with
  | bootstrap username clientVersion channel =>
    exact ⟨"bootstrap?username=".toList ++ escapeDataString username ++ "&clientVersion=".toList ++ escapeDataString clientVersion ++
      "&clientChannel=".toList ++ escapeDataString channel, rfl⟩
  | peers => exact ⟨"peers".toList, rfl⟩
  | gameSession => exact ⟨"game-session".toList, rfl⟩
  | heartbeat payload => exact ⟨"heartbeat".toList, rfl⟩

/-! ## What the server makes of a request -/

/-- A signature in hexadecimal: digits and small letters. -/
def HexDigest (hmacSha256 : Bytes → Bytes → Latin1) : Prop :=
  ∀ key data, hmacSha256 key data ≠ [] ∧ isAscii (hmacSha256 key data) = true ∧ lowerAscii (hmacSha256 key data) = hmacSha256 key data

section Requests

variable {l : Library} {env : Environment} {call : Call} {tunnelSecret : Text} {timestamp : Int}

theorem canonical_eq (call : Call) (timestamp : Int) :
    Text.toBytes (intText timestamp ++ "\n".toList ++ call.method.name ++ "\n".toList ++ call.pathAndQuery ++ "\n".toList ++ call.body) =
      ascii (intText timestamp) ++ [10] ++ ascii call.method.name ++ [10] ++ utf8 call.pathAndQuery.toBytes ++ [10] ++ call.body.toBytes := by
  rw [utf8_toBytes (ascii_path call)]
  simp only [toBytes_append]
  rfl

theorem expectedSignature_eq (hsecret : env.secret = tunnelSecret.toBytes) :
    expectedSignature l env (signedRequest l.hmacSha256 call tunnelSecret timestamp) call.body.toBytes =
      (signedRequest l.hmacSha256 call tunnelSecret timestamp).signature := by
  unfold expectedSignature signedRequest sign
  rw [hsecret]
  simp only [canonical_eq]

theorem signed_of_inTime (hhex : HexDigest l.hmacSha256) (hsecret : env.secret = tunnelSecret.toBytes) (hne : tunnelSecret.toBytes ≠ [])
    (hbound : timestamp.natAbs < 2 ^ 64) (htime : (env.nowMs / 1000 - timestamp).natAbs ≤ maxClockSkewSeconds) :
    Signed l ⟨env, signedRequest l.hmacSha256 call tunnelSecret timestamp⟩ call.body.toBytes where
  reaches :=
    { secret := hsecret ▸ hne
      timestamp := by
        intro hnil
        have hread := intOf_intText hbound
        rw [show ascii (intText timestamp) = [] from hnil] at hread
        cases hread
      inTime := ⟨timestamp, intOf_intText hbound, htime⟩
      signature := (hhex _ _).1 }
  timestamp := isAscii_toBytes (ascii_intText timestamp)
  ascii := (hhex _ _).2.1
  signature := (hhex _ _).2.2.trans (expectedSignature_eq hsecret).symm

theorem reason_of_late (hsecret : env.secret = tunnelSecret.toBytes) (hne : tunnelSecret.toBytes ≠ [])
    (hbound : timestamp.natAbs < 2 ^ 64) (htime : ¬ (env.nowMs / 1000 - timestamp).natAbs ≤ maxClockSkewSeconds) (body : Bytes) :
    authorizationFailureReason l env (signedRequest l.hmacSha256 call tunnelSecret timestamp) body = .ok "clock_skew".toList := by
  have hread : intOf (decode (signedRequest l.hmacSha256 call tunnelSecret timestamp).timestamp) = some timestamp := intOf_intText hbound
  have htimestamp : (signedRequest l.hmacSha256 call tunnelSecret timestamp).timestamp ≠ [] := by
    intro hnil
    rw [hnil] at hread
    cases hread
  unfold authorizationFailureReason
  rw [if_neg (hsecret ▸ hne), if_neg htimestamp, hread]
  exact if_pos (Nat.lt_of_not_le htime)

/-- What is answered to a request that is too late, or too early. -/
def clockSkewResponse (env : Environment) : Response where
  status := 401
  payload := object [("error".toList, text "unauthorized".toList), ("reason".toList, text "clock_skew".toList),
    ("serverTimeUnixMs".toList, .int env.nowMs)]

theorem splits_path (call : Call) : Splits l (signedRequest l.hmacSha256 call tunnelSecret timestamp) := by
  obtain ⟨rest, hpath⟩ := path_eq call
  unfold Splits
  show ∃ parsed, urlsplit l call.pathAndQuery.toBytes = .ok parsed
  rw [hpath, toBytes_append]
  obtain ⟨kept, hkept⟩ : ∃ kept, ((Text.toBytes "/v1/".toList ++ Text.toBytes rest).dropWhile (· ≤ 0x20)).filter
      (fun b => b ≠ 9 && b ≠ 10 && b ≠ 13) = 47 :: 118 :: kept := ⟨_, rfl⟩
  have hscheme : withoutScheme (47 :: 118 :: kept) = 47 :: 118 :: kept := by
    refine if_neg ?_
    rintro ⟨-, hletter, -⟩
    cases hletter
  refine ⟨pathAndQuery (47 :: 118 :: kept), ?_⟩
  unfold urlsplit
  rw [hkept, hscheme]
  rfl

theorem readBody_request (hlength : call.body.toBytes.length ≤ maxBodyBytes) :
    readBody (signedRequest l.hmacSha256 call tunnelSecret timestamp) = some call.body.toBytes := by
  have hread : intOf (decode (signedRequest l.hmacSha256 call tunnelSecret timestamp).contentLength) =
      some (call.body.toBytes.length : Int) :=
    @intOf_intText (.ofNat call.body.toBytes.length) (Nat.lt_of_le_of_lt hlength (by decide))
  unfold readBody
  rw [hread]
  have hle : ¬ ((call.body.toBytes.length : Int) < 0 ∨ (call.body.toBytes.length : Int) > maxBodyBytes) := by omega
  dsimp only
  rw [if_neg hle, Int.toNat_natCast]
  exact congrArg some List.take_length


/-! ## What the server answers -/

theorem serve_late (hsecret : env.secret = tunnelSecret.toBytes) (hne : tunnelSecret.toBytes ≠ [])
    (hbound : timestamp.natAbs < 2 ^ 64) (htime : ¬ (env.nowMs / 1000 - timestamp).natAbs ≤ maxClockSkewSeconds)
    (hlength : call.body.toBytes.length ≤ maxBodyBytes) (clients : RuntimeState) :
    (serve l clients ⟨env, signedRequest l.hmacSha256 call tunnelSecret timestamp⟩).2 = [clockSkewResponse env] := by
  generalize hrequest : signedRequest l.hmacSha256 call tunnelSecret timestamp = request
  obtain ⟨parsed, hsplit⟩ : Splits l request := hrequest ▸ splits_path call
  have hencodes : encodes (clockSkewResponse env).payload = true := rfl
  have hrefused : ∀ s : Server, unauthorized l env request "clock_skew".toList s =
      .ok () { s with responses := s.responses ++ [clockSkewResponse env] } := by
    intro s
    show (discard (ofExcept (urlsplit l request.path)) >>= fun _ => sendJson l request 401 (clockSkewResponse env).payload) s = _
    unfold sendJson
    rw [hsplit, if_pos hencodes]
    rfl
  have hreason : ∀ body, authorizationFailureReason l env request body = .ok "clock_skew".toList := fun body =>
    hrequest ▸ reason_of_late hsecret hne hbound htime body
  have hhandle : handle l env request = unauthorized l env request "clock_skew".toList := by
    unfold handle
    cases request.method with
    | get =>
      show doGet l env request = _
      unfold doGet
      rw [hreason]
      rfl
    | post =>
      have hbody : readBody request = some call.body.toBytes := hrequest ▸ readBody_request hlength
      show doPost l env request = _
      unfold doPost
      rw [hbody]
      dsimp only
      rw [hreason]
      rfl
  unfold serve
  rw [hhandle, hrefused]
  rfl

/-- A response that refuses a request for its authorization tells the time. -/
def TellsTime (nowMs : Int) (response : Response) : Prop :=
  response.status = 401 → ∃ reason, response.payload =
    object [("error".toList, text "unauthorized".toList), ("reason".toList, text reason), ("serverTimeUnixMs".toList, .int nowMs)]

section Sent

variable {a : Arrival} {s : Server}

theorem sends_other {status : Nat} {payload : PyValue} (h : status ≠ 401) :
    Sends (sendJson l a.request status payload) s (TellsTime a.env.nowMs) :=
  sends_sendJson fun hstatus => absurd hstatus h

theorem sends_modify_bind {g : RuntimeState → RuntimeState} {m : Handle Unit} {holds : Response → Prop}
    (h : Sends m { s with clients := g s.clients } holds) :
    Sends (modify (fun s => { s with clients := g s.clients }) >>= fun _ => m) s holds := h

theorem sends_refusal {reason : Text} : Sends (unauthorized l a.env a.request reason) s (TellsTime a.env.nowMs) := by
  unfold unauthorized logAuthRejection
  cases urlsplit l a.request.path with
  | error e => exact fun response hresponse => .inl hresponse
  | ok parsed => exact sends_sendJson fun _ => ⟨reason, rfl⟩

theorem sends_doGet : Sends (doGet l a.env a.request) s (TellsTime a.env.nowMs) := by
  unfold doGet
  refine sends_ofExcept_bind fun reason _ => ?_
  split
  · exact sends_refusal
  · split
    · exact sends_other (by decide)
    · unfold answerGet
      refine sends_ofExcept_bind fun parsed _ => ?_
      split
      · exact sends_other (by decide)
      · split
        · refine sends_other (s := { s with
            clients := (ControlPlane.Presence.activeClients a.env.heartbeatTtlSeconds a.env.nowMs s.clients).1 }) ?_
          decide
        · split
          · exact sends_other (by decide)
          · split
            · refine sends_ofExcept_bind (s := { s with
                clients := (ControlPlane.Presence.activeClients a.env.heartbeatTtlSeconds a.env.nowMs s.clients).1 }) fun capable _ =>
                  sends_other ?_
              decide
            · exact sends_other (by decide)

theorem sends_doPost : Sends (doPost l a.env a.request) s (TellsTime a.env.nowMs) := by
  unfold doPost
  cases readBody a.request with
  | none => exact sends_other (by decide)
  | some body =>
    refine sends_ofExcept_bind fun reason _ => ?_
    split
    · exact sends_refusal
    · unfold answerPost
      cases loadsBody l body with
      | none => exact sends_other (by decide)
      | some payload =>
        refine sends_ofExcept_bind fun parsed _ => ?_
        split
        · unfold heartbeat
          cases payload.items? with
          | none => exact fun response hresponse => .inl hresponse
          | some items =>
            dsimp only
            cases acceptedIp l a.env items with
            | none => exact sends_other (by decide)
            | some virtualIp =>
              refine sends_ofExcept_bind fun state _ => ?_
              have hok : 200 ≠ 401 := by decide
              exact sends_modify_bind (g := fun clients => ControlPlane.Presence.upsert a.env.heartbeatTtlSeconds a.env.nowMs clients state)
                (sends_other hok)
        · exact sends_other (by decide)

theorem tellsTime_of_served {clients : RuntimeState} {response : Response} (h : response ∈ (serve l clients a).2) : TellsTime a.env.nowMs response := by
  have hafter : response ∈ responsesAfter (handle l a.env a.request) { clients, responses := [] } := by
    revert h
    unfold serve responsesAfter
    cases handle l a.env a.request { clients, responses := [] } <;> exact id
  have hsends : Sends (handle l a.env a.request) { clients, responses := [] } (TellsTime a.env.nowMs) := by
    unfold handle
    cases a.request.method with
    | get => exact sends_doGet
    | post => exact sends_doPost
  exact (hsends response hafter).resolve_left List.not_mem_nil

end Sent

/-- The time that a refusal tells is the time of the server. -/
theorem toldTime_eq {nowMs : Int} {response : Response} (h : TellsTime nowMs response) {attempt : Nat} {failure : PyStr × Option Int} {ms : Int}
    (hfailure : tryReadAuthorizationFailure (some response.payload) = some failure) (htold : toldTime attempt response.status failure = some ms) :
    ms = nowMs ∧ attempt < maxAttempts := by
  unfold toldTime at htold
  split at htold
  · rename_i hcond
    obtain ⟨reason, hpayload⟩ := h hcond.1
    rw [hpayload] at hfailure
    have hread : some (pyStr reason, if isInt64 nowMs then some nowMs else none) = some failure := hfailure
    rw [← Option.some.inj hread] at htold
    dsimp only at htold
    split at htold
    · exact ⟨(Option.some.inj htold).symm, hcond.2.2⟩
    · cases htold
  · cases htold

/-! ## What happens in a step -/

section Steps

variable {ordinal : OrdinalCase} {c : Circumstances} {s : System} {e : Event}

/-- What a step does to the offset and to the requests: nothing, a request is sent, one is answered, or the time is taken over. -/
inductive Moves (l : Library) (tunnelSecret : Text) (s : System) (e : Event) : Int → List ((Nat × Nat) × Flight) → Prop where
  | nothing : Moves l tunnelSecret s e s.serverClockOffsetSeconds s.flights
  | sent (k attempt : Nat) (call : Call) (hcall : Dict.get s.calls k = some (call, .waits attempt)) :
    Moves l tunnelSecret s e s.serverClockOffsetSeconds (Dict.set s.flights (k, attempt) (flightOf l tunnelSecret s e.moment call))
  | answered (k attempt : Nat) (env : Environment) (flight : Flight) (haction : e.action = .serve k attempt env)
    (hflight : Dict.get s.flights (k, attempt) = some flight) (hanswer : flight.answer = none) :
    Moves l tunnelSecret s e s.serverClockOffsetSeconds (Dict.set s.flights (k, attempt)
      { flight with answer := (serve l s.clients ⟨env, flight.request⟩).2.head?.map (e.moment, ·) })
  | told (k : Nat) (ms : Int) (htold : TakesOver s e k ms) : Moves l tunnelSecret s e (ms.tdiv 1000 - e.moment.localMs / 1000) s.flights

/-- What a call makes of a response leaves the offset, unless a refusal tells the time. -/
theorem receive_offset (offset localMs : Int) (attempt : Nat) (received : Received) :
    (receive offset localMs attempt received).2 = offset ∨
      ∃ status body failure ms, received = .response status body ∧ ¬ (200 ≤ status ∧ status ≤ 299) ∧
        tryReadAuthorizationFailure body = some failure ∧ toldTime attempt status failure = some ms ∧
        (receive offset localMs attempt received).2 = ms.tdiv 1000 - localMs / 1000 := by
  cases received with
  | broken why => cases why <;> exact .inl rfl
  | response status body =>
    unfold receive
    dsimp only
    split
    · exact .inl rfl
    · rename_i hstatus
      split
      · exact .inl rfl
      · rename_i failure hfailure
        cases htold : toldTime attempt status failure with
        | none => exact .inl rfl
        | some ms => exact .inr ⟨status, body, failure, ms, rfl, hstatus, hfailure, htold, rfl⟩

theorem moves_next : Moves l tunnelSecret s e (next l ordinal tunnelSecret s e).serverClockOffsetSeconds (next l ordinal tunnelSecret s e).flights := by
  unfold next
  cases haction : e.action with
  | begin k call localBindIp =>
    dsimp only
    split <;> exact .nothing
  | send k =>
    dsimp only
    split
    · rename_i call attempt hcall
      exact .sent k attempt call hcall
    · exact .nothing
  | serve k attempt env =>
    dsimp only
    split
    · exact .nothing
    · rename_i flight hflight
      split
      · exact .nothing
      · rename_i hanswer
        exact .answered k attempt env flight haction hflight (Option.not_isSome_iff_eq_none.mp hanswer)
  | deliver k =>
    dsimp only
    split
    · rename_i call attempt hcall
      split
      · rename_i servedAt response hanswer
        unfold settle
        dsimp only
        rcases receive_offset s.serverClockOffsetSeconds e.moment.localMs attempt
          (.response response.status (some response.payload)) with hsame | ⟨status, body, failure, ms, hreceived, hstatus, hfailure, htold, hset⟩
        · rw [hsame]
          exact .nothing
        · rw [hset]
          obtain ⟨rfl, rfl⟩ := Received.response.inj hreceived
          exact .told k ms ⟨call, attempt, servedAt, response, failure, haction, hcall, hanswer, hstatus, hfailure, htold⟩
      · exact .nothing
    · exact .nothing
  | interrupt k why =>
    dsimp only
    split
    · rename_i call attempt hcall
      unfold settle
      dsimp only
      rcases receive_offset s.serverClockOffsetSeconds e.moment.localMs attempt (.broken why) with
        hsame | ⟨status, body, failure, ms, hreceived, -⟩
      · rw [hsame]
        exact .nothing
      · cases hreceived
    · split <;> exact .nothing
    · exact .nothing

/-! ## What a run keeps -/

/-- A call is one that was there, or begins. -/
theorem next_calls {k : Nat} {call : Call} {phase : Phase} (h : Dict.get (next l ordinal tunnelSecret s e).calls k = some (call, phase)) :
    (∃ phase', Dict.get s.calls k = some (call, phase')) ∨ ∃ localBindIp, e.action = .begin k call localBindIp := by
  have hset : ∀ k' call' phase' phase'', Dict.get s.calls k' = some (call', phase'') →
      Dict.get (Dict.set s.calls k' (call', phase')) k = some (call, phase) → ∃ phase', Dict.get s.calls k = some (call, phase') := by
    intro k' call' phase' phase'' hbefore hafter
    by_cases hk : k = k'
    · subst hk
      rw [Dict.get_set_self] at hafter
      obtain ⟨rfl, -⟩ := Prod.mk.inj (Option.some.inj hafter)
      exact ⟨phase'', hbefore⟩
    · rw [Dict.get_set_other _ _ hk] at hafter
      exact ⟨phase, hafter⟩
  unfold next at h
  cases haction : e.action with
  | begin k' call' localBindIp =>
    rw [haction] at h
    dsimp only at h
    split at h
    · by_cases hk : k = k'
      · subst hk
        dsimp only at h
        rw [Dict.get_set_self] at h
        obtain ⟨rfl, -⟩ := Prod.mk.inj (Option.some.inj h)
        exact .inr ⟨localBindIp, rfl⟩
      · dsimp only at h
        rw [Dict.get_set_other _ _ hk] at h
        exact .inl ⟨phase, h⟩
    · exact .inl ⟨phase, h⟩
  | send k' =>
    rw [haction] at h
    dsimp only at h
    split at h
    · rename_i call' attempt hcall
      exact .inl (hset k' call' _ _ hcall h)
    · exact .inl ⟨phase, h⟩
  | serve k' attempt env =>
    rw [haction] at h
    dsimp only at h
    split at h
    · exact .inl ⟨phase, h⟩
    · split at h <;> exact .inl ⟨phase, h⟩
  | deliver k' =>
    rw [haction] at h
    dsimp only at h
    split at h
    · rename_i call' attempt hcall
      split at h
      · exact .inl (hset k' call' _ _ hcall h)
      · exact .inl ⟨phase, h⟩
    · exact .inl ⟨phase, h⟩
  | interrupt k' why =>
    rw [haction] at h
    dsimp only at h
    split at h
    · rename_i call' attempt hcall
      exact .inl (hset k' call' _ _ hcall h)
    · rename_i call' attempt hcall
      split at h
      · exact .inl (hset k' call' _ _ hcall h)
      · exact .inl ⟨phase, h⟩
    · exact .inl ⟨phase, h⟩

/-- The launcher knows the time of the server, as it was when the response left. -/
def Told (c : Circumstances) (offset : Int) : Prop := c.drift - c.delay ≤ offset ∧ offset ≤ c.drift + c.window

/-- What every request is. -/
structure SentBy (l : Library) (c : Circumstances) (tunnelSecret : Text) (flight : Flight) : Prop where
  fits : flight.call.body.toBytes.length ≤ maxBodyBytes
  signed : ∃ timestamp : Int, timestamp.natAbs < 2 ^ 64 ∧ flight.request = signedRequest l.hmacSha256 flight.call tunnelSecret timestamp
  answered : ∀ servedAt response, flight.answer = some (servedAt, response) → Steady c servedAt ∧ TellsTime servedAt.serverMs response

/-- A request that was sent with the time of the server. -/
def Timely (l : Library) (c : Circumstances) (tunnelSecret : Text) (flight : Flight) : Prop :=
  ∃ timestamp : Int, timestamp.natAbs < 2 ^ 64 ∧ flight.request = signedRequest l.hmacSha256 flight.call tunnelSecret timestamp ∧
    -(c.window : Int) ≤ flight.sentAt.serverMs / 1000 - timestamp ∧ flight.sentAt.serverMs / 1000 - timestamp ≤ c.window + c.delay

/-- What is so at any time. -/
structure Kept (l : Library) (c : Circumstances) (tunnelSecret : Text) (s : System) : Prop where
  offset : s.serverClockOffsetSeconds.natAbs < 2 ^ 63
  calls : ∀ k call phase, Dict.get s.calls k = some (call, phase) → call.body.toBytes.length ≤ maxBodyBytes
  flights : ∀ key flight, Dict.get s.flights key = some flight → SentBy l c tunnelSecret flight

/-- What is so from the state on in which the time was taken over. -/
structure Recovered (l : Library) (c : Circumstances) (tunnelSecret : Text) (base s : System) : Prop where
  offset : Told c s.serverClockOffsetSeconds
  flights : ∀ key flight, Dict.get base.flights key = none → Dict.get s.flights key = some flight → Timely l c tunnelSecret flight

theorem kept_initial (clients : RuntimeState) : Kept l c tunnelSecret (initial clients) where
  offset := by
    show (0 : Int).natAbs < 2 ^ 63
    decide
  calls := by
    intro k call phase h
    cases h
  flights := by
    intro key flight h
    cases h

/-- What a call takes over is the time of the server when the response left. -/
theorem told_of_takesOver (hkept : Kept l c tunnelSecret s) (hregular : Regular c tunnelSecret s e) {k : Nat} {ms : Int} (h : TakesOver s e k ms) :
    Told c (ms.tdiv 1000 - e.moment.localMs / 1000) ∧ (ms.tdiv 1000 - e.moment.localMs / 1000).natAbs < 2 ^ 63 := by
  obtain ⟨call, attempt, servedAt, response, failure, haction, hcall, hanswer, -, hfailure, htold⟩ := h
  obtain ⟨flight, hflight, hanswered⟩ := Option.bind_eq_some_iff.mp hanswer
  obtain ⟨hsteady, htells⟩ := (hkept.flights _ _ hflight).answered servedAt response hanswered
  obtain ⟨rfl, -⟩ := toldTime_eq htells hfailure htold
  have hsoon := hregular.delivered k haction attempt servedAt response hanswer
  have hnow := hregular.steady
  obtain ⟨hlow, hhigh⟩ := hsteady.serverTime
  obtain ⟨hllow, hlhigh⟩ := hnow.localTime
  have hahead := hnow.ahead
  have hatMost := hnow.atMost
  obtain ⟨horder, hdelay⟩ := hsoon
  rw [Int.tdiv_eq_ediv_of_nonneg hlow]
  unfold Told
  omega

theorem kept_step (hkept : Kept l c tunnelSecret s) (hregular : Regular c tunnelSecret s e) : Kept l c tunnelSecret (next l ordinal tunnelSecret s e) := by
  have hcalls : ∀ k call phase, Dict.get (next l ordinal tunnelSecret s e).calls k = some (call, phase) → call.body.toBytes.length ≤ maxBodyBytes := by
    intro k call phase h
    rcases next_calls h with ⟨phase', hbefore⟩ | ⟨localBindIp, haction⟩
    · exact hkept.calls k call phase' hbefore
    · exact hregular.begins k call localBindIp haction
  obtain ⟨hlocal0, hlocal1⟩ := hregular.steady.localTime
  have hbound := hkept.offset
  have hmoves := @moves_next l tunnelSecret ordinal s e
  generalize hoffset : (next l ordinal tunnelSecret s e).serverClockOffsetSeconds = offset at hmoves
  generalize hflights : (next l ordinal tunnelSecret s e).flights = flights at hmoves
  cases hmoves with
  | nothing => exact ⟨hoffset ▸ hkept.offset, hcalls, hflights ▸ hkept.flights⟩
  | sent k attempt call hcall =>
    refine ⟨hoffset ▸ hkept.offset, hcalls, ?_⟩
    rw [hflights]
    intro key flight h
    by_cases hkey : key = (k, attempt)
    · rw [hkey, Dict.get_set_self] at h
      rw [← Option.some.inj h]
      refine ⟨hkept.calls k call _ hcall, ⟨_, ?_, rfl⟩, ?_⟩
      · omega
      · intro servedAt response hanswer
        cases hanswer
    · rw [Dict.get_set_other _ _ hkey] at h
      exact hkept.flights key flight h
  | answered k attempt env sent haction hflight hanswer =>
    refine ⟨hoffset ▸ hkept.offset, hcalls, ?_⟩
    rw [hflights]
    intro key flight h
    by_cases hkey : key = (k, attempt)
    · rw [hkey, Dict.get_set_self] at h
      rw [← Option.some.inj h]
      have hsent := hkept.flights _ _ hflight
      refine ⟨hsent.fits, hsent.signed, ?_⟩
      intro servedAt response hserved
      obtain ⟨response', hmem, heq⟩ := Option.map_eq_some_iff.mp hserved
      obtain ⟨rfl, rfl⟩ := Prod.mk.inj heq
      have htells := tellsTime_of_served (List.mem_of_mem_head? hmem)
      rw [(hregular.served k attempt env haction).1] at htells
      exact ⟨hregular.steady, htells⟩
    · rw [Dict.get_set_other _ _ hkey] at h
      exact hkept.flights key flight h
  | told k ms htold => exact ⟨hoffset ▸ (told_of_takesOver hkept hregular htold).2, hcalls, hflights ▸ hkept.flights⟩

theorem recovered_step {base : System} (hkept : Kept l c tunnelSecret s) (hregular : Regular c tunnelSecret s e)
    (hrecovered : Recovered l c tunnelSecret base s) : Recovered l c tunnelSecret base (next l ordinal tunnelSecret s e) := by
  obtain ⟨hlocal0, hlocal1⟩ := hregular.steady.localTime
  have hbound := hkept.offset
  have hmoves := @moves_next l tunnelSecret ordinal s e
  generalize hoffset : (next l ordinal tunnelSecret s e).serverClockOffsetSeconds = offset at hmoves
  generalize hflights : (next l ordinal tunnelSecret s e).flights = flights at hmoves
  cases hmoves with
  | nothing => exact ⟨hoffset ▸ hrecovered.offset, hflights ▸ hrecovered.flights⟩
  | sent k attempt call hcall =>
    refine ⟨hoffset ▸ hrecovered.offset, ?_⟩
    rw [hflights]
    intro key flight hnew h
    by_cases hkey : key = (k, attempt)
    · rw [hkey, Dict.get_set_self] at h
      rw [← Option.some.inj h]
      obtain ⟨hlow, hhigh⟩ := hrecovered.offset
      have hahead := hregular.steady.ahead
      have hatMost := hregular.steady.atMost
      refine ⟨_, ?_, rfl, ?_, ?_⟩
      · omega
      · show _ ≤ e.moment.serverMs / 1000 - _
        omega
      · show e.moment.serverMs / 1000 - _ ≤ _
        omega
    · rw [Dict.get_set_other _ _ hkey] at h
      exact hrecovered.flights key flight hnew h
  | answered k attempt env sent haction hflight hanswer =>
    refine ⟨hoffset ▸ hrecovered.offset, ?_⟩
    rw [hflights]
    intro key flight hnew h
    by_cases hkey : key = (k, attempt)
    · subst hkey
      rw [Dict.get_set_self] at h
      rw [← Option.some.inj h]
      have htimely := hrecovered.flights _ sent hnew hflight
      exact htimely
    · rw [Dict.get_set_other _ _ hkey] at h
      exact hrecovered.flights key flight hnew h
  | told k ms htold => exact ⟨hoffset ▸ (told_of_takesOver hkept hregular htold).1, hflights ▸ hrecovered.flights⟩

/-! ## Attempts -/

/-- The attempts that a call can have made. -/
def Phase.Made : Phase → Nat → Prop
  | .sent attempt, m => m ≤ attempt
  | .waits attempt, m => m < attempt
  | .ended _, _ => True

/-- The attempts that are sent are those of the calls. -/
def Made (s : System) : Prop :=
  ∀ k m flight, Dict.get s.flights (k, m) = some flight → ∃ call phase, Dict.get s.calls k = some (call, phase) ∧ phase.Made m

theorem made_receive {m attempt : Nat} (h : m ≤ attempt) (offset localMs : Int) (received : Received) :
    (receive offset localMs attempt received).1.Made m := by
  have hwaits : (Phase.waits (attempt + 1)).Made m := Nat.lt_succ_of_le h
  have hagain : (again attempt).Made m := by
    unfold again
    split
    · exact hwaits
    · trivial
  cases received with
  | broken why =>
    cases why with
    | timedOut => exact hagain
    | cancelled => trivial
    | failed transient =>
      cases transient with
      | true => exact hagain
      | false => trivial
  | response status body =>
    unfold receive
    dsimp only
    split
    · trivial
    · split
      · trivial
      · split
        · exact hwaits
        · split
          · exact hagain
          · trivial

theorem made_step (h : Made s) : Made (next l ordinal tunnelSecret s e) := by
  -- another phase of a call, under which its attempts are still those that it can have made
  have hset : ∀ k' call' phase' phase'', Dict.get s.calls k' = some (call', phase') →
      (∀ m, phase'.Made m → phase''.Made m) → Made { s with calls := Dict.set s.calls k' (call', phase'') } := by
    intro k' call' phase' phase'' hcall hmade k m flight hflight
    obtain ⟨call, phase, hbefore, hm⟩ := h k m flight hflight
    by_cases hk : k = k'
    · subst hk
      rw [hcall] at hbefore
      obtain ⟨rfl, rfl⟩ := Prod.mk.inj (Option.some.inj hbefore)
      exact ⟨call', phase'', Dict.get_set_self _ _ _, hmade m hm⟩
    · exact ⟨call, phase, (Dict.get_set_other _ _ hk).trans hbefore, hm⟩
  unfold next
  cases haction : e.action with
  | begin k' call' localBindIp =>
    dsimp only
    split
    · rename_i hnone
      intro k m flight hflight
      obtain ⟨call, phase, hbefore, hm⟩ := h k m flight hflight
      have hk : k ≠ k' := by
        rintro rfl
        rw [hnone] at hbefore
        cases hbefore
      exact ⟨call, phase, (Dict.get_set_other _ _ hk).trans hbefore, hm⟩
    · exact h
  | send k' =>
    dsimp only
    split
    · rename_i call' attempt hcall
      intro k m flight hflight
      by_cases hkey : (k, m) = (k', attempt)
      · obtain ⟨rfl, rfl⟩ := Prod.mk.inj hkey
        exact ⟨call', .sent m, Dict.get_set_self _ _ _, Nat.le_refl m⟩
      · have hbefore : Dict.get s.flights (k, m) = some flight := (Dict.get_set_other _ _ hkey).symm.trans hflight
        exact hset k' call' _ (.sent attempt) hcall (fun _ hm => Nat.le_of_lt hm) k m flight hbefore
    · exact h
  | serve k' attempt env =>
    dsimp only
    split
    · exact h
    · rename_i flight' hflight'
      split
      · exact h
      · intro k m flight hflight
        by_cases hkey : (k, m) = (k', attempt)
        · obtain ⟨rfl, rfl⟩ := Prod.mk.inj hkey
          exact h k m flight' hflight'
        · exact h k m flight ((Dict.get_set_other _ _ hkey).symm.trans hflight)
  | deliver k' =>
    dsimp only
    split
    · rename_i call' attempt hcall
      split
      · exact hset k' call' _ _ hcall fun m hm => made_receive hm _ _ _
      · exact h
    · exact h
  | interrupt k' why =>
    dsimp only
    split
    · rename_i call' attempt hcall
      exact hset k' call' _ _ hcall fun m hm => made_receive hm _ _ _
    · rename_i call' attempt hcall
      split
      · exact hset k' call' _ _ hcall fun m hm => trivial
      · exact h
    · exact h

/-- The call that takes over the time has another attempt, which is still to be made. -/
theorem no_second_attempt (hmade : Made s) {k : Nat} {ms : Int} (h : TakesOver s e k ms) :
    Dict.get (next l ordinal tunnelSecret s e).flights (k, 2) = none := by
  obtain ⟨call, attempt, servedAt, response, failure, haction, hcall, hanswer, -, hfailure, htold⟩ := h
  have hattempt : attempt < maxAttempts := by
    unfold toldTime at htold
    split at htold
    · rename_i hcond
      exact hcond.2.2
    · cases htold
  have hflights : (next l ordinal tunnelSecret s e).flights = s.flights := by
    unfold next
    rw [haction]
    dsimp only
    rw [hcall]
    dsimp only
    rw [hanswer]
    rfl
  rw [hflights]
  cases hflight : Dict.get s.flights (k, 2) with
  | none => rfl
  | some flight =>
    obtain ⟨call', phase, hcall', hm⟩ := hmade k 2 flight hflight
    rw [hcall] at hcall'
    obtain ⟨rfl, rfl⟩ := Prod.mk.inj (Option.some.inj hcall')
    exact absurd hm (Nat.not_le_of_lt hattempt)

/-- The step after which the time is known. -/
theorem told_after (hkept : Kept l c tunnelSecret s) (hregular : Regular c tunnelSecret s e) {k : Nat} {ms : Int} (h : TakesOver s e k ms) :
    Told c (next l ordinal tunnelSecret s e).serverClockOffsetSeconds := by
  have htold := (told_of_takesOver hkept hregular h).1
  obtain ⟨call, attempt, servedAt, response, failure, haction, hcall, hanswer, hstatus, hfailure, htime⟩ := h
  have hoffset : (next l ordinal tunnelSecret s e).serverClockOffsetSeconds = ms.tdiv 1000 - e.moment.localMs / 1000 := by
    unfold next
    rw [haction]
    dsimp only
    rw [hcall]
    dsimp only
    rw [hanswer]
    unfold settle receive
    dsimp only
    rw [if_neg hstatus, hfailure]
    dsimp only
    rw [htime]
  rw [hoffset]
  exact htold

theorem recovered_self (htold : Told c s.serverClockOffsetSeconds) : Recovered l c tunnelSecret s s where
  offset := htold
  flights := by
    intro key flight hnone hsome
    rw [hnone] at hsome
    cases hsome

/-- A request that was sent with the time of the server is authorized when it comes soon. -/
theorem signed_of_timely (hhex : HexDigest l.hmacSha256) (hne : tunnelSecret.toBytes ≠ []) {flight : Flight} (htimely : Timely l c tunnelSecret flight)
    (hsecret : env.secret = tunnelSecret.toBytes) (hnow : env.nowMs = e.moment.serverMs) (hsoon : Soon c flight.sentAt e.moment) :
    Signed l ⟨env, flight.request⟩ flight.call.body.toBytes := by
  obtain ⟨timestamp, hbound, hrequest, hlow, hhigh⟩ := htimely
  obtain ⟨horder, hdelay⟩ := hsoon
  have hbounded := c.bounded
  rw [hrequest]
  refine signed_of_inTime hhex hsecret hne hbound ?_
  rw [hnow]
  omega

/-- Whatever is refused is refused for the clock. -/
theorem signed_or_late (hhex : HexDigest l.hmacSha256) (hne : tunnelSecret.toBytes ≠ []) {flight : Flight} (hsent : SentBy l c tunnelSecret flight)
    (hsecret : env.secret = tunnelSecret.toBytes) (clients : RuntimeState) :
    Signed l ⟨env, flight.request⟩ flight.call.body.toBytes ∨ (serve l clients ⟨env, flight.request⟩).2 = [clockSkewResponse env] := by
  obtain ⟨timestamp, hbound, hrequest⟩ := hsent.signed
  rw [hrequest]
  by_cases htime : (env.nowMs / 1000 - timestamp).natAbs ≤ maxClockSkewSeconds
  · exact .inl (signed_of_inTime hhex hsecret hne hbound htime)
  · exact .inr (serve_late hsecret hne hbound htime hsent.fits clients)

theorem answerTo_serve {k attempt : Nat} {flight : Flight} (haction : e.action = .serve k attempt env)
    (hflight : Dict.get s.flights (k, attempt) = some flight) (hanswer : flight.answer = none) :
    (next l ordinal tunnelSecret s e).answerTo k attempt = (serve l s.clients ⟨env, flight.request⟩).2.head?.map (e.moment, ·) := by
  have hopen : ¬ flight.answer.isSome = true := by
    rw [hanswer]
    exact Bool.false_ne_true
  unfold next
  rw [haction]
  dsimp only
  rw [hflight]
  dsimp only
  rw [if_neg hopen]
  unfold System.answerTo
  rw [Dict.get_set_self, Option.bind_some]

end Steps

end Requests

/-- In every run in which the clocks of the launcher and of the server go at the same pace, whatever time the launcher began with: a request
is authorized or refused with the time of the server, and from the moment on in which a call takes that time over, every request that is
sent later is authorized, the next one of that call among them. -/
theorem clock_recovered (l : Library) (ordinal : OrdinalCase) (c : Circumstances) (tunnelSecret : Text) (hhex : HexDigest l.hmacSha256)
    (hne : tunnelSecret.toBytes ≠ []) (clients : RuntimeState) (events : List Event)
    (hregular : ∀ t ∈ trace (step l ordinal tunnelSecret) (initial clients) events, Regular c tunnelSecret t.before t.input) :
    (∀ t ∈ trace (step l ordinal tunnelSecret) (initial clients) events, ∀ k attempt env flight, t.input.action = .serve k attempt env →
      Dict.get t.before.flights (k, attempt) = some flight → flight.answer = none →
        Signed l ⟨env, flight.request⟩ flight.call.body.toBytes ∨
          t.after.answerTo k attempt = some (t.input.moment, clockSkewResponse env)) ∧
    ∀ past u rest, trace (step l ordinal tunnelSecret) (initial clients) events = past ++ u :: rest → ∀ k ms, TakesOver u.before u.input k ms →
      Dict.get u.after.flights (k, 2) = none ∧
      ∀ t ∈ rest, ∀ j attempt env flight, t.input.action = .serve j attempt env → Dict.get u.after.flights (j, attempt) = none →
        Dict.get t.before.flights (j, attempt) = some flight → Signed l ⟨env, flight.request⟩ flight.call.body.toBytes := by
  have hkept : (∀ t ∈ trace (step l ordinal tunnelSecret) (initial clients) events,
      (Kept l c tunnelSecret t.before ∧ Made t.before) ∧ Kept l c tunnelSecret t.after ∧ Made t.after) ∧ _ :=
    trace_inv_of (I := fun s => Kept l c tunnelSecret s ∧ Made s) (Regular c tunnelSecret)
      (fun s e h hregular => ⟨kept_step h.1 hregular, made_step h.2⟩)
      ⟨kept_initial clients, fun k m flight h => by cases h⟩ hregular
  refine ⟨?_, ?_⟩
  · intro t ht k attempt env flight haction hflight hanswer
    obtain ⟨hnow, hsecret, -⟩ := (hregular t ht).served k attempt env haction
    have hstep : next l ordinal tunnelSecret t.before t.input = t.after := congrArg Prod.fst (mem_trace ht).2
    rcases signed_or_late hhex hne ((hkept.1 t ht).1.1.flights _ _ hflight) hsecret t.before.clients with hsigned | hlate
    · exact .inl hsigned
    · right
      rw [← hstep, answerTo_serve haction hflight hanswer, hlate]
      rfl
  · intro past u rest htrace k ms htold
    have hu : u ∈ trace (step l ordinal tunnelSecret) (initial clients) events := htrace ▸ List.mem_append_right _ List.mem_cons_self
    have hstep : next l ordinal tunnelSecret u.before u.input = u.after := congrArg Prod.fst (mem_trace hu).2
    refine ⟨hstep ▸ no_second_attempt (hkept.1 u hu).1.2 htold, ?_⟩
    intro t ht j attempt env flight haction hnew hflight
    have hmem : t ∈ trace (step l ordinal tunnelSecret) (initial clients) events := htrace ▸ List.mem_append_right _ (List.mem_cons_of_mem u ht)
    obtain ⟨later, hlater⟩ := trace_rest htrace
    have hrecovered : Recovered l c tunnelSecret u.after u.after :=
      recovered_self (hstep ▸ told_after (hkept.1 u hu).1.1 (hregular u hu) htold)
    have hrun := trace_inv_of (I := fun s => Kept l c tunnelSecret s ∧ Recovered l c tunnelSecret u.after s) (Regular c tunnelSecret)
      (fun s e h hregular => ⟨kept_step h.1 hregular, recovered_step h.1 hregular h.2⟩) ⟨(hkept.1 u hu).2.1, hrecovered⟩
      (fun v hv => hregular v (htrace ▸ List.mem_append_right _ (List.mem_cons_of_mem u (hlater ▸ hv))))
    have hbefore := (hrun.1 t (hlater ▸ ht)).1
    obtain ⟨hnow, hsecret, hsoon⟩ := (hregular t hmem).served j attempt env haction
    exact signed_of_timely hhex hne (hbefore.2.flights _ _ hnew hflight) hsecret hnow (hsoon flight hflight)

namespace ClockRecovery

def digestAt5 : Latin1 := ascii "52fe3f69fc45032da9c8ddc089aa29123e50bd6fb88527fc494061ac907a08b3".toList

def digestAt1005 : Latin1 := ascii "540abd19a356293da3a684543ae3078a68a647ed94fa64fcdec38f8d57f4bceb".toList

/-- The signatures of the two requests. -/
def clockLibrary : Library :=
  { plainLibrary with hmacSha256 := fun _ data => if data = ascii "5\nGET\n/v1/peers\n".toList then digestAt5 else digestAt1005 }

theorem hexDigest_clockLibrary : HexDigest clockLibrary.hmacSha256 := by
  intro key data
  unfold clockLibrary
  dsimp only
  split <;> exact ⟨by decide, by decide, by decide⟩

theorem toUpper_ascii (c : Char) (_ : c.toNat < 128) : Char.toUpper c = c.toUpper := rfl

def asciiCase : OrdinalCase where
  upper := Char.toUpper
  upper_ascii := toUpper_ascii

def sharedSecret : Text := "key".toList

/-- The launcher is a thousand seconds late. -/
def late : Circumstances where
  drift := 1000
  window := 1
  delay := 2
  bounded := by decide

def noon : Moment := { localMs := 5000, serverMs := 1005000 }

def server : Environment := { plainEnvironment with secret := sharedSecret.toBytes, nowMs := 1005000 }

/-- The request of an attempt, and its response. -/
def peersFlight (timestamp : Int) (answer : Option (Moment × Response)) : Flight where
  call := .peers
  request := signedRequest clockLibrary.hmacSha256 .peers sharedSecret timestamp
  sentAt := noon
  answer

def refused : Flight := peersFlight 5 (some (noon, clockSkewResponse server))

/-- The states on the way. -/
def begun : System := { initial [] with calls := [(0, .peers, .waits 1)] }

def asked : System := { begun with calls := [(0, .peers, .sent 1)], flights := [((0, 1), peersFlight 5 none)] }

def answered : System :=
  { asked with flights := [((0, 1), refused)], clients := (serve clockLibrary [] ⟨server, (peersFlight 5 none).request⟩).1 }

def told : System := { answered with serverClockOffsetSeconds := 1000, calls := [(0, .peers, .waits 2)] }

def askedAgain : System :=
  { told with calls := [(0, .peers, .sent 2)], flights := [((0, 1), refused), ((0, 2), peersFlight 1005 none)] }

def stepOf (s : System) (e : Event) : System := next clockLibrary asciiCase sharedSecret s e

theorem begun_eq : stepOf (initial []) ⟨noon, .begin 0 .peers "10.66.0.7".toList⟩ = begun := by
  have hbegins : begins asciiCase "10.66.0.7".toList sharedSecret = .waits 1 := if_neg (by decide)
  unfold stepOf next
  dsimp only
  rw [hbegins]
  rfl

theorem asked_eq : stepOf begun ⟨noon, .send 0⟩ = asked := rfl

theorem answered_eq : stepOf asked ⟨noon, .serve 0 1 server⟩ = answered := by
  have hserve : (serve clockLibrary [] ⟨server, (peersFlight 5 none).request⟩).2 = [clockSkewResponse server] :=
    serve_late rfl (by decide) (by decide) (by decide) (by decide) []
  unfold stepOf next
  show ({ asked with
    flights := [((0, 1), { peersFlight 5 none with answer :=
      (serve clockLibrary [] ⟨server, (peersFlight 5 none).request⟩).2.head?.map (noon, ·) })]
    clients := (serve clockLibrary [] ⟨server, (peersFlight 5 none).request⟩).1 } : System) = _
  rw [hserve]
  rfl

theorem told_eq : stepOf answered ⟨noon, .deliver 0⟩ = told := rfl

theorem askedAgain_eq : stepOf told ⟨noon, .send 0⟩ = askedAgain := rfl

theorem trace_cons_eq {s s' : System} {e : Event} {events : List Event} (h : stepOf s e = s') :
    trace (step clockLibrary asciiCase sharedSecret) s (e :: events) =
      ⟨s, e, (), s'⟩ :: trace (step clockLibrary asciiCase sharedSecret) s' events := by
  subst h
  rfl

def lateEvents : List Event :=
  [⟨noon, .begin 0 .peers "10.66.0.7".toList⟩, ⟨noon, .send 0⟩, ⟨noon, .serve 0 1 server⟩, ⟨noon, .deliver 0⟩, ⟨noon, .send 0⟩,
    ⟨noon, .serve 0 2 server⟩]

theorem trace_events : trace (step clockLibrary asciiCase sharedSecret) (initial []) lateEvents =
    [⟨initial [], ⟨noon, .begin 0 .peers "10.66.0.7".toList⟩, (), begun⟩, ⟨begun, ⟨noon, .send 0⟩, (), asked⟩,
      ⟨asked, ⟨noon, .serve 0 1 server⟩, (), answered⟩] ++
      ⟨answered, ⟨noon, .deliver 0⟩, (), told⟩ ::
        [⟨told, ⟨noon, .send 0⟩, (), askedAgain⟩, ⟨askedAgain, ⟨noon, .serve 0 2 server⟩, (), stepOf askedAgain ⟨noon, .serve 0 2 server⟩⟩] := by
  unfold lateEvents
  rw [trace_cons_eq begun_eq, trace_cons_eq asked_eq, trace_cons_eq answered_eq, trace_cons_eq told_eq, trace_cons_eq askedAgain_eq,
    trace_cons_eq rfl, trace_nil]
  rfl

theorem steady_noon : Steady late noon := ⟨by decide, by decide, by decide, by decide⟩

theorem soon_noon : Soon late noon noon := ⟨by decide, by decide⟩

/-- At noon everything is as it should be. -/
theorem regular_noon {s : System} {action : Action} (hbegins : ∀ k call localBindIp, action = .begin k call localBindIp → call = .peers)
    (hserves : ∀ k attempt env, action = .serve k attempt env → env = server)
    (hflights : ∀ item ∈ s.flights, item.2.sentAt = noon ∧ ∀ servedAt response, item.2.answer = some (servedAt, response) → servedAt = noon) :
    Regular late sharedSecret s ⟨noon, action⟩ where
  steady := steady_noon
  begins := by
    intro k call localBindIp h
    rw [hbegins k call localBindIp h]
    decide
  served := by
    intro k attempt env h
    rw [hserves k attempt env h]
    refine ⟨rfl, rfl, ?_⟩
    intro flight hflight
    rw [(hflights _ (Dict.mem_of_get hflight)).1]
    exact soon_noon
  delivered := by
    intro k h attempt servedAt response hanswer
    obtain ⟨flight, hflight, hanswered⟩ := Option.bind_eq_some_iff.mp hanswer
    rw [(hflights _ (Dict.mem_of_get hflight)).2 servedAt response hanswered]
    exact soon_noon

theorem flights_noon {item : (Nat × Nat) × Flight} (h : item ∈ askedAgain.flights ∨ item ∈ asked.flights) :
    item.2.sentAt = noon ∧ ∀ servedAt response, item.2.answer = some (servedAt, response) → servedAt = noon := by
  have hitem : item.2 = refused ∨ ∃ timestamp, item.2 = peersFlight timestamp none := by
    rcases h with h | h
    · rcases List.mem_cons.mp h with rfl | h
      · exact .inl rfl
      · exact .inr ⟨1005, congrArg Prod.snd (List.mem_singleton.mp h)⟩
    · exact .inr ⟨5, congrArg Prod.snd (List.mem_singleton.mp h)⟩
  rcases hitem with hrefused | ⟨timestamp, hopen⟩
  · rw [hrefused]
    refine ⟨rfl, ?_⟩
    intro servedAt response h
    exact (Prod.mk.inj (Option.some.inj h)).1.symm
  · rw [hopen]
    refine ⟨rfl, ?_⟩
    intro servedAt response h
    cases h

end ClockRecovery

open ClockRecovery in
/-- A launcher that is a thousand seconds late is refused once. -/
theorem clock_recovered_late : Signed clockLibrary ⟨server, (peersFlight 1005 none).request⟩ [] := by
  have hregular : ∀ t ∈ trace (step clockLibrary asciiCase sharedSecret) (initial []) lateEvents, Regular late sharedSecret t.before t.input := by
    rw [trace_events]
    refine List.forall_mem_cons.mpr ⟨?_, List.forall_mem_cons.mpr ⟨?_, List.forall_mem_cons.mpr ⟨?_, List.forall_mem_cons.mpr ⟨?_,
      List.forall_mem_cons.mpr ⟨?_, List.forall_mem_cons.mpr ⟨?_, fun t ht => absurd ht List.not_mem_nil⟩⟩⟩⟩⟩⟩
    · exact regular_noon (fun _ _ _ h => by cases h; rfl) (fun _ _ _ h => by cases h) fun item h => absurd h List.not_mem_nil
    · exact regular_noon (fun _ _ _ h => by cases h) (fun _ _ _ h => by cases h) fun item h => absurd h List.not_mem_nil
    · exact regular_noon (fun _ _ _ h => by cases h) (fun _ _ _ h => by cases h; rfl) fun item h => flights_noon (.inr h)
    · exact regular_noon (fun _ _ _ h => by cases h) (fun _ _ _ h => by cases h) fun item h =>
        flights_noon (.inl (List.mem_cons.mpr (.inl (List.mem_singleton.mp h))))
    · exact regular_noon (fun _ _ _ h => by cases h) (fun _ _ _ h => by cases h) fun item h =>
        flights_noon (.inl (List.mem_cons.mpr (.inl (List.mem_singleton.mp h))))
    · exact regular_noon (fun _ _ _ h => by cases h) (fun _ _ _ h => by cases h; rfl) fun item h => flights_noon (.inl h)
  have htold : TakesOver answered ⟨noon, .deliver 0⟩ 0 1005000 :=
    ⟨.peers, 1, noon, clockSkewResponse server, (pyStr "clock_skew".toList, some 1005000), rfl, rfl, rfl, by decide, rfl, by decide⟩
  have hsecret : sharedSecret.toBytes ≠ [] := by decide
  have h := (clock_recovered clockLibrary asciiCase late sharedSecret hexDigest_clockLibrary hsecret [] lateEvents hregular).2 _ _ _ trace_events 0 1005000
    htold
  exact h.2 _ (List.mem_cons_of_mem _ List.mem_cons_self) 0 2 server (peersFlight 1005 none) rfl h.1 rfl

end Scbl.Launcher.ControlPlaneService
