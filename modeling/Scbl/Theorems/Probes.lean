import Scbl.Services.NatTraversal
import Scbl.Theorems.Isolation

/-!
# The relay of probes

A request to relay probes sends one to every client that its targets name, when none of them is the client that asks: the connection
of that client is borrowed while its request is handled, and a target that names it is a panic. A probe that cannot be encoded or that
the socket does not take is a panic, too.
-/

namespace Scbl.Services.NatTraversalService

open Scbl.Lib Scbl.Rmc Scbl.Prudp Scbl.Storage

/-- The clients that the targets of a request name, with the signatures of their connections. -/
def namedClients (c : Caller) (request : RequestProbeInitiationExtRequest) : List (UInt32 × ClientInfo Unit) :=
  request.urlTargetList.filterMap (probeTarget c.registry)

/-- The datagram of a probe to a client, with a call id and the sequence id of the client. -/
def probeDatagram (c : Caller) (urlStationToProbe : StationURL) (callId : UInt32) (sequence : UInt16) (target : ClientInfo Unit) :
    Except Panic Bytes := do
  let payload ← probePayload c.env callId urlStationToProbe
  let (req, _) ← stampRequest c.env.build { target with clientSequenceId := sequence } (probePacket payload)
  QPacket.toBytes c.zlib c.ctx { req with useCompression := true, fragmentId := some 0, flags := req.flags.insert .hasSize }

/-- A probe to a client was sent to its address. -/
def IsProbe (c : Caller) (urlStationToProbe : StationURL) (client : UInt32 × ClientInfo Unit) (e : Event) : Prop :=
  ∃ callId sequence data, probeDatagram c urlStationToProbe callId sequence client.2 = .ok data ∧ e = .sent client.2.address data

/-- The relay ends, and every client named was sent one probe. -/
def Relays (c : Caller) (st : CallState) (request : RequestProbeInitiationExtRequest) : Prop :=
  ∃ st' result probes, requestProbeInitiationExt request c st = .ok (st', result) ∧ st'.events = st.events ++ probes ∧
    List.Forall₂ (IsProbe c request.urlStationToProbe) (namedClients c request) probes

/-- Each probe to some clients can be encoded and is taken by the socket; the sequence id of a client counts the probes to it. -/
def Deliverable (c : Caller) (st : CallState) (urlStationToProbe : StationURL) (clients : List (UInt32 × ClientInfo Unit)) : Prop :=
  ∀ before sig target after, clients = before ++ (sig, target) :: after →
    ∃ data, probeDatagram c urlStationToProbe (c.env.randomCallId (st.events.length + before.length))
        (st.clientSequenceIds sig + UInt16.ofNat (before.countP (·.1 = sig))) target = .ok data ∧
      c.env.send data target.address ≠ none

namespace Probes

variable {c : Caller} {st st' : CallState} {urlStationToProbe : StationURL} {sig : UInt32} {target : ClientInfo Unit}

/-- The state after a probe to a client. -/
def probed (st : CallState) (sig : UInt32) (address : SocketAddr) (data : Bytes) : CallState :=
  { st with
    clientSequenceIds := fun s => if s = sig then st.clientSequenceIds sig + 1 else st.clientSequenceIds s
    events := st.events ++ [.sent address data] }

/-- The next sequence id. -/
theorem addU16_eq_ok {build : Build} {x y z : UInt16} (h : build.addU16 x y = .ok z) : z = x + y := by
  cases build with
  | debug =>
    dsimp only [Build.addU16] at h
    split at h
    · exact (Except.ok.inj h).symm
    · nomatch h
  | release => exact (Except.ok.inj h).symm

/-- What the header of a request leaves as it is, and the sequence id after it. -/
theorem stampRequest_ok {build : Build} {ci ci' : ClientInfo Unit} {req req' : QPacket} (h : stampRequest build ci req = .ok (req', ci')) :
    req'.packetType = req.packetType ∧ req'.fragmentId = req.fragmentId ∧ ci'.clientSequenceId = ci.clientSequenceId + 1 := by
  obtain ⟨next, hnext, h⟩ := bind_eq_ok.mp h
  obtain ⟨rfl, rfl⟩ := Prod.mk.inj (Except.ok.inj h)
  exact ⟨rfl, rfl, addU16_eq_ok hnext⟩

/-- A data packet without a fragment id is sent as a whole message. -/
theorem sendPacket_eq {env : Env} {zlib : Zlib} {ctx : Context} {address : SocketAddr} {req : QPacket} (htype : req.packetType = .data)
    (hfragment : req.fragmentId = none) :
    sendPacket env zlib ctx address req = (do
      let data ← QPacket.toBytes zlib ctx { req with useCompression := true, fragmentId := some 0, flags := req.flags.insert .hasSize }
      match env.send data address with
      | none => return .sendFailed address
      | some sz =>
        assert (sz = data.length)
        return .sent address data) := by
  have hcopy : (if req.packetType = .data then { req with useCompression := true, fragmentId := some (req.fragmentId.getD 0) } else req) =
      { req with useCompression := true, fragmentId := some 0 } := by rw [if_pos htype, hfragment, Option.getD_none]
  exact congrArg (fun copy : QPacket => (do
    let data ← QPacket.toBytes zlib ctx { copy with flags := copy.flags.insert .hasSize }
    match env.send data address with
    | none => return .sendFailed address
    | some sz =>
      assert (sz = data.length)
      return .sent address data : Except Panic Event)) hcopy

/-- A probe is sent when it is not to the connection that calls, can be encoded, and is taken by the socket. -/
theorem sendProbe_ok (hne : sig ≠ c.signature) {data : Bytes}
    (hdata : probeDatagram c urlStationToProbe (c.env.randomCallId st.events.length) (st.clientSequenceIds sig) target = .ok data)
    (hsend : c.env.send data target.address ≠ none) :
    sendProbe urlStationToProbe sig target c st = .ok (probed st sig target.address data, .ok ()) := by
  unfold probeDatagram at hdata
  obtain ⟨payload, hpayload, hdata⟩ := bind_eq_ok.mp hdata
  obtain ⟨⟨req, target'⟩, hstamp, hdata⟩ := bind_eq_ok.mp hdata
  obtain ⟨htype, hfragment, hnext⟩ := stampRequest_ok hstamp
  obtain ⟨sz, hsz⟩ := Option.ne_none_iff_exists'.mp hsend
  have hassert : assert (sz = data.length) = .ok () := if_pos (decide_eq_true (c.env.send_whole hsz))
  dsimp only at hdata
  have hsent : sendPacket c.env c.zlib c.ctx target.address req = .ok (.sent target.address data) := by
    rw [sendPacket_eq htype hfragment, hdata]
    dsimp only [bind, Except.bind]
    rw [hsz]
    dsimp only
    rw [hassert]
    rfl
  unfold sendProbe sendRequest
  rw [hpayload]
  dsimp only [bind, Except.bind]
  rw [if_neg hne, hstamp]
  dsimp only [pure, Except.pure]
  rw [hsent]
  dsimp only
  rw [hnext]
  rfl

/-- A probe to the connection that calls is a panic. -/
theorem sendProbe_self {payload : Bytes}
    (hpayload : probePayload c.env (c.env.randomCallId st.events.length) urlStationToProbe = .ok payload) :
    sendProbe urlStationToProbe c.signature target c st = .error .borrow := by
  unfold sendProbe
  rw [hpayload]
  dsimp only [bind, Except.bind]
  rw [if_pos rfl]
  rfl

/-- A relay that ends has sent the probe. -/
theorem sendProbe_ends {result : Except Rmc.Error Unit} (h : sendProbe urlStationToProbe sig target c st = .ok (st', result)) :
    sig ≠ c.signature ∧ result = .ok () ∧ ∃ data,
      probeDatagram c urlStationToProbe (c.env.randomCallId st.events.length) (st.clientSequenceIds sig) target = .ok data ∧
        c.env.send data target.address ≠ none ∧ st' = probed st sig target.address data := by
  unfold sendProbe at h
  obtain ⟨payload, hpayload, h⟩ := bind_eq_ok.mp h
  by_cases hself : sig = c.signature
  · rw [if_pos hself] at h
    nomatch h
  rw [if_neg hself] at h
  obtain ⟨⟨event, target'⟩, hrequest, h⟩ := bind_eq_ok.mp h
  obtain ⟨⟨req, target''⟩, hstamp, hrequest⟩ := bind_eq_ok.mp hrequest
  obtain ⟨event', hpacket, hrequest⟩ := bind_eq_ok.mp hrequest
  obtain ⟨rfl, rfl⟩ := Prod.mk.inj (Except.ok.inj hrequest)
  obtain ⟨htype, hfragment, hnext⟩ := stampRequest_ok hstamp
  rw [sendPacket_eq htype hfragment] at hpacket
  obtain ⟨data, hdata, hpacket⟩ := bind_eq_ok.mp hpacket
  have hdatagram : probeDatagram c urlStationToProbe (c.env.randomCallId st.events.length) (st.clientSequenceIds sig) target =
      .ok data :=
    bind_eq_ok.mpr ⟨payload, hpayload, bind_eq_ok.mpr ⟨_, hstamp, hdata⟩⟩
  cases hsend : c.env.send data target.address with
  | none =>
    rw [hsend] at hpacket
    rw [← Except.ok.inj hpacket] at h
    nomatch h
  | some sz =>
    rw [hsend] at hpacket
    obtain ⟨-, -, hpacket⟩ := bind_eq_ok.mp hpacket
    rw [← Except.ok.inj hpacket] at h
    obtain ⟨rfl, rfl⟩ := Prod.mk.inj (Except.ok.inj h)
    refine ⟨hself, rfl, data, hdatagram, by rw [hsend]; exact Option.some_ne_none sz, ?_⟩
    rw [probed, hnext]

/-- Targets that name no client change nothing. -/
theorem forM_relayProbe (c : Caller) (urlStationToProbe : StationURL) (urls : List StationURL) (st : CallState) :
    (urls.forM (relayProbe urlStationToProbe) : RmcHandler PUnit) c st =
      ((urls.filterMap (probeTarget c.registry)).forM (fun client => sendProbe urlStationToProbe client.1 client.2) :
        RmcHandler PUnit) c st := by
  induction urls generalizing st with
  | nil => rfl
  | cons url urls ih =>
    change (relayProbe urlStationToProbe url >>= fun _ => urls.forM (relayProbe urlStationToProbe)) c st = _
    cases htarget : probeTarget c.registry url with
    | none =>
      have hskip : relayProbe urlStationToProbe url c st = .ok (st, .ok ()) := by
        simp only [relayProbe, bind, Handler.caller, htarget]
        rfl
      rw [Handler.bind_of_ok hskip, ih, List.filterMap_cons_none htarget]
    | some client =>
      have hsend : relayProbe urlStationToProbe url c st = sendProbe urlStationToProbe client.1 client.2 c st := by
        simp only [relayProbe, bind, Handler.caller, htarget]
      rw [List.filterMap_cons_some htarget]
      change _ = (sendProbe urlStationToProbe client.1 client.2 >>= fun _ => (urls.filterMap (probeTarget c.registry)).forM
        (fun client => sendProbe urlStationToProbe client.1 client.2)) c st
      simp only [bind, hsend]
      cases sendProbe urlStationToProbe client.1 client.2 c st with
      | error p => rfl
      | ok r =>
        obtain ⟨st', result⟩ := r
        cases result with
        | error e => rfl
        | ok u => exact ih st'

/-- The sequence id of a client after a probe and some others. -/
theorem sequence_probed (st : CallState) (sig sig' : UInt32) (address : SocketAddr) (data : Bytes) (target : ClientInfo Unit)
    (before : List (UInt32 × ClientInfo Unit)) :
    (probed st sig address data).clientSequenceIds sig' + UInt16.ofNat (before.countP (·.1 = sig')) =
      st.clientSequenceIds sig' + UInt16.ofNat (((sig, target) :: before).countP (·.1 = sig')) := by
  have hnext : (probed st sig address data).clientSequenceIds sig' =
      if sig' = sig then st.clientSequenceIds sig + 1 else st.clientSequenceIds sig' := rfl
  rw [hnext, List.countP_cons]
  by_cases h : sig' = sig
  · subst h
    rw [if_pos rfl, if_pos (decide_eq_true rfl), UInt16.ofNat_add]
    change st.clientSequenceIds sig' + 1 + _ = st.clientSequenceIds sig' + (_ + 1)
    ac_rfl
  · rw [if_neg h, if_neg (by simpa using Ne.symm h), Nat.add_zero]

/-- The first probe is delivered, and so are the others after it. -/
theorem deliverable_cons {clients : List (UInt32 × ClientInfo Unit)} (data : Bytes) :
    Deliverable c st urlStationToProbe ((sig, target) :: clients) ↔
      (∃ data, probeDatagram c urlStationToProbe (c.env.randomCallId st.events.length) (st.clientSequenceIds sig) target = .ok data ∧
        c.env.send data target.address ≠ none) ∧
      Deliverable c (probed st sig target.address data) urlStationToProbe clients := by
  have hlength : ∀ n, (probed st sig target.address data).events.length + n = st.events.length + (n + 1) := by
    intro n
    rw [probed, List.length_append]
    simp only [List.length_cons, List.length_nil]
    omega
  have hzero : UInt16.ofNat 0 = 0 := rfl
  constructor
  · intro h
    constructor
    · have hfirst := h [] sig target clients rfl
      rwa [List.length_nil, List.countP_nil, Nat.add_zero, hzero, UInt16.add_zero] at hfirst
    · intro before sig' target' after hclients
      have hnext := h ((sig, target) :: before) sig' target' after (by rw [hclients, List.cons_append])
      rw [sequence_probed, hlength]
      exact hnext
  · rintro ⟨hfirst, hrest⟩ before sig' target' after hclients
    cases before with
    | nil =>
      obtain ⟨hhead, -⟩ := List.cons.inj hclients
      obtain ⟨rfl, rfl⟩ := Prod.mk.inj hhead
      rwa [List.length_nil, List.countP_nil, Nat.add_zero, hzero, UInt16.add_zero]
    | cons client before =>
      obtain ⟨rfl, htail⟩ := List.cons.inj hclients
      have hnext := hrest before sig' target' after htail
      rw [sequence_probed _ _ _ _ _ target, hlength] at hnext
      exact hnext

/-- Probes to some clients are sent when none of them is the one that calls and each can be delivered. -/
theorem sendProbes_ok {clients : List (UInt32 × ClientInfo Unit)} (hne : ∀ client ∈ clients, client.1 ≠ c.signature)
    (hdeliverable : Deliverable c st urlStationToProbe clients) :
    ∃ st' probes, (clients.forM (fun client => sendProbe urlStationToProbe client.1 client.2) : RmcHandler PUnit) c st =
        .ok (st', .ok ()) ∧ st'.events = st.events ++ probes ∧ List.Forall₂ (IsProbe c urlStationToProbe) clients probes := by
  induction clients generalizing st with
  | nil => exact ⟨st, [], rfl, (List.append_nil _).symm, .nil⟩
  | cons client clients ih =>
    obtain ⟨sig, target⟩ := client
    obtain ⟨⟨data, hdata, hsend⟩, -⟩ := (deliverable_cons []).mp hdeliverable
    obtain ⟨-, hrest⟩ := (deliverable_cons data).mp hdeliverable
    obtain ⟨st', probes, hcall, hevents, hprobes⟩ := ih (fun client hclient => hne client (List.mem_cons_of_mem _ hclient)) hrest
    refine ⟨st', .sent target.address data :: probes, ?_, ?_, .cons ⟨_, _, data, hdata, rfl⟩ hprobes⟩
    · exact (Handler.bind_of_ok (sendProbe_ok (hne _ List.mem_cons_self) hdata hsend)).trans hcall
    · rw [hevents, probed, List.append_assoc]
      rfl

/-- When the probes to some clients are sent, none of them is the one that calls, and each was delivered. -/
theorem sendProbes_ends {clients : List (UInt32 × ClientInfo Unit)} {result : Except Rmc.Error Unit}
    (h : (clients.forM (fun client => sendProbe urlStationToProbe client.1 client.2) : RmcHandler PUnit) c st = .ok (st', result)) :
    (∀ client ∈ clients, client.1 ≠ c.signature) ∧ Deliverable c st urlStationToProbe clients := by
  induction clients generalizing st with
  | nil =>
    refine ⟨fun _ hclient => (nomatch hclient), fun before sig target after hclients => ?_⟩
    cases before <;> nomatch hclients
  | cons client clients ih =>
    obtain ⟨sig, target⟩ := client
    rcases Handler.bind_ends h with ⟨st₁, u, hfirst, hrest⟩ | ⟨e, hfirst, -⟩
    · obtain ⟨hne, -, data, hdata, hsend, rfl⟩ := sendProbe_ends hfirst
      obtain ⟨hothers, hdeliverable⟩ := ih hrest
      refine ⟨fun client hclient => ?_, (deliverable_cons data).mpr ⟨⟨data, hdata, hsend⟩, hdeliverable⟩⟩
      rcases List.mem_cons.mp hclient with rfl | hclient
      · exact hne
      · exact hothers client hclient
    · nomatch (sendProbe_ends hfirst).2.1

end Probes

open Probes

/-- A request relays a probe to every client that its targets name exactly when the client that asks is logged in, unless no client is
named, none of the clients is the one that asks, and each probe can be encoded and is taken by the socket. -/
theorem relays_iff (c : Caller) (st : CallState) (request : RequestProbeInitiationExtRequest) :
    Relays c st request ↔ (namedClients c request = [] ∨ st.userId ≠ none) ∧
      (∀ client ∈ namedClients c request, client.1 ≠ c.signature) ∧
      Deliverable c st request.urlStationToProbe (namedClients c request) := by
  have hforM := forM_relayProbe c request.urlStationToProbe request.urlTargetList st
  constructor
  · rintro ⟨st', result, probes, hcall, hevents, hprobes⟩
    cases huser : st.userId with
    | none =>
      rw [requestProbeInitiationExt, loginRequired_bind_none huser] at hcall
      obtain ⟨rfl, -⟩ := Prod.mk.inj (Except.ok.inj hcall)
      have hnone : probes = [] := List.append_right_eq_self.mp hevents.symm
      rw [hnone] at hprobes
      have hempty : namedClients c request = [] := List.forall₂_nil_right_iff.mp hprobes
      rw [hempty]
      refine ⟨Or.inl rfl, fun _ hclient => (nomatch hclient), fun before sig target after hclients => ?_⟩
      cases before <;> nomatch hclients
    | some userId =>
      rw [requestProbeInitiationExt, loginRequired_bind huser, hforM] at hcall
      exact ⟨Or.inr (Option.some_ne_none userId), sendProbes_ends hcall⟩
  · rintro ⟨hlogin, hne, hdeliverable⟩
    cases huser : st.userId with
    | none =>
      have hempty := hlogin.resolve_right fun h => h huser
      refine ⟨st, .error .accessDenied, [], loginRequired_bind_none huser _, (List.append_nil _).symm, ?_⟩
      rw [hempty]
      exact .nil
    | some userId =>
      obtain ⟨st', probes, hcall, hevents, hprobes⟩ := sendProbes_ok hne hdeliverable
      refine ⟨st', .ok (), probes, ?_, hevents, hprobes⟩
      rw [requestProbeInitiationExt, loginRequired_bind huser, hforM]
      exact hcall

/-- A station URL with the connection id of the client. -/
def ownUrl : StationURL where
  scheme := "prudp".toList
  address := "10.66.0.2".toList
  port := 13000
  params := (∅ : AList (fun _ : Text => Text)).insert "RVCID".toList "5".toList

/-- A client whose connection is open. -/
def connected : Caller :=
  { GameSessionService.caller with
    registry :=
      { clients := AList.insert 7 (ClientInfo.new 0 7 { ip := "10.66.0.2".toList, port := 13000 }) ∅
        connectionIdSessionIds := AList.insert ⟨5⟩ ⟨7⟩ ∅ } }

/-- A client that names itself ends its request, and the server, in a panic: its own connection is borrowed a second time. -/
theorem relays_false :
    requestProbeInitiationExt { urlTargetList := [ownUrl], urlStationToProbe := ownUrl } connected GameSessionService.outsider =
        .error .borrow ∧
      ¬ Relays connected GameSessionService.outsider { urlTargetList := [ownUrl], urlStationToProbe := ownUrl } := by
  have hcall : requestProbeInitiationExt { urlTargetList := [ownUrl], urlStationToProbe := ownUrl } connected
      GameSessionService.outsider = .error .borrow := by
    rw [requestProbeInitiationExt, loginRequired_bind (show GameSessionService.outsider.userId = some 1001 from rfl), forM_relayProbe]
    have hnamed : [ownUrl].filterMap (probeTarget connected.registry) =
        [(7, ClientInfo.new 0 7 { ip := "10.66.0.2".toList, port := 13000 })] := rfl
    obtain ⟨payload, hpayload⟩ : ∃ payload, probePayload connected.env (connected.env.randomCallId
        GameSessionService.outsider.events.length) ownUrl = .ok payload := ⟨_, rfl⟩
    rw [hnamed]
    exact Handler.bind_of_error (sendProbe_self hpayload)
  refine ⟨hcall, ?_⟩
  rintro ⟨st', result, probes, hends, -⟩
  rw [hcall] at hends
  nomatch hends

end Scbl.Services.NatTraversalService
