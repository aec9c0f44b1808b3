import Scbl.Lemmas.Server
import Scbl.Theorems.AtMostOnce

/-!
# What a receive timeout removes

The loop removes expired connections only when a receive times out, and only open ones. What that guarantees: an open connection that
no CONNECT has completed since a receive timeout was heard from, at that timeout, within the session timeout (`expired_removed`).
-/

namespace Scbl.Prudp

open Scbl.Lib

variable {σ T : Type}

/-- The clock does not show less than an instant while what was received is handled. -/
def Received.From (t : Instant) : Received → Prop
  | .datagram _ _ envs => ∀ i, t ≤ (envs i).now
  | .timedOut now _ => t ≤ now
  | .failed => True

/-- A datagram holds a CONNECT packet under a signature. -/
def Received.Connects (svc : Service σ T) (s : UInt32) : Received → Prop
  | .datagram data _ _ =>
    ∃ e ∈ (parsePackets svc.zlib svc.ctx (data.take bufferSize)).packets, e.1.packetType = .connect ∧ e.1.signature = s
  | .timedOut _ _ | .failed => False

namespace Expiry

/-- The connection of a signature, if it is open, was heard from at most the session timeout before an instant. -/
def Fresh (t : Instant) (s : UInt32) (srv : Server σ T) : Prop :=
  ∀ ci, srv.clientRegistry.clients.lookup s = some ci → t ≤ ci.lastSeen + sessionTimeout

/-- A receive timeout leaves no connection that is too old. -/
theorem fresh_clearClients (now : Instant) (order : MapOrder) (svc : Service σ T) (srv : Server σ T) (s : UInt32) :
    Fresh now s (clearClients now order svc srv) := by
  intro ci hl
  have hlive := ((lookup_clearClients now order svc srv s ci).mp hl).2
  have hage : ¬ sessionTimeout < now - ci.lastSeen := of_decide_eq_false hlive
  exact Nat.sub_le_iff_le_add'.mp (Nat.le_of_not_lt hage)

/-- Removing connections makes none too old. -/
theorem Fresh.clearClients {t : Instant} {s : UInt32} {srv : Server σ T} (h : Fresh t s srv) (now : Instant) (order : MapOrder)
    (svc : Service σ T) : Fresh t s (clearClients now order svc srv) :=
  fun ci hl => h ci ((lookup_clearClients now order svc srv s ci).mp hl).1

/-- A packet that is no CONNECT under the signature makes its connection no older. -/
theorem Fresh.handlePacket {svc : Service σ T} [Inhabited T] (hkeeps : svc.KeepsSeen) {t : Instant} {s : UInt32} {env : Env}
    {srv srv' : Server σ T} {p : QPacket} {client : SocketAddr} {es : List Event} (hnow : t ≤ env.now)
    (hc : ¬ (p.packetType = .connect ∧ p.signature = s)) (hfresh : Fresh t s srv)
    (h : handlePacket env svc srv p client = .ok (srv', es)) : Fresh t s srv' := by
  rcases handlePacket_ok h with ⟨-, rfl, -⟩ | ⟨-, hhandled⟩
  · exact hfresh
  · intro ci' hl
    obtain ⟨ci, hl0, hseen⟩ := hhandled.seen hkeeps hc hl
    have h0 := hfresh ci hl0
    rcases hseen with hseen | hseen
    · exact h0.trans (Nat.add_le_add_right hseen _)
    · exact (hnow.trans hseen).trans (Nat.le_add_right _ _)

/-- The packets of a datagram without a CONNECT under the signature make its connection no older. -/
theorem Fresh.handlePackets {svc : Service σ T} [Inhabited T] (hkeeps : svc.KeepsSeen) {t : Instant} {s : UInt32}
    {packets : List (QPacket × Except Error Unit)} {envs : Nat → Env} {srv srv' : Server σ T} {client : SocketAddr} {es : List Event}
    (hnow : ∀ i, t ≤ (envs i).now) (hc : ∀ e ∈ packets, ¬ (e.1.packetType = .connect ∧ e.1.signature = s)) (hfresh : Fresh t s srv)
    (h : handlePackets svc client envs srv packets = .ok (srv', es)) : Fresh t s srv' := by
  induction packets generalizing envs srv es with
  | nil =>
    obtain ⟨rfl, -⟩ := Prod.mk.inj (Except.ok.inj h)
    exact hfresh
  | cons e packets ih =>
    obtain ⟨p, checked⟩ := e
    have hrest : ∀ {srv1 es1}, Fresh t s srv1 →
        (Prudp.handlePackets svc client (fun i => envs (i + 1)) srv1 packets >>= fun r => pure (r.1, es1 ++ r.2)) = .ok (srv', es) →
        Fresh t s srv' := by
      intro srv1 es1 hfresh1 h1
      obtain ⟨⟨srv2, es2⟩, h2, h1⟩ := bind_eq_ok.mp h1
      obtain ⟨rfl, -⟩ := Prod.mk.inj (Except.ok.inj h1)
      exact ih (fun i => hnow (i + 1)) (fun e he => hc e (List.mem_cons_of_mem _ he)) hfresh1 h2
    cases checked with
    | error e =>
      obtain ⟨⟨srv1, es1⟩, h1, h⟩ := bind_eq_ok.mp h
      obtain ⟨rfl, rfl⟩ := Prod.mk.inj (Except.ok.inj h1)
      exact hrest hfresh h
    | ok _ =>
      obtain ⟨⟨srv1, es1⟩, h1, h⟩ := bind_eq_ok.mp h
      exact hrest (hfresh.handlePacket hkeeps (hnow 0) (hc _ List.mem_cons_self) h1) h

/-- An iteration of the loop without a CONNECT under the signature makes its connection no older. -/
theorem Fresh.serveOnce {svc : Service σ T} [Inhabited T] (hkeeps : svc.KeepsSeen) {t : Instant} {s : UInt32} {srv srv' : Server σ T}
    {r : Received} {es : List Event} (hnow : r.From t) (hc : ¬ r.Connects svc s) (hfresh : Fresh t s srv)
    (h : serveOnce svc srv r = .ok (srv', es)) : Fresh t s srv' := by
  cases r with
  | datagram data client envs =>
    obtain ⟨⟨srv1, es1⟩, h1, h⟩ := bind_eq_ok.mp h
    have hfresh1 := hfresh.handlePackets hkeeps hnow (fun e he hcon => hc ⟨e, he, hcon⟩) h1
    split at h
    · nomatch h
    · obtain ⟨rfl, -⟩ := Prod.mk.inj (Except.ok.inj h)
      exact hfresh1
    · obtain ⟨rfl, -⟩ := Prod.mk.inj (Except.ok.inj h)
      exact hfresh1
  | timedOut now order =>
    obtain ⟨rfl, -⟩ := Prod.mk.inj (Except.ok.inj h)
    exact hfresh.clearClients now order svc
  | failed =>
    obtain ⟨rfl, -⟩ := Prod.mk.inj (Except.ok.inj h)
    exact hfresh

end Expiry

open Expiry

/-- In every run of the loop under a clock that does not go back, an open connection for which no CONNECT has arrived since a receive
timeout was heard from at most the session timeout before it. -/
theorem expired_removed {svc : Service σ T} [Inhabited T] (hkeeps : svc.KeepsSeen) {srv srv' : Server σ T}
    {before after : List Received} {t : Instant} {order : MapOrder} {s : UInt32} (hclock : ∀ r ∈ after, r.From t)
    (hconnect : ∀ r ∈ after, ¬ r.Connects svc s)
    (h : run (liveStep (serveOnce svc)) (.ok srv) (before ++ .timedOut t order :: after) = .ok srv') {ci : ClientInfo T}
    (hl : srv'.clientRegistry.clients.lookup s = some ci) : t ≤ ci.lastSeen + sessionTimeout := by
  rw [run_append, run_cons] at h
  cases hb : run (liveStep (serveOnce svc)) (.ok srv) before with
  | error p =>
    rw [hb] at h
    change run (liveStep (serveOnce svc)) (.error p) after = _ at h
    rw [run_live_error] at h
    nomatch h
  | ok srv1 =>
    rw [hb] at h
    refine (run_live_inv_of (I := Fresh t s) (fun _ r => r.From t ∧ ¬ r.Connects svc s)
      (fun _ _ _ _ hf hr hstep => hf.serveOnce hkeeps hr.1 hr.2 hstep) (fresh_clearClients t order svc srv1 s) ?_ h) ci hl
    exact fun tr htr _ _ => ⟨hclock _ (mem_trace htr).1, hconnect _ (mem_trace htr).1⟩

section

open AtMostOnce

namespace Expiry

theorem silentService_keepsSeen : silentService.KeepsSeen := by
  intro port handler env sig reg app data r hhandler hr s ci' hl
  obtain rfl := Option.some.inj hhandler
  rw [← Except.ok.inj hr] at hl
  exact ⟨ci', hl, Nat.le_refl _⟩

/-- A SYN packet. -/
def synPacket : QPacket where
  source := { port := 1 }
  destination := { port := 1 }
  flags := BitFlags.insert {} .hasSize
  connSignature := some 0
  checksum := 0x62

/-- A CONNECT packet under signature 7. -/
def connectPacket : QPacket where
  source := { port := 1 }
  destination := { port := 1 }
  packetType := .connect
  flags := BitFlags.insert {} .hasSize
  signature := 7
  connSignature := some 9
  checksum := 0x73

/-- A SYN, the CONNECT that follows it and another SYN. -/
def handshakes : Bytes :=
  [0x11, 0x11, 0x40, 0x00, 0x00, 0x00, 0x00, 0x00, 0x00, 0x00, 0x00, 0x00, 0x00, 0x00, 0x00, 0x00, 0x62,
    0x11, 0x11, 0x41, 0x00, 0x07, 0x00, 0x00, 0x00, 0x00, 0x00, 0x09, 0x00, 0x00, 0x00, 0x00, 0x00, 0x73,
    0x11, 0x11, 0x40, 0x00, 0x00, 0x00, 0x00, 0x00, 0x00, 0x00, 0x00, 0x00, 0x00, 0x00, 0x00, 0x00, 0x62]

/-- The packets of that datagram. -/
theorem parsePackets_handshakes :
    parsePackets storing (Context.splinterCellBlacklist []) handshakes =
      { packets := [(synPacket, .ok ()), (connectPacket, .ok ()), (synPacket, .ok ())], stop := .finished } := by
  have h1 : QPacket.fromBytes storing (Context.splinterCellBlacklist []) handshakes = .ok (synPacket, 17) := by rfl
  have h2 : QPacket.fromBytes storing (Context.splinterCellBlacklist []) (handshakes.drop 17) = .ok (connectPacket, 17) := by rfl
  have h3 : QPacket.fromBytes storing (Context.splinterCellBlacklist []) ((handshakes.drop 17).drop 17) = .ok (synPacket, 17) := by
    rfl
  have hend : ((handshakes.drop 17).drop 17).drop 17 = [] := by decide
  rw [parsePackets_cons h1, parsePackets_cons h2, parsePackets_cons h3, hend, parsePackets_nil]
  rfl

/-- What the outside world supplies for it at instant 0: the SYNs draw signatures 7 and 8. -/
def openingEnvs (i : Nat) : Env := { quietEnv with randomSignature := if i = 2 then 8 else 7 }

/-- The first datagram of a server. -/
def opening : Received := .datagram handshakes address openingEnvs

/-- A datagram without a packet, 62 seconds later. -/
def empty : Received := .datagram [] address (fun _ => { quietEnv with now := Duration.fromSecs 62 })

/-- The server after the first datagram. -/
theorem serveOnce_opening :
    ∃ srv es, serveOnce silentService (Server.new ()) opening = .ok (srv, es) ∧
      (srv.clientRegistry.clients.lookup 7).map ClientInfo.lastSeen = some 0 ∧
      (srv.newClients.lookup 8).map ClientInfo.lastSeen = some 0 := by
  obtain ⟨⟨srv, es⟩, h, hl⟩ := exists_ok_of_toOption
    (x := handlePackets silentService address openingEnvs (Server.new ())
      [(synPacket, .ok ()), (connectPacket, .ok ()), (synPacket, .ok ())])
    (f := fun r => ((r.1.clientRegistry.clients.lookup 7).map ClientInfo.lastSeen, (r.1.newClients.lookup 8).map ClientInfo.lastSeen))
    (b := (some 0, some 0)) (by decide +kernel)
  have htake : handshakes.take bufferSize = handshakes := by decide +kernel
  exact ⟨srv, es, serveOnce_datagram (by rw [htake]; exact parsePackets_handshakes) h, (Prod.mk.inj hl).1, (Prod.mk.inj hl).2⟩

/-- A datagram without a packet changes nothing. -/
theorem serveOnce_empty (srv : Server Unit Unit) : serveOnce silentService srv empty = .ok (srv, []) := by
  have hhandle : ∀ envs, handlePackets silentService address envs srv [] = .ok (srv, []) := fun _ => rfl
  exact serveOnce_datagram (by simp) (hhandle _)

end Expiry

/-- A connection that is left after a receive timeout was heard from in time. -/
theorem expired_removed_opening :
    ∃ srv ci, run (liveStep (serveOnce silentService)) (.ok (Server.new ()))
        ([opening] ++ .timedOut (Duration.fromSecs 60) .listed :: [empty]) = .ok srv ∧
      srv.clientRegistry.clients.lookup 7 = some ci ∧ Duration.fromSecs 60 ≤ ci.lastSeen + sessionTimeout := by
  obtain ⟨srv, es, h, hclient, -⟩ := serveOnce_opening
  obtain ⟨ci, hl, hseen⟩ := Option.map_eq_some_iff.mp hclient
  have hrun : run (liveStep (serveOnce silentService)) (.ok (Server.new ()))
      ([opening] ++ .timedOut (Duration.fromSecs 60) .listed :: [empty]) =
        .ok (clearClients (Duration.fromSecs 60) .listed silentService srv) := by
    rw [List.singleton_append, run_cons, liveStep_eq h, run_cons, run_cons, liveStep_eq (o := []) rfl,
      liveStep_eq (serveOnce_empty _), run_nil]
  have hleft : (clearClients (Duration.fromSecs 60) .listed silentService srv).clientRegistry.clients.lookup 7 = some ci := by
    rw [lookup_clearClients]
    refine ⟨hl, ?_⟩
    rw [ClientInfo.expired, hseen]
    decide
  refine ⟨_, ci, hrun, hleft, expired_removed (s := 7) silentService_keepsSeen (fun r hr => ?_) (fun r hr => ?_) hrun hleft⟩
  · rw [List.mem_singleton.mp hr]
    exact fun _ => show Duration.fromSecs 60 ≤ Duration.fromSecs 62 by decide
  · rw [List.mem_singleton.mp hr]
    rintro ⟨e, he, -⟩
    simp at he

/-- An open connection outlives the session timeout when a datagram arrives in place of a receive timeout, and a connection being
opened outlives it in any case. -/
theorem expiry_starved :
    (∃ srv ci, run (liveStep (serveOnce silentService)) (.ok (Server.new ())) [opening, empty] = .ok srv ∧
      srv.clientRegistry.clients.lookup 7 = some ci ∧
      sessionTimeout + Duration.fromSecs 1 < Duration.fromSecs 62 - ci.lastSeen) ∧
    (∃ srv ci, run (liveStep (serveOnce silentService)) (.ok (Server.new ()))
        [opening, .timedOut (Duration.fromSecs 62) .listed] = .ok srv ∧
      srv.newClients.lookup 8 = some ci ∧ sessionTimeout + Duration.fromSecs 1 < Duration.fromSecs 62 - ci.lastSeen) := by
  obtain ⟨srv, es, h, hclient, hnew⟩ := serveOnce_opening
  obtain ⟨ci, hl, hseen⟩ := Option.map_eq_some_iff.mp hclient
  obtain ⟨ci', hl', hseen'⟩ := Option.map_eq_some_iff.mp hnew
  have hage : sessionTimeout + Duration.fromSecs 1 < Duration.fromSecs 62 - 0 := by decide
  refine ⟨⟨srv, ci, ?_, hl, by rwa [hseen]⟩,
    ⟨clearClients (Duration.fromSecs 62) .listed silentService srv, ci', ?_, ?_, by rwa [hseen']⟩⟩
  · rw [run_cons, liveStep_eq h, run_cons, liveStep_eq (serveOnce_empty srv), run_nil]
  · rw [run_cons, liveStep_eq h, run_cons, liveStep_eq (o := []) rfl, run_nil]
  · rwa [newClients_clearClients]

end

end Scbl.Prudp
