import Scbl.Theorems.Registry

/-!
# Failed connection attempts

A CONNECT on the secure server carries two parts: a sealed ticket and a proof of the session key inside it. The server gives the
connection its user and a connection id as soon as the ticket is accepted, before it decrypts the proof. So a failed attempt grants
nothing exactly when it is the ticket that fails (`grantsNothing_iff`): whoever holds a valid ticket but not its session key is
granted the user of the ticket.
-/

namespace Scbl.Prudp

open Scbl.Lib Scbl.Rmc

variable {σ T : Type}

/-- The data of a CONNECT packet hold a valid ticket that has not expired, and request data that decrypt to a proof. -/
def ConnectAccepted (env : Env) (svc : Service σ T) (data : Bytes) : Prop :=
  ∃ ticket rdr requestData rest ti proof cd left, readVec streamU8 data = .ok (ticket, rdr) ∧
    readVec streamU8 rdr = .ok (requestData, rest) ∧
    KerberosTicketInternal.open svc.box ticket svc.ctx.ticketKey = .ok ti ∧ ¬ ti.validUntil < env.unixTime ∧
    cryptKey ti.sessionKey requestData = .ok proof ∧ ConnectData.fromStream proof = .ok (cd, left)

/-- A CONNECT packet completes the opening of a connection: it names one that is being opened and carries a signature for it. -/
def CompletesOpening (srv : Server σ T) (p : QPacket) : Prop := p.connSignature.isSome ∧ p.signature ∈ srv.newClients

/-- A CONNECT packet grants nothing: the connection it completes has no user and no connection id, every other one is as it was,
and so are the connection ids. -/
structure GrantsNothing (srv : Server σ T) (p : QPacket) (srv' : Server σ T) : Prop where
  client : CompletesOpening srv p → ∀ ci, srv'.clientRegistry.clients.lookup p.signature = some ci →
    ci.userId = none ∧ ci.connectionId = none
  others : ∀ s, ¬ (CompletesOpening srv p ∧ s = p.signature) →
    srv'.clientRegistry.clients.lookup s = srv.clientRegistry.clients.lookup s
  ids : srv'.clientRegistry.connectionIdSessionIds = srv.clientRegistry.connectionIdSessionIds

namespace Connect

/-! ## The connections being opened -/

/-- The connections being opened have neither a user nor a connection id. -/
def Unnamed (srv : Server σ T) : Prop :=
  ∀ s ci, srv.newClients.lookup s = some ci → ci.userId = none ∧ ci.connectionId = none

/-- What is left of the connections being opened has no user when it had none. -/
theorem Unnamed.of_erase {srv srv' : Server σ T} (h : Unnamed srv) {sig : UInt32}
    (he : srv'.newClients = srv.newClients.erase sig) : Unnamed srv' := by
  intro s ci hl
  rw [he] at hl
  by_cases hs : s = sig
  · subst hs
    rw [AList.lookup_erase] at hl
    nomatch hl
  · rw [AList.lookup_erase_ne hs] at hl
    exact h s ci hl

/-- A handled packet names no connection that is being opened. -/
theorem Unnamed.handled {env : Env} {svc : Service σ T} [Inhabited T] {srv srv' : Server σ T} {p : QPacket} {client : SocketAddr}
    (hi : Unnamed srv) (h : Handled env svc srv p client srv') : Unnamed srv' := by
  cases h with
  | ignored => exact hi
  | syn _ =>
    intro s ci hl
    by_cases hs : s = env.randomSignature
    · subst hs
      rw [AList.lookup_insert] at hl
      rw [← Option.some.inj hl]
      exact ⟨rfl, rfl⟩
    · rw [AList.lookup_insert_ne hs] at hl
      exact hi s ci hl
  | connect _ h =>
    rcases handleConnect_tables h with rfl | ⟨hnew, -⟩
    · exact hi
    · exact hi.of_erase hnew
  | data _ h =>
    intro s ci hl
    rw [(handleData_ok h).1] at hl
    exact hi s ci hl
  | disconnect _ _ => exact hi
  | ping _ _ => exact hi

/-- A step names no connection that is being opened. -/
theorem Unnamed.step {svc : Service σ T} [Inhabited T] {srv srv' : Server σ T} {a : ServerStep} {es : List Event}
    (hi : Unnamed srv) (h : serverStep svc srv a = .ok (srv', es)) : Unnamed srv' := by
  cases a with
  | clearClients now order =>
    obtain ⟨rfl, -⟩ := Prod.mk.inj (Except.ok.inj h)
    intro s ci hl
    rw [newClients_clearClients] at hl
    exact hi s ci hl
  | packet env p client =>
    rcases handlePacket_ok h with ⟨-, rfl, -⟩ | ⟨-, h⟩
    · exact hi
    · exact hi.handled h

/-- In every state of a server the connections being opened are unnamed. -/
theorem unnamed_run {svc : Service σ T} [Inhabited T] {app : σ} {steps : List ServerStep} {srv : Server σ T}
    (h : run (liveStep (serverStep svc)) (.ok (Server.new app)) steps = .ok srv) : Unnamed srv := by
  have hinit : Unnamed (Server.new (T := T) app) := fun s ci hl => (nomatch hl)
  exact run_live_inv_of (fun _ _ => True) (fun _ _ _ _ hi _ hs => hi.step hs) hinit (fun _ _ _ _ => trivial) h

/-! ## Presenting a ticket -/

/-- An accepted ticket gives the connection its user and a connection id, whatever follows it. -/
theorem presentTicket_of_accepted {env : Env} {svc : Service σ T} {srv srv' : Server σ T} {sig : UInt32} {ci ci' : ClientInfo T}
    {data : Bytes} {res : Except FromStreamError Bytes} (h : presentTicket env svc srv sig ci data = .ok (srv', ci', res))
    {user : UInt32} (ha : TicketAccepted env svc data user) :
    ci' = ticketed ci user ⟨srv.nextConnId⟩ ∧ srv' = registered srv sig ci' := by
  obtain ⟨ticket, rdr, requestData, rest, ti, hticket, hrequest, hopen, hvalid, huser⟩ := ha
  unfold presentTicket at h
  simp only [hticket, hrequest, hopen, bind, Except.bind, pure, Except.pure, if_neg hvalid] at h
  split at h
  · nomatch h
  · split at h
    · obtain ⟨hsrv, hrest⟩ := Prod.mk.inj (Except.ok.inj h)
      obtain ⟨rfl, -⟩ := Prod.mk.inj hrest
      exact ⟨by rw [← huser]; rfl, hsrv.symm⟩
    · split at h
      · nomatch h
      · obtain ⟨hsrv, hrest⟩ := Prod.mk.inj (Except.ok.inj h)
        obtain ⟨rfl, -⟩ := Prod.mk.inj hrest
        exact ⟨by rw [← huser]; rfl, hsrv.symm⟩

/-- Data that hold an accepted ticket are not empty. -/
theorem ne_nil_of_accepted {env : Env} {svc : Service σ T} {data : Bytes} {user : UInt32}
    (h : TicketAccepted env svc data user) : data ≠ [] := by
  rintro rfl
  obtain ⟨ticket, rdr, requestData, rest, ti, hticket, -⟩ := h
  nomatch hticket

/-- A CONNECT with an accepted ticket that completes a connection registers it, whatever follows the ticket. -/
theorem handleConnect_of_accepted {env : Env} {svc : Service σ T} {srv srv' : Server σ T} {p : QPacket} {client : SocketAddr}
    {es : List Event} (h : handleConnect env svc srv p client = .ok (srv', es)) {signature : UInt32} {ci : ClientInfo T}
    (hsig : p.connSignature = some signature) (hnew : srv.newClients.lookup p.signature = some ci) {user : UInt32}
    (ha : TicketAccepted env svc p.payload user) :
    srv' = registered (completed srv p.signature (connected env p signature ci)) p.signature
      (ticketed (connected env p signature ci) user ⟨srv.nextConnId⟩) := by
  unfold handleConnect at h
  simp only [hsig, hnew, if_neg (ne_nil_of_accepted ha)] at h
  obtain ⟨⟨srv1, ci1, res⟩, hpresent, h⟩ := bind_eq_ok.mp h
  obtain ⟨⟨srv2, ci2, payload⟩, hres, h⟩ := bind_eq_ok.mp h
  obtain ⟨rfl, -⟩ := Prod.mk.inj (Except.ok.inj hres)
  obtain ⟨ack, -, h⟩ := bind_eq_ok.mp h
  obtain ⟨rfl, -⟩ := Prod.mk.inj (Except.ok.inj h)
  obtain ⟨rfl, rfl⟩ := presentTicket_of_accepted hpresent ha
  rfl

/-- A packet without a signature, or for no connection that is being opened, completes none. -/
theorem not_completesOpening {srv : Server σ T} {p : QPacket}
    (h : p.connSignature = none ∨ srv.newClients.lookup p.signature = none) : ¬ CompletesOpening srv p := by
  rintro ⟨hsome, hmem⟩
  rcases h with hnone | hnone
  · rw [hnone] at hsome
    nomatch hsome
  · exact AList.lookup_eq_none.mp hnone hmem

/-- A CONNECT with an accepted ticket that completes a connection grants it the user of the ticket. -/
theorem not_grantsNothing_of_accepted {env : Env} {svc : Service σ T} {srv srv' : Server σ T} {p : QPacket} {client : SocketAddr}
    {es : List Event} (h : handleConnect env svc srv p client = .ok (srv', es)) (hc : CompletesOpening srv p) {user : UInt32}
    (ha : TicketAccepted env svc p.payload user) : ¬ GrantsNothing srv p srv' := by
  intro hg
  rcases handleConnect_ok h with ⟨hnone, -⟩ | ⟨signature, ci, hsig, hnew, -⟩
  · exact not_completesOpening hnone hc
  · rw [handleConnect_of_accepted h hsig hnew ha] at hg
    have hl := hg.client hc (ticketed (connected env p signature ci) user ⟨srv.nextConnId⟩)
      (by rw [registered]; exact (ClientRegistry.lookup_set _ _ _ _).trans (if_pos rfl))
    cases hl.1

/-- A connection that was completed without a ticket is granted nothing. -/
theorem grantsNothing_completed {env : Env} {srv : Server σ T} (hu : Unnamed srv) {p : QPacket} (hc : CompletesOpening srv p)
    {signature : UInt32} {ci : ClientInfo T} (hnew : srv.newClients.lookup p.signature = some ci) :
    GrantsNothing srv p (completed srv p.signature (connected env p signature ci)) := by
  refine ⟨fun _ ci' hl => ?_, fun s hs => ?_, rfl⟩
  · rw [completed, ClientRegistry.lookup_set, if_pos rfl] at hl
    rw [← Option.some.inj hl]
    exact show ci.userId = none ∧ ci.connectionId = none from hu _ _ hnew
  · rw [completed, ClientRegistry.lookup_set, if_neg (fun h => hs ⟨hc, h⟩)]

end Connect

open Connect

/-- In every state of a server, a failed CONNECT that is handled grants nothing exactly when it is not one that completes an opening
with an accepted ticket: a proof that is missing or malformed comes too late. -/
theorem grantsNothing_iff (svc : Service σ T) [Inhabited T] (app : σ) {steps : List ServerStep} {srv srv' : Server σ T}
    (hrun : run (liveStep (serverStep svc)) (.ok (Server.new app)) steps = .ok srv) {env : Env} {p : QPacket} {client : SocketAddr}
    {es : List Event} (h : handleConnect env svc srv p client = .ok (srv', es)) :
    (¬ ConnectAccepted env svc p.payload → GrantsNothing srv p srv') ↔
      (CompletesOpening srv p → (∃ user, TicketAccepted env svc p.payload user) → ConnectAccepted env svc p.payload) := by
  have hu : Unnamed srv := unnamed_run hrun
  constructor
  · rintro hclaim hc ⟨user, ha⟩
    by_contra hfails
    exact not_grantsNothing_of_accepted h hc ha (hclaim hfails)
  · intro hcond hfails
    rcases handleConnect_ok h with ⟨hnone, rfl, -⟩ | ⟨signature, ci, hsig, hnew, hsrv⟩
    · exact ⟨fun hc => absurd hc (not_completesOpening hnone), fun _ _ => rfl, rfl⟩
    · have hc : CompletesOpening srv p := ⟨by rw [hsig]; rfl, AList.lookup_isSome.mp (by rw [hnew]; rfl)⟩
      rcases hsrv with rfl | ⟨user, ha, -⟩
      · exact grantsNothing_completed hu hc hnew
      · exact absurd (hcond hc ⟨user, ha⟩) hfails

section

open AtMostOnce Registry

namespace Connect

/-- A CONNECT packet for the connection opened by the SYN. -/
def connectPacket (payload : Bytes) : QPacket := { packetType := .connect, signature := 7, connSignature := some 9, payload }

/-- The SYN and the CONNECT that follows it are handled. -/
theorem connect_handled (payload : Bytes)
    (h : (run (liveStep (serverStep silentService)) (.ok (Server.new ())) [synStep]).toOption.map
      (fun srv => (decide ((7 : UInt32) ∈ srv.newClients),
        (handleConnect quietEnv silentService srv (connectPacket payload) address).toOption.isSome)) = some (true, true)) :
    ∃ srv srv' es, run (liveStep (serverStep silentService)) (.ok (Server.new ())) [synStep] = .ok srv ∧
      (7 : UInt32) ∈ srv.newClients ∧
      handleConnect quietEnv silentService srv (connectPacket payload) address = .ok (srv', es) := by
  obtain ⟨srv, hsrv, hboth⟩ := exists_ok_of_toOption h
  obtain ⟨hnew, hconnect⟩ := Prod.mk.inj hboth
  obtain ⟨r, hr⟩ := Option.isSome_iff_exists.mp hconnect
  obtain ⟨⟨srv', es⟩, hok, -⟩ := exists_ok_of_toOption (f := id) ((Option.map_id_apply).trans hr)
  exact ⟨srv, srv', es, hsrv, of_decide_eq_true hnew, hok⟩

/-- What the data of a ticket and an empty proof hold. -/
theorem readVec_ticketData {ticket rdr requestData rest : Bytes} {ti : KerberosTicketInternal}
    (hticket : readVec streamU8 ticketData = .ok (ticket, rdr)) (hrequest : readVec streamU8 rdr = .ok (requestData, rest))
    (hopen : KerberosTicketInternal.open reversing ticket [] = .ok ti) :
    requestData = [] ∧ ti = { principleId := 1000, validUntil := 10, sessionKey := List.replicate 16 0 } := by
  have hparts : readVec streamU8 ticketData = .ok (ticketData.drop 4 |>.take 52, putVecU8 []) := by rfl
  rw [hparts] at hticket
  obtain ⟨rfl, rfl⟩ := Prod.mk.inj (Except.ok.inj hticket)
  obtain ⟨rfl, -⟩ := Prod.mk.inj (Except.ok.inj hrequest)
  exact ⟨rfl, (Except.ok.inj hopen).symm⟩

end Connect

/-- A CONNECT with a payload that holds no ticket grants nothing. -/
theorem grantsNothing_no_ticket :
    ∃ srv srv' es, run (liveStep (serverStep silentService)) (.ok (Server.new ())) [synStep] = .ok srv ∧
      handleConnect quietEnv silentService srv (connectPacket [1]) address = .ok (srv', es) ∧
      GrantsNothing srv (connectPacket [1]) srv' := by
  obtain ⟨srv, srv', es, hsrv, -, hok⟩ := connect_handled [1] (by decide +kernel)
  refine ⟨srv, srv', es, hsrv, hok, (grantsNothing_iff silentService () hsrv hok).mpr ?_ ?_⟩
  · rintro - ⟨user, ticket, rdr, requestData, rest, ti, hticket, -⟩
    nomatch hticket
  · rintro ⟨ticket, rdr, requestData, rest, ti, proof, cd, left, hticket, -⟩
    nomatch hticket

/-- A valid ticket of user 1000 and an empty proof: the attempt fails, and the connection has the user and a connection id. -/
theorem grantsNothing_false :
    ∃ srv srv' es, run (liveStep (serverStep silentService)) (.ok (Server.new ())) [synStep] = .ok srv ∧
      handleConnect quietEnv silentService srv (connectPacket ticketData) address = .ok (srv', es) ∧
      ¬ ConnectAccepted quietEnv silentService ticketData ∧ ¬ GrantsNothing srv (connectPacket ticketData) srv' := by
  obtain ⟨srv, srv', es, hsrv, hnew, hok⟩ := connect_handled ticketData (by decide +kernel)
  refine ⟨srv, srv', es, hsrv, hok, ?_, ?_⟩
  · rintro ⟨ticket, rdr, requestData, rest, ti, proof, cd, left, hticket, hrequest, hopen, -, hproof, hcd⟩
    obtain ⟨rfl, -⟩ := readVec_ticketData hticket hrequest hopen
    obtain ⟨rc4, -, hproof⟩ := bind_eq_ok.mp hproof
    rw [← Except.ok.inj hproof] at hcd
    nomatch hcd
  · have ha : TicketAccepted quietEnv silentService (connectPacket ticketData).payload 1000 :=
      ⟨ticketData.drop 4 |>.take 52, putVecU8 [], [], [],
        { principleId := 1000, validUntil := 10, sessionKey := List.replicate 16 0 }, rfl, rfl, rfl, by decide, rfl⟩
    exact not_grantsNothing_of_accepted hok ⟨rfl, hnew⟩ ha

end

end Scbl.Prudp
