import Scbl.Lemmas.Server
import Scbl.Theorems.AtMostOnce

/-!
# The connection ids and the connections

Two maps say who is connected: the connections by signature, and the signatures by connection id. Completing a connection writes to
both, removing one is meant to. A DISCONNECT forgets the connection id, and so does an expiry without a handler to call. The maps
agree in every run that avoids this, gives out no connection id in use, and completes no connection over an open one that has an id
(`registry_consistent`).
-/

namespace Scbl.Prudp

open Scbl.Lib

variable {σ T : Type}

/-- The connection ids lead to the connections that have them, and each of these is found by its id. -/
structure ClientRegistry.Consistent (reg : ClientRegistry T) : Prop where
  entry : ∀ id s, reg.connectionIdSessionIds.lookup id = some s →
    ∃ ci, reg.clients.lookup s.sig = some ci ∧ ci.connectionId = some id
  found : ∀ s ci id, reg.clients.lookup s = some ci → ci.connectionId = some id → reg.signatureByConnectionId id = some s

/-- A step that changes who is connected: a SYN, CONNECT or DISCONNECT packet, or the removal of expired connections. -/
def ServerStep.ChangesRegistry : ServerStep → Prop
  | .packet _ p _ => p.packetType = .syn ∨ p.packetType = .connect ∨ p.packetType = .disconnect
  | .clearClients _ _ => True

/-- The connection of a signature, if it is open, has no connection id. -/
def ClientRegistry.Anonymous (reg : ClientRegistry T) (s : UInt32) : Prop :=
  ∀ ci, reg.clients.lookup s = some ci → ci.connectionId = none

/-- A step leaves no connection id behind and gives none out twice: a DISCONNECT meets a connection without a connection id, a
CONNECT that completes a connection replaces none that has a connection id and gives out one that is not in use, and connections
with a connection id expire only when there is a handler to call. -/
def ServerStep.Clean (svc : Service σ T) (srv : Server σ T) : ServerStep → Prop
  | .packet env p _ =>
    p.flags.contains .ack = false →
      (p.packetType = .disconnect → srv.clientRegistry.Anonymous p.signature) ∧
      (p.packetType = .connect → p.connSignature.isSome → p.signature ∈ srv.newClients →
        srv.clientRegistry.Anonymous p.signature ∧
        ((∃ user, TicketAccepted env svc p.payload user) → ⟨srv.nextConnId⟩ ∉ srv.clientRegistry.connectionIdSessionIds))
  | .clearClients now _ =>
    svc.expiredClientHandler.isSome ∨
      ∀ s ci, srv.clientRegistry.clients.lookup s = some ci → ci.expired now → ci.connectionId = none

namespace Registry

/-! ## The maps -/

/-- An open connection with an id is found when the id leads to it. -/
theorem consistent_of {reg : ClientRegistry T}
    (hentry : ∀ id s, reg.connectionIdSessionIds.lookup id = some s →
      ∃ ci, reg.clients.lookup s.sig = some ci ∧ ci.connectionId = some id)
    (hid : ∀ s ci id, reg.clients.lookup s = some ci → ci.connectionId = some id →
      reg.connectionIdSessionIds.lookup id = some ⟨s⟩) : reg.Consistent := by
  refine ⟨hentry, fun s ci id hl hc => ClientRegistry.signatureByConnectionId_eq_some.mpr ⟨hid s ci id hl hc, ?_⟩⟩
  rw [← AList.lookup_isSome, hl]
  rfl

/-- The id of an open connection leads to it. -/
theorem lookup_of_consistent {reg : ClientRegistry T} (h : reg.Consistent) {s : UInt32} {ci : ClientInfo T} {id : ConnectionID}
    (hl : reg.clients.lookup s = some ci) (hc : ci.connectionId = some id) :
    reg.connectionIdSessionIds.lookup id = some ⟨s⟩ :=
  (ClientRegistry.signatureByConnectionId_eq_some.mp (h.found s ci id hl hc)).1

/-- No id leads to a connection that has none. -/
theorem sig_ne_of_anonymous {reg : ClientRegistry T} (h : reg.Consistent) {sig : UInt32} (ha : reg.Anonymous sig)
    {id : ConnectionID} {s : Signature} (hl : reg.connectionIdSessionIds.lookup id = some s) : s.sig ≠ sig := by
  rintro rfl
  obtain ⟨ci, hci, hid⟩ := h.entry id s hl
  rw [ha ci hci] at hid
  nomatch hid

/-- What is left of the connection ids when those of some connections are removed. -/
theorem lookup_foldl_removeConnectionId (cis : List (ClientInfo T)) (cids : AList (fun _ : ConnectionID => Signature))
    (id : ConnectionID) (s : Signature) :
    (cis.foldl removeConnectionId cids).lookup id = some s ↔
      cids.lookup id = some s ∧ ∀ ci ∈ cis, ci.connectionId ≠ some id := by
  induction cis generalizing cids with
  | nil => simp
  | cons ci cis ih =>
    rw [List.foldl_cons, ih, List.forall_mem_cons, ← and_assoc, and_congr_left_iff]
    intro _
    cases hc : ci.connectionId with
    | none =>
      rw [removeConnectionId, hc]
      simp
    | some id' =>
      rw [removeConnectionId, hc]
      by_cases he : id = id'
      · subst he
        simp [AList.lookup_erase]
      · rw [AList.lookup_erase_ne he]
        simp [Ne.symm he]

/-- What is left of the connection ids when the expired connections are removed, if a handler is called for them or they have
none. -/
theorem lookup_cids_clearClients (now : Instant) (order : MapOrder) {svc : Service σ T} (srv : Server σ T)
    (hclean : svc.expiredClientHandler.isSome ∨
      ∀ s ci, srv.clientRegistry.clients.lookup s = some ci → ci.expired now → ci.connectionId = none)
    (id : ConnectionID) (s : Signature) :
    (clearClients now order svc srv).clientRegistry.connectionIdSessionIds.lookup id = some s ↔
      srv.clientRegistry.connectionIdSessionIds.lookup id = some s ∧
        ∀ s' ci, srv.clientRegistry.clients.lookup s' = some ci → ci.expired now → ci.connectionId ≠ some id := by
  unfold clearClients
  dsimp only
  split
  · rename_i hnone
    rw [iff_self_and]
    intro _ s' ci hl hexp hc
    rw [hnone] at hclean
    rcases hclean with hsome | hno
    · nomatch hsome
    · rw [hno s' ci hl hexp] at hc
      nomatch hc
  · rw [lookup_foldl_removeConnectionId, and_congr_right_iff]
    intro _
    simp only [List.mem_filter, List.mem_map, MapOrder.mem_apply]
    constructor
    · intro h s' ci hl hexp
      exact h ci ⟨⟨⟨s', ci⟩, AList.mem_lookup_iff.mp hl, rfl⟩, hexp⟩
    · rintro h ci ⟨⟨⟨s', ci'⟩, hm, rfl⟩, hexp⟩
      exact h s' _ (AList.mem_lookup_iff.mpr hm) hexp

/-! ## The steps -/

/-- The connections being opened have no connection id, and the maps agree. -/
structure Inv (srv : Server σ T) : Prop where
  half : ∀ s ci, srv.newClients.lookup s = some ci → ci.connectionId = none
  consistent : srv.clientRegistry.Consistent

/-- Completing a connection without an id over none that has one keeps the maps in agreement. -/
theorem consistent_set {reg : ClientRegistry T} (h : reg.Consistent) {sig : UInt32} (ha : reg.Anonymous sig) {ci : ClientInfo T}
    (hci : ci.connectionId = none) : (reg.set sig ci).Consistent := by
  refine consistent_of (fun id s hl => ?_) (fun s ci' id hl hc => ?_)
  · obtain ⟨ci', hci', hid⟩ := h.entry id s hl
    refine ⟨ci', ?_, hid⟩
    rw [ClientRegistry.lookup_set, if_neg (sig_ne_of_anonymous h ha hl), hci']
  · rw [ClientRegistry.lookup_set] at hl
    split at hl
    · rw [← Option.some.inj hl, hci] at hc
      nomatch hc
    · exact lookup_of_consistent h hl hc

/-- Giving out a connection id that is not in use keeps the maps in agreement. -/
theorem consistent_registered {srv : Server σ T} (h : srv.clientRegistry.Consistent) {sig : UInt32}
    (ha : srv.clientRegistry.Anonymous sig) (hnew : ⟨srv.nextConnId⟩ ∉ srv.clientRegistry.connectionIdSessionIds)
    {ci : ClientInfo T} (hci : ci.connectionId = some ⟨srv.nextConnId⟩) :
    (registered srv sig ci).clientRegistry.Consistent := by
  have hset : (registered srv sig ci).clientRegistry.clients = (srv.clientRegistry.set sig ci).clients := rfl
  refine consistent_of (fun id s hl => ?_) (fun s ci' id hl hc => ?_)
  · rw [hset, ClientRegistry.lookup_set]
    by_cases hid : id = ⟨srv.nextConnId⟩
    · subst hid
      rw [registered, AList.lookup_insert] at hl
      rw [← Option.some.inj hl, if_pos rfl]
      exact ⟨ci, rfl, hci⟩
    · rw [registered, AList.lookup_insert_ne hid] at hl
      rw [if_neg (sig_ne_of_anonymous h ha hl)]
      exact h.entry id s hl
  · rw [hset, ClientRegistry.lookup_set] at hl
    split at hl
    · rename_i hs
      rw [← Option.some.inj hl, hci] at hc
      rw [← Option.some.inj hc, hs]
      exact AList.lookup_insert _
    · have hlookup := lookup_of_consistent h hl hc
      have hid : id ≠ ⟨srv.nextConnId⟩ := by
        rintro rfl
        rw [← AList.lookup_eq_none, hlookup] at hnew
        nomatch hnew
      exact (AList.lookup_insert_ne hid).trans hlookup

/-- A SYN opens a connection without an id. -/
theorem Inv.syn {env : Env} {svc : Service σ T} [Inhabited T] {srv srv' : Server σ T} {p : QPacket} {client : SocketAddr}
    {es : List Event} (hi : Inv srv) (h : handleSyn env svc srv p client = .ok (srv', es)) : Inv srv' := by
  rw [handleSyn_ok h]
  refine ⟨fun s ci hl => ?_, hi.consistent⟩
  by_cases hs : s = env.randomSignature
  · subst hs
    rw [AList.lookup_insert] at hl
    rw [← Option.some.inj hl]
    rfl
  · rw [AList.lookup_insert_ne hs] at hl
    exact hi.half s ci hl

/-- A CONNECT that completes a connection over none that has an id, and gives out an unused one, keeps the maps in agreement. -/
theorem Inv.connect {env : Env} {svc : Service σ T} {srv srv' : Server σ T} {p : QPacket} {client : SocketAddr} {es : List Event}
    (hi : Inv srv) (h : handleConnect env svc srv p client = .ok (srv', es))
    (hclean : p.connSignature.isSome → p.signature ∈ srv.newClients → srv.clientRegistry.Anonymous p.signature ∧
      ((∃ user, TicketAccepted env svc p.payload user) → ⟨srv.nextConnId⟩ ∉ srv.clientRegistry.connectionIdSessionIds)) :
    Inv srv' := by
  rcases handleConnect_ok h with ⟨-, rfl, -⟩ | ⟨signature, ci, hsig, hnew, hsrv⟩
  · exact hi
  · have hmem : p.signature ∈ srv.newClients := by
      rw [← AList.lookup_isSome, hnew]
      rfl
    obtain ⟨hanon, hfresh⟩ := hclean (by rw [hsig]; rfl) hmem
    have hhalf : ∀ s ci, (srv.newClients.erase p.signature).lookup s = some ci → ci.connectionId = none := by
      intro s ci' hl
      by_cases hs : s = p.signature
      · subst hs
        rw [AList.lookup_erase] at hl
        nomatch hl
      · rw [AList.lookup_erase_ne hs] at hl
        exact hi.half s ci' hl
    have hnone : (connected env p signature ci).connectionId = none := hi.half p.signature ci hnew
    have hset := consistent_set hi.consistent hanon hnone
    rcases hsrv with rfl | ⟨user, haccepted, rfl⟩
    · exact ⟨hhalf, hset⟩
    · have hanon' : (completed srv p.signature (connected env p signature ci)).clientRegistry.Anonymous p.signature := by
        intro ci' hl
        rw [completed, ClientRegistry.lookup_set, if_pos rfl] at hl
        rw [← Option.some.inj hl]
        exact hnone
      exact ⟨hhalf, consistent_registered hset hanon' (hfresh ⟨user, haccepted⟩) rfl⟩

/-- A DISCONNECT of a connection without an id keeps the maps in agreement. -/
theorem Inv.disconnect {srv : Server σ T} (hi : Inv srv) {sig : UInt32} (ha : srv.clientRegistry.Anonymous sig) (app : σ) :
    Inv { disconnected srv sig with app } := by
  have hne : ∀ {s ci}, (srv.clientRegistry.clients.erase sig).lookup s = some ci →
      srv.clientRegistry.clients.lookup s = some ci := by
    intro s ci hl
    by_cases hs : s = sig
    · subst hs
      rw [AList.lookup_erase] at hl
      nomatch hl
    · rwa [AList.lookup_erase_ne hs] at hl
  refine ⟨hi.half, consistent_of (fun id s hl => ?_) (fun s ci id hl hc => ?_)⟩
  · obtain ⟨ci, hci, hid⟩ := hi.consistent.entry id s hl
    exact ⟨ci, (AList.lookup_erase_ne (sig_ne_of_anonymous hi.consistent ha hl)).trans hci, hid⟩
  · exact lookup_of_consistent hi.consistent (hne hl) hc

/-- Removing expired connections keeps the maps in agreement when there is a handler to call or none of them has an id. -/
theorem Inv.clearClients {svc : Service σ T} {srv : Server σ T} (hi : Inv srv) (now : Instant) (order : MapOrder)
    (hclean : svc.expiredClientHandler.isSome ∨
      ∀ s ci, srv.clientRegistry.clients.lookup s = some ci → ci.expired now → ci.connectionId = none) :
    Inv (clearClients now order svc srv) := by
  have hcids := lookup_cids_clearClients now order srv hclean
  refine ⟨by rw [newClients_clearClients]; exact hi.half, consistent_of (fun id s hl => ?_) (fun s ci id hl hc => ?_)⟩
  · obtain ⟨hl, hlive⟩ := (hcids id s).mp hl
    obtain ⟨ci, hci, hid⟩ := hi.consistent.entry id s hl
    refine ⟨ci, (lookup_clearClients now order svc srv _ ci).mpr ⟨hci, ?_⟩, hid⟩
    by_contra hexp
    exact hlive s.sig ci hci (Bool.not_eq_false _ ▸ hexp) hid
  · obtain ⟨hl, hlive⟩ := (lookup_clearClients now order svc srv s ci).mp hl
    have hlookup := lookup_of_consistent hi.consistent hl hc
    refine (hcids id ⟨s⟩).mpr ⟨hlookup, fun s' ci' hl' hexp hc' => ?_⟩
    -- an expired connection with this id would be this one
    have hsame := Option.some.inj (hlookup.symm.trans (lookup_of_consistent hi.consistent hl' hc'))
    rw [← (Signature.mk.inj hsame), hl] at hl'
    rw [← Option.some.inj hl', hlive] at hexp
    nomatch hexp

/-- A clean step keeps the maps in agreement. -/
theorem Inv.step {svc : Service σ T} [Inhabited T] {srv srv' : Server σ T} {a : ServerStep} {es : List Event} (hi : Inv srv)
    (hchanges : a.ChangesRegistry) (hclean : a.Clean svc srv) (h : serverStep svc srv a = .ok (srv', es)) : Inv srv' := by
  cases a with
  | clearClients now order =>
    obtain ⟨rfl, -⟩ := Prod.mk.inj (Except.ok.inj h)
    exact hi.clearClients now order hclean
  | packet env p client =>
    change handlePacket env svc srv p client = _ at h
    by_cases hack : p.flags.contains .ack = true
    · rw [handlePacket, if_pos hack] at h
      obtain ⟨rfl, -⟩ := Prod.mk.inj (Except.ok.inj h)
      exact hi
    · have hack' := Bool.not_eq_true _ ▸ hack
      obtain ⟨hdis, hcon⟩ := hclean hack'
      rcases hchanges with ht | ht | ht
      · rw [handlePacket, if_neg hack, ht] at h
        exact hi.syn h
      · rw [handlePacket, if_neg hack, ht] at h
        exact hi.connect h (hcon ht)
      · rcases handleDisconnect_ok hack' ht h with ⟨-, rfl, -⟩ | ⟨ci, -, app, rfl⟩
        · exact hi
        · exact hi.disconnect (hdis ht) app

end Registry

open Registry

/-- After every run of clean steps from the start of the server the maps agree. -/
theorem registry_consistent (svc : Service σ T) [Inhabited T] (app : σ) {steps : List ServerStep} (hsteps : ∀ a ∈ steps, a.ChangesRegistry)
    (hclean : ∀ t ∈ trace (liveStep (serverStep svc)) (.ok (Server.new app)) steps,
      ∀ srv, t.before = .ok srv → t.input.Clean svc srv) {srv : Server σ T}
    (h : run (liveStep (serverStep svc)) (.ok (Server.new app)) steps = .ok srv) : srv.clientRegistry.Consistent := by
  have hinit : Inv (Server.new (T := T) app) :=
    ⟨fun s ci hl => (nomatch hl), ⟨fun id s hl => (nomatch hl), fun s ci id hl => (nomatch hl)⟩⟩
  have hinv : Inv srv := by
    refine run_live_inv_of (fun srv a => a.ChangesRegistry ∧ a.Clean svc srv) ?_ hinit ?_ h
    · intro _ _ _ _ hi hc hs
      exact hi.step hc.1 hc.2 hs
    · intro t ht srv hsrv
      exact ⟨hsteps _ (mem_trace ht).1, hclean t ht srv hsrv⟩
  exact hinv.consistent

section

open AtMostOnce Rmc

namespace Registry

/-- A ticket of user 1000 and an empty proof. -/
def ticketData : Bytes :=
  putVecU8 (({ principleId := 1000, validUntil := 10, sessionKey := List.replicate 16 0 } : KerberosTicketInternal).seal reversing
    (List.replicate 24 0) []) ++ putVecU8 []

/-- A SYN that draws signature 7. -/
def synStep : ServerStep :=
  .packet { quietEnv with randomSignature := 7 } { packetType := .syn, connSignature := some 0 } address

/-- The CONNECT that follows it. -/
def connectStep (payload : Bytes) : ServerStep :=
  .packet quietEnv { packetType := .connect, signature := 7, connSignature := some 9, payload } address

/-- The DISCONNECT of the connection. -/
def disconnectStep : ServerStep :=
  .packet quietEnv { packetType := .disconnect, signature := 7 } address

end Registry

/-- The maps agree after a handshake without a ticket. -/
theorem registry_consistent_handshake :
    ∃ srv, run (liveStep (serverStep silentService)) (.ok (Server.new ())) [synStep, connectStep []] = .ok srv ∧
      srv.clientRegistry.Consistent := by
  obtain ⟨srv, hsrv, -⟩ := exists_ok_of_toOption (f := fun _ => ()) (b := ())
    (x := run (liveStep (serverStep silentService)) (.ok (Server.new ())) [synStep, connectStep []]) (by decide +kernel)
  refine ⟨srv, hsrv, registry_consistent silentService () ?_ (fun t ht srv hsrv => ?_) hsrv⟩
  · simp [ServerStep.ChangesRegistry, synStep, connectStep]
  rcases List.mem_cons.mp ht with rfl | ht
  · exact fun _ => ⟨fun h => (by cases h), fun h => (by cases h)⟩
  · obtain rfl := List.mem_singleton.mp ht
    obtain ⟨srv0, es, hsrv0, hstep, -⟩ := liveStep_ok hsrv
    rw [handleSyn_ok hstep, ← Except.ok.inj hsrv0]
    exact fun _ => ⟨fun h => (by cases h), fun _ _ _ => ⟨fun ci hl => (by cases hl), fun _ hm => absurd hm (AList.notMem_empty _)⟩⟩

/-- After a handshake with a ticket and a DISCONNECT the connection id leads nowhere. -/
theorem disconnect_keeps_connection_id :
    ∃ srv, run (liveStep (serverStep silentService)) (.ok (Server.new ()))
        [synStep, connectStep ticketData, disconnectStep] = .ok srv ∧
      srv.clientRegistry.connectionIdSessionIds.lookup ⟨0x3AAAAAAA⟩ = some ⟨7⟩ ∧
      srv.clientRegistry.clients.lookup 7 = none ∧ ¬ srv.clientRegistry.Consistent := by
  obtain ⟨srv, hsrv, hlookup⟩ := exists_ok_of_toOption
    (x := run (liveStep (serverStep silentService)) (.ok (Server.new ())) [synStep, connectStep ticketData, disconnectStep])
    (f := fun srv => (srv.clientRegistry.connectionIdSessionIds.lookup ⟨0x3AAAAAAA⟩, (srv.clientRegistry.clients.lookup 7).isSome))
    (b := (some ⟨7⟩, false)) (by decide +kernel)
  obtain ⟨hid, hclient⟩ := Prod.mk.inj hlookup
  have hnone := Option.isSome_eq_false_iff.mp hclient
  rw [Option.isNone_iff_eq_none] at hnone
  refine ⟨srv, hsrv, hid, hnone, fun hcons => ?_⟩
  obtain ⟨ci, hci, -⟩ := hcons.entry _ _ hid
  rw [hnone] at hci
  nomatch hci

end

end Scbl.Prudp
