import Scbl.Prudp.Serve

/-!
# What a packet does to the server

One lemma for each packet type says what a packet that is handled leaves: the connections being opened, the open ones and their
connection ids. `KeepsSeen` is the law the stream handlers obey because the fields are private: a call neither adds a connection nor
makes one look older than it was.
-/

namespace Scbl.Prudp

open Scbl.Lib Scbl.Rmc

variable {σ T : Type}

/-! ## The registry -/

/-- The connections of a registry in which one was replaced. -/
theorem ClientRegistry.lookup_set (reg : ClientRegistry T) (sig s : UInt32) (ci : ClientInfo T) :
    (reg.set sig ci).clients.lookup s = if s = sig then some ci else reg.clients.lookup s := by
  by_cases h : s = sig
  · subst h
    rw [if_pos rfl]
    exact AList.lookup_insert _
  · rw [if_neg h]
    exact AList.lookup_insert_ne h

/-- The signature a connection id leads to belongs to an open connection. -/
theorem ClientRegistry.signatureByConnectionId_eq_some {reg : ClientRegistry T} {id : ConnectionID} {s : UInt32} :
    reg.signatureByConnectionId id = some s ↔ reg.connectionIdSessionIds.lookup id = some ⟨s⟩ ∧ s ∈ reg.clients := by
  unfold signatureByConnectionId
  cases hl : reg.connectionIdSessionIds.lookup id with
  | none => simp
  | some sig =>
    obtain ⟨sig⟩ := sig
    by_cases hm : sig ∈ reg.clients
    · simp only [if_pos hm, Option.some.injEq, Signature.mk.injEq]
      exact ⟨fun h => ⟨h, h ▸ hm⟩, fun h => h.1⟩
    · simp only [if_neg hm, Option.some.injEq, Signature.mk.injEq]
      exact ⟨fun h => (nomatch h), fun h => absurd (h.1 ▸ h.2) hm⟩

/-! ## The packet types -/

/-- A handled SYN opens a connection under the signature drawn. -/
theorem handleSyn_ok {env : Env} {svc : Service σ T} [Inhabited T] {srv srv' : Server σ T} {packet : QPacket} {client : SocketAddr}
    {es : List Event} (h : handleSyn env svc srv packet client = .ok (srv', es)) :
    srv' = { srv with
      newClients := AList.insert env.randomSignature (ClientInfo.new env.now env.randomSignature client) srv.newClients } := by
  obtain ⟨ack, -, h⟩ := bind_eq_ok.mp h
  exact (Prod.mk.inj (Except.ok.inj h)).1.symm

/-- A connection for which no ticket was presented or accepted, when a CONNECT packet completes it. -/
def connected (env : Env) (packet : QPacket) (signature : UInt32) (ci : ClientInfo T) : ClientInfo T :=
  { ci with
    clientSignature := some signature
    serverSession := env.randomSession
    clientSession := packet.sessionId }

/-- The server with a connection completed. -/
def completed (srv : Server σ T) (sig : UInt32) (ci : ClientInfo T) : Server σ T :=
  { srv with
    newClients := srv.newClients.erase sig
    clientRegistry := srv.clientRegistry.set sig ci }

/-- The data of a CONNECT packet hold a ticket that is accepted for a user. -/
def TicketAccepted (env : Env) (svc : Service σ T) (data : Bytes) (user : UInt32) : Prop :=
  ∃ ticket rdr requestData rest ti, readVec streamU8 data = .ok (ticket, rdr) ∧ readVec streamU8 rdr = .ok (requestData, rest) ∧
    KerberosTicketInternal.open svc.box ticket svc.ctx.ticketKey = .ok ti ∧ ¬ ti.validUntil < env.unixTime ∧
    ti.principleId = user

/-- A connection with the user of a ticket and a connection id. -/
def ticketed (ci : ClientInfo T) (user : UInt32) (id : ConnectionID) : ClientInfo T :=
  { ci with userId := some user, connectionId := some id }

/-- The server with a connection id given out for a connection. -/
def registered (srv : Server σ T) (sig : UInt32) (ci : ClientInfo T) : Server σ T :=
  { srv with
    nextConnId := srv.nextConnId + 1
    clientRegistry :=
      { srv.clientRegistry.set sig ci with
        connectionIdSessionIds := AList.insert ⟨srv.nextConnId⟩ ⟨sig⟩ srv.clientRegistry.connectionIdSessionIds } }

/-- Presenting a ticket changes nothing, or gives the connection the user of an accepted ticket and the next connection id. -/
theorem presentTicket_ok {env : Env} {svc : Service σ T} {srv srv' : Server σ T} {sig : UInt32} {ci ci' : ClientInfo T} {data : Bytes}
    {res : Except FromStreamError Bytes} (h : presentTicket env svc srv sig ci data = .ok (srv', ci', res)) :
    (srv' = srv ∧ ci' = ci) ∨
      ∃ user, TicketAccepted env svc data user ∧ ci' = ticketed ci user ⟨srv.nextConnId⟩ ∧ srv' = registered srv sig ci' := by
  unfold presentTicket at h
  dsimp only at h
  split at h
  · obtain ⟨hsrv, hrest⟩ := Prod.mk.inj (Except.ok.inj h)
    exact Or.inl ⟨hsrv.symm, (Prod.mk.inj hrest).1.symm⟩
  · rename_i ti requestData hopened
    obtain ⟨⟨ticket, rdr⟩, hticket, hopened⟩ := bind_eq_ok.mp hopened
    obtain ⟨⟨request, rest⟩, hrequest, hopened⟩ := bind_eq_ok.mp hopened
    obtain ⟨ti', hti, hopened⟩ := bind_eq_ok.mp hopened
    obtain ⟨rfl, rfl⟩ := Prod.mk.inj (Except.ok.inj hopened)
    split at h
    · obtain ⟨hsrv, hrest⟩ := Prod.mk.inj (Except.ok.inj h)
      exact Or.inl ⟨hsrv.symm, (Prod.mk.inj hrest).1.symm⟩
    · rename_i hvalid
      have haccepted : TicketAccepted env svc data ti'.principleId :=
        ⟨ticket, rdr, request, rest, ti', hticket, hrequest, hti, hvalid, rfl⟩
      obtain ⟨proof, -, h⟩ := bind_eq_ok.mp h
      split at h
      · obtain ⟨hsrv, hrest⟩ := Prod.mk.inj (Except.ok.inj h)
        obtain ⟨rfl, -⟩ := Prod.mk.inj hrest
        exact Or.inr ⟨_, haccepted, rfl, hsrv.symm⟩
      · obtain ⟨resp, -, h⟩ := bind_eq_ok.mp h
        obtain ⟨hsrv, hrest⟩ := Prod.mk.inj (Except.ok.inj h)
        obtain ⟨rfl, -⟩ := Prod.mk.inj hrest
        exact Or.inr ⟨_, haccepted, rfl, hsrv.symm⟩

/-- A handled CONNECT changes nothing, or completes the connection of its signature, and gives it a connection id for an accepted
ticket. -/
theorem handleConnect_ok {env : Env} {svc : Service σ T} {srv srv' : Server σ T} {packet : QPacket} {client : SocketAddr}
    {es : List Event} (h : handleConnect env svc srv packet client = .ok (srv', es)) :
    ((packet.connSignature = none ∨ srv.newClients.lookup packet.signature = none) ∧ srv' = srv ∧ es = []) ∨
      ∃ signature ci, packet.connSignature = some signature ∧ srv.newClients.lookup packet.signature = some ci ∧
        (srv' = completed srv packet.signature (connected env packet signature ci) ∨
          ∃ user, TicketAccepted env svc packet.payload user ∧
            srv' = registered (completed srv packet.signature (connected env packet signature ci)) packet.signature
              (ticketed (connected env packet signature ci) user ⟨srv.nextConnId⟩)) := by
  unfold handleConnect at h
  split at h
  · rename_i hsig
    obtain ⟨rfl, rfl⟩ := Prod.mk.inj (Except.ok.inj h)
    exact Or.inl ⟨Or.inl hsig, rfl, rfl⟩
  · rename_i signature hsig
    split at h
    · rename_i hnew
      obtain ⟨rfl, rfl⟩ := Prod.mk.inj (Except.ok.inj h)
      exact Or.inl ⟨Or.inr hnew, rfl, rfl⟩
    · rename_i ci hnew
      refine Or.inr ⟨signature, ci, hsig, hnew, ?_⟩
      dsimp only at h
      split at h
      · obtain ⟨⟨srv1, ci1, payload⟩, hnone, h⟩ := bind_eq_ok.mp h
        obtain ⟨rfl, -⟩ := Prod.mk.inj (Except.ok.inj hnone)
        obtain ⟨ack, -, h⟩ := bind_eq_ok.mp h
        exact Or.inl (Prod.mk.inj (Except.ok.inj h)).1.symm
      · obtain ⟨⟨srv1, ci1, res⟩, hticket, h⟩ := bind_eq_ok.mp h
        obtain ⟨⟨srv2, ci2, payload⟩, hres, h⟩ := bind_eq_ok.mp h
        obtain ⟨rfl, -⟩ := Prod.mk.inj (Except.ok.inj hres)
        obtain ⟨ack, -, h⟩ := bind_eq_ok.mp h
        obtain ⟨rfl, -⟩ := Prod.mk.inj (Except.ok.inj h)
        rcases presentTicket_ok hticket with ⟨rfl, -⟩ | ⟨user, haccepted, rfl, rfl⟩
        · exact Or.inl rfl
        · exact Or.inr ⟨user, haccepted, rfl⟩

/-- The server without a connection. -/
def disconnected (srv : Server σ T) (sig : UInt32) : Server σ T :=
  { srv with clientRegistry := { srv.clientRegistry with clients := srv.clientRegistry.clients.erase sig } }

/-- A handled DISCONNECT changes nothing, or removes the connection of its signature. -/
theorem handleDisconnect_ok {env : Env} {svc : Service σ T} [Inhabited T] {srv srv' : Server σ T} {packet : QPacket}
    {client : SocketAddr} {es : List Event} (hack : packet.flags.contains .ack = false) (ht : packet.packetType = .disconnect)
    (h : handlePacket env svc srv packet client = .ok (srv', es)) :
    (srv.clientRegistry.clients.lookup packet.signature = none ∧ srv' = srv ∧ es = []) ∨
      ∃ ci, srv.clientRegistry.clients.lookup packet.signature = some ci ∧
        ∃ app, srv' = { disconnected srv packet.signature with app } := by
  unfold handlePacket at h
  rw [if_neg (by rw [hack]; exact Bool.false_ne_true), ht] at h
  dsimp only at h
  split at h
  · rename_i hl
    obtain ⟨rfl, rfl⟩ := Prod.mk.inj (Except.ok.inj h)
    exact Or.inl ⟨hl, rfl, rfl⟩
  · rename_i ci hl
    refine Or.inr ⟨ci, hl, ?_⟩
    obtain ⟨ack, -, h⟩ := bind_eq_ok.mp h
    split at h
    · obtain ⟨rfl, -⟩ := Prod.mk.inj (Except.ok.inj h)
      exact ⟨srv.app, rfl⟩
    · rename_i handler _
      obtain ⟨rfl, -⟩ := Prod.mk.inj (Except.ok.inj h)
      exact ⟨handler ci srv.app, rfl⟩

/-! ## Expired connections -/

/-- What is left of the connections when the expired ones are removed. -/
theorem lookup_clearClients (now : Instant) (order : MapOrder) (svc : Service σ T) (srv : Server σ T) (s : UInt32)
    (ci : ClientInfo T) :
    (clearClients now order svc srv).clientRegistry.clients.lookup s = some ci ↔
      srv.clientRegistry.clients.lookup s = some ci ∧ ci.expired now = false := by
  have h : (clearClients now order svc srv).clientRegistry.clients =
      retain (fun _ ci => !ci.expired now) srv.clientRegistry.clients := by
    unfold clearClients
    dsimp only
    split <;> rfl
  rw [h, lookup_retain, Option.filter_eq_some_iff, Bool.not_eq_true']

theorem newClients_clearClients (now : Instant) (order : MapOrder) (svc : Service σ T) (srv : Server σ T) :
    (clearClients now order svc srv).newClients = srv.newClients := by
  unfold clearClients
  dsimp only
  split <;> rfl

/-! ## Data packets -/

/-- Numbering the packets of a response changes the next sequence of the connection only. -/
theorem responsePackets_ok {build : Build} {request : QPacket} {cut : List (Nat × Bytes)} {ci ci' : ClientInfo T}
    {ps : List QPacket} (h : responsePackets build request ci cut = .ok (ps, ci')) :
    ∃ n, ci' = { ci with serverSequenceId := n } := by
  induction cut generalizing ci ps with
  | nil =>
    obtain ⟨-, rfl⟩ := Prod.mk.inj (Except.ok.inj h)
    exact ⟨_, rfl⟩
  | cons c rest ih =>
    obtain ⟨fid, chunk⟩ := c
    obtain ⟨stamped, hstamp, hrest⟩ := bind_eq_ok.mp h
    obtain ⟨next, _, hnext⟩ := bind_eq_ok.mp hstamp
    obtain ⟨⟨resps, ci2⟩, hresps, hlast⟩ := bind_eq_ok.mp hrest
    obtain ⟨-, rfl⟩ := Prod.mk.inj (Except.ok.inj hlast)
    obtain ⟨n, hn⟩ := ih hresps
    exact ⟨n, by rw [hn, ← Except.ok.inj hnext]⟩

/-- The registry a handler sees: the sender was heard from and its packet received. -/
def receivedRegistry (env : Env) (srv : Server σ T) (packet : QPacket) (ci : ClientInfo T) : ClientRegistry T :=
  srv.clientRegistry.set packet.signature (receivePayload env.now (ci.seen env.now) packet).1

/-- What a data packet of an open connection leaves: the fragments of the registry a handler sees. -/
theorem handleData_registry {env : Env} {svc : Service σ T} {srv srv' : Server σ T} {packet : QPacket} {client : SocketAddr}
    {es : List Event} {ci : ClientInfo T} (hl : srv.clientRegistry.clients.lookup packet.signature = some ci)
    (h : handleData env svc srv packet client = .ok (srv', es)) (s : UInt32) :
    (srv'.clientRegistry.clients.lookup s).map ClientInfo.fragmentState =
      ((receivedRegistry env srv packet ci).clients.lookup s).map ClientInfo.fragmentState := by
  unfold handleData at h
  rw [hl] at h
  obtain ⟨ack, _, h⟩ := bind_eq_ok.mp h
  dsimp only at h
  split at h
  · obtain ⟨rfl, -⟩ := Prod.mk.inj (Except.ok.inj h)
    rfl
  · rename_i handler payload _
    obtain ⟨r, hr, h⟩ := bind_eq_ok.mp h
    have hkeep := handler.keeps_fragments hr
    split at h
    · rename_i answer ci1 _ hci1
      obtain ⟨⟨resps, ci2⟩, hresp, h⟩ := bind_eq_ok.mp h
      obtain ⟨sent, _, h⟩ := bind_eq_ok.mp h
      obtain ⟨rfl, -⟩ := Prod.mk.inj (Except.ok.inj h)
      rw [ClientRegistry.lookup_set]
      split
      · rename_i hs
        obtain ⟨n, rfl⟩ := responsePackets_ok hresp
        refine Eq.trans ?_ (hkeep s)
        rw [hs, hci1]
        rfl
      · exact hkeep s
    · obtain ⟨rfl, -⟩ := Prod.mk.inj (Except.ok.inj h)
      exact hkeep s


/-- A handled data packet leaves the connections being opened alone, and neither opens nor closes a connection. -/
theorem handleData_ok {env : Env} {svc : Service σ T} {srv srv' : Server σ T} {packet : QPacket} {client : SocketAddr}
    {es : List Event} (h : handleData env svc srv packet client = .ok (srv', es)) :
    srv'.newClients = srv.newClients ∧ ∀ s, s ∈ srv'.clientRegistry.clients ↔ s ∈ srv.clientRegistry.clients := by
  cases hl : srv.clientRegistry.clients.lookup packet.signature with
  | none =>
    unfold handleData at h
    rw [hl] at h
    obtain ⟨rfl, -⟩ := Prod.mk.inj (Except.ok.inj h)
    exact ⟨rfl, fun _ => Iff.rfl⟩
  | some ci =>
    refine ⟨?_, fun s => ?_⟩
    · unfold handleData at h
      rw [hl] at h
      obtain ⟨ack, _, h⟩ := bind_eq_ok.mp h
      dsimp only at h
      split at h
      · obtain ⟨rfl, -⟩ := Prod.mk.inj (Except.ok.inj h)
        rfl
      · obtain ⟨r, -, h⟩ := bind_eq_ok.mp h
        split at h
        · obtain ⟨_, -, h⟩ := bind_eq_ok.mp h
          obtain ⟨_, -, h⟩ := bind_eq_ok.mp h
          obtain ⟨rfl, -⟩ := Prod.mk.inj (Except.ok.inj h)
          rfl
        · obtain ⟨rfl, -⟩ := Prod.mk.inj (Except.ok.inj h)
          rfl
    · have hreg := congrArg Option.isSome (handleData_registry hl h s)
      rw [Option.isSome_map, Option.isSome_map, receivedRegistry, ClientRegistry.lookup_set] at hreg
      rw [← AList.lookup_isSome, ← AList.lookup_isSome, hreg]
      by_cases hs : s = packet.signature
      · rw [if_pos hs, hs, hl]
        rfl
      · rw [if_neg hs]

/-! ## When a connection was last seen -/

/-- The stream handlers neither add a connection nor make one look older. -/
def Service.KeepsSeen (svc : Service σ T) : Prop :=
  ∀ port handler env sig reg app data r, svc.handlers port = some handler → handler.handle env sig reg app data = .ok r →
    ∀ s ci', r.registry.clients.lookup s = some ci' → ∃ ci, reg.clients.lookup s = some ci ∧ ci.lastSeen ≤ ci'.lastSeen

@[simp] theorem lastSeen_expireFragmentState (now : Instant) (ci : ClientInfo T) :
    (expireFragmentState now ci).lastSeen = ci.lastSeen := by
  unfold expireFragmentState
  split <;> rfl

@[simp] theorem lastSeen_openFragmentGroup (now : Instant) (ci : ClientInfo T) (final : UInt16) :
    (openFragmentGroup now ci final).lastSeen = ci.lastSeen := by
  unfold openFragmentGroup
  split <;> rfl

theorem lastSeen_cacheFragment (now : Instant) (ci : ClientInfo T) (fid : UInt8) (sequence : UInt16) (payload : Bytes) :
    (cacheFragment now ci fid sequence payload).1.lastSeen = ci.lastSeen := by
  unfold cacheFragment
  split
  · exact lastSeen_expireFragmentState now ci
  · have h := (lastSeen_openFragmentGroup now (expireFragmentState now ci) (sequence + fid.toUInt16)).trans
      (lastSeen_expireFragmentState now ci)
    dsimp only
    split
    · exact h
    · split
      · exact h
      · split <;> exact h

theorem lastSeen_finishFragmentedPayload (now : Instant) (ci : ClientInfo T) (sequence : UInt16) (payload : Bytes) :
    (finishFragmentedPayload now ci sequence payload).1.lastSeen = ci.lastSeen := by
  have h := lastSeen_expireFragmentState now ci
  unfold finishFragmentedPayload
  dsimp only
  repeat' split
  all_goals exact h

/-- Receiving a packet does not change when the connection was last seen. -/
theorem lastSeen_receivePayload (now : Instant) (ci : ClientInfo T) (p : QPacket) :
    (receivePayload now ci p).1.lastSeen = ci.lastSeen := by
  unfold receivePayload
  split
  · rfl
  · rename_i fid _
    have hc := lastSeen_cacheFragment now ci fid p.sequence p.payload
    have hf := lastSeen_finishFragmentedPayload now ci p.sequence p.payload
    split
    · split <;> rename_i heq <;> rw [heq] at hc <;> exact hc
    · split <;> rename_i heq <;> rw [heq] at hf <;> exact hf

/-- Receiving a data packet makes its connection look as recent as it is, and leaves the others. -/
theorem receivedRegistry_seen {env : Env} {srv : Server σ T} {packet : QPacket} {ci : ClientInfo T}
    (hl : srv.clientRegistry.clients.lookup packet.signature = some ci) {s : UInt32} {ci' : ClientInfo T}
    (h : (receivedRegistry env srv packet ci).clients.lookup s = some ci') :
    ∃ ci, srv.clientRegistry.clients.lookup s = some ci ∧ (ci.lastSeen ≤ ci'.lastSeen ∨ env.now ≤ ci'.lastSeen) := by
  rw [receivedRegistry, ClientRegistry.lookup_set] at h
  split at h
  · rename_i hs
    refine ⟨ci, hs ▸ hl, Or.inr ?_⟩
    rw [← Option.some.inj h, lastSeen_receivePayload]
    exact Nat.le_refl _
  · exact ⟨ci', h, Or.inl (Nat.le_refl _)⟩

/-- A handled data packet makes no connection look older, unless it was heard from at the instant of the packet. -/
theorem handleData_seen {env : Env} {svc : Service σ T} (hkeeps : svc.KeepsSeen) {srv srv' : Server σ T} {packet : QPacket}
    {client : SocketAddr} {es : List Event} (h : handleData env svc srv packet client = .ok (srv', es)) {s : UInt32}
    {ci' : ClientInfo T} (hs : srv'.clientRegistry.clients.lookup s = some ci') :
    ∃ ci, srv.clientRegistry.clients.lookup s = some ci ∧ (ci.lastSeen ≤ ci'.lastSeen ∨ env.now ≤ ci'.lastSeen) := by
  unfold handleData at h
  split at h
  · obtain ⟨rfl, -⟩ := Prod.mk.inj (Except.ok.inj h)
    exact ⟨ci', hs, Or.inl (Nat.le_refl _)⟩
  · rename_i ci hl
    obtain ⟨ack, _, h⟩ := bind_eq_ok.mp h
    dsimp only at h
    split at h
    · obtain ⟨rfl, -⟩ := Prod.mk.inj (Except.ok.inj h)
      exact receivedRegistry_seen hl hs
    · rename_i handler payload hcall
      have hhandler : svc.handlers packet.destination = some handler := by
        unfold handlerCall at hcall
        split at hcall
        · rename_i hh
          rw [hh, (Prod.mk.inj (Option.some.inj hcall)).1]
        · nomatch hcall
      obtain ⟨r, hr, h⟩ := bind_eq_ok.mp h
      have hafter : ∀ s ci', r.registry.clients.lookup s = some ci' →
          ∃ ci, srv.clientRegistry.clients.lookup s = some ci ∧ (ci.lastSeen ≤ ci'.lastSeen ∨ env.now ≤ ci'.lastSeen) := by
        intro s ci' hl'
        obtain ⟨ci1, hl1, hle⟩ := hkeeps _ _ _ _ _ _ _ _ hhandler hr s ci' hl'
        obtain ⟨ci0, hl0, hseen⟩ := receivedRegistry_seen hl hl1
        exact ⟨ci0, hl0, hseen.imp (fun h => h.trans hle) (fun h => h.trans hle)⟩
      split at h
      · rename_i answer ci1 _ hci1
        obtain ⟨⟨resps, ci2⟩, hresp, h⟩ := bind_eq_ok.mp h
        obtain ⟨sent, _, h⟩ := bind_eq_ok.mp h
        obtain ⟨rfl, -⟩ := Prod.mk.inj (Except.ok.inj h)
        rw [ClientRegistry.lookup_set] at hs
        split at hs
        · rename_i hsig
          obtain ⟨n, rfl⟩ := responsePackets_ok hresp
          rw [hsig, ← Option.some.inj hs]
          exact hafter packet.signature ci1 hci1
        · exact hafter s ci' hs
      · obtain ⟨rfl, -⟩ := Prod.mk.inj (Except.ok.inj h)
        exact hafter s ci' hs

/-! ## Any packet -/

/-- What handling a packet leaves. -/
inductive Handled (env : Env) (svc : Service σ T) [Inhabited T] (srv : Server σ T) (p : QPacket) (client : SocketAddr) :
    Server σ T → Prop where
  | ignored : Handled env svc srv p client srv
  | syn : p.packetType = .syn → Handled env svc srv p client
      { srv with newClients := AList.insert env.randomSignature (ClientInfo.new env.now env.randomSignature client) srv.newClients }
  | connect {srv' es} : p.packetType = .connect → handleConnect env svc srv p client = .ok (srv', es) →
      Handled env svc srv p client srv'
  | data {srv' es} : p.packetType = .data → handleData env svc srv p client = .ok (srv', es) → Handled env svc srv p client srv'
  | disconnect {ci app} : p.packetType = .disconnect → srv.clientRegistry.clients.lookup p.signature = some ci →
      Handled env svc srv p client { disconnected srv p.signature with app }
  | ping {ci} : p.packetType = .ping → srv.clientRegistry.clients.lookup p.signature = some ci →
      Handled env svc srv p client { srv with clientRegistry := srv.clientRegistry.set p.signature (ci.seen env.now) }

/-- A packet with the ACK flag is ignored, any other one is handled by its type. -/
theorem handlePacket_ok {env : Env} {svc : Service σ T} [Inhabited T] {srv srv' : Server σ T} {p : QPacket} {client : SocketAddr}
    {es : List Event} (h : handlePacket env svc srv p client = .ok (srv', es)) :
    (p.flags.contains .ack = true ∧ srv' = srv ∧ es = []) ∨
      (p.flags.contains .ack = false ∧ Handled env svc srv p client srv') := by
  by_cases hack : p.flags.contains .ack = true
  · rw [handlePacket, if_pos hack] at h
    obtain ⟨rfl, rfl⟩ := Prod.mk.inj (Except.ok.inj h)
    exact Or.inl ⟨hack, rfl, rfl⟩
  · have hack' := Bool.not_eq_true _ ▸ hack
    refine Or.inr ⟨hack', ?_⟩
    rw [handlePacket, if_neg hack] at h
    cases ht : p.packetType with
    | syn =>
      rw [ht] at h
      rw [handleSyn_ok h]
      exact Handled.syn ht
    | connect =>
      rw [ht] at h
      exact Handled.connect ht h
    | data =>
      rw [ht] at h
      exact Handled.data ht h
    | disconnect =>
      have hd : handlePacket env svc srv p client = .ok (srv', es) := by rw [handlePacket, if_neg hack]; exact h
      rcases handleDisconnect_ok hack' ht hd with ⟨-, rfl, -⟩ | ⟨ci, hl, app, rfl⟩
      · exact Handled.ignored
      · exact Handled.disconnect ht hl
    | ping =>
      rw [ht] at h
      dsimp only at h
      split at h
      · obtain ⟨rfl, -⟩ := Prod.mk.inj (Except.ok.inj h)
        exact Handled.ignored
      · rename_i ci hl
        obtain ⟨ack, -, h⟩ := bind_eq_ok.mp h
        obtain ⟨rfl, -⟩ := Prod.mk.inj (Except.ok.inj h)
        exact Handled.ping ht hl
    | user =>
      rw [ht] at h
      dsimp only at h
      split at h
      · obtain ⟨rfl, -⟩ := Prod.mk.inj (Except.ok.inj h)
        exact Handled.ignored
      · obtain ⟨events, -, h⟩ := bind_eq_ok.mp h
        obtain ⟨rfl, -⟩ := Prod.mk.inj (Except.ok.inj h)
        exact Handled.ignored
    | route =>
      rw [ht] at h
      nomatch h
    | raw =>
      rw [ht] at h
      nomatch h

/-- What a handled CONNECT leaves of the two tables. -/
theorem handleConnect_tables {env : Env} {svc : Service σ T} {srv srv' : Server σ T} {p : QPacket} {client : SocketAddr}
    {es : List Event} (h : handleConnect env svc srv p client = .ok (srv', es)) :
    srv' = srv ∨
      srv'.newClients = srv.newClients.erase p.signature ∧
        ∀ s, s ≠ p.signature → srv'.clientRegistry.clients.lookup s = srv.clientRegistry.clients.lookup s := by
  rcases handleConnect_ok h with ⟨-, rfl, -⟩ | ⟨signature, ci, -, -, rfl | ⟨user, -, rfl⟩⟩
  · exact Or.inl rfl
  · refine Or.inr ⟨rfl, fun s hs => ?_⟩
    rw [completed, ClientRegistry.lookup_set, if_neg hs]
  · refine Or.inr ⟨rfl, fun s hs => ?_⟩
    show ((completed srv p.signature _).clientRegistry.set p.signature _).clients.lookup s = _
    rw [ClientRegistry.lookup_set, if_neg hs, completed, ClientRegistry.lookup_set, if_neg hs]

/-- Handling a packet begins no opening, unless it is a SYN. -/
theorem Handled.mem_newClients {env : Env} {svc : Service σ T} [Inhabited T] {srv srv' : Server σ T} {p : QPacket}
    {client : SocketAddr} (h : Handled env svc srv p client srv') {s : UInt32} (hs : s ∈ srv'.newClients) :
    s ∈ srv.newClients ∨ p.packetType = .syn ∧ env.randomSignature = s := by
  cases h with
  | ignored => exact Or.inl hs
  | syn ht =>
    rcases (AList.mem_insert _).mp hs with rfl | hs
    · exact Or.inr ⟨ht, rfl⟩
    · exact Or.inl hs
  | connect _ h =>
    rcases handleConnect_tables h with rfl | ⟨hnew, -⟩
    · exact Or.inl hs
    · rw [hnew] at hs
      exact Or.inl (AList.mem_erase.mp hs).2
  | data _ h =>
    rw [(handleData_ok h).1] at hs
    exact Or.inl hs
  | disconnect _ _ => exact Or.inl hs
  | ping _ _ => exact Or.inl hs

/-- Handling a packet opens no connection, unless it is a CONNECT under its signature. -/
theorem Handled.mem_clients {env : Env} {svc : Service σ T} [Inhabited T] {srv srv' : Server σ T} {p : QPacket}
    {client : SocketAddr} (h : Handled env svc srv p client srv') {s : UInt32} (hs : s ∈ srv'.clientRegistry.clients) :
    s ∈ srv.clientRegistry.clients ∨ p.packetType = .connect ∧ p.signature = s := by
  cases h with
  | ignored => exact Or.inl hs
  | syn _ => exact Or.inl hs
  | connect ht h =>
    by_cases hsig : s = p.signature
    · exact Or.inr ⟨ht, hsig.symm⟩
    · rcases handleConnect_tables h with rfl | ⟨-, hlookup⟩
      · exact Or.inl hs
      · rw [← AList.lookup_isSome, hlookup s hsig, AList.lookup_isSome] at hs
        exact Or.inl hs
  | data _ h => exact Or.inl (((handleData_ok h).2 s).mp hs)
  | disconnect _ _ => exact Or.inl (AList.mem_erase.mp hs).2
  | ping _ hl =>
    rcases (AList.mem_insert _).mp hs with rfl | hs
    · exact Or.inl (AList.lookup_isSome.mp (by rw [hl]; rfl))
    · exact Or.inl hs

/-- Handling a packet makes no connection look older than it was and than the packet is, unless it is a CONNECT under its
signature. -/
theorem Handled.seen {env : Env} {svc : Service σ T} [Inhabited T] (hkeeps : svc.KeepsSeen) {srv srv' : Server σ T} {p : QPacket}
    {client : SocketAddr} (h : Handled env svc srv p client srv') {s : UInt32} (hc : ¬ (p.packetType = .connect ∧ p.signature = s))
    {ci' : ClientInfo T} (hs : srv'.clientRegistry.clients.lookup s = some ci') :
    ∃ ci, srv.clientRegistry.clients.lookup s = some ci ∧ (ci.lastSeen ≤ ci'.lastSeen ∨ env.now ≤ ci'.lastSeen) := by
  cases h with
  | ignored => exact ⟨ci', hs, Or.inl (Nat.le_refl _)⟩
  | syn _ => exact ⟨ci', hs, Or.inl (Nat.le_refl _)⟩
  | connect ht h =>
    rcases handleConnect_tables h with rfl | ⟨-, hlookup⟩
    · exact ⟨ci', hs, Or.inl (Nat.le_refl _)⟩
    · rw [hlookup s (fun he => hc ⟨ht, he.symm⟩)] at hs
      exact ⟨ci', hs, Or.inl (Nat.le_refl _)⟩
  | data _ h => exact handleData_seen hkeeps h hs
  | disconnect _ _ =>
    by_cases hsig : s = p.signature
    · subst hsig
      rw [disconnected, AList.lookup_erase] at hs
      nomatch hs
    · rw [disconnected, AList.lookup_erase_ne hsig] at hs
      exact ⟨ci', hs, Or.inl (Nat.le_refl _)⟩
  | ping _ hl =>
    rw [ClientRegistry.lookup_set] at hs
    split at hs
    · rename_i hsig
      rw [← Option.some.inj hs]
      exact ⟨_, hsig ▸ hl, Or.inr (Nat.le_refl _)⟩
    · exact ⟨ci', hs, Or.inl (Nat.le_refl _)⟩

end Scbl.Prudp
