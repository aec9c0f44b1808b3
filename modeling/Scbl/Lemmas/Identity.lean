import Scbl.Theorems.Connect

/-!
# Who a connection belongs to

A connection has an identity once a ticket was accepted for it: its user and its connection id. `KeepsIdentity` is the law the stream
handlers of the secure server obey: they give no connection another identity. Then a step of the server changes the identity of a
connection only by completing it (`identity_step`).
-/

namespace Scbl.Prudp

open Scbl.Lib Scbl.Rmc

variable {σ T : Type}

/-- The identity of a connection: its user and its connection id. -/
def ClientInfo.identity (ci : ClientInfo T) : Option UInt32 × Option ConnectionID := (ci.userId, ci.connectionId)

/-- The stream handlers add no connection and leave each one its identity. -/
def Service.KeepsIdentity (svc : Service σ T) : Prop :=
  ∀ port handler env sig reg app data r, svc.handlers port = some handler → handler.handle env sig reg app data = .ok r →
    ∀ s ci', r.registry.clients.lookup s = some ci' → ∃ ci, reg.clients.lookup s = some ci ∧ ci'.identity = ci.identity

namespace Identity

/-! ## Data packets -/

@[simp] theorem identity_expireFragmentState (now : Instant) (ci : ClientInfo T) :
    (expireFragmentState now ci).identity = ci.identity := by
  unfold expireFragmentState
  split <;> rfl

@[simp] theorem identity_openFragmentGroup (now : Instant) (ci : ClientInfo T) (final : UInt16) :
    (openFragmentGroup now ci final).identity = ci.identity := by
  unfold openFragmentGroup
  split <;> rfl

theorem identity_cacheFragment (now : Instant) (ci : ClientInfo T) (fid : UInt8) (sequence : UInt16) (payload : Bytes) :
    (cacheFragment now ci fid sequence payload).1.identity = ci.identity := by
  unfold cacheFragment
  split
  · exact identity_expireFragmentState now ci
  · have h := (identity_openFragmentGroup now (expireFragmentState now ci) (sequence + fid.toUInt16)).trans
      (identity_expireFragmentState now ci)
    dsimp only
    split
    · exact h
    · split
      · exact h
      · split <;> exact h

theorem identity_finishFragmentedPayload (now : Instant) (ci : ClientInfo T) (sequence : UInt16) (payload : Bytes) :
    (finishFragmentedPayload now ci sequence payload).1.identity = ci.identity := by
  have h := identity_expireFragmentState now ci
  unfold finishFragmentedPayload
  dsimp only
  repeat' split
  all_goals exact h

/-- Receiving a packet leaves the connection its identity. -/
theorem identity_receivePayload (now : Instant) (ci : ClientInfo T) (p : QPacket) :
    (receivePayload now ci p).1.identity = ci.identity := by
  unfold receivePayload
  split
  · rfl
  · rename_i fid _
    have hc := identity_cacheFragment now ci fid p.sequence p.payload
    have hf := identity_finishFragmentedPayload now ci p.sequence p.payload
    split
    · split <;> rename_i heq <;> rw [heq] at hc <;> exact hc
    · split <;> rename_i heq <;> rw [heq] at hf <;> exact hf

/-- Receiving a data packet leaves every connection its identity. -/
theorem receivedRegistry_identity {env : Env} {srv : Server σ T} {packet : QPacket} {ci : ClientInfo T}
    (hl : srv.clientRegistry.clients.lookup packet.signature = some ci) {s : UInt32} {ci' : ClientInfo T}
    (h : (receivedRegistry env srv packet ci).clients.lookup s = some ci') :
    ∃ ci, srv.clientRegistry.clients.lookup s = some ci ∧ ci'.identity = ci.identity := by
  rw [receivedRegistry, ClientRegistry.lookup_set] at h
  split at h
  · rename_i hs
    refine ⟨ci, hs ▸ hl, ?_⟩
    rw [← Option.some.inj h, identity_receivePayload]
    rfl
  · exact ⟨ci', h, rfl⟩

/-- A handled data packet leaves every connection its identity. -/
theorem handleData_identity {env : Env} {svc : Service σ T} (hkeeps : svc.KeepsIdentity) {srv srv' : Server σ T} {packet : QPacket}
    {client : SocketAddr} {es : List Event} (h : handleData env svc srv packet client = .ok (srv', es)) {s : UInt32}
    {ci' : ClientInfo T} (hs : srv'.clientRegistry.clients.lookup s = some ci') :
    ∃ ci, srv.clientRegistry.clients.lookup s = some ci ∧ ci'.identity = ci.identity := by
  unfold handleData at h
  split at h
  · obtain ⟨rfl, -⟩ := Prod.mk.inj (Except.ok.inj h)
    exact ⟨ci', hs, rfl⟩
  · rename_i ci hl
    obtain ⟨ack, _, h⟩ := bind_eq_ok.mp h
    dsimp only at h
    split at h
    · obtain ⟨rfl, -⟩ := Prod.mk.inj (Except.ok.inj h)
      exact receivedRegistry_identity hl hs
    · rename_i handler payload hcall
      have hhandler : svc.handlers packet.destination = some handler := by
        unfold handlerCall at hcall
        split at hcall
        · rename_i hh
          rw [hh, (Prod.mk.inj (Option.some.inj hcall)).1]
        · nomatch hcall
      obtain ⟨r, hr, h⟩ := bind_eq_ok.mp h
      have hafter : ∀ s ci', r.registry.clients.lookup s = some ci' →
          ∃ ci, srv.clientRegistry.clients.lookup s = some ci ∧ ci'.identity = ci.identity := by
        intro s ci' hl'
        obtain ⟨ci1, hl1, h1⟩ := hkeeps _ _ _ _ _ _ _ _ hhandler hr s ci' hl'
        obtain ⟨ci0, hl0, h0⟩ := receivedRegistry_identity hl hl1
        exact ⟨ci0, hl0, h1.trans h0⟩
      split at h
      · rename_i answer ci1 _ hci1
        obtain ⟨⟨resps, ci2⟩, hresp, h⟩ := bind_eq_ok.mp h
        obtain ⟨sent, _, h⟩ := bind_eq_ok.mp h
        obtain ⟨rfl, -⟩ := Prod.mk.inj (Except.ok.inj h)
        rw [ClientRegistry.lookup_set] at hs
        split at hs
        · rename_i hsig
          obtain ⟨n, rfl⟩ := responsePackets_ok hresp
          obtain ⟨ci0, hl0, h0⟩ := hafter packet.signature ci1 hci1
          exact ⟨ci0, hsig ▸ hl0, by rw [← Option.some.inj hs]; exact h0⟩
        · exact hafter s ci' hs
      · obtain ⟨rfl, -⟩ := Prod.mk.inj (Except.ok.inj h)
        exact hafter s ci' hs

/-! ## Any step -/

/-- The step accepts a ticket of a user for the connection with a signature. -/
def Accepts (svc : Service σ T) (a : ServerStep) (s user : UInt32) : Prop :=
  ∃ env p client, a = .packet env p client ∧ p.flags.contains .ack = false ∧ p.packetType = .connect ∧ p.signature = s ∧
    TicketAccepted env svc p.payload user

/-- Every connection after a step has the identity it had before, or was completed: then it has none, or the user of the ticket that
the step accepts and the next connection id. -/
theorem identity_step {svc : Service σ T} [Inhabited T] (hkeeps : svc.KeepsIdentity) {srv srv' : Server σ T}
    (hu : Connect.Unnamed srv) {a : ServerStep} {es : List Event} (h : serverStep svc srv a = .ok (srv', es)) {s : UInt32}
    {ci' : ClientInfo T} (hs : srv'.clientRegistry.clients.lookup s = some ci') :
    (∃ ci, srv.clientRegistry.clients.lookup s = some ci ∧ ci'.identity = ci.identity) ∨ ci'.identity = (none, none) ∨
      ∃ user, Accepts svc a s user ∧ ci'.identity = (some user, some ⟨srv.nextConnId⟩) := by
  cases a with
  | clearClients now order =>
    obtain ⟨rfl, -⟩ := Prod.mk.inj (Except.ok.inj h)
    exact .inl ⟨ci', ((lookup_clearClients now order svc srv s ci').mp hs).1, rfl⟩
  | packet env p client =>
    rcases handlePacket_ok h with ⟨-, rfl, -⟩ | ⟨hack, handled⟩
    · exact .inl ⟨ci', hs, rfl⟩
    · cases handled with
      | ignored => exact .inl ⟨ci', hs, rfl⟩
      | syn _ => exact .inl ⟨ci', hs, rfl⟩
      | connect ht h =>
        rcases handleConnect_ok h with ⟨-, rfl, -⟩ | ⟨signature, ci, -, hnew, rfl | ⟨user, haccepted, rfl⟩⟩
        · exact .inl ⟨ci', hs, rfl⟩
        · rw [completed, ClientRegistry.lookup_set] at hs
          split at hs
          · obtain ⟨huser, hid⟩ := hu _ _ hnew
            rw [← Option.some.inj hs]
            exact .inr (.inl (Prod.ext huser hid))
          · exact .inl ⟨ci', hs, rfl⟩
        · replace hs := (ClientRegistry.lookup_set _ _ _ _).symm.trans hs
          split at hs
          · rename_i hsig
            rw [← Option.some.inj hs]
            exact .inr (.inr ⟨user, ⟨env, p, client, rfl, hack, ht, hsig.symm, haccepted⟩, rfl⟩)
          · rename_i hsig
            rw [completed, ClientRegistry.lookup_set, if_neg hsig] at hs
            exact .inl ⟨ci', hs, rfl⟩
      | data _ h => exact .inl (handleData_identity hkeeps h hs)
      | disconnect _ _ =>
        by_cases hsig : s = p.signature
        · subst hsig
          rw [disconnected, AList.lookup_erase] at hs
          cases hs
        · rw [disconnected, AList.lookup_erase_ne hsig] at hs
          exact .inl ⟨ci', hs, rfl⟩
      | ping _ hl =>
        rw [ClientRegistry.lookup_set] at hs
        split at hs
        · rename_i hsig
          exact .inl ⟨_, hsig ▸ hl, by rw [← Option.some.inj hs]; rfl⟩
        · exact .inl ⟨ci', hs, rfl⟩

end Identity

end Scbl.Prudp
