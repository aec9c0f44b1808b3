import Scbl.Lemmas.Identity
import Scbl.Services.NatTraversal
import Scbl.Services.SecureConnection
import Scbl.Theorems.LoginEx

/-!
# The connection ids that clients are told

A client learns its connection id when it registers, puts it into its station URL, and is named by it in the probes of others. The id
must lead back to the connection as long as it is open. The two maps of the registry may well disagree (`registry_consistent` has the
runs in which they agree); but the ids of the connections that are open never do, until four thousand million tickets were accepted.
-/

namespace Scbl.Prudp

open Scbl.Lib Scbl.Rmc

variable {σ T : Type}

/-- The stream handlers leave the identities and the connection ids alone. -/
structure Service.KeepsRegistration (svc : Service σ T) : Prop where
  identity : svc.KeepsIdentity
  ids : ∀ port handler env sig reg app data r, svc.handlers port = some handler → handler.handle env sig reg app data = .ok r →
    r.registry.connectionIdSessionIds = reg.connectionIdSessionIds

/-- The `k`-th connection id. -/
def connectionIdAt (k : Nat) : ConnectionID := ⟨0x3AAAAAAA + UInt32.ofNat k⟩

/-- The connection ids of the open connections: a connection has one exactly when it has a user, the ids are among the first `n`, no
two connections have the same, and each leads to its connection. -/
structure ClientRegistry.Resolves (reg : ClientRegistry T) (n : Nat) : Prop where
  whole : ∀ s ci, reg.clients.lookup s = some ci → ci.userId.isSome = ci.connectionId.isSome
  given : ∀ s ci id, reg.clients.lookup s = some ci → ci.connectionId = some id → ∃ k < n, id = connectionIdAt k
  distinct : ∀ s s' ci ci' id, reg.clients.lookup s = some ci → reg.clients.lookup s' = some ci' → ci.connectionId = some id →
    ci'.connectionId = some id → s = s'
  found : ∀ s ci id, reg.clients.lookup s = some ci → ci.connectionId = some id → reg.connectionIdSessionIds.lookup id = some ⟨s⟩

namespace ConnectionIds

/-- The first ids are distinct. -/
theorem connectionIdAt_inj {j k : Nat} (hj : j < 2 ^ 32) (hk : k < 2 ^ 32) (h : connectionIdAt j = connectionIdAt k) : j = k := by
  have hid := UInt32.add_right_inj (0x3AAAAAAA : UInt32) |>.mp (ConnectionID.mk.inj h)
  have hnat := congrArg UInt32.toNat hid
  rwa [UInt32.toNat_ofNat_of_lt' hj, UInt32.toNat_ofNat_of_lt' hk] at hnat

/-! ## The registry -/

section Registry

variable {reg reg' : ClientRegistry T} {n : Nat}

/-- Connections that keep their identities keep resolving. -/
theorem resolves_of_identity (h : reg.Resolves n)
    (hkeep : ∀ s ci', reg'.clients.lookup s = some ci' → ∃ ci, reg.clients.lookup s = some ci ∧ ci'.identity = ci.identity)
    (hids : reg'.connectionIdSessionIds = reg.connectionIdSessionIds) : reg'.Resolves n where
  whole s ci' hl := by
    obtain ⟨ci, hci, hsame⟩ := hkeep s ci' hl
    rw [show ci'.userId = ci.userId from congrArg Prod.fst hsame, show ci'.connectionId = ci.connectionId from congrArg Prod.snd hsame]
    exact h.whole s ci hci
  given s ci' id hl hid := by
    obtain ⟨ci, hci, hsame⟩ := hkeep s ci' hl
    exact h.given s ci id hci ((congrArg Prod.snd hsame).symm.trans hid)
  distinct s s' ci₁ ci₂ id hl₁ hl₂ hid₁ hid₂ := by
    obtain ⟨ci, hci, hsame⟩ := hkeep s ci₁ hl₁
    obtain ⟨ci', hci', hsame'⟩ := hkeep s' ci₂ hl₂
    exact h.distinct s s' ci ci' id hci hci' ((congrArg Prod.snd hsame).symm.trans hid₁) ((congrArg Prod.snd hsame').symm.trans hid₂)
  found s ci' id hl hid := by
    obtain ⟨ci, hci, hsame⟩ := hkeep s ci' hl
    rw [hids]
    exact h.found s ci id hci ((congrArg Prod.snd hsame).symm.trans hid)

/-- More ids do not hurt. -/
theorem resolves_mono {m : Nat} (h : reg.Resolves n) (hle : n ≤ m) : reg.Resolves m :=
  { h with
    given := fun s ci id hl hid => by
      obtain ⟨k, hk, hid⟩ := h.given s ci id hl hid
      exact ⟨k, Nat.lt_of_lt_of_le hk hle, hid⟩ }

/-- A connection with no identity can be put in the place of any other. -/
theorem resolves_set (h : reg.Resolves n) (sig : UInt32) (ci : ClientInfo T) (hci : ci.identity = (none, none)) :
    (reg.set sig ci).Resolves n := by
  have hnone : ci.connectionId = none := congrArg Prod.snd hci
  -- a connection with an id is one of the others
  have hother : ∀ s ci' id, (reg.set sig ci).clients.lookup s = some ci' → ci'.connectionId = some id →
      reg.clients.lookup s = some ci' := by
    intro s ci' id hl hid
    rw [ClientRegistry.lookup_set] at hl
    split at hl
    · rw [← Option.some.inj hl, hnone] at hid
      nomatch hid
    · exact hl
  refine ⟨fun s ci' hl => ?_, fun s ci' id hl hid => h.given s ci' id (hother s ci' id hl hid) hid,
    fun s s' ci₁ ci₂ id hl₁ hl₂ hid₁ hid₂ => h.distinct s s' ci₁ ci₂ id (hother s ci₁ id hl₁ hid₁) (hother s' ci₂ id hl₂ hid₂) hid₁ hid₂,
    fun s ci' id hl hid => h.found s ci' id (hother s ci' id hl hid) hid⟩
  rw [ClientRegistry.lookup_set] at hl
  split at hl
  · rw [← Option.some.inj hl, hnone, show ci.userId = none from congrArg Prod.fst hci]
    rfl
  · exact h.whole s ci' hl

/-- A connection that is given the next id resolves, whatever it replaces. -/
theorem resolves_registered (h : reg.Resolves n) (hn : n < 2 ^ 32) (sig user : UInt32) (ci : ClientInfo T)
    (hci : ci.identity = (some user, some (connectionIdAt n))) :
    ClientRegistry.Resolves { reg.set sig ci with
      connectionIdSessionIds := AList.insert (connectionIdAt n) ⟨sig⟩ reg.connectionIdSessionIds } (n + 1) := by
  have huser : ci.userId = some user := congrArg Prod.fst hci
  have hnew : ci.connectionId = some (connectionIdAt n) := congrArg Prod.snd hci
  -- the ids of the others were given out before
  have hfresh : ∀ s ci' id, reg.clients.lookup s = some ci' → ci'.connectionId = some id → id ≠ connectionIdAt n := by
    rintro s ci' id hl hid rfl
    obtain ⟨k, hk, hsame⟩ := h.given s ci' _ hl hid
    exact absurd (connectionIdAt_inj hn (Nat.lt_trans hk hn) hsame) (Nat.ne_of_gt hk)
  refine ⟨fun s ci' hl => ?_, fun s ci' id hl hid => ?_, fun s s' ci₁ ci₂ id hl₁ hl₂ hid₁ hid₂ => ?_, fun s ci' id hl hid => ?_⟩
  · replace hl := (ClientRegistry.lookup_set reg sig s ci).symm.trans hl
    split at hl
    · rw [← Option.some.inj hl, huser, hnew]
      rfl
    · exact h.whole s ci' hl
  · replace hl := (ClientRegistry.lookup_set reg sig s ci).symm.trans hl
    split at hl
    · rw [← Option.some.inj hl, hnew] at hid
      exact ⟨n, Nat.lt_succ_self n, (Option.some.inj hid).symm⟩
    · obtain ⟨k, hk, hsame⟩ := h.given s ci' id hl hid
      exact ⟨k, Nat.lt_succ_of_lt hk, hsame⟩
  · replace hl₁ := (ClientRegistry.lookup_set reg sig s ci).symm.trans hl₁
    replace hl₂ := (ClientRegistry.lookup_set reg sig s' ci).symm.trans hl₂
    split at hl₁ <;> split at hl₂
    · rename_i hs hs'
      exact hs.trans hs'.symm
    · rw [← Option.some.inj hl₁, hnew] at hid₁
      exact absurd (Option.some.inj hid₁).symm (hfresh s' ci₂ id hl₂ hid₂)
    · rw [← Option.some.inj hl₂, hnew] at hid₂
      exact absurd (Option.some.inj hid₂).symm (hfresh s ci₁ id hl₁ hid₁)
    · exact h.distinct s s' ci₁ ci₂ id hl₁ hl₂ hid₁ hid₂
  · replace hl := (ClientRegistry.lookup_set reg sig s ci).symm.trans hl
    split at hl
    · rename_i hs
      rw [← Option.some.inj hl, hnew] at hid
      rw [← Option.some.inj hid, hs]
      exact AList.lookup_insert _
    · exact (AList.lookup_insert_ne (hfresh s ci' id hl hid)).trans (h.found s ci' id hl hid)

end Registry

/-! ## The server -/

/-- What holds of a server: the connections being opened have no identity, at most `n` ids were given out, and they resolve. -/
structure Inv (srv : Server σ T) (n : Nat) : Prop where
  unnamed : Connect.Unnamed srv
  next : (⟨srv.nextConnId⟩ : ConnectionID) = connectionIdAt n
  resolves : srv.clientRegistry.Resolves n

/-- The id after the next one. -/
theorem connectionIdAt_succ {id : UInt32} {n : Nat} (h : (⟨id⟩ : ConnectionID) = connectionIdAt n) :
    (⟨id + 1⟩ : ConnectionID) = connectionIdAt (n + 1) := by
  rw [connectionIdAt, UInt32.ofNat_add, ← UInt32.add_assoc, ← ConnectionID.mk.inj h]
  rfl

/-- A data packet leaves the connection ids alone. -/
theorem handleData_ids {env : Env} {svc : Service σ T} (hkeeps : svc.KeepsRegistration) {srv srv' : Server σ T} {packet : QPacket}
    {client : SocketAddr} {es : List Event} (h : handleData env svc srv packet client = .ok (srv', es)) :
    srv'.clientRegistry.connectionIdSessionIds = srv.clientRegistry.connectionIdSessionIds ∧ srv'.nextConnId = srv.nextConnId := by
  unfold handleData at h
  split at h
  · obtain ⟨rfl, -⟩ := Prod.mk.inj (Except.ok.inj h)
    exact ⟨rfl, rfl⟩
  · obtain ⟨ack, _, h⟩ := bind_eq_ok.mp h
    dsimp only at h
    split at h
    · obtain ⟨rfl, -⟩ := Prod.mk.inj (Except.ok.inj h)
      exact ⟨rfl, rfl⟩
    · rename_i handler payload hcall
      have hhandler : svc.handlers packet.destination = some handler := by
        unfold handlerCall at hcall
        split at hcall
        · rename_i hh
          rw [hh, (Prod.mk.inj (Option.some.inj hcall)).1]
        · nomatch hcall
      obtain ⟨r, hr, h⟩ := bind_eq_ok.mp h
      have hids := hkeeps.ids _ _ _ _ _ _ _ _ hhandler hr
      split at h
      · obtain ⟨_, -, h⟩ := bind_eq_ok.mp h
        obtain ⟨_, -, h⟩ := bind_eq_ok.mp h
        obtain ⟨rfl, -⟩ := Prod.mk.inj (Except.ok.inj h)
        exact ⟨hids, rfl⟩
      · obtain ⟨rfl, -⟩ := Prod.mk.inj (Except.ok.inj h)
        exact ⟨hids, rfl⟩

/-- Removing the expired connections keeps the ids of the others. -/
theorem resolves_clearClients {svc : Service σ T} {srv : Server σ T} {n : Nat} (h : srv.clientRegistry.Resolves n) (now : Instant)
    (order : MapOrder) : (clearClients now order svc srv).clientRegistry.Resolves n := by
  have hopen : ∀ s ci, (clearClients now order svc srv).clientRegistry.clients.lookup s = some ci →
      srv.clientRegistry.clients.lookup s = some ci ∧ ci.expired now = false := by
    intro s ci hl
    exact (lookup_clearClients now order svc srv s ci).mp hl
  refine ⟨fun s ci hl => h.whole s ci (hopen s ci hl).1, fun s ci id hl => h.given s ci id (hopen s ci hl).1,
    fun s s' ci ci' id hl hl' => h.distinct s s' ci ci' id (hopen s ci hl).1 (hopen s' ci' hl').1, fun s ci id hl hid => ?_⟩
  obtain ⟨hl, hlive⟩ := hopen s ci hl
  have hfound := h.found s ci id hl hid
  unfold clearClients
  dsimp only
  split
  · exact hfound
  · refine (Registry.lookup_foldl_removeConnectionId _ _ id ⟨s⟩).mpr ⟨hfound, fun ci' hmem hid' => ?_⟩
    obtain ⟨hmem, hexpired⟩ := List.mem_filter.mp hmem
    obtain ⟨⟨s', ci''⟩, hentry, rfl⟩ := List.mem_map.mp hmem
    have hl' := AList.mem_lookup_iff.mpr ((MapOrder.mem_apply _ _ _).mp hentry)
    -- the expired connection with this id would be this one
    obtain rfl := h.distinct s s' ci ci'' id hl hl' hid hid'
    rw [Option.some.inj (hl.symm.trans hl'), hexpired] at hlive
    nomatch hlive

/-- A step keeps the invariant, and gives out at most one id. -/
theorem Inv.step {svc : Service σ T} [Inhabited T] (hkeeps : svc.KeepsRegistration) {srv srv' : Server σ T} {n : Nat}
    (hi : Inv srv n) (hn : n < 2 ^ 32) {a : ServerStep} {es : List Event} (h : serverStep svc srv a = .ok (srv', es)) :
    Inv srv' n ∨ Inv srv' (n + 1) := by
  have hunnamed : Connect.Unnamed srv' := hi.unnamed.step h
  cases a with
  | clearClients now order =>
    obtain ⟨rfl, -⟩ := Prod.mk.inj (Except.ok.inj h)
    refine .inl ⟨hunnamed, ?_, resolves_clearClients hi.resolves now order⟩
    rw [← hi.next]
    unfold clearClients
    dsimp only
    split <;> rfl
  | packet env p client =>
    rcases handlePacket_ok h with ⟨-, rfl, -⟩ | ⟨hack, handled⟩
    · exact .inl hi
    · cases handled with
      | ignored => exact .inl hi
      | syn _ => exact .inl ⟨hunnamed, hi.next, hi.resolves⟩
      | connect ht hc =>
        rcases handleConnect_ok hc with ⟨-, rfl, -⟩ | ⟨signature, ci, -, hnew, rfl | ⟨user, -, rfl⟩⟩
        · exact .inl hi
        · obtain ⟨huser, hid⟩ := hi.unnamed _ _ hnew
          exact .inl ⟨hunnamed, hi.next, resolves_set hi.resolves p.signature _ (Prod.ext huser hid)⟩
        · obtain ⟨huser, hid⟩ := hi.unnamed _ _ hnew
          have hset := resolves_set hi.resolves p.signature (connected env p signature ci) (Prod.ext huser hid)
          refine .inr ⟨hunnamed, connectionIdAt_succ hi.next, ?_⟩
          have hreg := resolves_registered hset hn p.signature user
            (ticketed (connected env p signature ci) user ⟨srv.nextConnId⟩) (by rw [hi.next]; rfl)
          rw [← hi.next] at hreg
          exact hreg
      | data _ hd =>
        obtain ⟨hids, hnext⟩ := handleData_ids hkeeps hd
        exact .inl ⟨hunnamed, hnext ▸ hi.next,
          resolves_of_identity hi.resolves (fun s ci' hl => Identity.handleData_identity hkeeps.identity hd hl) hids⟩
      | disconnect _ _ =>
        refine .inl ⟨hunnamed, hi.next, resolves_of_identity hi.resolves (fun s ci' hl => ?_) rfl⟩
        by_cases hsig : s = p.signature
        · subst hsig
          rw [disconnected, AList.lookup_erase] at hl
          cases hl
        · rw [disconnected, AList.lookup_erase_ne hsig] at hl
          exact ⟨ci', hl, rfl⟩
      | ping _ hl =>
        refine .inl ⟨hunnamed, hi.next, resolves_of_identity hi.resolves (fun s ci' hl' => ?_) rfl⟩
        rw [ClientRegistry.lookup_set] at hl'
        split at hl'
        · rename_i hsig
          exact ⟨_, hsig ▸ hl, by rw [← Option.some.inj hl']; rfl⟩
        · exact ⟨ci', hl', rfl⟩

/-- In every state of a server that accepted fewer than 2^32 tickets the connection ids resolve. -/
theorem resolves_run (svc : Service σ T) [Inhabited T] (hkeeps : svc.KeepsRegistration) (app : σ) {steps : List ServerStep}
    (hsteps : steps.length < 2 ^ 32) {srv : Server σ T}
    (h : run (liveStep (serverStep svc)) (.ok (Server.new app)) steps = .ok srv) :
    ∃ n ≤ steps.length, srv.clientRegistry.Resolves n := by
  let P : List (Transition (ServerState σ T) ServerStep (List Event)) → ServerState σ T → Prop :=
    fun past s => past.length < 2 ^ 32 → ∀ srv, s = .ok srv → ∃ n ≤ past.length, Inv srv n
  have hstart : P [] (.ok (Server.new app)) := by
    intro _ srv' hsrv'
    rw [← Except.ok.inj hsrv']
    exact ⟨0, Nat.le_refl 0, fun s ci hl => (nomatch hl), rfl, ⟨fun s ci hl => (nomatch hl), fun s ci id hl => (nomatch hl),
      fun s s' ci ci' id hl => (nomatch hl), fun s ci id hl => (nomatch hl)⟩⟩
  have hinv : P (trace (liveStep (serverStep svc)) (.ok (Server.new app)) steps)
      (run (liveStep (serverStep svc)) (.ok (Server.new app)) steps) := by
    refine run_history (fun past s a hp hlen srv' hsrv' => ?_) hstart steps
    rw [List.length_append, List.length_singleton] at hlen ⊢
    obtain ⟨srv, es, rfl, hstep, -⟩ := liveStep_ok hsrv'
    obtain ⟨n, hn, hi⟩ := hp (Nat.lt_of_succ_lt hlen) srv rfl
    rcases hi.step hkeeps (Nat.lt_of_le_of_lt hn (Nat.lt_of_succ_lt hlen)) hstep with hi' | hi'
    · exact ⟨n, Nat.le_succ_of_le hn, hi'⟩
    · exact ⟨n + 1, Nat.succ_le_succ hn, hi'⟩
  have hlength : (trace (liveStep (serverStep svc)) (.ok (Server.new app)) steps).length = steps.length :=
    (List.length_map _).symm.trans (congrArg List.length (trace_inputs _ _))
  obtain ⟨n, hn, hi⟩ := hinv (hlength ▸ hsteps) srv h
  exact ⟨n, hlength ▸ hn, hi.resolves⟩

end ConnectionIds

end Scbl.Prudp

namespace Scbl.Services

open Scbl.Lib Scbl.Rmc Scbl.Prudp Scbl.Storage Scbl.Services.SecureConnectionService Scbl.Services.NatTraversalService

/-- No call changes the user of its connection. -/
def RmcRegistry.KeepsUser (registry : RmcRegistry) : Prop :=
  ∀ request c st st' r, registry.call request c st = .ok (st', r) → st'.userId = st.userId

namespace ConnectionIds

/-- A message changes the user of its connection only as its call does. -/
theorem userId_handle {registry : RmcRegistry} (hkeeps : registry.KeepsUser) {c : Caller} {st st' : CallState} {data : Bytes}
    {answer : Except Prudp.Error Bytes} (h : registry.handle c st data = .ok (st', answer)) : st'.userId = st.userId := by
  unfold RmcRegistry.handle at h
  split at h
  · obtain ⟨rfl, -⟩ := Prod.mk.inj (Except.ok.inj h)
    rfl
  · obtain ⟨rfl, -⟩ := Prod.mk.inj (Except.ok.inj h)
    rfl
  · obtain ⟨⟨st₁, result⟩, hcall, h⟩ := bind_eq_ok.mp h
    obtain ⟨rfl, -⟩ := Prod.mk.inj (Except.ok.inj h)
    exact hkeeps _ _ _ _ _ hcall

/-- The handler of the encrypted streams leaves the identities and the connection ids alone when no call changes its user. -/
theorem keepsRegistration_RVSec {svc : Service Database Unit} {ctx : Context} {zlib : Zlib} {registry : RmcRegistry}
    (hhandlers : ∀ port handler, svc.handlers port = some handler → handler = RVSecHandler ctx zlib registry)
    (hkeeps : registry.KeepsUser) : svc.KeepsRegistration := by
  constructor
  · intro port handler env sig reg db data r hhandler hr s ci' hl
    rw [hhandlers port handler hhandler] at hr
    cases hc : reg.clients.lookup sig with
    | none =>
      simp only [RVSecHandler, hc] at hr
      rw [← Except.ok.inj hr] at hl
      exact ⟨ci', hl, rfl⟩
    | some caller =>
      simp only [RVSecHandler, hc] at hr
      obtain ⟨⟨st, answer⟩, hcall, hr⟩ := bind_eq_ok.mp hr
      rw [← Except.ok.inj hr] at hl
      simp only [updateRegistry, lookup_mapValues, Option.map_eq_some_iff] at hl
      obtain ⟨ci, hci, rfl⟩ := hl
      refine ⟨ci, hci, Prod.ext ?_ rfl⟩
      show (if s = sig then st.userId else ci.userId) = ci.userId
      split
      · rename_i hs
        rw [hs, hc] at hci
        rw [userId_handle hkeeps hcall, ← Option.some.inj hci]
        rfl
      · rfl
  · intro port handler env sig reg db data r hhandler hr
    rw [hhandlers port handler hhandler] at hr
    cases hc : reg.clients.lookup sig with
    | none =>
      simp only [RVSecHandler, hc] at hr
      rw [← Except.ok.inj hr]
    | some caller =>
      simp only [RVSecHandler, hc] at hr
      obtain ⟨_, -, hr⟩ := bind_eq_ok.mp hr
      rw [← Except.ok.inj hr]
      rfl

/-! ## Calls that keep the user -/

/-- The handler leaves the user of the connection. -/
def Keeps {α : Type} (h : RmcHandler α) : Prop := ∀ c st st' r, h c st = .ok (st', r) → st'.userId = st.userId

theorem keeps_pure {α : Type} (a : α) : Keeps (pure a : RmcHandler α) := by
  intro c st st' r h
  obtain ⟨rfl, -⟩ := Prod.mk.inj (Except.ok.inj h)
  rfl

theorem keeps_fail {α : Type} (e : Rmc.Error) : Keeps (Handler.fail e : RmcHandler α) := by
  intro c st st' r h
  obtain ⟨rfl, -⟩ := Prod.mk.inj (Except.ok.inj h)
  rfl

theorem keeps_caller : Keeps (Handler.caller : RmcHandler Caller) := by
  intro c st st' r h
  obtain ⟨rfl, -⟩ := Prod.mk.inj (Except.ok.inj h)
  rfl

theorem keeps_orFail {α : Type} (x : Except Rmc.Error α) : Keeps (Handler.orFail x) := by
  intro c st st' r h
  obtain ⟨rfl, -⟩ := Prod.mk.inj (Except.ok.inj h)
  rfl

theorem keeps_orPanic {α : Type} (x : Except Panic α) : Keeps (Handler.orPanic x) := by
  intro c st st' r h
  cases x with
  | error p => nomatch h
  | ok a =>
    obtain ⟨rfl, -⟩ := Prod.mk.inj (Except.ok.inj h)
    rfl

theorem Keeps.bind {α β : Type} {h : RmcHandler β} {f : β → RmcHandler α} (hh : Keeps h) (hf : ∀ b, Keeps (f b)) : Keeps (h >>= f) := by
  intro c st st' r hend
  rcases Handler.bind_ends hend with ⟨st₁, b, hb, hrest⟩ | ⟨e, he, -⟩
  · exact (hf b c st₁ st' r hrest).trans (hh c st st₁ _ hb)
  · exact hh c st st' _ he

theorem keeps_loginRequired : Keeps loginRequired := by
  intro c st st' r h
  cases huser : st.userId with
  | none =>
    simp only [loginRequired, Bind.bind, Handler.inspect, Handler.operate, huser] at h
    obtain ⟨rfl, -⟩ := Prod.mk.inj (Except.ok.inj h)
    exact huser
  | some user =>
    simp only [loginRequired, Bind.bind, Handler.inspect, Handler.operate, huser] at h
    obtain ⟨rfl, -⟩ := Prod.mk.inj (Except.ok.inj h)
    exact huser

theorem keeps_decode (t : Ty) (parameters : Bytes) : Keeps (decode t parameters) := by
  unfold decode
  split
  · exact keeps_pure _
  · exact keeps_fail _

/-- A method keeps the user when its implementation does. -/
theorem keeps_method {m : Method} (h : ∀ request, Keeps (m.call request)) (parameters : Bytes) : Keeps (m.handle parameters) :=
  (keeps_decode _ _).bind fun request => (h request).bind fun _ => keeps_caller.bind fun _ => keeps_orPanic _

/-- A generated server keeps the user when the implementations of its methods do. -/
theorem keeps_generated {rest : Unimplemented} {id : UInt16} {methods : List Method} (h : ∀ m ∈ methods, ∀ request, Keeps (m.call request))
    (request : Request) : Keeps ((Protocol.generated rest id methods).handle request) := by
  unfold Protocol.generated
  dsimp only
  split
  · rename_i m hm
    exact keeps_method (h m (List.mem_of_find?_eq_some hm)) _
  · unfold unimplementedMethod
    split
    · exact (keeps_decode _ _).bind fun _ => keeps_fail _
    · exact keeps_fail _

/-- Registering a protocol that keeps the user keeps it in all calls. -/
theorem keepsUser_registerProtocol {registry : RmcRegistry} (h : registry.KeepsUser) {protocol : Protocol}
    (hp : ∀ request, Keeps (protocol.handle request)) : (registry.registerProtocol protocol).KeepsUser := by
  intro request c st st' r hcall
  by_cases hid : request.protocolId = protocol.id
  · rw [RmcRegistry.call, RmcRegistry.registerProtocol, hid, AList.lookup_insert] at hcall
    exact hp request c st st' r hcall
  · rw [RmcRegistry.call, RmcRegistry.registerProtocol, AList.lookup_insert_ne hid] at hcall
    exact h request c st st' r hcall

/-- A registration keeps the user. -/
theorem keeps_answerRegistration (sid type : Text) : Keeps (answerRegistration sid type) :=
  keeps_loginRequired.bind fun _ => keeps_caller.bind fun _ => (keeps_orPanic _).bind fun _ => (keeps_orFail _).bind fun _ => keeps_pure _

/-- The secure connection protocol keeps the user. -/
theorem keeps_newProtocol (rest : Unimplemented) (request : Request) : Keeps ((newProtocol rest).handle request) := by
  refine keeps_generated (fun m hm request => ?_) request
  rcases List.mem_cons.mp hm with rfl | hm
  · exact (keeps_answerRegistration _ _).bind fun _ => keeps_pure _
  · obtain rfl := List.mem_singleton.mp hm
    exact (keeps_answerRegistration _ _).bind fun _ => keeps_pure _

/-! ## The answer of a registration -/

/-- The station URL of a registration. -/
def registeredUrl (address : SocketAddr) (sid type : Text) : StationURL where
  scheme := "prudp".toList
  address := address.ip
  port := address.port
  params :=
    { entries := [⟨"sid".toList, sid⟩, ⟨"type".toList, type⟩]
      nodupKeys := by
        change (["sid".toList, "type".toList] : List Text).Nodup
        decide }

/-- The text of a registration, part by part. -/
theorem text_registered (ip port sid type : Text) :
    "prudp:/address=".toList ++ ip ++ ";port=".toList ++ port ++ ";sid=".toList ++ sid ++ ";type=".toList ++ type =
      "prudp".toList ++ ":/".toList ++ joinWith ';'
        [printParam "address".toList ip, printParam "port".toList port, printParam "sid".toList sid, printParam "type".toList type] := by
  simp [joinWith, printParam]

/-- The text of a registration is its station URL in print. -/
theorem urlPublic_eq (address : SocketAddr) (sid type : Text) :
    urlPublic address sid type = (registeredUrl address sid type).display .listed :=
  text_registered address.ip (toString address.port).toList sid type

/-- The station URL of a registration can be told apart in print. -/
theorem printable_registeredUrl {address : SocketAddr} (h : address.Printed) {sid type : Text} (hsid : ';' ∉ sid) (htype : ';' ∉ type) :
    (registeredUrl address sid type).Printable where
  scheme rest := by
    have happ := splitOnce_append "/".toList rest (show ':' ∉ "prudp".toList by decide)
    simpa [registeredUrl] using happ
  address := h.semicolon_notMem
  keys e he := by
    have hkeys : ["sid".toList, "type".toList].all (fun key =>
        '=' ∉ key ∧ ';' ∉ key ∧ key ≠ "address".toList ∧ key ≠ "port".toList) = true := by decide
    have hkey : e.1 ∈ ["sid".toList, "type".toList] := List.mem_map.mpr ⟨e, he, rfl⟩
    exact of_decide_eq_true (List.all_eq_true.mp hkeys e.1 hkey)
  values e he := by
    have hvalue : e.2 ∈ [sid, type] := List.mem_map.mpr ⟨e, he, rfl⟩
    simp only [List.mem_cons, List.not_mem_nil, or_false] at hvalue
    rcases hvalue with hvalue | hvalue <;> rw [hvalue] <;> assumption

/-- A registration of a connection with a user and an id is answered with the id and the address of the connection. -/
theorem answerRegistration_eq {c : Caller} {st : CallState} {user : UInt32} (huser : st.userId = some user) {id : ConnectionID}
    (hid : c.info.connectionId = some id) (haddress : c.info.address.Printed) {sid type : Text} (hsid : ';' ∉ sid) (htype : ';' ∉ type) :
    ∃ u, answerRegistration sid type c st = .ok (st, .ok { returnValue := .ok, pidConnectionId := id.id, urlPublic := u }) ∧
      u.address = c.info.address.ip ∧ u.port = c.info.address.port := by
  obtain ⟨u, hparse, hsame⟩ := StationURL.parse_display (printable_registeredUrl haddress hsid htype) .listed
  rw [← urlPublic_eq] at hparse
  refine ⟨u, ?_, hsame.address.symm, hsame.port.symm⟩
  rw [answerRegistration, loginRequired_bind huser]
  simp only [bind, Handler.caller, Handler.orPanic, hid, unwrap, Handler.orFail, Handler.operate, hparse, Except.mapError]
  rfl

/-- A station URL with the number of an open connection leads to it. -/
theorem probeTarget_of_resolves {reg : ClientRegistry Unit} {n : Nat} (h : reg.Resolves n) {s : UInt32} {ci : ClientInfo Unit}
    (hl : reg.clients.lookup s = some ci) {id : ConnectionID} (hid : ci.connectionId = some id) {url : StationURL}
    (hurl : url.params.lookup "RVCID".toList = some (toString id.id).toList) : probeTarget reg url = some (s, ci) := by
  have hdigits : (toString id.id).toList = Nat.toDigits 10 id.id.toNat := String.toList_ofList
  have hnumber : parseU32 (toString id.id).toList = some id.id.toNat := by
    rw [hdigits, parseU32_toDigits, if_pos id.id.toNat_lt]
  have hround : (⟨UInt32.ofNat id.id.toNat⟩ : ConnectionID) = id := congrArg ConnectionID.mk UInt32.ofNat_toNat
  have hfound : reg.clientByConnectionId id = some (s, ci) := by
    rw [ClientRegistry.clientByConnectionId, h.found s ci id hl hid, Option.bind_some, hl]
    rfl
  simp only [probeTarget, hurl, hnumber, bind, Option.bind_some, hround, hfound]

end ConnectionIds

open ConnectionIds

/-- In every state of the secure server, until 2^32 packets were handled, a connection with a user is registered without a panic under
an id that is its own, and a station URL with this id leads the probes of others to it. -/
theorem registration_resolves (svc : Service Database Unit) {ctx : Context} {zlib : Zlib} {registry : RmcRegistry}
    (hhandlers : ∀ port handler, svc.handlers port = some handler → handler = RVSecHandler ctx zlib registry)
    (hkeeps : registry.KeepsUser) (db : Database) {steps : List ServerStep} (hsteps : steps.length < 2 ^ 32)
    {srv : Server Database Unit} (hrun : run (liveStep (serverStep svc)) (.ok (Server.new db)) steps = .ok srv) {s : UInt32}
    {ci : ClientInfo Unit} (hl : srv.clientRegistry.clients.lookup s = some ci) {user : UInt32} (huser : ci.userId = some user)
    (haddress : ci.address.Printed) :
    ∃ id, ci.connectionId = some id ∧
      (∀ s' ci', s' ≠ s → srv.clientRegistry.clients.lookup s' = some ci' → ci'.connectionId ≠ some id) ∧
      (∀ c st, c.info = ci → st.userId = some user → ∀ urls data, ∃ u u',
        register urls c st = .ok (st, .ok { returnValue := .ok, pidConnectionId := id.id, urlPublic := u }) ∧
        registerEx urls data c st = .ok (st, .ok { returnValue := .ok, pidConnectionId := id.id, urlPublic := u' }) ∧
        u.address = ci.address.ip ∧ u'.address = ci.address.ip) ∧
      ∀ url : StationURL, url.params.lookup "RVCID".toList = some (toString id.id).toList →
        probeTarget srv.clientRegistry url = some (s, ci) := by
  obtain ⟨n, -, hres⟩ := Prudp.ConnectionIds.resolves_run svc (keepsRegistration_RVSec hhandlers hkeeps) db hsteps hrun
  have hsome := hres.whole s ci hl
  rw [huser] at hsome
  obtain ⟨id, hid⟩ := Option.isSome_iff_exists.mp hsome.symm
  refine ⟨id, hid, fun s' ci' hne hl' hid' => hne (hres.distinct s' s ci' ci id hl' hl hid' hid), ?_,
    fun url hurl => probeTarget_of_resolves hres hl hid hurl⟩
  rintro c st rfl hst urls data
  obtain ⟨u, hu, haddr, -⟩ := answerRegistration_eq hst hid haddress (show ';' ∉ "14".toList by decide) (show ';' ∉ "2".toList by decide)
  obtain ⟨u', hu', haddr', -⟩ := answerRegistration_eq hst hid haddress (show ';' ∉ "15".toList by decide) (show ';' ∉ "3".toList by decide)
  exact ⟨u, u', hu, hu', haddr, haddr'⟩

section

open Prudp.Registry AtMostOnce

namespace ConnectionIds

/-- The protocols of a secure server that only registers. -/
def registering : RmcRegistry := RmcRegistry.registerProtocol ∅ (newProtocol fun _ _ => none)

/-- A secure server that only registers. -/
def registeringService : Service Database Unit where
  ctx := Context.splinterCellBlacklist []
  zlib := storing
  box := reversing
  handlers _ := some (RVSecHandler (Context.splinterCellBlacklist []) storing registering)
  userHandler := none
  expiredClientHandler := none
  disconnectHandler := none

end ConnectionIds

/-- The client with a ticket is registered under the first id. -/
theorem registration_resolves_first :
    ∃ srv ci, run (liveStep (serverStep registeringService)) (.ok (Server.new Auth.Authentication.started.storage))
        [synStep, connectStep ticketData] = .ok srv ∧
      srv.clientRegistry.clients.lookup 7 = some ci ∧ ci.userId = some 1000 ∧
      ∃ id, ci.connectionId = some id ∧
        ∀ url : StationURL, url.params.lookup "RVCID".toList = some (toString id.id).toList →
          probeTarget srv.clientRegistry url = some (7, ci) := by
  obtain ⟨srv, hsrv, hboth⟩ := exists_ok_of_toOption
    (x := run (liveStep (serverStep registeringService)) (.ok (Server.new Auth.Authentication.started.storage))
      [synStep, connectStep ticketData])
    (f := fun srv => (srv.clientRegistry.clients.lookup 7).map (fun ci => (ci.userId, ci.address.ip))) (b := some (some 1000, address.ip))
    (by decide +kernel)
  obtain ⟨ci, hci, hpair⟩ := Option.map_eq_some_iff.mp hboth
  obtain ⟨huser, hip⟩ := Prod.mk.inj hpair
  have hprinted : ci.address.Printed := by
    rw [SocketAddr.Printed, hip]
    have hall : address.ip.all (fun c => c.isDigit ∨ c ∈ "abcdef.:".toList) = true := by decide
    exact fun c hc => of_decide_eq_true (List.all_eq_true.mp hall c hc)
  have hempty : RmcRegistry.KeepsUser ∅ := fun request c st st' r h => keeps_fail .unknownProtocol c st st' r h
  have hkeeps : registering.KeepsUser := keepsUser_registerProtocol hempty (keeps_newProtocol _)
  obtain ⟨id, hid, -, -, hprobe⟩ := registration_resolves registeringService (fun _ _ h => (Option.some.inj h).symm) hkeeps
    Auth.Authentication.started.storage (by decide) hsrv hci huser hprinted
  exact ⟨srv, ci, hsrv, hci, huser, id, hid, hprobe⟩

end

end Scbl.Services
