import Scbl.Lemmas.Server
import Scbl.Theorems.AtMostOnce

/-!
# Retransmitted handshake packets

A CONNECT takes its connection out of the table of those being opened, and a DISCONNECT out of the table of the open ones. A copy of
the packet finds nothing under its signature: it is ignored, and its client gets no second acknowledgement (`copy_ignored`).
-/

namespace Scbl.Prudp

open Scbl.Lib

variable {σ T : Type}

/-- A step puts a connection back under the signature of a CONNECT or DISCONNECT packet: a SYN that draws the signature of the CONNECT
again, or a CONNECT under the signature of the DISCONNECT. -/
def ServerStep.Reopens (p : QPacket) : ServerStep → Prop
  | .packet env q _ =>
    p.packetType = .connect ∧ q.packetType = .syn ∧ env.randomSignature = p.signature ∨
      p.packetType = .disconnect ∧ q.packetType = .connect ∧ q.signature = p.signature
  | .clearClients _ _ => False

namespace Retransmission

/-- There is nothing under the signature of a CONNECT or DISCONNECT packet. -/
structure Spent (p : QPacket) (srv : Server σ T) : Prop where
  connect : p.packetType = .connect → p.signature ∉ srv.newClients
  disconnect : p.packetType = .disconnect → p.signature ∉ srv.clientRegistry.clients

/-- A step that puts nothing back leaves nothing under the signature. -/
theorem Spent.step {svc : Service σ T} [Inhabited T] {p : QPacket} {srv srv' : Server σ T} {a : ServerStep} {es : List Event}
    (hspent : Spent p srv) (hreopens : ¬ a.Reopens p) (h : serverStep svc srv a = .ok (srv', es)) : Spent p srv' := by
  cases a with
  | clearClients now order =>
    obtain ⟨rfl, -⟩ := Prod.mk.inj (Except.ok.inj h)
    refine ⟨fun ht => ?_, fun ht hm => ?_⟩
    · rw [newClients_clearClients]
      exact hspent.connect ht
    · obtain ⟨ci, hl⟩ := Option.isSome_iff_exists.mp (AList.lookup_isSome.mpr hm)
      have hl' := ((lookup_clearClients now order svc srv _ ci).mp hl).1
      exact hspent.disconnect ht (AList.lookup_isSome.mp (by rw [hl']; rfl))
  | packet env q client =>
    rcases handlePacket_ok h with ⟨-, rfl, -⟩ | ⟨-, hq⟩
    · exact hspent
    · refine ⟨fun ht hm => ?_, fun ht hm => ?_⟩
      · rcases hq.mem_newClients hm with hm | ⟨hsyn, hrandom⟩
        · exact hspent.connect ht hm
        · exact hreopens (Or.inl ⟨ht, hsyn, hrandom⟩)
      · rcases hq.mem_clients hm with hm | ⟨hconnect, hsig⟩
        · exact hspent.disconnect ht hm
        · exact hreopens (Or.inr ⟨ht, hconnect, hsig⟩)

/-- A packet with nothing under its signature is ignored. -/
theorem Spent.ignored {env : Env} {svc : Service σ T} [Inhabited T] {p : QPacket} {srv : Server σ T} (hspent : Spent p srv)
    (hp : p.packetType = .connect ∨ p.packetType = .disconnect) (client : SocketAddr) :
    handlePacket env svc srv p client = .ok (srv, []) := by
  unfold handlePacket
  split
  · rfl
  · rcases hp with ht | ht
    · rw [ht]
      show handleConnect env svc srv p client = _
      unfold handleConnect
      cases p.connSignature with
      | none => rfl
      | some signature => rw [AList.lookup_eq_none.mpr (hspent.connect ht)]
    · rw [ht]
      dsimp only
      rw [AList.lookup_eq_none.mpr (hspent.disconnect ht)]

/-- A packet that was handled is ignored afterwards anyway, or there is nothing left under its signature. -/
theorem spent_or_ignored {env : Env} {svc : Service σ T} [Inhabited T] {p : QPacket} {srv srv' : Server σ T} {client : SocketAddr}
    {es : List Event} (hp : p.packetType = .connect ∨ p.packetType = .disconnect)
    (h : handlePacket env svc srv p client = .ok (srv', es)) :
    Spent p srv' ∨ ∀ env' srv client', handlePacket env' svc srv p client' = .ok (srv, []) := by
  by_cases hack : p.flags.contains .ack = true
  · exact Or.inr (fun env' srv client' => if_pos hack)
  · rcases hp with ht | ht
    · have hcon : ∀ env srv client, handlePacket env svc srv p client = handleConnect env svc srv p client := by
        intro env srv client
        rw [handlePacket, if_neg hack, ht]
      rw [hcon] at h
      rcases handleConnect_ok h with ⟨hnone | hnew, rfl, -⟩ | ⟨signature, ci, -, -, hsrv⟩
      · refine Or.inr (fun env' srv client' => ?_)
        rw [hcon, handleConnect, hnone]
      · exact Or.inl ⟨fun _ => AList.lookup_eq_none.mp hnew, fun hd => (by cases ht.symm.trans hd)⟩
      · have hgone : p.signature ∉ srv.newClients.erase p.signature := fun hm => (AList.mem_erase.mp hm).1 rfl
        refine Or.inl ⟨fun _ => ?_, fun hd => (by cases ht.symm.trans hd)⟩
        rcases hsrv with rfl | ⟨user, -, rfl⟩ <;> exact hgone
    · rcases handleDisconnect_ok (Bool.not_eq_true _ ▸ hack) ht h with ⟨hl, rfl, -⟩ | ⟨ci, -, app, rfl⟩
      · exact Or.inl ⟨fun hc => (by cases ht.symm.trans hc), fun _ => AList.lookup_eq_none.mp hl⟩
      · exact Or.inl ⟨fun hc => (by cases ht.symm.trans hc), fun _ hm => (AList.mem_erase.mp hm).1 rfl⟩

end Retransmission

open Retransmission

/-- A CONNECT or DISCONNECT packet that was handled is ignored when it arrives again before a step has put a connection back under its
signature: it is not acknowledged, and the server stays as it is. -/
theorem copy_ignored {svc : Service σ T} [Inhabited T] {srv srv1 srv2 : Server σ T} {p : QPacket}
    (hp : p.packetType = .connect ∨ p.packetType = .disconnect) {env : Env} {client : SocketAddr} {es : List Event}
    (h : handlePacket env svc srv p client = .ok (srv1, es)) {between : List ServerStep}
    (hbetween : ∀ a ∈ between, ¬ a.Reopens p) (hrun : run (liveStep (serverStep svc)) (.ok srv1) between = .ok srv2)
    (env' : Env) (client' : SocketAddr) : handlePacket env' svc srv2 p client' = .ok (srv2, []) := by
  rcases spent_or_ignored hp h with hspent | hignored
  · have hspent2 : Spent p srv2 := by
      refine run_live_inv_of (fun _ a => ¬ a.Reopens p) ?_ hspent ?_ hrun
      · intro _ _ _ _ hs hr hstep
        exact hs.step hr hstep
      · intro t ht _ _
        exact hbetween _ (mem_trace ht).1
    exact hspent2.ignored hp client'
  · exact hignored env' srv2 client'

section

open AtMostOnce

namespace Retransmission

/-- An outside world whose socket sends every datagram, and which draws signature 7. -/
def sendingEnv : Env :=
  { quietEnv with
    randomSignature := 7
    send := fun data _ => some data.length
    send_whole := fun h => (Option.some.inj h).symm }

/-- A CONNECT under signature 7. -/
def connectPacket : QPacket := { packetType := .connect, signature := 7, connSignature := some 9 }

/-- A DISCONNECT under signature 7. -/
def disconnectPacket : QPacket := { packetType := .disconnect, signature := 7 }

/-- A SYN that draws signature 7. -/
def synStep : ServerStep := .packet sendingEnv { packetType := .syn, connSignature := some 0 } address

/-- A server after that SYN. -/
def afterSyn : Server Unit Unit := { Server.new () with newClients := AList.insert 7 (ClientInfo.new 0 7 address) ∅ }

/-- Whether an event is a datagram that was sent. -/
def Event.isSent : Event → Bool
  | .sent _ _ => true
  | .sendFailed _ => false

end Retransmission

/-- A CONNECT is ignored when it arrives again after expired connections were removed. -/
theorem copy_ignored_connect :
    ∃ srv1 es srv2, handlePacket sendingEnv silentService afterSyn connectPacket address = .ok (srv1, es) ∧
      run (liveStep (serverStep silentService)) (.ok srv1) [.clearClients 0 .listed] = .ok srv2 ∧
      handlePacket sendingEnv silentService srv2 connectPacket address = .ok (srv2, []) := by
  obtain ⟨⟨srv1, es⟩, h, -⟩ := exists_ok_of_toOption (f := fun _ => ()) (b := ())
    (x := handlePacket sendingEnv silentService afterSyn connectPacket address) (by decide +kernel)
  refine ⟨srv1, es, _, h, rfl, ?_⟩
  exact copy_ignored (Or.inl rfl) h
    (fun a (ha : a ∈ [ServerStep.clearClients 0 .listed]) => by rw [List.mem_singleton.mp ha]; exact not_false) rfl sendingEnv address

/-- A CONNECT and a DISCONNECT are acknowledged, their copies are not. -/
theorem copy_acknowledged_false :
    (trace (liveStep (serverStep silentService)) (.ok (Server.new ()))
        [synStep, .packet sendingEnv connectPacket address, .packet sendingEnv connectPacket address,
          .packet sendingEnv disconnectPacket address, .packet sendingEnv disconnectPacket address]).map
      (fun t => t.output.map Event.isSent) = [[true], [true], [], [true], []] := by
  decide +kernel

end

end Scbl.Prudp
