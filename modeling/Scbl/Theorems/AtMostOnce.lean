import Scbl.Lemmas.Receive
import Scbl.Lemmas.Server

/-!
# How often a message is executed

Nothing in the transport remembers which messages it has passed to a handler, so a client that retransmits has its request
executed again. What does bound the executions is that a completed message empties the fragment cache: every execution uses up
one delivery of each packet of the message (`executions_le_deliveries`). A message of which some packet arrives once is executed
at most once.
-/

namespace Scbl.Prudp

open Scbl.Lib

variable {σ T : Type}

/-- A data packet delivered to the server. -/
structure Delivery where
  env : Env
  packet : QPacket
  client : SocketAddr

/-- A server that still runs, or the panic that ended it. -/
abbrev ServerState (σ T : Type) : Type := Except Panic (Server σ T)

/-- The connection of a signature. -/
def connection (s : ServerState σ T) (sig : UInt32) : Option (ClientInfo T) :=
  match s with
  | .ok srv => srv.clientRegistry.clients.lookup sig
  | .error _ => none

/-- The payload `handleData` passes to a stream handler. -/
def passedPayload (svc : Service σ T) (s : ServerState σ T) (d : Delivery) : Option Bytes :=
  (connection s d.packet.signature).bind (fun ci =>
    (handlerCall svc d.packet (receivePayload d.env.now (ci.seen d.env.now) d.packet).2).map Prod.snd)

/-- One delivery: the server after it, and the payload passed to a handler. -/
def deliver (svc : Service σ T) (s : ServerState σ T) (d : Delivery) : ServerState σ T × Option Bytes :=
  (s.bind (fun srv => (handleData d.env svc srv d.packet d.client).map Prod.fst), passedPayload svc s d)

/-- A packet is the `k`-th packet of the message of a connection. -/
def deliversPacket (M : Message) (sig : UInt32) (k : Nat) (d : Delivery) : Bool :=
  d.packet.signature = sig ∧ d.packet.fragmentId = some (UInt8.ofNat (M.chunks.length - 1 - k)) ∧
    d.packet.sequence = M.start + UInt16.ofNat k ∧ M.chunks[k]? = some d.packet.payload

/-- A connection holds the `k`-th packet of the message in its open group. -/
def cachesPacket (M : Message) (k : Nat) (ci : ClientInfo T) : Bool :=
  ci.packetFragmentFinalSequence = some M.finalSequence ∧
    ∃ c ∈ M.chunks[k]?, ci.packetFragments.lookup (UInt8.ofNat (M.chunks.length - 1 - k)) = some c

/-- A delivery executes the message: its last packet arrives, the open group holds the others, and the handler is passed the
payload of the message. -/
def executes (M : Message) (sig : UInt32) (t : Transition (ServerState σ T) Delivery (Option Bytes)) : Bool :=
  deliversPacket M sig (M.chunks.length - 1) t.input ∧ t.output = some M.payload ∧
    (connection t.before sig).any (fun ci =>
      (List.range (M.chunks.length - 1)).all (fun k => cachesPacket M k (expireFragmentState t.input.env.now ci)))

namespace AtMostOnce

/-! ## The connection after a delivery -/

/-- A delivery changes the fragments of the connection of its packet only, as `receivePayload` does. -/
theorem connection_deliver {svc : Service σ T} {s : ServerState σ T} {d : Delivery} {sig : UInt32} {ci' : ClientInfo T}
    (h : connection (deliver svc s d).1 sig = some ci') :
    ∃ ci, connection s sig = some ci ∧ ci'.fragmentState =
      if d.packet.signature = sig then (receivePayload d.env.now (ci.seen d.env.now) d.packet).1.fragmentState
      else ci.fragmentState := by
  cases s with
  | error p => nomatch h
  | ok srv =>
    cases hd : handleData d.env svc srv d.packet d.client with
    | error p =>
      simp only [deliver, Except.bind, hd, Except.map, connection] at h
      nomatch h
    | ok r =>
      obtain ⟨srv', es⟩ := r
      simp only [deliver, Except.bind, hd, Except.map, connection] at h ⊢
      cases hl : srv.clientRegistry.clients.lookup d.packet.signature with
      | none =>
        have hsrv : srv' = srv := by
          unfold handleData at hd
          rw [hl] at hd
          exact (Prod.mk.inj (Except.ok.inj hd)).1.symm
        rw [hsrv] at h
        refine ⟨ci', h, ?_⟩
        rw [if_neg]
        intro hs
        rw [hs, h] at hl
        nomatch hl
      | some ci =>
        have hreg := handleData_registry hl hd sig
        rw [h, receivedRegistry, ClientRegistry.lookup_set, Option.map_some] at hreg
        by_cases hs : sig = d.packet.signature
        · rw [if_pos hs, Option.map_some, Option.some.injEq] at hreg
          exact ⟨ci, by rw [hs, hl], by rw [hreg, if_pos hs.symm]⟩
        · rw [if_neg hs] at hreg
          obtain ⟨ci0, h0, he⟩ := Option.map_eq_some_iff.mp hreg.symm
          exact ⟨ci0, h0, by rw [if_neg (Ne.symm hs), he]⟩

/-! ## The pieces of the message -/

variable {M : Message}

/-- Whether a packet is cached depends on the fragments only. -/
theorem cachesPacket_congr {k : Nat} {ci ci' : ClientInfo T} (h : ci'.fragmentState = ci.fragmentState) :
    cachesPacket M k ci' = cachesPacket M k ci := by
  obtain ⟨hf, h⟩ := Prod.mk.inj h
  obtain ⟨-, h⟩ := Prod.mk.inj h
  obtain ⟨hs, -⟩ := Prod.mk.inj h
  rw [cachesPacket, cachesPacket, hf, hs]

/-- A connection that caches nothing caches no packet. -/
theorem not_cachesPacket_of_empty {k : Nat} {ci : ClientInfo T} (h : ci.packetFragments = ∅) :
    cachesPacket M k ci = false := by
  simp [cachesPacket, h]

/-- What expiring leaves was cached before. -/
theorem cachesPacket_of_expire {k : Nat} {now : Instant} {ci : ClientInfo T}
    (h : cachesPacket M k (expireFragmentState now ci) = true) : cachesPacket M k ci = true := by
  rcases expireFragmentState_cases now ci with he | he
  · rw [he, not_cachesPacket_of_empty rfl] at h
    nomatch h
  · rwa [he] at h

/-- A packet of the message that is cached after a fragment was received was cached before or is that fragment. -/
theorem cachesPacket_receive {k : Nat} (hk : k + 1 < M.chunks.length) {now : Instant} {ci : ClientInfo T} {p : QPacket}
    (h : cachesPacket M k (receivePayload now ci p).1 = true) :
    cachesPacket M k ci = true ∨ p.fragmentId = some (UInt8.ofNat (M.chunks.length - 1 - k)) ∧
      p.sequence = M.start + UInt16.ofNat k ∧ M.chunks[k]? = some p.payload := by
  cases hp : p.fragmentId with
  | none =>
    rw [receivePayload, hp] at h
    exact Or.inl h
  | some fid =>
    by_cases hfid : fid = 0
    · subst hfid
      rw [not_cachesPacket_of_empty (receivePayload_final_fragments now ci hp)] at h
      cases h
    · have hjoined : cachesPacket M k (joinedGroup now ci fid p.sequence) = true → cachesPacket M k ci = true := by
        intro hj
        rcases openFragmentGroup_cases now (expireFragmentState now ci) (p.sequence + fid.toUInt16) with ⟨_, he⟩ | ⟨_, he, _⟩
        · rw [joinedGroup, he] at hj
          exact cachesPacket_of_expire hj
        · rw [joinedGroup, not_cachesPacket_of_empty he] at hj
          cases hj
      rcases receivePayload_fragment now ci hp hfid with ⟨_, _, he⟩ | ⟨_, he⟩ | ⟨_, he⟩
      · rw [he] at h
        by_cases hi : UInt8.ofNat (M.chunks.length - 1 - k) = fid
        · subst hi
          obtain ⟨hf, c, hc, hl⟩ := of_decide_eq_true h
          rw [keepFragment, joinedGroup, openFragmentGroup_final, Option.some.injEq,
            ← Message.start_add (show k < M.chunks.length by omega)] at hf
          rw [keepFragment, AList.lookup_insert, Option.some.injEq] at hl
          rw [hl]
          exact Or.inr ⟨rfl, (UInt16.add_left_inj _).mp hf, hc⟩
        · refine Or.inl (hjoined ?_)
          simpa only [cachesPacket, keepFragment, AList.lookup_insert_ne hi] using h
      · rw [he] at h
        exact Or.inl (hjoined h)
      · rw [he, not_cachesPacket_of_empty rfl] at h
        cases h

/-! ## One delivery -/

/-- Whether the connection of a signature caches the `k`-th packet of the message. -/
def held (M : Message) (sig : UInt32) (k : Nat) (s : ServerState σ T) : Bool := (connection s sig).any (cachesPacket M k)

/-- A packet other than the last that is cached after a delivery was cached before or has just been delivered. -/
theorem held_deliver {svc : Service σ T} {s : ServerState σ T} {d : Delivery} {sig : UInt32} {k : Nat}
    (hk : k + 1 < M.chunks.length) (h : held M sig k (deliver svc s d).1 = true) :
    held M sig k s = true ∨ deliversPacket M sig k d = true := by
  obtain ⟨ci', hc', hcache⟩ := (Option.any_eq_true _ _).mp h
  obtain ⟨ci, hc, hfrag⟩ := connection_deliver hc'
  rw [held, hc, Option.any_some]
  by_cases hs : d.packet.signature = sig
  · rw [if_pos hs] at hfrag
    rw [cachesPacket_congr hfrag] at hcache
    rcases cachesPacket_receive hk hcache with hold | ⟨hfid, hseq, hpay⟩
    · exact Or.inl hold
    · exact Or.inr (decide_eq_true ⟨hs, hfid, hseq, hpay⟩)
  · rw [if_neg hs] at hfrag
    rw [cachesPacket_congr hfrag] at hcache
    exact Or.inl hcache

/-- An execution uses up the packets cached. -/
theorem held_of_executes {svc : Service σ T} {s : ServerState σ T} {d : Delivery} {sig : UInt32} {k : Nat}
    (hk : k + 1 < M.chunks.length) (h : executes M sig ⟨s, d, (deliver svc s d).2, (deliver svc s d).1⟩ = true) :
    held M sig k s = true ∧ held M sig k (deliver svc s d).1 = false := by
  obtain ⟨hlast, _, hall⟩ := of_decide_eq_true h
  obtain ⟨hs, hfid, _, _⟩ := of_decide_eq_true hlast
  obtain ⟨ci, hc, hpieces⟩ := (Option.any_eq_true _ _).mp hall
  have hcache := List.all_eq_true.mp hpieces k (List.mem_range.mpr (by omega))
  refine ⟨by rw [held, hc]; exact cachesPacket_of_expire hcache, ?_⟩
  rw [held]
  cases hafter : connection (deliver svc s d).1 sig with
  | none => rfl
  | some ci' =>
    obtain ⟨ci0, _, hfrag⟩ := connection_deliver hafter
    rw [if_pos hs] at hfrag
    rw [Option.any_some, cachesPacket_congr hfrag]
    refine not_cachesPacket_of_empty (receivePayload_final_fragments _ _ ?_)
    rw [hfid, Nat.sub_self]
    rfl

end AtMostOnce

open AtMostOnce

/-- On any deliveries of data packets to a server whose connection caches no fragment at first, a message is executed at most
as often as each of its packets is delivered. -/
theorem executions_le_deliveries (svc : Service σ T) (M : Message) (sig : UInt32) (s : ServerState σ T)
    (hidle : ∀ ci, connection s sig = some ci → ci.packetFragments = ∅) (ds : List Delivery) (k : Nat)
    (hk : k < M.chunks.length) :
    (trace (deliver svc) s ds).countP (executes M sig) ≤ ds.countP (deliversPacket M sig k) := by
  by_cases hlast : k = M.chunks.length - 1
  · have hstep : ∀ (s : ServerState σ T) (d : Delivery),
        0 + (if executes M sig ⟨s, d, (deliver svc s d).2, (deliver svc s d).1⟩ then 1 else 0) ≤
          0 + (if deliversPacket M sig k d then 1 else 0) := by
      intro s d
      by_cases he : executes M sig ⟨s, d, (deliver svc s d).2, (deliver svc s d).1⟩ = true
      · have hp : deliversPacket M sig k d = true := by
          rw [hlast]
          exact (of_decide_eq_true he).1
        rw [if_pos he, if_pos hp]
      · rw [if_neg he]
        omega
    have := @countP_spends_le _ _ _ (deliver svc) (fun _ => 0) (deliversPacket M sig k) (executes M sig) hstep s ds
    omega
  · have hk1 : k + 1 < M.chunks.length := by omega
    have hstep : ∀ (s : ServerState σ T) (d : Delivery),
        (held M sig k (deliver svc s d).1).toNat +
            (if executes M sig ⟨s, d, (deliver svc s d).2, (deliver svc s d).1⟩ then 1 else 0) ≤
          (held M sig k s).toNat + (if deliversPacket M sig k d then 1 else 0) := by
      intro s d
      by_cases he : executes M sig ⟨s, d, (deliver svc s d).2, (deliver svc s d).1⟩ = true
      · obtain ⟨h1, h2⟩ := held_of_executes hk1 he
        rw [h1, h2, if_pos he]
        simp
      · rw [if_neg he]
        cases hh : held M sig k (deliver svc s d).1 with
        | false => simp
        | true =>
          rcases held_deliver hk1 hh with h1 | h1
          · rw [h1]; simp
          · rw [h1]; simp
    have h0 : held M sig k s = false := by
      rw [held]
      cases hc : connection s sig with
      | none => rfl
      | some ci => exact not_cachesPacket_of_empty (hidle ci hc)
    have := @countP_spends_le _ _ _ (deliver svc) (fun s => (held M sig k s).toNat) (deliversPacket M sig k)
      (executes M sig) hstep s ds
    rw [h0] at this
    simpa using this

namespace AtMostOnce

/-- A library that stores the data behind a marker instead of compressing it. -/
def storing : Zlib where
  compress data := 120 :: data
  decompress data limit := if data.tail.length ≤ limit then some data.tail else none

/-- A library that seals by reversing. -/
def reversing : Secretbox where
  sealBox msg _ _ := msg.reverse
  openBox data _ _ := some data.reverse
  openBox_sealBox msg _ _ := by rw [List.reverse_reverse]

/-- A handler that answers with nothing. -/
def silentHandler : StreamHandler Unit Unit where
  handle _ _ reg app _ := .ok { registry := reg, app, events := [], answer := .ok [] }
  keeps_fragments h s := by rw [← Except.ok.inj h]

/-- A service with one handler on every port. -/
def silentService : Service Unit Unit where
  ctx := Context.splinterCellBlacklist []
  zlib := storing
  box := reversing
  handlers _ := some silentHandler
  userHandler := none
  expiredClientHandler := none
  disconnectHandler := none

/-- A release build whose socket refuses every datagram. -/
def quietEnv : Env where
  build := .release
  now := 0
  unixTime := 0
  randomSignature := 0
  randomSession := 0
  randomCallId _ := 0
  sessionKey := []
  nonce := []
  mapOrder := .listed
  readFile _ := none
  send _ _ := none
  send_whole h := nomatch h

/-- A client's address. -/
def address : SocketAddr := { ip := "127.0.0.1".toList, port := 3074 }

/-- A server with one open connection. -/
def oneClient : Server Unit Unit :=
  { Server.new () with
    clientRegistry :=
      { clients := AList.insert 7 (ClientInfo.new 0 7 { ip := "127.0.0.1".toList, port := 3074 }) ∅
        connectionIdSessionIds := ∅ } }

/-- A message of one byte. -/
def oneByte : Message where
  chunks := [[9]]
  start := 5
  chunks_ne_nil := by decide
  chunk_ne_nil := by decide
  length_le := by decide

/-- The delivery of its packet. -/
def oneByteDelivery : Delivery where
  env := quietEnv
  packet := { packetType := .data, signature := 7, fragmentId := some 0, sequence := 5, payload := [9] }
  client := { ip := "127.0.0.1".toList, port := 3074 }

end AtMostOnce

/-- A message whose packet is delivered once is executed at most once. -/
theorem executions_le_deliveries_once :
    (trace (deliver silentService) (.ok oneClient) [oneByteDelivery]).countP (executes oneByte 7) ≤ 1 := by
  refine (executions_le_deliveries silentService oneByte 7 (.ok oneClient) ?_ [oneByteDelivery] 0 (by decide)).trans
    (by decide)
  intro ci hc
  rw [← Option.some.inj (hc : some (ClientInfo.new 0 7 { ip := "127.0.0.1".toList, port := 3074 }) = some ci)]
  rfl

/-- A message whose packet is delivered twice is executed twice. -/
theorem executed_at_most_once_false :
    (trace (deliver silentService) (.ok oneClient) [oneByteDelivery, oneByteDelivery]).map (fun t => t.output) =
        [some [9], some [9]] ∧
      (trace (deliver silentService) (.ok oneClient) [oneByteDelivery, oneByteDelivery]).countP (executes oneByte 7) = 2 := by
  decide

end Scbl.Prudp
