import Scbl.Auth.TicketGranting
import Scbl.Theorems.Authentication
import Scbl.Theorems.Connect
import Scbl.Theorems.PacketCodec
import Scbl.Theorems.StreamCodec
import Scbl.Theorems.TicketBuffer

/-!
# From a ticket to a connection

The two servers meet in the ticket: the ticket-granting service seals one for the user of a connection, and the secure server opens
it. A client stands between them. It opens the buffer for the ticket with its password, and presents the sealed inside together with
a proof of the session key. `clientTicket` and `connectPayload` say what such a client does; the servers are as in the code.
-/

namespace Scbl.Auth

open Scbl.Lib Scbl.Rmc Scbl.Prudp

/-- What a client holds of a ticket: the session key, the target and the sealed inside. -/
structure ClientTicket where
  sessionKey : Bytes
  pid : UInt32
  ticket : Bytes
  deriving DecidableEq, Repr

/-- What a client reads in the buffer for a ticket, with its password: the digest at the end is checked, the rest is decrypted. -/
def clientTicket (digests : Digests) (userId : UInt32) (password : Option Text) (buf : Bytes) :
    Except Panic (Except FromStreamError ClientTicket) := do
  let key := deriveKey digests userId password
  let body := buf.take (buf.length - md5OutputSize)
  if digests.hmacMd5 key body ≠ buf.drop (buf.length - md5OutputSize) then return .error .io
  let body ← cryptKey key body
  return (do
    let (sessionKey, rdr) ← readNBytes sessionKeySize body
    let (pid, rdr) ← streamU32 rdr
    let (ticket, _) ← readVec streamU8 rdr
    return { sessionKey, pid, ticket })

/-- What a client presents in a CONNECT packet: the sealed ticket, and a proof under its session key. -/
def connectPayload (t : ClientTicket) (cd : ConnectData) : Except Panic Bytes := do
  let proof ← cryptKey t.sessionKey (putU32 cd.userPid ++ putU32 cd.connectionId ++ putU32 cd.challenge)
  return putVecU8 t.ticket ++ putVecU8 proof

/-- The boxes of the library are longer than what they hold by an authentication tag. -/
def Tagged (box : Secretbox) : Prop := ∀ msg nonce key, (box.sealBox msg nonce key).length = msg.length + 16

/-- The random bytes of a call. -/
def AuthCall.entropy? : AuthCall → Option Entropy
  | .login _ entropy _ | .loginEx _ entropy _ | .requestTicket _ entropy _ => some entropy
  | .storage _ => none

/-- The random bytes have the length of a session key and of a nonce. -/
structure Entropy.Drawn (entropy : Entropy) : Prop where
  sessionKey : entropy.sessionKey.length = sessionKeySize
  nonce : entropy.nonce.length = nonceBytes

/-- The buffer for the ticket in an answer. -/
def Answer.buffer : Answer → Option Bytes
  | .refused _ => none
  | .login _ response => some response.pbufResponse
  | .ticket _ bufResponse => some bufResponse

/-- The password a client of a call needs for its ticket: `login_ex` leaves it out. -/
def AuthCall.ticketPassword (db : Storage.Database) (userId : UInt32) : AuthCall → Option Text
  | .loginEx .. => none
  | _ => findPasswordForUser db userId

/-- A CONNECT opened a connection for a user: the connection has the user and the next connection id, by which it is found; the other
connections are as they were; and the client is sent an acknowledgement under its own signature that answers its challenge. -/
structure OpenedFor {σ T : Type} (svc : Service σ T) (srv : Server σ T) (p : QPacket) (client : SocketAddr) (user : UInt32)
    (answer : UInt32) (srv' : Server σ T) (es : List Event) : Prop where
  connection : ∃ ci, srv'.clientRegistry.clients.lookup p.signature = some ci ∧ ci.userId = some user ∧
    ci.connectionId = some ⟨srv.nextConnId⟩ ∧ ci.clientSignature = p.connSignature
  found : srv'.clientRegistry.signatureByConnectionId ⟨srv.nextConnId⟩ = some p.signature
  others : ∀ s, s ≠ p.signature → srv'.clientRegistry.clients.lookup s = srv.clientRegistry.clients.lookup s
  acknowledged : ∃ data ack, es = [.sent client data] ∧ QPacket.fromBytes svc.zlib svc.ctx data = .ok (ack, data.length) ∧
    ack.packetType = .connect ∧ ack.flags.contains .ack = true ∧ some ack.signature = p.connSignature ∧
    ack.payload = putVecU8 (putU32 answer)

/-- What a client sends to complete a connection with a ticket: an uncompressed CONNECT packet of the encrypted stream. -/
structure PresentsTicket (p : QPacket) (t : ClientTicket) (cd : ConnectData) : Prop where
  packetType : p.packetType = .connect
  notAck : p.flags.contains .ack = false
  sourcePort : p.source.port < 16
  destinationPort : p.destination.port < 16
  encrypted : p.destination.streamType = .RVSec
  fragmentId : p.fragmentId = none
  plain : p.useCompression = false
  signed : p.connSignature.isSome
  payload : connectPayload t cd = .ok p.payload

namespace Handshake

/-- The bytes of a sealed ticket. -/
theorem length_seal {box : Secretbox} (htag : Tagged box) {t : KerberosTicketInternal} (hsize : t.sessionKey.length = sessionKeySize)
    {nonce : Bytes} (hnonce : nonce.length = nonceBytes) (key : Bytes) : (t.seal box nonce key).length = 68 := by
  rw [KerberosTicketInternal.seal, List.length_append, htag, hnonce, KerberosTicketInternal.toBytes, List.length_append,
    List.length_append, length_putU32, length_putU64, hsize]
  rfl

/-- A sealed ticket opens under the key and is the ticket. -/
theorem open_seal (box : Secretbox) {t : KerberosTicketInternal} (hsize : t.sessionKey.length = sessionKeySize) {nonce : Bytes}
    (hnonce : nonce.length = nonceBytes) (key : Bytes) : KerberosTicketInternal.open box (t.seal box nonce key) key = .ok t := by
  have hlen : nonceBytes ≤ (t.seal box nonce key).length := by
    rw [KerberosTicketInternal.seal, List.length_append, hnonce]
    exact Nat.le_add_right _ _
  refine (TicketBuffer.open_eq_ok_iff box key hsize hlen).mpr ⟨[], ?_⟩
  rw [KerberosTicketInternal.seal, List.take_left' hnonce, List.drop_left' hnonce, box.openBox_sealBox, List.append_nil]

/-- The client of a ticket reads it in the buffer that was made for it under the same password. -/
theorem clientTicket_asBytes {digests : Digests} (hmac : ∀ key data, (digests.hmacMd5 key data).length = md5OutputSize)
    {box : Secretbox} (htag : Tagged box) {nonce : Bytes} (hnonce : nonce.length = nonceBytes) {t : KerberosTicket}
    (hsize : t.sessionKey.length = sessionKeySize) (hinternal : t.internal.sessionKey.length = sessionKeySize) {userId : UInt32}
    {password : Option Text} {key buf : Bytes} (h : t.asBytes digests box nonce userId password key = .ok buf) :
    clientTicket digests userId password buf =
      .ok (.ok { sessionKey := t.sessionKey, pid := t.pid, ticket := t.internal.seal box nonce key }) := by
  have hlen := length_deriveKey digests userId password
  obtain ⟨c, hc⟩ := exists_rc4 (show (deriveKey digests userId password).length ≠ 0 ∧ _ by omega)
  simp only [KerberosTicket.asBytes, hc] at h
  obtain rfl := Except.ok.inj h
  generalize hbody : c.apply (t.sessionKey ++ putU32 t.pid ++ putVecU8 (t.internal.seal box nonce key)) = body
  have hplain : c.apply body = t.sessionKey ++ (putU32 t.pid ++ (putVecU8 (t.internal.seal box nonce key) ++ [])) := by
    rw [← hbody, Codec.apply_apply, List.append_assoc, List.append_nil]
  have htotal : (body ++ digests.hmacMd5 (deriveKey digests userId password) body).length - md5OutputSize = body.length := by
    rw [List.length_append, hmac, Nat.add_sub_cancel]
  have hseal : (t.internal.seal box nonce key).length ≤ maxCollectionItems := by
    rw [length_seal htag hinternal hnonce]
    decide
  rw [clientTicket, htotal, List.take_left' rfl, List.drop_left' rfl, if_neg (fun hne => hne rfl), hc, hplain]
  refine congrArg Except.ok ?_
  rw [readNBytes_of_length hsize (by decide), ok_bind]
  dsimp only
  rw [streamU32_put, ok_bind]
  dsimp only
  rw [StreamCodecAux.codes_vecU8 _ hseal]
  rfl

/-! ## The tickets of the service -/

/-- Storing a session key changes no password. -/
theorem password_createUserSession (userId : Nat) (key : Bytes) (db : Storage.Database) (id : UInt32) :
    findPasswordForUser (Storage.createUserSession userId key db).1 id = findPasswordForUser db id := by
  refine transaction_inv (I := fun db' => findPasswordForUser db' id = findPasswordForUser db id) rfl ?_
  rw [wp_bind]
  refine Storage.wp_statement fun db' hdb' => Storage.wp_statement fun db'' hdb'' => ?_
  have husers : db'.users = db.users := by
    rw [hdb']
    rfl
  have hmap : db''.users = db.users.map (fun u => if u.id = userId then { u with isOnline := true } else u) := by
    rw [hdb'', ← husers]
    simp only [Storage.Tables.updateUsers, decide_eq_true_eq]
  have hsame : ((fun u : Storage.UserRow => decide (u.id = id.toNat)) ∘
      fun u => if u.id = userId then { u with isOnline := true } else u) = fun u => decide (u.id = id.toNat) := by
    funext u
    simp only [Function.comp_apply]
    split <;> rfl
  rw [findPasswordForUser, findPasswordForUser, hmap, List.find?_map, hsame]
  cases db.users.find? (fun u => decide (u.id = id.toNat)) with
  | none => rfl
  | some u =>
    simp only [Option.map_some, Option.bind_some]
    split <;> rfl

/-- A ticket that a call hands out was made for its user, from the random bytes of the call, and is in the buffer of the answer under
the password of the call. -/
theorem handsOut {auth : AuthService} {st : AuthState} {call : AuthCall} {answer : Answer}
    (h : (authStep auth st call).2 = some answer) {ticket : KerberosTicket} (hticket : answer.granted = some ticket) {buf : Bytes}
    (hbuf : answer.buffer = some buf) :
    ∃ entropy userId pid, call.entropy? = some entropy ∧ ticket = KerberosTicket.grant userId pid entropy.sessionKey ∧
      ticket.asBytes auth.digests auth.box entropy.nonce userId (call.ticketPassword st.storage userId) auth.ctx.ticketKey =
        .ok buf := by
  cases call with
  | login connection entropy username =>
    simp only [authStep, login] at h
    split at h
    · obtain rfl := Option.some.inj h
      cases hticket
    · rename_i userId _
      obtain ⟨data, hdata⟩ := (KerberosTicket.grant userId SERVER_PID entropy.sessionKey).asBytes_ok auth.digests auth.box
        entropy.nonce userId (findPasswordForUser st.storage userId) auth.ctx.ticketKey
      simp only [hdata] at h
      obtain rfl := Option.some.inj h
      obtain rfl := Option.some.inj hticket
      obtain rfl := Option.some.inj hbuf
      exact ⟨entropy, userId, SERVER_PID, rfl, rfl, hdata⟩
  | loginEx connection entropy request =>
    simp only [authStep, loginEx] at h
    split at h
    · cases h
    · obtain rfl := Option.some.inj h
      cases hticket
    · split at h
      · obtain rfl := Option.some.inj h
        cases hticket
      · obtain rfl := Option.some.inj h
        cases hticket
      · rename_i id _
        obtain ⟨data, hdata⟩ := (KerberosTicket.grant (UInt32.ofNat id) SERVER_PID entropy.sessionKey).asBytes_ok auth.digests
          auth.box entropy.nonce (UInt32.ofNat id) none auth.ctx.ticketKey
        simp only [hdata] at h
        obtain rfl := Option.some.inj h
        obtain rfl := Option.some.inj hticket
        obtain rfl := Option.some.inj hbuf
        exact ⟨entropy, UInt32.ofNat id, SERVER_PID, rfl, rfl, hdata⟩
  | requestTicket connection entropy request =>
    simp only [authStep, requestTicket] at h
    split at h
    · obtain ⟨data, hdata⟩ := (KerberosTicket.grant request.idSource request.idTarget entropy.sessionKey).asBytes_ok auth.digests
        auth.box entropy.nonce request.idSource (findPasswordForUser st.storage request.idSource) auth.ctx.ticketKey
      rw [AuthState.storeSessionKey, password_createUserSession] at h
      simp only [hdata] at h
      obtain rfl := Option.some.inj h
      obtain rfl := Option.some.inj hticket
      obtain rfl := Option.some.inj hbuf
      exact ⟨entropy, request.idSource, request.idTarget, rfl, rfl, hdata⟩
    · obtain rfl := Option.some.inj h
      cases hticket
  | storage call => cases h

/-! ## The CONNECT -/

/-- What the secure server does with a ticket that a client presents. -/
theorem presentTicket_eq {σ T : Type} (env : Env) {svc : Service σ T} (srv : Server σ T) (sig : UInt32) (ci : ClientInfo T)
    (htag : Tagged svc.box) {ti : KerberosTicketInternal} (hsize : ti.sessionKey.length = sessionKeySize) {nonce : Bytes}
    (hnonce : nonce.length = nonceBytes) {pid : UInt32} {cd : ConnectData} {payload : Bytes}
    (hpayload : connectPayload { sessionKey := ti.sessionKey, pid, ticket := ti.seal svc.box nonce svc.ctx.ticketKey } cd = .ok payload)
    (hvalid : ¬ ti.validUntil < env.unixTime) {answer : UInt32} (hanswer : env.build.addU32 cd.challenge 1 = .ok answer) :
    presentTicket env svc srv sig ci payload =
      .ok (registered srv sig (ticketed ci ti.principleId ⟨srv.nextConnId⟩), ticketed ci ti.principleId ⟨srv.nextConnId⟩,
        .ok (putVecU8 (putU32 answer))) := by
  obtain ⟨c, hc⟩ := exists_rc4 (show ti.sessionKey.length ≠ 0 ∧ ti.sessionKey.length ≤ 256 by rw [hsize]; decide)
  simp only [connectPayload, hc] at hpayload
  obtain rfl := Except.ok.inj hpayload
  have hseal : (ti.seal svc.box nonce svc.ctx.ticketKey).length ≤ maxCollectionItems := by
    rw [length_seal htag hsize hnonce]
    decide
  have hproof : (c.apply (putU32 cd.userPid ++ putU32 cd.connectionId ++ putU32 cd.challenge)).length ≤ maxCollectionItems := by
    rw [Codec.length_apply, List.length_append, List.length_append, length_putU32, length_putU32, length_putU32]
    decide
  have hread : ConnectData.fromStream (putU32 cd.userPid ++ putU32 cd.connectionId ++ putU32 cd.challenge) = .ok (cd, []) := by
    rw [List.append_assoc, ConnectData.fromStream, streamU32_put, ok_bind]
    dsimp only
    rw [streamU32_put, ok_bind]
    dsimp only
    rw [← List.append_nil (putU32 cd.challenge), streamU32_put]
    rfl
  have hsecond := StreamCodecAux.codes_vecU8 _ hproof []
  rw [List.append_nil] at hsecond
  unfold presentTicket
  simp only [bind, Except.bind, pure, Except.pure, StreamCodecAux.codes_vecU8 _ hseal, hsecond, open_seal svc.box hsize hnonce,
    if_neg hvalid, hc, Codec.apply_apply, hread, hanswer]
  rfl

/-- A packet other than a data packet is sent as it is encoded with its size. -/
theorem sendPacket_sent {env : Env} {zlib : Zlib} {ctx : Context} {address : SocketAddr} {resp : QPacket} (htype : resp.packetType ≠ .data)
    {data : Bytes} (hdata : ({ resp with flags := resp.flags.insert .hasSize } : QPacket).toBytes zlib ctx = .ok data)
    (hsend : (env.send data address).isSome) : sendPacket env zlib ctx address resp = .ok (.sent address data) := by
  obtain ⟨sz, hsz⟩ := Option.isSome_iff_exists.mp hsend
  have hassert : assert (decide (sz = data.length)) = .ok () := if_pos (decide_eq_true (env.send_whole hsz))
  simp only [sendPacket, if_neg htype, hdata, hsz, bind, Except.bind, hassert, pure, Except.pure]

/-- The acknowledgement of a CONNECT is sent, and read back under the keys of the server. -/
theorem sendAck_connect {σ T : Type} {env : Env} (svc : Service σ T) {p : QPacket} {t : ClientTicket} {cd : ConnectData}
    (hp : PresentsTicket p t cd) (hkey : KeyFits svc.ctx) {client : SocketAddr} (hsend : ∀ data, (env.send data client).isSome)
    (ci : ClientInfo T) (hsig : ci.clientSignature = p.connSignature) {payload : Bytes} (hlen : payload.length < 65535) :
    ∃ data ack, sendAck env svc client { p with payload, connSignature := some 0 } ci true = .ok (.sent client data) ∧
      QPacket.fromBytes svc.zlib svc.ctx data = .ok (ack, data.length) ∧ ack.packetType = .connect ∧
      ack.flags.contains .ack = true ∧ some ack.signature = p.connSignature ∧ ack.payload = payload := by
  obtain ⟨signature, hsignature⟩ := Option.isSome_iff_exists.mp hp.signed
  have hflags : (((({} : BitFlags).insert .ack).insert .hasSize).insert .hasSize).contains .hasSize = true ∧
      (((({} : BitFlags).insert .ack).insert .hasSize).insert .hasSize).contains .ack = true := by decide
  let ack : QPacket := { p with
    source := p.destination
    destination := p.source
    flags := ((({} : BitFlags).insert .ack).insert .hasSize).insert .hasSize
    signature := ci.clientSignature.getD 0
    sessionId := ci.serverSession
    payload
    connSignature := some 0 }
  have hwf : ack.WellFormed :=
    { connSignature := ⟨fun _ => .inr hp.packetType, fun _ => rfl⟩
      fragmentId := by
        show p.fragmentId.isSome ↔ p.packetType = .data
        rw [hp.fragmentId, hp.packetType]
        exact ⟨fun h => (nomatch h), fun h => (nomatch h)⟩
      sourcePort := hp.destinationPort
      destinationPort := hp.sourcePort }
  have henc : ack.Encrypted := ⟨hp.packetType ▸ (by decide : PacketType.connect ≠ .syn), hp.encrypted⟩
  obtain ⟨wire, hw⟩ := Codec.exists_wire svc.zlib (p := ack) hp.plain (fun _ => hkey)
  have hdecode : decodePayload svc.zlib svc.ctx ack.packetType ack.source wire = .ok (ack.payload, ack.useCompression) := by
    rw [Codec.decodePayload_wire (p := ack) hp.plain henc hw]
    exact congrArg (fun u => Except.ok (payload, u)) hp.plain.symm
  obtain ⟨data, sum, hdata, -, hread⟩ :=
    PacketCodec.roundTrips_of_decodePayload hwf hw (Codec.delimits_plain (p := ack) hflags.1 hp.plain hlen hw []) hdecode
  refine ⟨data, { ack with checksum := sum }, ?_, hread, hp.packetType, hflags.2, ?_, rfl⟩
  · exact sendPacket_sent (hp.packetType ▸ (by decide : PacketType.connect ≠ .data)) hdata (hsend data)
  · show some (ci.clientSignature.getD 0) = p.connSignature
    rw [hsig, hsignature]
    rfl

/-- A CONNECT with a ticket of the client opens the connection for the user of the ticket. -/
theorem handleConnect_openedFor {σ T : Type} {env : Env} {svc : Service σ T} {srv : Server σ T} (htag : Tagged svc.box)
    {ti : KerberosTicketInternal} (hsize : ti.sessionKey.length = sessionKeySize) {nonce : Bytes} (hnonce : nonce.length = nonceBytes)
    {pid : UInt32} {cd : ConnectData} {p : QPacket}
    (hp : PresentsTicket p { sessionKey := ti.sessionKey, pid, ticket := ti.seal svc.box nonce svc.ctx.ticketKey } cd)
    (hvalid : ¬ ti.validUntil < env.unixTime) {answer : UInt32} (hanswer : env.build.addU32 cd.challenge 1 = .ok answer)
    (hkey : KeyFits svc.ctx) {client : SocketAddr} (hsend : ∀ data, (env.send data client).isSome)
    (hnew : p.signature ∈ srv.newClients) :
    ∃ srv' es, handleConnect env svc srv p client = .ok (srv', es) ∧ OpenedFor svc srv p client ti.principleId answer srv' es := by
  obtain ⟨signature, hsignature⟩ := Option.isSome_iff_exists.mp hp.signed
  obtain ⟨ci, hci⟩ := Option.isSome_iff_exists.mp (AList.lookup_isSome.mpr hnew)
  have hpresented := presentTicket_eq env (completed srv p.signature (connected env p signature ci)) p.signature
    (connected env p signature ci) htag hsize hnonce hp.payload hvalid hanswer
  have hne : p.payload ≠ [] := by
    intro hnil
    have h := hp.payload
    rw [hnil] at h
    obtain ⟨proof, -, h⟩ := bind_eq_ok.mp h
    exact absurd (congrArg List.length (Except.ok.inj h)) (by simp [StreamCodecAux.length_putVecU8])
  have hanswered : (putVecU8 (putU32 answer)).length < 65535 := by
    rw [StreamCodecAux.length_putVecU8, length_putU32]
    decide
  obtain ⟨data, ack, hack, hread⟩ := sendAck_connect svc hp hkey hsend
    (ticketed (connected env p signature ci) ti.principleId ⟨srv.nextConnId⟩) hsignature.symm hanswered
  have hkeep : (putVecU8 (putU32 answer) ≠ []) := fun hnil => absurd (congrArg List.length hnil) (by simp [StreamCodecAux.length_putVecU8])
  have hopened : handleConnect env svc srv p client = .ok
      (registered (completed srv p.signature (connected env p signature ci)) p.signature
        (ticketed (connected env p signature ci) ti.principleId ⟨srv.nextConnId⟩), [.sent client data]) := by
    unfold handleConnect
    simp only [hsignature, hci, if_neg hne]
    change (presentTicket env svc (completed srv p.signature (connected env p signature ci)) p.signature
      (connected env p signature ci) p.payload >>= _) = _
    rw [hpresented, ok_bind]
    simp only [pure_bind, Except.toOption, Option.getD_some, decide_eq_true hkeep]
    have hid : (completed srv p.signature (connected env p signature ci)).nextConnId = srv.nextConnId := rfl
    rw [hid, hack]
    rfl
  refine ⟨_, _, hopened, ⟨?_, ?_, fun s hs => ?_, data, ack, rfl, hread⟩⟩
  · refine ⟨ticketed (connected env p signature ci) ti.principleId ⟨srv.nextConnId⟩, ?_, rfl, rfl, hsignature.symm⟩
    exact (ClientRegistry.lookup_set _ _ _ _).trans (if_pos rfl)
  · refine ClientRegistry.signatureByConnectionId_eq_some.mpr ⟨AList.lookup_insert _, ?_⟩
    rw [← AList.lookup_isSome]
    exact congrArg Option.isSome ((ClientRegistry.lookup_set _ _ _ _).trans (if_pos rfl))
  · exact ((ClientRegistry.lookup_set _ _ _ _).trans (if_neg hs)).trans ((ClientRegistry.lookup_set _ _ _ _).trans (if_neg hs))

end Handshake

open Handshake

/-- Every ticket that the ticket-granting service hands out is read by the client of the call with the password of its user, and a
client that presents it on a connection being opened at a secure server with the same ticket key gets that connection for the user of
the ticket, with its challenge answered. -/
theorem ticket_opens_connection (auth : AuthService) (hmac : ∀ key data, (auth.digests.hmacMd5 key data).length = md5OutputSize)
    (htag : Tagged auth.box) (st : AuthState) (call : AuthCall) (hdrawn : ∀ entropy ∈ call.entropy?, entropy.Drawn) {answer : Answer}
    (h : (authStep auth st call).2 = some answer) {ticket : KerberosTicket} (hticket : answer.granted = some ticket) {buf : Bytes}
    (hbuf : answer.buffer = some buf) :
    let user := ticket.internal.principleId
    ∃ t : ClientTicket, clientTicket auth.digests user (call.ticketPassword st.storage user) buf = .ok (.ok t) ∧
      t.sessionKey = ticket.sessionKey ∧ t.pid = ticket.pid ∧
      ∀ {σ T : Type} [Inhabited T] (env : Env) (svc : Service σ T) (srv : Server σ T) (p : QPacket) (client : SocketAddr)
        (cd : ConnectData) (challenged : UInt32), svc.box = auth.box → svc.ctx.ticketKey = auth.ctx.ticketKey → KeyFits svc.ctx →
        (∀ data, (env.send data client).isSome) → env.build.addU32 cd.challenge 1 = .ok challenged → p.signature ∈ srv.newClients →
        PresentsTicket p t cd →
        ∃ srv' es, handlePacket env svc srv p client = .ok (srv', es) ∧ OpenedFor svc srv p client user challenged srv' es := by
  obtain ⟨entropy, userId, pid, hentropy, rfl, hbytes⟩ := handsOut h hticket hbuf
  have hd := hdrawn entropy hentropy
  refine ⟨_, clientTicket_asBytes hmac htag hd.nonce hd.sessionKey hd.sessionKey hbytes, rfl, rfl, ?_⟩
  intro σ T _ env svc srv p client cd challenged hbox hkey hfits hsend hchallenged hnew hp
  rw [← hbox, ← hkey] at hp
  have hforever : ¬ (KerberosTicket.grant userId pid entropy.sessionKey).internal.validUntil < env.unixTime := by
    show ¬ (0xFFFFFFFFFFFFFFFF : UInt64) < env.unixTime
    have hle := env.unixTime.toNat_lt
    rw [UInt64.lt_iff_toNat_lt]
    change ¬ 2 ^ 64 - 1 < _
    omega
  obtain ⟨srv', es, hconnect, hopened⟩ := handleConnect_openedFor (hbox ▸ htag) hd.sessionKey hd.nonce hp hforever hchallenged hfits
    hsend hnew
  refine ⟨srv', es, ?_, hopened⟩
  rw [handlePacket, hp.notAck, if_neg Bool.false_ne_true, hp.packetType]
  exact hconnect

namespace Handshake

/-- A library whose boxes end in 16 zeros. -/
def paddedBox : Secretbox where
  sealBox msg _ _ := msg ++ List.replicate 16 0
  openBox data _ _ := some (data.take (data.length - 16))
  openBox_sealBox msg _ _ := by rw [List.length_append, List.length_replicate, Nat.add_sub_cancel, List.take_left' rfl]

/-- A ticket-granting service with this library. -/
def paddedAuth : AuthService := { Authentication.service with digests := TicketBuffer.zeroDigests, box := paddedBox }

/-- The secure server with the same key, whose socket takes every datagram. -/
def paddedService : Service Unit Unit := { AtMostOnce.silentService with box := paddedBox }

theorem sent_whole {data : Bytes} {_address : SocketAddr} {sz : Nat} (h : some data.length = some sz) : sz = data.length :=
  (Option.some.inj h).symm

/-- A release build whose socket takes every datagram. -/
def sendingEnv : Env :=
  { AtMostOnce.quietEnv with
    send := fun data _ => some data.length
    send_whole := @sent_whole }

/-- A server that is opening a connection. -/
def openingServer : Server Unit Unit :=
  { Server.new () with newClients := AList.insert 7 (ClientInfo.new 0 7 AtMostOnce.address) ∅ }

/-- The CONNECT packet of a client, around its payload. -/
def ticketPacket (payload : Bytes) : QPacket where
  source := { port := 15, streamType := .RVSec }
  destination := { port := 1, streamType := .RVSec }
  packetType := .connect
  signature := 7
  connSignature := some 9
  payload

end Handshake

/-- The user `sam_the_fisher` logs in and opens a connection with the ticket. -/
theorem ticket_opens_connection_login :
    ∃ answer ticket buf t, (authStep paddedAuth Authentication.started
        (.login 7 Authentication.entropy "sam_the_fisher".toList)).2 = some answer ∧
      answer.granted = some ticket ∧ answer.buffer = some buf ∧
      clientTicket paddedAuth.digests ticket.internal.principleId
        (findPasswordForUser Authentication.started.storage ticket.internal.principleId) buf = .ok (.ok t) ∧
      ∃ payload srv' es, connectPayload t ⟨1002, 1, 41⟩ = .ok payload ∧
        handlePacket sendingEnv paddedService openingServer (ticketPacket payload) AtMostOnce.address = .ok (srv', es) ∧
        OpenedFor paddedService openingServer (ticketPacket payload) AtMostOnce.address ticket.internal.principleId 42 srv' es := by
  have hfound : findUserIdByName Authentication.started.storage "sam_the_fisher".toList = some 1002 := by decide +kernel
  have hgrants := Authentication.login_grants paddedAuth Authentication.entropy Authentication.started 7 hfound
  obtain ⟨answer, ticket, hanswer, hticket, -⟩ := hgrants.granted
  obtain ⟨buf, hbuf⟩ : ∃ buf, answer.buffer = some buf := by
    cases answer with
    | refused e => nomatch hticket
    | login t r => exact ⟨_, rfl⟩
    | ticket t b => exact ⟨_, rfl⟩
  obtain ⟨t, hopens, hkey, -, hconnects⟩ := ticket_opens_connection paddedAuth (fun _ _ => rfl)
    (fun _ _ _ => by rw [paddedAuth, paddedBox, List.length_append, List.length_replicate]) Authentication.started
    (.login 7 Authentication.entropy "sam_the_fisher".toList) (by rintro _ ⟨⟩; exact ⟨rfl, rfl⟩) hanswer hticket hbuf
  obtain ⟨entropy, userId, pid, hentropy, hgranted, -⟩ := handsOut hanswer hticket hbuf
  obtain rfl := Option.some.inj hentropy
  have hlen : t.sessionKey.length = 16 := by
    rw [hkey, hgranted]
    rfl
  obtain ⟨c, hc⟩ := exists_rc4 (show t.sessionKey.length ≠ 0 ∧ t.sessionKey.length ≤ 256 by rw [hlen]; decide)
  obtain ⟨payload, hpayload⟩ : ∃ payload, connectPayload t ⟨1002, 1, 41⟩ = .ok payload := ⟨_, by rw [connectPayload, hc]; rfl⟩
  obtain ⟨srv', es, hok, hopened⟩ := hconnects sendingEnv paddedService openingServer (ticketPacket payload) AtMostOnce.address ⟨1002, 1, 41⟩
    42 rfl rfl (by decide +kernel) (fun _ => rfl) rfl (show (7 : UInt32) ∈ openingServer.newClients by decide)
    ⟨rfl, show ({} : BitFlags).contains .ack = false by decide, show (15 : UInt8) < 16 by decide, show (1 : UInt8) < 16 by decide, rfl,
      rfl, rfl, rfl, hpayload⟩
  exact ⟨answer, ticket, buf, t, hanswer, hticket, hbuf, hopens, payload, srv', es, hpayload, hok, hopened⟩

end Scbl.Auth
