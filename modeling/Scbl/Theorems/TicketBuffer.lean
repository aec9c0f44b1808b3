import Scbl.Auth.Ticket
import Scbl.Lemmas.Codec

/-!
# Reading a ticket back

The buffer for a ticket holds the sealed inside as a collection, after its length, and the reader takes everything to the end for the
sealed inside: the four bytes of the length stand where the nonce begins. The ticket is read back only if the encryption library
takes the box, moved by these four bytes and under another nonce, for a box of the same ticket.
-/

namespace Scbl.Auth

open Scbl.Lib Scbl.Rmc Scbl.Prudp

/-- The library opens the box of a ticket, moved by the length before it, and finds the ticket. -/
def TakesMoved (box : Secretbox) (nonce key : Bytes) (internal : KerberosTicketInternal) : Prop :=
  ∃ rest, box.openBox (nonce.drop 20 ++ box.sealBox internal.toBytes nonce key)
    (putU32 (UInt32.ofNat (internal.seal box nonce key).length) ++ nonce.take 20) key = some (internal.toBytes ++ rest)

namespace TicketBuffer

/-- The inside of a ticket is read from its bytes, whatever follows. -/
theorem fromStream_toBytes {t : KerberosTicketInternal} (hsize : t.sessionKey.length = sessionKeySize) (rest : Bytes) :
    KerberosTicketInternal.fromStream (t.toBytes ++ rest) = .ok (t, rest) := by
  rw [KerberosTicketInternal.toBytes, List.append_assoc, List.append_assoc, KerberosTicketInternal.fromStream, streamU32_put, ok_bind]
  dsimp only
  rw [streamU64_put, ok_bind]
  dsimp only
  rw [readNBytes_of_length hsize (by decide)]
  rfl

/-- What was read as the inside of a ticket begins with its bytes. -/
theorem eq_of_fromStream {data rest : Bytes} {t : KerberosTicketInternal} (h : KerberosTicketInternal.fromStream data = .ok (t, rest)) :
    data = t.toBytes ++ rest := by
  obtain ⟨⟨principleId, rdr⟩, hid, h⟩ := bind_eq_ok.mp h
  obtain ⟨⟨validUntil, rdr'⟩, huntil, h⟩ := bind_eq_ok.mp h
  obtain ⟨⟨sessionKey, rdr''⟩, hkey, h⟩ := bind_eq_ok.mp h
  obtain ⟨rfl, rfl⟩ := Prod.mk.inj (Except.ok.inj h)
  rw [streamU32_eq_ok hid, streamU64_eq_ok huntil, readNBytes_eq_ok hkey, KerberosTicketInternal.toBytes, List.append_assoc,
    List.append_assoc]

/-- A sealed ticket opens exactly when its box holds the bytes of the ticket. -/
theorem open_eq_ok_iff (box : Secretbox) {data : Bytes} (key : Bytes) {t : KerberosTicketInternal} (hsize : t.sessionKey.length = sessionKeySize)
    (hlen : nonceBytes ≤ data.length) :
    KerberosTicketInternal.open box data key = .ok t ↔
      ∃ rest, box.openBox (data.drop nonceBytes) (data.take nonceBytes) key = some (t.toBytes ++ rest) := by
  rw [KerberosTicketInternal.open, if_neg (Nat.not_lt.mpr hlen)]
  cases hopen : box.openBox (data.drop nonceBytes) (data.take nonceBytes) key with
  | none => exact ⟨nofun, fun ⟨_, h⟩ => nomatch h⟩
  | some opened =>
    constructor
    · intro h
      obtain ⟨⟨t', rest⟩, hread, h⟩ := bind_eq_ok.mp h
      cases Except.ok.inj h
      exact ⟨rest, congrArg some (eq_of_fromStream hread)⟩
    · rintro ⟨rest, h⟩
      rw [Option.some.inj h]
      dsimp only
      rw [fromStream_toBytes hsize]
      rfl

/-- The sealed inside as a collection, cut where the reader ends the nonce. -/
theorem cut_putVecU8 (box : Secretbox) {nonce : Bytes} (key : Bytes) (hnonce : nonce.length = nonceBytes) (t : KerberosTicketInternal) :
    (putVecU8 (t.seal box nonce key)).take nonceBytes =
        putU32 (UInt32.ofNat (t.seal box nonce key).length) ++ nonce.take 20 ∧
      (putVecU8 (t.seal box nonce key)).drop nonceBytes = nonce.drop 20 ++ box.sealBox t.toBytes nonce key := by
  have hle : 20 ≤ nonce.length := by rw [hnonce]; decide
  have hsplit : putVecU8 (t.seal box nonce key) =
      (putU32 (UInt32.ofNat (t.seal box nonce key).length) ++ nonce.take 20) ++ (nonce.drop 20 ++ box.sealBox t.toBytes nonce key) := by
    rw [putVecU8, KerberosTicketInternal.seal, List.append_assoc, ← List.append_assoc (nonce.take 20), List.take_append_drop]
  have hlen : (putU32 (UInt32.ofNat (t.seal box nonce key).length) ++ nonce.take 20).length = nonceBytes := by
    rw [List.length_append, length_putU32, List.length_take_of_le hle]
    rfl
  rw [hsplit]
  exact ⟨List.take_left' hlen, List.drop_left' hlen⟩

/-- Reading a buffer for a ticket: the session key and the target are read back, and the inside is opened with its length before it. -/
theorem fromBytes_asBytes (digests : Digests) (hmac : ∀ key data, (digests.hmacMd5 key data).length = md5OutputSize) (box : Secretbox)
    (nonce : Bytes) {t : KerberosTicket} (hsize : t.sessionKey.length = sessionKeySize) (peerPid : UInt32) (password : Option Text)
    (key : Bytes) :
    ∃ data, t.asBytes digests box nonce peerPid password key = .ok data ∧
      KerberosTicket.fromBytes digests box data peerPid password key = .ok (do
        let internal ← KerberosTicketInternal.open box (putVecU8 (t.internal.seal box nonce key)) key
        return { t with internal }) := by
  have hlen := length_deriveKey digests peerPid password
  obtain ⟨c, hc⟩ := exists_rc4 (show (deriveKey digests peerPid password).length ≠ 0 ∧ _ by omega)
  have hplain : c.apply (c.apply (t.sessionKey ++ putU32 t.pid ++ putVecU8 (t.internal.seal box nonce key))) =
      t.sessionKey ++ (putU32 t.pid ++ putVecU8 (t.internal.seal box nonce key)) := by
    rw [Codec.apply_apply, List.append_assoc]
  refine ⟨_, by rw [KerberosTicket.asBytes, hc]; rfl, ?_⟩
  generalize c.apply (t.sessionKey ++ putU32 t.pid ++ putVecU8 (t.internal.seal box nonce key)) = sealed at hplain ⊢
  have hmac' := hmac (deriveKey digests peerPid password) sealed
  have htotal : (sealed ++ digests.hmacMd5 (deriveKey digests peerPid password) sealed).length = sealed.length + md5OutputSize := by
    rw [List.length_append, hmac']
  rw [KerberosTicket.fromBytes, htotal, if_neg (Nat.not_lt.mpr (Nat.le_add_left _ _)), Nat.add_sub_cancel,
    List.take_left' rfl, hc, hplain]
  refine congrArg Except.ok ?_
  rw [readNBytes_of_length hsize (by decide), ok_bind]
  dsimp only
  rw [streamU32_put]
  rfl

end TicketBuffer

open TicketBuffer

/-- A ticket is read back from its buffer exactly when the encryption library takes its box, moved by four bytes and under another
nonce, for a box of the ticket. -/
theorem ticket_read_back_iff (digests : Digests) (hmac : ∀ key data, (digests.hmacMd5 key data).length = md5OutputSize)
    (box : Secretbox) (nonce : Bytes) (hnonce : nonce.length = nonceBytes) (t : KerberosTicket)
    (hsize : t.sessionKey.length = sessionKeySize) (hinternal : t.internal.sessionKey.length = sessionKeySize) (peerPid : UInt32)
    (password : Option Text) (key : Bytes) :
    (∃ data, t.asBytes digests box nonce peerPid password key = .ok data ∧
        KerberosTicket.fromBytes digests box data peerPid password key = .ok (.ok t)) ↔
      TakesMoved box nonce key t.internal := by
  obtain ⟨data, hdata, hread⟩ := fromBytes_asBytes digests hmac box nonce hsize peerPid password key
  have hcut := cut_putVecU8 box key hnonce t.internal
  have hle : nonceBytes ≤ (putVecU8 (t.internal.seal box nonce key)).length := by
    rw [putVecU8, KerberosTicketInternal.seal, List.length_append, List.length_append, hnonce]
    omega
  have hopen := open_eq_ok_iff box key hinternal hle
  rw [hcut.1, hcut.2] at hopen
  rw [TakesMoved, ← hopen]
  constructor
  · rintro ⟨data', hdata', hread'⟩
    cases Except.ok.inj (hdata.symm.trans hdata')
    obtain ⟨internal, hinternal, ht⟩ := bind_eq_ok.mp (Except.ok.inj (hread.symm.trans hread'))
    rw [hinternal, ← Except.ok.inj ht]
  · intro h
    rw [h] at hread
    exact ⟨data, hdata, hread⟩

namespace TicketBuffer

theorem length_zeros (_data : Bytes) : (List.replicate 16 (0 : UInt8)).length = md5OutputSize := rfl

/-- A library whose digests have the right length. -/
def zeroDigests : Digests where
  md5 _ := List.replicate 16 0
  length_md5 := length_zeros
  hmacMd5 _ _ := List.replicate 16 0

/-- A library whose boxes begin with the nonce and the key they were sealed under. -/
def taggedBox : Secretbox where
  sealBox msg nonce key := nonce ++ key ++ msg
  openBox data nonce key := if data.take (nonce ++ key).length = nonce ++ key then some (data.drop (nonce ++ key).length) else none
  openBox_sealBox msg nonce key := by rw [List.take_left' rfl, if_pos rfl, List.drop_left' rfl]

/-- A ticket of user 7 for the server 4098. -/
def userTicket : KerberosTicket where
  sessionKey := List.replicate 16 1
  pid := 4098
  internal := { principleId := 7, validUntil := 1700000000, sessionKey := List.replicate 16 1 }

/-- The library does not take the box of the ticket for another. -/
theorem not_takesMoved : ¬ TakesMoved taggedBox (List.replicate 24 5) (List.replicate 32 9) userTicket.internal := by
  rintro ⟨rest, h⟩
  have hnone : taggedBox.openBox
      ((List.replicate 24 5).drop 20 ++ taggedBox.sealBox userTicket.internal.toBytes (List.replicate 24 5) (List.replicate 32 9))
      (putU32 (UInt32.ofNat (userTicket.internal.seal taggedBox (List.replicate 24 5) (List.replicate 32 9)).length) ++
        (List.replicate 24 5).take 20) (List.replicate 32 9) = none := by decide
  rw [hnone] at h
  nomatch h

end TicketBuffer

/-- The ticket of a user is not read back from its buffer. -/
theorem user_ticket_not_read_back :
    ¬ ∃ data, userTicket.asBytes zeroDigests taggedBox (List.replicate 24 5) 7 (some "secret".toList) (List.replicate 32 9) = .ok data ∧
      KerberosTicket.fromBytes zeroDigests taggedBox data 7 (some "secret".toList) (List.replicate 32 9) = .ok (.ok userTicket) :=
  fun h => not_takesMoved ((ticket_read_back_iff zeroDigests (fun _ _ => rfl) taggedBox (List.replicate 24 5) rfl userTicket rfl rfl 7
    (some "secret".toList) (List.replicate 32 9)).mp h)

/-- A ticket of a user without a password is not read back, although the library opens what it sealed. -/
theorem ticket_read_back_false :
    (∀ msg nonce key, taggedBox.openBox (taggedBox.sealBox msg nonce key) nonce key = some msg) ∧
      ∃ data, userTicket.asBytes zeroDigests taggedBox (List.replicate 24 5) 7 none (List.replicate 32 9) = .ok data ∧
        KerberosTicket.fromBytes zeroDigests taggedBox data 7 none (List.replicate 32 9) = .ok (.error .io) := by
  refine ⟨taggedBox.openBox_sealBox, ?_⟩
  obtain ⟨data, hdata, hread⟩ := fromBytes_asBytes zeroDigests (fun _ _ => rfl) taggedBox (List.replicate 24 5)
    (t := userTicket) rfl 7 none (List.replicate 32 9)
  have hopen : KerberosTicketInternal.open taggedBox
      (putVecU8 (userTicket.internal.seal taggedBox (List.replicate 24 5) (List.replicate 32 9))) (List.replicate 32 9) =
        .error .io := by decide
  rw [hopen] at hread
  exact ⟨data, hdata, hread⟩

end Scbl.Auth
