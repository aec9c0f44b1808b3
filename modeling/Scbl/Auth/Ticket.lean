import Scbl.Kerberos
import Scbl.Prudp.Packet

/-!
# Tickets for a client

The buffer a client gets for a ticket (`KerberosTicket` of `quazal/src/kerberos.rs`): the session key, the target and the sealed
inside, encrypted under a key derived from the password of the client, with a digest; and how such a buffer is read. The digests
are libraries.
-/

namespace Scbl.Auth

open Scbl.Lib Scbl.Rmc Scbl.Prudp

/-- The digest libraries. -/
structure Digests where
  md5 : Bytes → Bytes
  length_md5 : ∀ data, (md5 data).length = 16
  hmacMd5 : Bytes → Bytes → Bytes

/-- A ticket. -/
structure KerberosTicket where
  sessionKey : Bytes
  pid : UInt32
  internal : KerberosTicketInternal
  deriving DecidableEq, Repr

/-- The key derived from a password, or from a fixed one for a user without. -/
def deriveKey (digests : Digests) (peerPid : UInt32) (password : Option Text) : Bytes :=
  digests.md5^[65000 + peerPid.toNat % 1024] (Text.toBytes (password.getD "UbiDummyPwd".toList))

/-- The buffer for a ticket, sealed under a nonce and the key of the servers. -/
def KerberosTicket.asBytes (digests : Digests) (box : Secretbox) (nonce : Bytes) (t : KerberosTicket) (peerPid : UInt32)
    (password : Option Text) (key : Bytes) : Except Panic Bytes := do
  let buf := t.sessionKey ++ putU32 t.pid ++ putVecU8 (t.internal.seal box nonce key)
  let key := deriveKey digests peerPid password
  let buf ← cryptKey key buf
  return buf ++ digests.hmacMd5 key buf

/-- The size of a digest. -/
def md5OutputSize : Nat := 16

/-- Read the buffer for a ticket. A buffer shorter than the digest at its end panics. -/
def KerberosTicket.fromBytes (digests : Digests) (box : Secretbox) (buf : Bytes) (peerPid : UInt32) (password : Option Text)
    (key : Bytes) : Except Panic (Except FromStreamError KerberosTicket) := do
  if buf.length < md5OutputSize then throw .overflow
  let buf ← cryptKey (deriveKey digests peerPid password) (buf.take (buf.length - md5OutputSize))
  return (do
    let (sessionKey, rdr) ← readNBytes sessionKeySize buf
    let (pid, internal) ← streamU32 rdr
    let internal ← KerberosTicketInternal.open box internal key
    return { sessionKey, pid, internal })

/-- A derived key is a digest. -/
theorem length_deriveKey (digests : Digests) (peerPid : UInt32) (password : Option Text) :
    (deriveKey digests peerPid password).length = 16 := by
  unfold deriveKey
  rw [show 65000 + peerPid.toNat % 1024 = (64999 + peerPid.toNat % 1024) + 1 from by omega, Function.iterate_succ_apply']
  exact digests.length_md5 _

/-- A buffer is made for every ticket. -/
theorem KerberosTicket.asBytes_ok (digests : Digests) (box : Secretbox) (nonce : Bytes) (t : KerberosTicket) (peerPid : UInt32)
    (password : Option Text) (key : Bytes) : ∃ data, t.asBytes digests box nonce peerPid password key = .ok data := by
  have hlen := length_deriveKey digests peerPid password
  obtain ⟨c, hc⟩ := exists_rc4 (show (deriveKey digests peerPid password).length ≠ 0 ∧ _ by omega)
  exact ⟨_, by simp only [KerberosTicket.asBytes, hc]; rfl⟩

end Scbl.Auth
