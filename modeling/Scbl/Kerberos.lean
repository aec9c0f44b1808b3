import Scbl.Rmc.Basic

/-!
# Tickets

The ticket a client brings to the secure server (`quazal/src/kerberos.rs`): the principal, when it expires and the session key,
sealed under the key the two servers share. The authenticated encryption is a library, given as `Secretbox`.
-/

namespace Scbl

open Scbl.Lib Scbl.Rmc

/-- The authenticated encryption library: what is sealed under a nonce and a key is opened under them. -/
structure Secretbox where
  sealBox : Bytes → Bytes → Bytes → Bytes
  openBox : Bytes → Bytes → Bytes → Option Bytes
  openBox_sealBox : ∀ msg nonce key, openBox (sealBox msg nonce key) nonce key = some msg

/-- The size of a nonce. -/
def nonceBytes : Nat := 24

/-- The size of a session key. -/
def sessionKeySize : Nat := 16

/-- The inside of a ticket. -/
structure KerberosTicketInternal where
  principleId : UInt32
  validUntil : UInt64
  sessionKey : Bytes
  deriving DecidableEq, Repr

/-- Read the inside of a ticket. -/
def KerberosTicketInternal.fromStream : Reader KerberosTicketInternal := fun rdr => do
  let (principleId, rdr) ← streamU32 rdr
  let (validUntil, rdr) ← streamU64 rdr
  let (sessionKey, rdr) ← readNBytes sessionKeySize rdr
  return ({ principleId, validUntil, sessionKey }, rdr)

/-- The inside of a ticket on the wire. -/
def KerberosTicketInternal.toBytes (t : KerberosTicketInternal) : Bytes :=
  putU32 t.principleId ++ putU64 t.validUntil ++ t.sessionKey

/-- Seal the inside of a ticket under a nonce. -/
def KerberosTicketInternal.seal (box : Secretbox) (t : KerberosTicketInternal) (nonce key : Bytes) : Bytes :=
  nonce ++ box.sealBox t.toBytes nonce key

/-- Open a sealed ticket. -/
def KerberosTicketInternal.open (box : Secretbox) (data key : Bytes) : Except FromStreamError KerberosTicketInternal :=
  if data.length < nonceBytes then .error .io
  else
    match box.openBox (data.drop nonceBytes) (data.take nonceBytes) key with
    | none => .error .io
    | some data => do
      let (t, _) ← KerberosTicketInternal.fromStream data
      return t

end Scbl
