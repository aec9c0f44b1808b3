import Scbl.RouteGuard.Packet
import Scbl.Lib.HashMap

/-!
# The NAT table

The flows whose source address was replaced, under their ports and the address a reply comes from. The mapping of a broadcast is
under the unspecified address, and a lookup falls back to it. Mappings that were not renewed for `ttl` are deleted now and then.
-/

namespace Scbl.RouteGuard

open Lib

/-- What a mapping is found by: the peer's port is the remote port. -/
structure NatKey where
  proto : UInt8
  localPort : UInt16
  remotePort : UInt16
  replySrcIP : IPv4
deriving DecidableEq, Repr

/-- A flow of the game as the game sent it, and when it sent it last. -/
structure NatMapping where
  proto : UInt8
  localIP : IPv4
  localPort : UInt16
  remoteIP : IPv4
  remotePort : UInt16
  updatedAt : Int
deriving DecidableEq, Repr

/-- Ten minutes in nanoseconds. -/
def defaultNATTTL : Int := 10 * 60 * 1000000000

structure NATTable where
  ttl : Int
  mappings : AList (fun _ : NatKey => NatMapping)

def newNATTable (ttl : Int) : NATTable := { ttl := if ttl ≤ 0 then defaultNATTTL else ttl, mappings := ∅ }

/-- The key of a mapping whose replies come from `replySrcIP`. -/
def NatMapping.key (m : NatMapping) (replySrcIP : IPv4) : NatKey := ⟨m.proto, m.localPort, m.remotePort, replySrcIP⟩

namespace NATTable

def put (n : NATTable) (m : NatMapping) (replySrcIP : IPv4) : NATTable :=
  { n with mappings := n.mappings.insert (m.key replySrcIP) m }

def putWildcard (n : NATTable) (m : NatMapping) : NATTable := n.put m IPv4.unspecified

def get (n : NATTable) (proto : UInt8) (localPort remotePort : UInt16) (replySrcIP : IPv4) : Option NatMapping :=
  match n.mappings.lookup ⟨proto, localPort, remotePort, replySrcIP⟩ with
  | some m => some m
  | none => n.mappings.lookup ⟨proto, localPort, remotePort, IPv4.unspecified⟩

/-- One tick of the cleanup loop. -/
def cleanup (n : NATTable) (now : Int) : NATTable :=
  let cutoff := now - n.ttl
  { n with mappings := retain (fun _ v => ¬v.updatedAt < cutoff) n.mappings }

/-! ## What is in the table -/

/-- A mapping under a key after `put` is the new one under its key, or one that was there. -/
theorem lookup_put {n : NATTable} {m m' : NatMapping} {replySrcIP : IPv4} {k : NatKey}
    (h : (n.put m replySrcIP).mappings.lookup k = some m') :
    k = m.key replySrcIP ∧ m' = m ∨ n.mappings.lookup k = some m' := by
  by_cases hk : k = m.key replySrcIP
  · subst hk
    rw [put, AList.lookup_insert] at h
    exact Or.inl ⟨rfl, (Option.some.inj h).symm⟩
  · rw [put, AList.lookup_insert_ne hk] at h
    exact Or.inr h

/-- A mapping that is left after a cleanup was there. -/
theorem lookup_cleanup {n : NATTable} {now : Int} {m : NatMapping} {k : NatKey}
    (h : (n.cleanup now).mappings.lookup k = some m) : n.mappings.lookup k = some m := by
  rw [cleanup, lookup_retain] at h
  exact (Option.filter_eq_some_iff.mp h).1

/-- A lookup finds the mapping under the packet's own address, or the one for all peers. -/
theorem get_eq_some {n : NATTable} {proto : UInt8} {localPort remotePort : UInt16} {replySrcIP : IPv4} {m : NatMapping}
    (h : n.get proto localPort remotePort replySrcIP = some m) :
    n.mappings.lookup ⟨proto, localPort, remotePort, replySrcIP⟩ = some m ∨
      n.mappings.lookup ⟨proto, localPort, remotePort, replySrcIP⟩ = none ∧
        n.mappings.lookup ⟨proto, localPort, remotePort, IPv4.unspecified⟩ = some m := by
  unfold get at h
  split at h
  · rename_i m' hm'
    exact Or.inl (hm'.trans h)
  · rename_i hnone
    exact Or.inr ⟨hnone, h⟩

end NATTable

end Scbl.RouteGuard
