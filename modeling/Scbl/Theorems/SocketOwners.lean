import Scbl.RouteGuard.OwnerResolver

/-!
# Owners in any order

Whether a packet belongs to the game is told by the rows of the tables that name its socket, or else its port, however the rows are listed
and the maps are iterated: the processes of a port are a set, and one of the game is preferred among them. Only a TCP socket that two rows
name has the process of the row that is listed last; it is told in any order when both rows name processes of the game, or neither does.
-/

namespace Scbl.RouteGuard

open Lib

/-- The sides of a packet. -/
structure Flow where
  proto : UInt8
  localIP : IPv4
  localPort : UInt16
  remoteIP : IPv4
  remotePort : UInt16

/-- The local side is where an outbound packet comes from, and where an inbound one goes to. -/
def PacketMeta.flow (outbound : Bool) (p : PacketMeta) : Flow :=
  if outbound then { proto := p.proto, localIP := p.srcIP, localPort := p.srcPort, remoteIP := p.dstIP, remotePort := p.dstPort }
  else { proto := p.proto, localIP := p.dstIP, localPort := p.dstPort, remoteIP := p.srcIP, remotePort := p.srcPort }

namespace OwnerTables

/-- What the resolver holds after a refresh from some rows. -/
def ofRows (targets : TargetPIDs) (tcpOrder udpOrder : MapOrder) (tcp : List TCPRow) (udp : List UDPRow) : OwnerTables where
  targetPIDs := targets
  tcpOwners := RouteGuard.tcpOwners tcp
  tcpOwnersByPort := buildTCPPortIndex tcpOrder (RouteGuard.tcpOwners tcp)
  udpOwners := RouteGuard.udpOwners udp
  udpOwnersByPort := buildUDPPortIndex udpOrder (RouteGuard.udpOwners udp)

theorem refresh_eq_ofRows (r : OwnerTables) (targets : TargetPIDs) (tcpOrder udpOrder : MapOrder) {tcp udp : Bytes} (htcp : 4 ≤ tcp.length)
    (hudp : 4 ≤ udp.length) : r.refresh targets tcpOrder udpOrder (some tcp) (some udp) =
      ofRows targets tcpOrder udpOrder (tableRows 24 readTCPRow tcp) (tableRows 12 readUDPRow udp) := by
  simp only [refresh, getTCPOwners, getUDPOwners, Option.bind_some, if_neg (Nat.not_lt.2 htcp), if_neg (Nat.not_lt.2 hudp), ofRows]

/-- The loop treats a packet as one of the game. -/
def belongsToGame (r : OwnerTables) (outbound : Bool) (p : PacketMeta) : Bool :=
  r.resolver.targets (if outbound then r.resolver.resolveOutbound p else r.resolver.resolveInbound p)

end OwnerTables

/-- Of the rows that meet the first of some conditions that any row meets, one is a target. -/
def Prefers {Row : Type} (rows : List Row) (isTarget : Row → Prop) : List (Row → Prop) → Prop
  | [] => False
  | condition :: conditions =>
    (∃ row ∈ rows, condition row ∧ isTarget row) ∨ (∀ row ∈ rows, ¬condition row) ∧ Prefers rows isTarget conditions

/-- The row is of a socket with the addresses and ports of a packet. -/
def TCPRow.IsExact (f : Flow) (row : TCPRow) : Prop :=
  row.localIP = f.localIP ∧ row.localPort = f.localPort ∧ row.remoteIP = f.remoteIP ∧ row.remotePort = f.remotePort

/-- The row is of a socket at an address and a port. -/
def UDPRow.IsAt (ip : IPv4) (port : UInt16) (row : UDPRow) : Prop := row.localIP = ip ∧ row.localPort = port

/-- The rows of the socket of a packet, or else of its port, include a process of the game. -/
def Owned (targets : TargetPIDs) (tcp : List TCPRow) (udp : List UDPRow) (f : Flow) : Prop :=
  (f.proto = protoTCP ∧ Prefers tcp (·.pid ∈ targets.pids) [TCPRow.IsExact f, (·.localPort = f.localPort)]) ∨
    f.proto = protoUDP ∧
      Prefers udp (·.pid ∈ targets.pids) [UDPRow.IsAt f.localIP f.localPort, UDPRow.IsAt .unspecified f.localPort, (·.localPort = f.localPort)]

/-- The rows of one TCP socket all name processes of the game, or none of them does. -/
def OneOwner (targets : TargetPIDs) (tcp : List TCPRow) : Prop :=
  ∀ row ∈ tcp, ∀ other ∈ tcp, row.key = other.key → row.pid ∈ targets.pids → other.pid ∈ targets.pids

namespace SocketOwnersAux

/-! ### Keys -/

theorem string_injective : Function.Injective IPv4.string := by
  have hdots : ∀ ip : IPv4, ip.string.splitOn '.' = ip.bytes.map (fun b => Nat.toDigits 10 b.toNat) := by
    intro ip
    refine splitOn_joinWith (by simp [IPv4.bytes]) fun t ht => ?_
    obtain ⟨b, -, rfl⟩ := List.mem_map.1 ht
    exact fun hdot => absurd (Nat.isDigit_of_mem_toDigits (by decide) (by decide) hdot) (by decide)
  have hdigits : Function.Injective (fun b : UInt8 => Nat.toDigits 10 b.toNat) := by
    intro b b' h
    have hvalue := congrArg digitsValue h
    rw [digitsValue_toDigits, digitsValue_toDigits] at hvalue
    exact UInt8.toNat_inj.1 hvalue
  intro ip ip' h
  have hbytes : ip.bytes = ip'.bytes := List.map_injective_iff.2 hdigits (by rw [← hdots, ← hdots, h])
  rw [← ipv4FromPacket_bytes ip, hbytes, ipv4FromPacket_bytes]

theorem string_unspecified : IPv4.unspecified.string = "0.0.0.0".toList := by decide

theorem tcpKey_eq_iff {row : TCPRow} {f : Flow} (hproto : f.proto = protoTCP) :
    row.key = { proto := f.proto, localIP := f.localIP.string, localPort := f.localPort, remoteIP := f.remoteIP.string,
                remotePort := f.remotePort } ↔ row.IsExact f := by
  rw [TCPRow.key, hproto, OwnerKey.mk.injEq, string_injective.eq_iff, string_injective.eq_iff, TCPRow.IsExact]
  simp

theorem udpKey_eq_iff {row : UDPRow} {ip : IPv4} {port : UInt16} : row.key = { localIP := ip.string, localPort := port } ↔ row.IsAt ip port := by
  rw [UDPRow.key, UDPKey.mk.injEq, string_injective.eq_iff, UDPRow.IsAt]

/-! ### Maps -/

theorem lookup_tcpOwners_none {rows : List TCPRow} {key : OwnerKey} :
    (tcpOwners rows).lookup key = none ↔ ∀ row ∈ rows, row.key ≠ key := by
  rw [tcpOwners, lookup_insertAll]
  simp

theorem lookup_tcpOwners_some {rows : List TCPRow} {key : OwnerKey} {pid : UInt32} (h : (tcpOwners rows).lookup key = some pid) :
    ∃ row ∈ rows, row.key = key ∧ row.pid = pid := by
  rcases mem_of_lookup_insertAll h with hmem | hnone
  · obtain ⟨row, hrow, heq⟩ := List.mem_map.1 hmem
    obtain ⟨hkey, hpid⟩ := Prod.mk.inj heq
    exact ⟨row, hrow, hkey, hpid⟩
  · nomatch hnone

/-- The row that is listed last counts. -/
theorem lookup_tcpOwners_last (rows : List TCPRow) (row : TCPRow) : (tcpOwners (rows ++ [row])).lookup row.key = some row.pid := by
  rw [tcpOwners, insertAll, List.map_append, List.foldl_append]
  exact AList.lookup_insert _

theorem lookup_udpOwners_none {rows : List UDPRow} {key : UDPKey} :
    (udpOwners rows).lookup key = none ↔ ∀ row ∈ rows, row.key ≠ key := by
  induction rows using List.reverseRecOn with
  | nil => simp [udpOwners]
  | append_singleton rows row ih =>
    have hstep : udpOwners (rows ++ [row]) = addUDPRow (udpOwners rows) row := by rw [udpOwners, List.foldl_append]; rfl
    have hall : (∀ row' ∈ rows ++ [row], row'.key ≠ key) ↔ (udpOwners rows).lookup key = none ∧ row.key ≠ key := by
      rw [ih]
      simp [or_imp, forall_and]
    rw [hstep, hall, addUDPRow]
    split
    · rename_i hmem
      refine ⟨fun hnone => ⟨hnone, ?_⟩, fun h => h.1⟩
      rintro rfl
      rw [hnone] at hmem
      nomatch hmem
    · by_cases hkey : key = row.key
      · subst hkey
        rw [AList.lookup_insert]
        exact iff_of_false nofun fun h => h.2 rfl
      · rw [AList.lookup_insert_ne hkey]
        exact ⟨fun hnone => ⟨hnone, Ne.symm hkey⟩, fun h => h.1⟩

/-- The processes of a socket are those of its rows. -/
theorem mem_udpOwners {rows : List UDPRow} {key : UDPKey} {pid : UInt32} :
    pid ∈ ((udpOwners rows).lookup key).getD [] ↔ ∃ row ∈ rows, row.key = key ∧ row.pid = pid := by
  induction rows using List.reverseRecOn with
  | nil => simp [udpOwners]
  | append_singleton rows row ih =>
    have hstep : udpOwners (rows ++ [row]) = addUDPRow (udpOwners rows) row := by rw [udpOwners, List.foldl_append]; rfl
    have hall : (∃ row' ∈ rows ++ [row], row'.key = key ∧ row'.pid = pid) ↔
        pid ∈ ((udpOwners rows).lookup key).getD [] ∨ row.key = key ∧ row.pid = pid := by
      rw [ih]
      simp [or_and_right, exists_or]
    rw [hstep, hall, addUDPRow]
    split
    · rename_i hmem
      refine ⟨Or.inl, fun h => h.elim id ?_⟩
      rintro ⟨rfl, rfl⟩
      exact hmem
    · by_cases hkey : key = row.key
      · subst hkey
        rw [AList.lookup_insert]
        simp [eq_comm]
      · rw [AList.lookup_insert_ne hkey]
        exact ⟨Or.inl, fun h => h.resolve_right fun hnew => hkey hnew.1.symm⟩

theorem mem_appendUniquePID {items : List UInt32} {pid pid' : UInt32} :
    pid' ∈ appendUniquePID items pid ↔ pid' ∈ items ∨ pid ≠ 0 ∧ pid' = pid := by
  unfold appendUniquePID
  split
  · rename_i hzero
    exact ⟨Or.inl, fun h => h.resolve_right fun hnew => hnew.1 hzero⟩
  · rename_i hne
    split
    · rename_i hmem
      refine ⟨Or.inl, fun h => h.elim id ?_⟩
      rintro ⟨-, rfl⟩
      exact hmem
    · simp [hne]

/-- The processes that an index has for a port are those that were put under it, but 0. -/
theorem mem_addToIndex {items : List (UInt16 × UInt32)} {port : UInt16} {pid : UInt32} :
    pid ∈ ((items.foldl addToIndex ∅).lookup port).getD [] ↔ pid ≠ 0 ∧ (port, pid) ∈ items := by
  induction items using List.reverseRecOn with
  | nil => simp
  | append_singleton items item ih =>
    have hall : (port, pid) ∈ items ++ [item] ↔ (port, pid) ∈ items ∨ port = item.1 ∧ pid = item.2 := by
      rw [List.mem_append, List.mem_singleton, Prod.ext_iff]
    rw [List.foldl_append, hall, and_or_left, ← ih, List.foldl_cons, List.foldl_nil, addToIndex]
    by_cases hport : port = item.1
    · subst hport
      rw [AList.lookup_insert, Option.getD_some, mem_appendUniquePID]
      refine or_congr Iff.rfl ⟨?_, ?_⟩
      · rintro ⟨hne, rfl⟩
        exact ⟨hne, rfl, rfl⟩
      · rintro ⟨hne, -, rfl⟩
        exact ⟨hne, rfl⟩
    · rw [AList.lookup_insert_ne hport]
      exact ⟨Or.inl, fun h => h.resolve_right fun hnew => hport hnew.2.1⟩

/-- The index of TCP has the processes that the map names for a port. -/
theorem mem_buildTCPPortIndex {order : MapOrder} {owners : TCPOwners} {port : UInt16} {pid : UInt32} :
    pid ∈ ((buildTCPPortIndex order owners).lookup port).getD [] ↔ pid ≠ 0 ∧ ∃ key, key.localPort = port ∧ owners.lookup key = some pid := by
  rw [buildTCPPortIndex, mem_addToIndex]
  refine and_congr_right fun _ => ?_
  rw [List.mem_map]
  constructor
  · rintro ⟨⟨key, pid'⟩, hmem, heq⟩
    obtain ⟨rfl, rfl⟩ := Prod.mk.inj heq
    exact ⟨key, rfl, AList.mem_lookup_iff.2 ((order.mem_apply _ _).1 hmem)⟩
  · rintro ⟨key, rfl, hlookup⟩
    exact ⟨⟨key, pid⟩, (order.mem_apply _ _).2 (AList.mem_lookup_iff.1 hlookup), rfl⟩

/-- The index of UDP has the processes of the sockets at a port. -/
theorem mem_buildUDPPortIndex {order : MapOrder} {owners : UDPOwners} {port : UInt16} {pid : UInt32} :
    pid ∈ ((buildUDPPortIndex order owners).lookup port).getD [] ↔
      pid ≠ 0 ∧ ∃ key, key.localPort = port ∧ pid ∈ (owners.lookup key).getD [] := by
  rw [buildUDPPortIndex, mem_addToIndex]
  refine and_congr_right fun _ => ?_
  rw [List.mem_flatMap]
  constructor
  · rintro ⟨⟨key, pids⟩, hmem, hpids⟩
    obtain ⟨pid', hpid, heq⟩ := List.mem_map.1 hpids
    obtain ⟨rfl, rfl⟩ := Prod.mk.inj heq
    have hlookup : owners.lookup key = some pids := AList.mem_lookup_iff.2 ((order.mem_apply _ _).1 hmem)
    exact ⟨key, rfl, by rwa [hlookup]⟩
  · rintro ⟨key, rfl, hpid⟩
    cases hlookup : owners.lookup key with
    | none =>
      rw [hlookup] at hpid
      nomatch hpid
    | some pids =>
      rw [hlookup] at hpid
      exact ⟨⟨key, pids⟩, (order.mem_apply _ _).2 (AList.mem_lookup_iff.1 hlookup), List.mem_map.2 ⟨pid, hpid, rfl⟩⟩

/-! ### The preference -/

/-- The owner that is found is one of the game. -/
def IsTarget (targets : TargetPIDs) (owner : Option UInt32) : Prop := ∃ pid, owner = some pid ∧ pid ∈ targets.pids

theorem targets_iff (r : OwnerTables) (owner : Option UInt32) : r.resolver.targets owner = true ↔ IsTarget r.targetPIDs owner := by
  cases owner with
  | none => exact iff_of_false nofun fun ⟨_, h, _⟩ => nomatch h
  | some pid => simp [OwnerResolver.targets, OwnerTables.resolver, OwnerTables.isTargetPID, IsTarget]

/-- A process of the game is preferred, wherever it stands. -/
theorem isTarget_preferredPID (r : OwnerTables) (pids : List UInt32) :
    IsTarget r.targetPIDs (r.preferredPID pids) ↔ ∃ pid ∈ pids, pid ∈ r.targetPIDs.pids := by
  unfold OwnerTables.preferredPID
  cases hfound : r.preferredTargetPID pids with
  | some pid =>
    have htarget : pid ∈ r.targetPIDs.pids := by simpa [OwnerTables.isTargetPID] using List.find?_some hfound
    exact iff_of_true ⟨pid, rfl, htarget⟩ ⟨pid, List.mem_of_find?_eq_some hfound, htarget⟩
  | none =>
    have hnone : ∀ pid ∈ pids, pid ∉ r.targetPIDs.pids := by simpa [OwnerTables.isTargetPID] using List.find?_eq_none.1 hfound
    refine iff_of_false ?_ fun ⟨pid, hpid, htarget⟩ => hnone pid hpid htarget
    rintro ⟨pid, hpid, htarget⟩
    cases pids with
    | nil => nomatch hpid
    | cons first rest =>
      dsimp only at hpid
      split at hpid
      · obtain rfl := Option.some.inj hpid
        exact hnone first List.mem_cons_self htarget
      · nomatch hpid

/-- Where some processes are looked up, one of the game is preferred among them. -/
theorem isTarget_lookup (r : OwnerTables) {found : Option (List UInt32)} {owner : Option UInt32}
    (hsome : ∀ pids, found = some pids → owner = r.preferredPID pids) (hnone : found = none → owner = none) :
    IsTarget r.targetPIDs owner ↔ ∃ pid ∈ found.getD [], pid ∈ r.targetPIDs.pids := by
  cases found with
  | none =>
    rw [hnone rfl]
    exact iff_of_false (fun ⟨_, h, _⟩ => nomatch h) fun ⟨_, h, _⟩ => nomatch h
  | some pids =>
    rw [hsome pids rfl]
    exact isTarget_preferredPID r pids

/-! ### The owner of a packet -/

variable {targets : TargetPIDs} {tcpOrder udpOrder : MapOrder} {tcp : List TCPRow} {udp : List UDPRow} {f : Flow}

theorem prefers_perm {Row : Type} {rows rows' : List Row} (h : rows.Perm rows') (isTarget : Row → Prop) (conditions : List (Row → Prop)) :
    Prefers rows isTarget conditions ↔ Prefers rows' isTarget conditions := by
  induction conditions with
  | nil => exact Iff.rfl
  | cons condition conditions ih =>
    refine or_congr (exists_congr fun row => and_congr_left fun _ => h.mem_iff) (and_congr ?_ ih)
    exact forall_congr' fun row => imp_congr_left h.mem_iff

/-- A process of the game uses a TCP port when one of the rows says so. -/
theorem tcp_port_iff (order : MapOrder) (hone : OneOwner targets tcp) (port : UInt16) :
    (∃ pid ∈ ((buildTCPPortIndex order (tcpOwners tcp)).lookup port).getD [], pid ∈ targets.pids) ↔
      ∃ row ∈ tcp, row.localPort = port ∧ row.pid ∈ targets.pids := by
  constructor
  · rintro ⟨pid, hpid, htarget⟩
    obtain ⟨-, key, rfl, hlookup⟩ := mem_buildTCPPortIndex.1 hpid
    obtain ⟨row, hrow, rfl, rfl⟩ := lookup_tcpOwners_some hlookup
    exact ⟨row, hrow, rfl, htarget⟩
  · rintro ⟨row, hrow, rfl, htarget⟩
    cases hlookup : (tcpOwners tcp).lookup row.key with
    | none => exact absurd rfl (lookup_tcpOwners_none.1 hlookup row hrow)
    | some pid =>
      obtain ⟨other, hother, hkey, rfl⟩ := lookup_tcpOwners_some hlookup
      have hotherTarget := hone row hrow other hother hkey.symm htarget
      exact ⟨other.pid, mem_buildTCPPortIndex.2 ⟨fun hzero => targets.zero_notMem (hzero ▸ hotherTarget), row.key, rfl, hlookup⟩, hotherTarget⟩

/-- A process of the game uses a UDP port when one of the rows says so. -/
theorem udp_port_iff (order : MapOrder) (port : UInt16) :
    (∃ pid ∈ ((buildUDPPortIndex order (udpOwners udp)).lookup port).getD [], pid ∈ targets.pids) ↔
      ∃ row ∈ udp, row.localPort = port ∧ row.pid ∈ targets.pids := by
  constructor
  · rintro ⟨pid, hpid, htarget⟩
    obtain ⟨-, key, rfl, hmem⟩ := mem_buildUDPPortIndex.1 hpid
    obtain ⟨row, hrow, rfl, rfl⟩ := mem_udpOwners.1 hmem
    exact ⟨row, hrow, rfl, htarget⟩
  · rintro ⟨row, hrow, rfl, htarget⟩
    have hmem : row.pid ∈ ((udpOwners udp).lookup row.key).getD [] := mem_udpOwners.2 ⟨row, hrow, rfl, rfl⟩
    exact ⟨row.pid, mem_buildUDPPortIndex.2 ⟨fun hzero => targets.zero_notMem (hzero ▸ htarget), row.key, rfl, hmem⟩, htarget⟩

/-- A process of the game has a UDP socket when one of the rows says so. -/
theorem udp_socket_iff (ip : IPv4) (port : UInt16) :
    (∃ pid ∈ ((udpOwners udp).lookup { localIP := ip.string, localPort := port }).getD [], pid ∈ targets.pids) ↔
      ∃ row ∈ udp, row.IsAt ip port ∧ row.pid ∈ targets.pids := by
  constructor
  · rintro ⟨pid, hpid, htarget⟩
    obtain ⟨row, hrow, hkey, rfl⟩ := mem_udpOwners.1 hpid
    exact ⟨row, hrow, udpKey_eq_iff.1 hkey, htarget⟩
  · rintro ⟨row, hrow, hat, htarget⟩
    exact ⟨row.pid, mem_udpOwners.2 ⟨row, hrow, udpKey_eq_iff.2 hat, rfl⟩, htarget⟩

/-- What is looked up for the socket of a TCP packet. -/
def tcpKey (f : Flow) : OwnerKey :=
  { proto := f.proto, localIP := f.localIP.string, localPort := f.localPort, remoteIP := f.remoteIP.string, remotePort := f.remotePort }

/-- The owner that a refresh from some rows gives a packet. -/
def found (targets : TargetPIDs) (tcpOrder udpOrder : MapOrder) (tcp : List TCPRow) (udp : List UDPRow) (f : Flow) : Option UInt32 :=
  (OwnerTables.ofRows targets tcpOrder udpOrder tcp udp).ownerOf f.proto f.localIP f.localPort f.remoteIP f.remotePort

theorem found_tcp_some {pid : UInt32} (hproto : f.proto = protoTCP) (h : (tcpOwners tcp).lookup (tcpKey f) = some pid) :
    found targets tcpOrder udpOrder tcp udp f = some pid := by
  simp only [tcpKey] at h
  simp only [found, OwnerTables.ownerOf, OwnerTables.ofRows, if_pos hproto, h]

theorem isTarget_tcp (hone : OneOwner targets tcp) (hproto : f.proto = protoTCP) :
    IsTarget targets (found targets tcpOrder udpOrder tcp udp f) ↔
      Prefers tcp (·.pid ∈ targets.pids) [TCPRow.IsExact f, (·.localPort = f.localPort)] := by
  simp only [Prefers, and_false, or_false]
  cases hlookup : (tcpOwners tcp).lookup (tcpKey f) with
  | some pid =>
    obtain ⟨row, hrow, hkey, rfl⟩ := lookup_tcpOwners_some hlookup
    rw [found_tcp_some hproto hlookup]
    have hexact : row.IsExact f := (tcpKey_eq_iff hproto).1 hkey
    constructor
    · rintro ⟨pid, hpid, htarget⟩
      obtain rfl := Option.some.inj hpid
      exact .inl ⟨row, hrow, hexact, htarget⟩
    · rintro (⟨other, hother, hotherExact, htarget⟩ | ⟨hnone, -⟩)
      · exact ⟨_, rfl, hone other hother row hrow (((tcpKey_eq_iff hproto).2 hotherExact).trans hkey.symm) htarget⟩
      · exact absurd hexact (hnone row hrow)
  | none =>
    have hnone : ∀ row ∈ tcp, ¬row.IsExact f := fun row hrow hexact =>
      lookup_tcpOwners_none.1 hlookup row hrow ((tcpKey_eq_iff hproto).2 hexact)
    have hport : IsTarget targets (found targets tcpOrder udpOrder tcp udp f) ↔
        ∃ row ∈ tcp, row.localPort = f.localPort ∧ row.pid ∈ targets.pids := by
      rw [← tcp_port_iff tcpOrder hone]
      simp only [tcpKey] at hlookup
      refine isTarget_lookup (OwnerTables.ofRows targets tcpOrder udpOrder tcp udp) (fun pids hpids => ?_) fun hempty => ?_
      · simp only [found, OwnerTables.ownerOf, OwnerTables.ofRows, if_pos hproto, hlookup, hpids]
      · simp only [found, OwnerTables.ownerOf, OwnerTables.ofRows, if_pos hproto, hlookup, hempty]
    rw [hport]
    constructor
    · exact fun h => .inr ⟨hnone, h⟩
    · rintro (⟨row, hrow, hexact, -⟩ | ⟨-, h⟩)
      · exact absurd hexact (hnone row hrow)
      · exact h

/-- Where a UDP socket is looked up, its rows decide; without one, what is done then. -/
theorem isTarget_udpSocket (r : OwnerTables) {ip : IPv4} {port : UInt16} {owner rest : Option UInt32}
    (hsome : ∀ pids, (udpOwners udp).lookup { localIP := ip.string, localPort := port } = some pids → owner = r.preferredPID pids)
    (hnone : (udpOwners udp).lookup { localIP := ip.string, localPort := port } = none → owner = rest) :
    IsTarget r.targetPIDs owner ↔
      (∃ row ∈ udp, row.IsAt ip port ∧ row.pid ∈ r.targetPIDs.pids) ∨ (∀ row ∈ udp, ¬row.IsAt ip port) ∧ IsTarget r.targetPIDs rest := by
  have hempty : (udpOwners udp).lookup { localIP := ip.string, localPort := port } = none ↔ ∀ row ∈ udp, ¬row.IsAt ip port := by
    rw [lookup_udpOwners_none]
    exact forall₂_congr fun row _ => not_congr udpKey_eq_iff
  rw [← udp_socket_iff, ← hempty]
  cases hlookup : (udpOwners udp).lookup { localIP := ip.string, localPort := port } with
  | none =>
    rw [hnone hlookup]
    simp
  | some pids =>
    rw [hsome pids hlookup, isTarget_preferredPID]
    simp

/-- What is found where there is no socket at the address of the packet itself. -/
def foundAny (r : OwnerTables) (port : UInt16) : Option UInt32 :=
  match r.udpOwners.lookup { localIP := "0.0.0.0".toList, localPort := port } with
  | some pids => r.preferredPID pids
  | none => r.ownerByUDPPort port

theorem isTarget_foundAny (tcpOrder udpOrder : MapOrder) (tcp : List TCPRow) (port : UInt16) :
    IsTarget targets (foundAny (OwnerTables.ofRows targets tcpOrder udpOrder tcp udp) port) ↔
      Prefers udp (·.pid ∈ targets.pids) [UDPRow.IsAt .unspecified port, (·.localPort = port)] := by
  have hport : IsTarget targets ((OwnerTables.ofRows targets tcpOrder udpOrder tcp udp).ownerByUDPPort port) ↔
      ∃ row ∈ udp, row.localPort = port ∧ row.pid ∈ targets.pids := by
    rw [← udp_port_iff udpOrder]
    refine isTarget_lookup (OwnerTables.ofRows targets tcpOrder udpOrder tcp udp) (fun pids hpids => ?_) fun hempty => ?_
    · simp only [OwnerTables.ownerByUDPPort, OwnerTables.ofRows, hpids]
    · simp only [OwnerTables.ownerByUDPPort, OwnerTables.ofRows, hempty]
  simp only [Prefers, and_false, or_false]
  rw [← hport]
  refine isTarget_udpSocket (OwnerTables.ofRows targets tcpOrder udpOrder tcp udp) (fun pids hpids => ?_) fun hempty => ?_
  · rw [string_unspecified] at hpids
    simp only [foundAny, OwnerTables.ofRows, hpids]
  · rw [string_unspecified] at hempty
    simp only [foundAny, OwnerTables.ofRows, hempty]

theorem isTarget_udp (hproto : f.proto = protoUDP) :
    IsTarget targets (found targets tcpOrder udpOrder tcp udp f) ↔
      Prefers udp (·.pid ∈ targets.pids)
        [UDPRow.IsAt f.localIP f.localPort, UDPRow.IsAt .unspecified f.localPort, (·.localPort = f.localPort)] := by
  have htcp : f.proto ≠ protoTCP := by
    rw [hproto]
    decide
  rw [Prefers, ← isTarget_foundAny tcpOrder udpOrder tcp]
  refine isTarget_udpSocket (OwnerTables.ofRows targets tcpOrder udpOrder tcp udp) (fun pids hpids => ?_) fun hempty => ?_
  · simp only [found, OwnerTables.ownerOf, OwnerTables.ofRows, if_neg htcp, if_pos hproto, hpids]
  · cases hany : (udpOwners udp).lookup { localIP := "0.0.0.0".toList, localPort := f.localPort } <;>
      simp only [found, foundAny, OwnerTables.ownerOf, OwnerTables.ofRows, if_neg htcp, if_pos hproto, hempty, hany]

theorem owned_iff (hone : OneOwner targets tcp) : IsTarget targets (found targets tcpOrder udpOrder tcp udp f) ↔ Owned targets tcp udp f := by
  by_cases htcp : f.proto = protoTCP
  · have hudp : f.proto ≠ protoUDP := by
      rw [htcp]
      decide
    rw [isTarget_tcp hone htcp]
    exact ⟨fun h => .inl ⟨htcp, h⟩, fun h => h.elim And.right fun h => absurd h.1 hudp⟩
  · by_cases hudp : f.proto = protoUDP
    · rw [isTarget_udp hudp]
      exact ⟨fun h => .inr ⟨hudp, h⟩, fun h => h.elim (fun h => absurd h.1 htcp) And.right⟩
    · rw [found, OwnerTables.ownerOf, if_neg htcp, if_neg hudp]
      exact iff_of_false (fun ⟨_, h, _⟩ => nomatch h) fun h => h.elim (fun h => htcp h.1) fun h => hudp h.1

theorem belongsToGame_iff (outbound : Bool) (p : PacketMeta) :
    (OwnerTables.ofRows targets tcpOrder udpOrder tcp udp).belongsToGame outbound p = true ↔
      IsTarget targets (found targets tcpOrder udpOrder tcp udp (p.flow outbound)) := by
  rw [OwnerTables.belongsToGame, targets_iff]
  cases outbound <;> rfl

theorem owned_perm {tcp' : List TCPRow} {udp' : List UDPRow} (htcp : tcp'.Perm tcp) (hudp : udp'.Perm udp) :
    Owned targets tcp' udp' f ↔ Owned targets tcp udp f :=
  or_congr (and_congr_right fun _ => prefers_perm htcp _ _) (and_congr_right fun _ => prefers_perm hudp _ _)

theorem oneOwner_perm {tcp' : List TCPRow} (h : tcp'.Perm tcp) (hone : OneOwner targets tcp) : OneOwner targets tcp' :=
  fun row hrow other hother => hone row (h.mem_iff.1 hrow) other (h.mem_iff.1 hother)

/-! ### A packet of any TCP socket -/

/-- A TCP packet without data. -/
def emptySegment : PacketMeta where
  data := [0x45, 0, 0, 40, 0, 0, 0, 0, 64, 6] ++ List.replicate 30 0
  ihl := 20
  proto := protoTCP
  srcIP := .unspecified
  dstIP := .unspecified
  srcPort := 0
  dstPort := 0
  portOffset := 20

/-- A packet that the socket of a row sends. -/
def segmentOf (row : TCPRow) : PacketMeta :=
  (((emptySegment.setSrcIP row.localIP).setDstIP row.remoteIP).setSrcPort row.localPort).setDstPort row.remotePort

theorem parsed_emptySegment : emptySegment.Parsed := by
  rw [PacketMeta.Parsed]
  decide

theorem parsed_segmentOf (row : TCPRow) : (segmentOf row).Parsed :=
  PacketMeta.parsed_setDstPort
    (PacketMeta.parsed_setSrcPort (PacketMeta.parsed_setDstIP (PacketMeta.parsed_setSrcIP parsed_emptySegment _) _) _) _

theorem tcpKey_segmentOf (row : TCPRow) : tcpKey ((segmentOf row).flow true) = row.key := rfl

end SocketOwnersAux

open SocketOwnersAux in
/-- In whatever order the tables list the rows and the indexes are built, a packet is treated as one of the game when the rows of its
socket, or else of its port, include a process of the game: exactly when no two rows of one TCP socket differ in that. -/
theorem verdict_order_independent_iff (targets : TargetPIDs) (tcp : List TCPRow) (udp : List UDPRow) :
    (∀ tcp' udp', tcp'.Perm tcp → udp'.Perm udp → ∀ tcpOrder udpOrder outbound p, PacketMeta.Parsed p →
        ((OwnerTables.ofRows targets tcpOrder udpOrder tcp' udp').belongsToGame outbound p = true ↔
          Owned targets tcp udp (p.flow outbound))) ↔
      OneOwner targets tcp := by
  constructor
  · intro h row hrow other hother hkey htarget
    -- the other row is listed last, and a packet of the socket has its process
    have hperm : (tcp.erase other ++ [other]).Perm tcp :=
      List.perm_append_comm.trans (List.perm_cons_erase hother).symm
    have hverdict := h _ udp hperm (.refl _) .listed .listed true (segmentOf row) (parsed_segmentOf row)
    have howned : Owned targets tcp udp ((segmentOf row).flow true) := .inl ⟨rfl, .inl ⟨row, hrow, ⟨rfl, rfl, rfl, rfl⟩, htarget⟩⟩
    obtain ⟨pid, hpid, hpidTarget⟩ := (belongsToGame_iff true _).1 (hverdict.2 howned)
    have hlast : (tcpOwners (tcp.erase other ++ [other])).lookup (tcpKey ((segmentOf row).flow true)) = some other.pid := by
      rw [tcpKey_segmentOf, hkey]
      exact lookup_tcpOwners_last _ other
    rw [found_tcp_some rfl hlast] at hpid
    rwa [Option.some.inj hpid]
  · intro hone tcp' udp' htcp hudp tcpOrder udpOrder outbound p _
    rw [belongsToGame_iff, owned_iff (oneOwner_perm htcp hone), owned_perm htcp hudp]

/-- A process listens on port 5000 of the overlay's address. -/
def listenerRow (pid : UInt32) : TCPRow := { localIP := ⟨10, 66, 0, 2⟩, localPort := 5000, remoteIP := .unspecified, remotePort := 0, pid }

def gamePIDs : TargetPIDs := { pids := [1], zero_notMem := by decide }

/-- A packet from the port that is listened on to a peer. -/
def listenerPacket : PacketMeta :=
  SocketOwnersAux.segmentOf { localIP := ⟨10, 66, 0, 2⟩, localPort := 5000, remoteIP := ⟨10, 66, 0, 3⟩, remotePort := 40000, pid := 1 }

/-- The game and another process listen on one address and port: a packet is one of the game or not by which of them is listed last. -/
theorem verdict_order_independent_false :
    listenerPacket.Parsed ∧ Owned gamePIDs [listenerRow 1, listenerRow 2] [] (listenerPacket.flow true) ∧
      (OwnerTables.ofRows gamePIDs .listed .listed [listenerRow 2, listenerRow 1] []).belongsToGame true listenerPacket = true ∧
      (OwnerTables.ofRows gamePIDs .listed .listed [listenerRow 1, listenerRow 2] []).belongsToGame true listenerPacket = false := by
  refine ⟨SocketOwnersAux.parsed_segmentOf _, .inl ⟨rfl, .inr ⟨?_, .inl ?_⟩⟩, by decide +kernel, by decide +kernel⟩
  · rintro row hrow ⟨-, -, -, hport⟩
    obtain rfl | rfl : row = listenerRow 1 ∨ row = listenerRow 2 := by simpa using hrow
    all_goals exact absurd hport (by decide)
  · exact ⟨listenerRow 1, List.mem_cons_self, rfl, List.mem_singleton_self _⟩

end Scbl.RouteGuard
