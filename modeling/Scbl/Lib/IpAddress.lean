import Scbl.Lib.Text

/-!
# IP addresses

IP addresses and networks as they are written, and what they stand for: the dotted form of version 4, the hexadecimal form of version 6
with a run of zeros left out and a scope behind a percent sign, and networks with the length of a prefix or a mask.
-/

namespace Scbl.Lib

/-! ## Addresses -/

/-- The bits of an address of version 4 or version 6. -/
inductive IpVersion where
  | v4
  | v6
  deriving DecidableEq, Repr

def IpVersion.bits : IpVersion → Nat
  | .v4 => 32
  | .v6 => 128

/-- An address: its number, and the scope it was given. -/
structure IpAddress where
  version : IpVersion
  value : Nat
  scope : Option (List Char) := none
  deriving DecidableEq, Repr

/-- The number that digits stand for, in a base. -/
def numberOf (base : Nat) (digits : List Nat) : Nat := digits.foldl (fun n d => n * base + d) 0

/-- A part of an address of version 4: at most three digits, no leading zero, at most 255. -/
def parseOctet (octet : List Char) : Option Nat :=
  if octet ≠ [] ∧ octet.all (·.isDigit) ∧ octet.length ≤ 3 ∧ (octet = ['0'] ∨ octet.head? ≠ some '0') ∧ digitsValue octet ≤ 255 then
    some (digitsValue octet)
  else none

def ipv4Octets (text : List Char) : Option (List Nat) :=
  let octets := text.splitOn '.'
  if octets.length = 4 then octets.mapM parseOctet else none

def ipv4Value (text : List Char) : Option Nat := (ipv4Octets text).map (numberOf 256)

/-- The value of a hexadecimal digit. -/
def hexDigitValue (c : Char) : Option Nat :=
  if c.isDigit then some (c.toNat - '0'.toNat)
  else if 'a' ≤ c ∧ c ≤ 'f' then some (c.toNat - 'a'.toNat + 10)
  else if 'A' ≤ c ∧ c ≤ 'F' then some (c.toNat - 'A'.toNat + 10)
  else none

theorem hexDigitValue_lt {c : Char} {n : Nat} (h : hexDigitValue c = some n) : n < 16 := by
  simp only [hexDigitValue] at h
  split at h
  · rename_i hdigit
    have := (Char.isDigit_iff_toNat.mp hdigit).2
    have := Option.some.inj h
    have : '0'.toNat = 48 := rfl
    have : '9'.toNat = 57 := rfl
    omega
  · split at h
    · rename_i hletter
      have : c.toNat ≤ 'f'.toNat := hletter.2
      have := Option.some.inj h
      have : 'f'.toNat = 102 := rfl
      have : 'a'.toNat = 97 := rfl
      omega
    · split at h
      · rename_i hletter
        have : c.toNat ≤ 'F'.toNat := hletter.2
        have := Option.some.inj h
        have : 'F'.toNat = 70 := rfl
        have : 'A'.toNat = 65 := rfl
        omega
      · nomatch h

/-- A part of an address of version 6: one to four hexadecimal digits. -/
def parseHextet (hextet : List Char) : Option Nat :=
  if hextet ≠ [] ∧ hextet.length ≤ 4 then (hextet.mapM hexDigitValue).map (numberOf 16) else none

/-- The parts between the colons of an address of version 6, where a dotted address at the end counts as two. -/
def ipv6Parts (text : List Char) : Option (List (List Char)) :=
  let parts := text.splitOn ':'
  match parts.getLast? with
  | some part =>
    if parts.length < 3 then none
    else if '.' ∈ part then
      (ipv4Value part).map (fun n => parts.dropLast ++ [Nat.toDigits 16 (n / 2 ^ 16 % 2 ^ 16), Nat.toDigits 16 (n % 2 ^ 16)])
    else some parts
  | none => none

/-- The hextets before a run of zeros, or behind it: all that stands there, or none if only the end of the address does. -/
def hextetsBeside (parts : List (List Char)) : Option (List Nat) := if parts = [[]] then some [] else parts.mapM parseHextet

def ipv6Value (text : List Char) : Option Nat := do
  let parts ← ipv6Parts text
  if parts.length > 9 then none
  else
    match (List.range parts.length).filter (fun i => 0 < i ∧ i + 1 < parts.length ∧ parts[i]? = some []) with
    | [] => if parts.length = 8 then (parts.mapM parseHextet).map (numberOf (2 ^ 16)) else none
    | [skip] => do
      let before ← hextetsBeside (parts.take skip)
      let behind ← hextetsBeside (parts.drop (skip + 1))
      if before.length + behind.length < 8 then
        some (numberOf (2 ^ 16) (before ++ List.replicate (8 - (before.length + behind.length)) 0 ++ behind))
      else none
    | _ => none

/-- The address and the scope behind it. -/
def splitScope (text : List Char) : Option (List Char × Option (List Char)) :=
  match text.splitOn '%' with
  | [address] => some (address, none)
  | [address, scope] => if scope = [] then none else some (address, some scope)
  | _ => none

def ipv4Address (text : List Char) : Option IpAddress := (ipv4Value text).map (fun value => { version := .v4, value })

def ipv6Address (text : List Char) : Option IpAddress :=
  if '/' ∈ text then none
  else do
    let (address, scope) ← splitScope text
    let value ← ipv6Value address
    some { version := .v6, value, scope }

def ipAddress (text : List Char) : Option IpAddress := ipv4Address text <|> ipv6Address text

/-! ## Networks -/

/-- A network: its address, of which the bits behind the prefix are zero, and the length of the prefix. -/
structure IpNetwork where
  address : IpAddress
  prefixLength : Nat
  deriving DecidableEq, Repr

/-- The bits of a number behind a prefix set to zero. -/
def maskBits (version : IpVersion) (prefixLength value : Nat) : Nat :=
  value / 2 ^ (version.bits - prefixLength) * 2 ^ (version.bits - prefixLength)

/-- The length of the prefix that is all ones in a mask, or all zeros in an inverted one. -/
def maskLength (version : IpVersion) (mask : Nat) : Option Nat :=
  let ones := fun n => 2 ^ version.bits - 2 ^ (version.bits - n)
  ((List.range (version.bits + 1)).find? (fun n => mask = ones n)).or
    ((List.range (version.bits + 1)).find? (fun n => mask = 2 ^ version.bits - 1 - ones n))

/-- The length of a prefix as it is written: in decimal, or as a mask of version 4. -/
def parsePrefix (version : IpVersion) (text : List Char) : Option Nat :=
  if text ≠ [] ∧ text.all (·.isDigit) ∧ digitsValue text ≤ version.bits then some (digitsValue text)
  else
    match version with
    | .v4 => (ipv4Value text).bind (maskLength .v4)
    | .v6 => none

/-- An address and the length of the prefix behind its slash, which is all bits if there is none. -/
def splitPrefix (version : IpVersion) (text : List Char) : Option (IpAddress × Nat) := do
  let (address, length) ←
    match text.splitOn '/' with
    | [address] => some (address, version.bits)
    | [address, length] => (parsePrefix version length).map (address, ·)
    | _ => none
  let address ← (match version with | .v4 => ipv4Address address | .v6 => ipv6Address address)
  some (address, length)

/-- The network of an address, which loses its scope if bits behind the prefix are set to zero. -/
def networkOf (address : IpAddress) (prefixLength : Nat) : IpNetwork :=
  let value := maskBits address.version prefixLength address.value
  { address := if value = address.value then address else { version := address.version, value }, prefixLength }

def ipNetwork (text : List Char) : Option IpNetwork :=
  ((splitPrefix .v4 text).or (splitPrefix .v6 text)).map (fun item => networkOf item.1 item.2)

/-- An address with its network; the address loses its scope. -/
def ipInterface (text : List Char) : Option (IpAddress × IpNetwork) :=
  ((splitPrefix .v4 text).or (splitPrefix .v6 text)).map (fun item => ({ item.1 with scope := none }, networkOf item.1 item.2))

def IpNetwork.contains (network : IpNetwork) (address : IpAddress) : Bool :=
  network.address.version = address.version ∧ maskBits address.version network.prefixLength address.value = network.address.value

example : ipAddress "2001:db8::1".toList = some { version := .v6, value := 0x20010db8000000000000000000000001 } := by decide +kernel
example : ipAddress "::ffff:10.66.0.1%eth0".toList = some { version := .v6, value := 0xffff0a420001, scope := some "eth0".toList } := by
  decide +kernel
example : (ipNetwork "10.66.0.7/255.255.255.0".toList).map (·.contains { version := .v4, value := 0x0a4200fe }) = some true := by
  decide +kernel

/-! ## The characters of an address -/

/-- A result of a list of results is that of an item. -/
theorem mem_of_mapM {α β : Type} {f : α → Option β} {l : List α} {r : List β} (h : l.mapM f = some r) : ∀ y ∈ r, ∃ x ∈ l, f x = some y := by
  induction l generalizing r with
  | nil =>
    rw [← Option.some.inj h]
    nofun
  | cons a l ih =>
    rw [List.mapM_cons] at h
    obtain ⟨b, hb, h⟩ := Option.bind_eq_some_iff.mp h
    obtain ⟨bs, hbs, h⟩ := Option.bind_eq_some_iff.mp h
    obtain rfl := Option.some.inj h
    intro y hy
    rcases List.mem_cons.mp hy with rfl | hy
    · exact ⟨a, List.mem_cons_self, hb⟩
    · obtain ⟨x, hx, hfx⟩ := ih hbs y hy
      exact ⟨x, List.mem_cons_of_mem a hx, hfx⟩

/-- The hexadecimal digits, and what separates them. -/
def IsAddressChar (c : Char) : Prop := (hexDigitValue c).isSome ∨ c = ':' ∨ c = '.'

/-- What stands in a text is a separator or stands in a piece. -/
theorem mem_splitOn {sep c : Char} {t : List Char} (hc : c ∈ t) (hne : c ≠ sep) : ∃ piece ∈ t.splitOn sep, c ∈ piece := by
  rw [List.splitOn_eq_splitOnP]
  induction t with
  | nil => nomatch hc
  | cons d t ih =>
    rw [List.splitOnP_cons_eq_if_modifyHead]
    obtain ⟨first, rest, hsplit⟩ := List.exists_cons_of_ne_nil (List.splitOnP_ne_nil (· == sep) t)
    split
    · rename_i hd
      rcases List.mem_cons.mp hc with rfl | hc
      · exact absurd (by simpa using hd) hne
      · obtain ⟨piece, hpiece, hin⟩ := ih hc
        exact ⟨piece, List.mem_cons_of_mem _ hpiece, hin⟩
    · rw [hsplit, List.modifyHead_cons]
      rcases List.mem_cons.mp hc with rfl | hc
      · exact ⟨c :: first, List.mem_cons_self, List.mem_cons_self⟩
      · obtain ⟨piece, hpiece, hin⟩ := ih hc
        rw [hsplit] at hpiece
        rcases List.mem_cons.mp hpiece with rfl | hpiece
        · exact ⟨d :: piece, List.mem_cons_self, List.mem_cons_of_mem _ hin⟩
        · exact ⟨piece, List.mem_cons_of_mem _ hpiece, hin⟩

/-- What is read of a whole list is read of each item. -/
theorem isSome_of_mapM {α β : Type} {f : α → Option β} {l : List α} {r : List β} (h : l.mapM f = some r) : ∀ x ∈ l, (f x).isSome := by
  induction l generalizing r with
  | nil => exact fun _ hx => nomatch hx
  | cons x l ih =>
    rw [List.mapM_cons] at h
    obtain ⟨y, hy, h⟩ := Option.bind_eq_some_iff.mp h
    obtain ⟨ys, hys, -⟩ := Option.bind_eq_some_iff.mp h
    intro z hz
    rcases List.mem_cons.mp hz with rfl | hz
    · rw [hy]
      rfl
    · exact ih hys z hz

theorem isAddressChar_of_isDigit {c : Char} (h : c.isDigit = true) : IsAddressChar c := by
  refine .inl ?_
  rw [hexDigitValue, if_pos h]
  rfl

theorem isAddressChar_of_ipv4Octets {text : List Char} (h : (ipv4Octets text).isSome) : ∀ c ∈ text, IsAddressChar c := by
  obtain ⟨octets, h⟩ := Option.isSome_iff_exists.mp h
  simp only [ipv4Octets] at h
  split at h
  · intro c hc
    by_cases hdot : c = '.'
    · exact .inr (.inr hdot)
    · obtain ⟨piece, hpiece, hin⟩ := mem_splitOn hc hdot
      have hparsed := isSome_of_mapM h piece hpiece
      rw [parseOctet] at hparsed
      split at hparsed
      · rename_i hoctet
        exact isAddressChar_of_isDigit (List.all_eq_true.mp hoctet.2.1 c hin)
      · nomatch hparsed
  · nomatch h

/-- A part of an address of version 4 is written in one way. -/
theorem parseOctet_eq_some {octet : List Char} {n : Nat} (h : parseOctet octet = some n) : octet = Nat.toDigits 10 n ∧ digitsValue octet = n := by
  rw [parseOctet] at h
  split at h
  · rename_i hoctet
    rw [← Option.some.inj h]
    exact ⟨(toDigits_digitsValue hoctet.1 (List.all_eq_true.mp hoctet.2.1) hoctet.2.2.2.1).symm, rfl⟩
  · nomatch h

/-- The parts of an address of version 4 are written in one way. -/
theorem splitOn_of_ipv4Octets {text : List Char} {octets : List Nat} (h : ipv4Octets text = some octets) :
    text.splitOn '.' = octets.map (Nat.toDigits 10) := by
  simp only [ipv4Octets] at h
  split at h
  · generalize text.splitOn '.' = parts at h
    induction parts generalizing octets with
    | nil =>
      obtain rfl := Option.some.inj h
      rfl
    | cons part parts ih =>
      rw [List.mapM_cons] at h
      obtain ⟨n, hn, h⟩ := Option.bind_eq_some_iff.mp h
      obtain ⟨ns, hns, h⟩ := Option.bind_eq_some_iff.mp h
      obtain rfl := Option.some.inj h
      rw [List.map_cons, ← ih hns, ← (parseOctet_eq_some hn).1]
  · nomatch h

/-- Two addresses of version 4 with the same parts are one text. -/
theorem ipv4Octets_inj {text text' : List Char} {octets : List Nat} (h : ipv4Octets text = some octets) (h' : ipv4Octets text' = some octets) :
    text = text' := by
  have hsplit : text.splitOn '.' = text'.splitOn '.' := (splitOn_of_ipv4Octets h).trans (splitOn_of_ipv4Octets h').symm
  calc
    text = ['.'].intercalate (text.splitOn '.') := (List.intercalate_splitOn '.').symm
    _ = ['.'].intercalate (text'.splitOn '.') := by rw [hsplit]
    _ = text' := List.intercalate_splitOn '.'

theorem isAddressChar_of_parseHextet {hextet : List Char} (h : (parseHextet hextet).isSome) : ∀ c ∈ hextet, IsAddressChar c := by
  obtain ⟨n, h⟩ := Option.isSome_iff_exists.mp h
  rw [parseHextet] at h
  split at h
  · obtain ⟨digits, hdigits, -⟩ := Option.map_eq_some_iff.mp h
    exact fun c hc => .inl (isSome_of_mapM hdigits c hc)
  · nomatch h

theorem isAddressChar_of_hextetsBeside {parts : List (List Char)} {hextets : List Nat} (h : hextetsBeside parts = some hextets) :
    ∀ part ∈ parts, ∀ c ∈ part, IsAddressChar c := by
  rw [hextetsBeside] at h
  split at h
  · rename_i hempty
    intro part hpart c hc
    rw [hempty, List.mem_singleton] at hpart
    rw [hpart] at hc
    nomatch hc
  · exact fun part hpart => isAddressChar_of_parseHextet (isSome_of_mapM h part hpart)

/-- The parts of an address of version 6 hold hexadecimal digits. -/
theorem isAddressChar_of_parts {parts : List (List Char)} {text : List Char} (hparts : ipv6Parts text = some parts)
    (h : (ipv6Value text).isSome) : ∀ part ∈ parts, ∀ c ∈ part, IsAddressChar c := by
  obtain ⟨n, h⟩ := Option.isSome_iff_exists.mp h
  simp only [ipv6Value, hparts, Option.bind_eq_bind, Option.bind_some] at h
  split at h
  · nomatch h
  split at h
  · split at h
    · obtain ⟨hextets, hall, -⟩ := Option.map_eq_some_iff.mp h
      exact fun part hpart => isAddressChar_of_parseHextet (isSome_of_mapM hall part hpart)
    · nomatch h
  · rename_i skip hskip
    obtain ⟨before, hbefore, h⟩ := Option.bind_eq_some_iff.mp h
    obtain ⟨behind, hbehind, -⟩ := Option.bind_eq_some_iff.mp h
    have hempty : parts[skip]? = some [] := by
      have hmem : skip ∈ (List.range parts.length).filter (fun i => 0 < i ∧ i + 1 < parts.length ∧ parts[i]? = some []) := by
        rw [hskip]
        exact List.mem_cons_self
      exact (of_decide_eq_true (List.mem_filter.mp hmem).2).2.2
    intro part hpart c hc
    rw [← List.take_append_drop skip parts, List.mem_append] at hpart
    rcases hpart with hpart | hpart
    · exact isAddressChar_of_hextetsBeside hbefore part hpart c hc
    · obtain ⟨hlt, hget⟩ := List.getElem?_eq_some_iff.mp hempty
      rw [List.drop_eq_getElem_cons hlt, hget] at hpart
      rcases List.mem_cons.mp hpart with rfl | hpart
      · nomatch hc
      · exact isAddressChar_of_hextetsBeside hbehind part hpart c hc
  · nomatch h

theorem isAddressChar_of_ipv6Value {text : List Char} (h : (ipv6Value text).isSome) : ∀ c ∈ text, IsAddressChar c := by
  intro c hc
  by_cases hcolon : c = ':'
  · exact .inr (.inl hcolon)
  obtain ⟨piece, hpiece, hin⟩ := mem_splitOn hc hcolon
  cases hparts : ipv6Parts text with
  | none =>
    rw [ipv6Value, hparts] at h
    cases h
  | some parts =>
    have hchars := isAddressChar_of_parts hparts h
    simp only [ipv6Parts] at hparts
    split at hparts
    · rename_i last hlast
      split at hparts
      · cases hparts
      split at hparts
      · obtain ⟨n, hn, rfl⟩ := Option.map_eq_some_iff.mp hparts
        obtain ⟨front, hfront⟩ := List.getLast?_eq_some_iff.mp hlast
        rw [hfront, List.mem_append, List.mem_singleton] at hpiece
        rw [hfront, List.dropLast_concat] at hchars
        rcases hpiece with hpiece | rfl
        · exact hchars piece (List.mem_append_left _ hpiece) c hin
        · obtain ⟨octets, hoctets, -⟩ := Option.map_eq_some_iff.mp hn
          exact isAddressChar_of_ipv4Octets (by rw [hoctets]; rfl) c hin
      · rw [Option.some.inj hparts] at hpiece
        exact hchars piece hpiece c hin
    · cases hparts

/-- An address without a scope holds hexadecimal digits, colons and dots, and one with a scope a percent sign. -/
theorem ipAddress_chars {text : List Char} {address : IpAddress} (h : ipAddress text = some address) :
    (address.scope = none → ∀ c ∈ text, IsAddressChar c) ∧ (address.scope ≠ none → '%' ∈ text) := by
  rw [ipAddress] at h
  cases hv4 : ipv4Address text with
  | some address' =>
    rw [hv4] at h
    obtain rfl := Option.some.inj h
    obtain ⟨value, hvalue, rfl⟩ := Option.map_eq_some_iff.mp hv4
    obtain ⟨octets, hoctets, -⟩ := Option.map_eq_some_iff.mp hvalue
    exact ⟨fun _ => isAddressChar_of_ipv4Octets (by rw [hoctets]; rfl), fun hscope => absurd rfl hscope⟩
  | none =>
    rw [hv4] at h
    have hv6 : ipv6Address text = some address := h
    rw [ipv6Address] at hv6
    split at hv6
    · nomatch hv6
    obtain ⟨⟨body, scope⟩, hsplit, hv6⟩ := Option.bind_eq_some_iff.mp hv6
    obtain ⟨value, hvalue, hv6⟩ := Option.bind_eq_some_iff.mp hv6
    obtain rfl := Option.some.inj hv6
    have hbody : (ipv6Value body).isSome := by rw [hvalue]; rfl
    rw [splitScope] at hsplit
    by_cases hpercent : '%' ∈ text
    · refine ⟨fun hscope => ?_, fun _ => hpercent⟩
      obtain ⟨front, behind, rfl, hfront⟩ := List.eq_append_cons_of_mem hpercent
      rw [List.splitOn_append_cons_self_of_not_mem hfront] at hsplit
      obtain ⟨first, rest, hbehind⟩ := List.exists_cons_of_ne_nil (List.splitOnP_ne_nil (· == '%') behind)
      rw [List.splitOn_eq_splitOnP, hbehind] at hsplit
      cases rest with
      | nil =>
        simp only [] at hsplit
        split at hsplit
        · nomatch hsplit
        · rw [← (Prod.mk.inj (Option.some.inj hsplit)).2] at hscope
          nomatch hscope
      | cons second rest => nomatch hsplit
    · rw [List.splitOn_eq_singleton hpercent] at hsplit
      obtain ⟨rfl, rfl⟩ := Prod.mk.inj (Option.some.inj hsplit)
      exact ⟨fun _ => isAddressChar_of_ipv6Value hbody, fun hscope => absurd rfl hscope⟩

end Scbl.Lib
