import Scbl.Rmc.Stream

/-!
# Typed streams are read back

A value within the limits of the format is written, and read back from its bytes and whatever follows them. A map is read back up to
the order of its entries; everything else is read back as it is.
-/

namespace Scbl.Rmc

open Scbl.Lib

/-- A string without a zero, of at most 65534 bytes. -/
def StringWithin (data : Bytes) : Prop := 0 ∉ data ∧ data.length ≤ 65534

/-- The limits of the format. A station URL is not one of the types. -/
def Ty.Within : (t : Ty) → t.Val → Prop
  | .array n, v => List.length (v : Bytes) = n ∧ n ≤ maxLengthPrefixedBytes
  | .cstring, v => StringWithin v
  | .string, v => StringWithin (Text.toBytes v)
  | .stationURL, _ => False
  | .qresult, v => ∀ c, v = QResult.unknown c → QResult.IsUnknown c
  | .variant, .string v => StringWithin v.toBytes
  | .any k, v => k.Within (Any.typeName v) ∧ (Any.data v).length + 4 ≤ maxCollectionItems
  | .vec t, v | .qlist t, v => List.length (v : List t.Val) ≤ maxCollectionItems ∧ AllItems t.Within v
  | .map k v, m => (AList.entries m).length ≤ maxCollectionItems ∧ AllItems (fun e => k.Within e.1 ∧ v.Within e.2) (AList.entries m)
  | .pair a b, v => a.Within v.1 ∧ b.Within v.2
  | _, _ => True

/-- Values of a type that hold no map. -/
def Ty.MapFree : Ty → Prop
  | .map _ _ => False
  | .any t | .vec t | .qlist t => t.MapFree
  | .pair a b => a.MapFree ∧ b.MapFree
  | _ => True

/-- The keys of maps hold no maps, which have no hash. -/
def Ty.Formed : Ty → Prop
  | .map k v => k.MapFree ∧ v.Formed
  | .any t | .vec t | .qlist t => t.Formed
  | .pair a b => a.Formed ∧ b.Formed
  | _ => True

/-- Equality of values: maps are equal when they have equal values under the same keys. -/
def Ty.Same : (t : Ty) → t.Val → t.Val → Prop
  | .any k, v, v' => k.Same (Any.typeName v) (Any.typeName v') ∧ Any.data v = Any.data v'
  | .vec t, v, v' | .qlist t, v, v' => List.Forall₂ t.Same v v'
  | .map _ t, m, m' => ∀ key, Option.Rel t.Same (AList.lookup key m) (AList.lookup key m')
  | .pair a b, v, v' => a.Same v.1 v'.1 ∧ b.Same v.2 v'.2
  | _, v, v' => v = v'

namespace StreamCodecAux

variable {α β : Type} {build : Build} {order : MapOrder}

/-! ### The count of bytes -/

theorem length_writeString {t : Text} {data : Bytes} (h : writeString build t = .ok data) : stringWritten t = data.length := by
  rw [writeString] at h
  rw [stringWritten]
  split at h
  · rename_i hempty
    rw [if_pos hempty, ← Except.ok.inj h, length_putU16]
  · rename_i hne
    obtain ⟨len, -, h⟩ := bind_eq_ok.1 h
    rw [if_neg hne, ← Except.ok.inj h, List.length_append, List.length_append, length_putU16, List.length_singleton]

theorem length_putCString (data : Bytes) : cstringWritten data = (putCString data).length := by
  rw [cstringWritten, putCString]
  split
  · rw [length_putU16]
  · simp only [List.length_append, length_putU16, List.length_singleton]
    omega

theorem foldl_add_eq (written : α → Nat) (items : List α) (total : Nat) :
    items.foldl (fun total item => total + written item) total = total + (items.map written).sum := by
  induction items generalizing total with
  | nil => rfl
  | cons item items ih => rw [List.foldl_cons, ih, List.map_cons, List.sum_cons, Nat.add_assoc]

theorem length_writeItems {write : α → Except Panic Bytes} {written : α → Nat} {items : List α} {data : Bytes}
    (hitem : ∀ item ∈ items, ∀ data, write item = .ok data → written item = data.length) (h : writeItems write items = .ok data) :
    (items.map written).sum = data.length := by
  induction items generalizing data with
  | nil =>
    rw [← Except.ok.inj h]
    rfl
  | cons item items ih =>
    obtain ⟨first, hfirst, h⟩ := bind_eq_ok.1 h
    obtain ⟨rest, hrest, h⟩ := bind_eq_ok.1 h
    rw [← Except.ok.inj h, List.map_cons, List.sum_cons, List.length_append, hitem item List.mem_cons_self first hfirst,
      ih (fun item' hmem => hitem item' (List.mem_cons_of_mem _ hmem)) hrest]

theorem length_writeVec {write : α → Except Panic Bytes} {written : α → Nat} {items : List α} {data : Bytes}
    (hitem : ∀ item ∈ items, ∀ data, write item = .ok data → written item = data.length) (h : writeVec write items = .ok data) :
    vecWritten written items = data.length := by
  obtain ⟨rest, hrest, h⟩ := bind_eq_ok.1 h
  rw [← Except.ok.inj h, vecWritten, foldl_add_eq, length_writeItems hitem hrest, List.length_append, length_putU32]

theorem length_writePair {write : α → Except Panic Bytes} {write' : β → Except Panic Bytes} {written : α → Nat} {written' : β → Nat}
    {v : α × β} {data : Bytes} (hfirst : ∀ data, write v.1 = .ok data → written v.1 = data.length)
    (hsecond : ∀ data, write' v.2 = .ok data → written' v.2 = data.length) (h : writePair write write' v = .ok data) :
    written v.1 + written' v.2 = data.length := by
  obtain ⟨first, hdata, h⟩ := bind_eq_ok.1 h
  obtain ⟨rest, hrest, h⟩ := bind_eq_ok.1 h
  rw [← Except.ok.inj h, List.length_append, hfirst first hdata, hsecond rest hrest]

theorem length_putVecU8 (data : Bytes) : (putVecU8 data).length = 4 + data.length := by
  rw [putVecU8, List.length_append, length_putU32]

theorem length_variant {v : Variant} {data : Bytes} (h : v.write build = .ok data) : v.written = data.length := by
  cases v with
  | string text =>
    cases htext : writeString build text with
    | error e =>
      rw [Variant.write, htext] at h
      cases h
    | ok bytes =>
      rw [Variant.write, htext] at h
      rw [← Except.ok.inj h, Variant.written, length_writeString htext, List.length_cons, Nat.add_comm]
  | none | bool b =>
    rw [← Except.ok.inj h]
    rfl
  | i64 n | f64 n | dateTime n | u64 n =>
    rw [← Except.ok.inj h, List.length_cons, length_putU64]
    rfl

/-- Writing returns the number of bytes. -/
theorem length_write (t : Ty) (v : t.Val) (data : Bytes) (h : t.write build order v = .ok data) : t.written order v = data.length := by
  induction t generalizing data with
  | string | stationURL => exact length_writeString h
  | cstring => exact (Except.ok.inj h) ▸ length_putCString v
  | variant => exact length_variant h
  | any k ih =>
    obtain ⟨name, hname, h⟩ := bind_eq_ok.1 h
    rw [← Except.ok.inj h, List.length_append, ← ih _ name hname]
    show _ + vecWritten (fun _ => 1) (putVecU8 (Any.data v)) = _
    have hones : ∀ data : Bytes, (data.map (fun _ => 1)).sum = data.length := fun data => by simp
    rw [vecWritten, foldl_add_eq, hones, length_putVecU8 (putVecU8 _)]
  | vec t ih => exact length_writeVec (fun item _ => ih item) h
  | qlist t ih => exact length_writeVec (fun item _ => ih item) h
  | map k t ihk iht =>
    have hentry : ∀ e : k.Val × t.Val, ∀ data, writePair (k.write build order) (t.write build order) e = .ok data →
        k.written order e.1 + t.written order e.2 = data.length := fun e _ => length_writePair (ihk e.1) (iht e.2)
    have hlength := length_writeVec (fun e _ => hentry e) h
    simp only [vecWritten, ← Nat.add_assoc] at hlength
    exact hlength
  | pair a b iha ihb => exact length_writePair (iha v.1) (ihb v.2) h
  | u16 | i16 => exact (Except.ok.inj h) ▸ (length_putU16 _).symm
  | u32 | f32 | i32 | qresult => exact (Except.ok.inj h) ▸ (length_putU32 _).symm
  | u64 | f64 | i64 | dateTime => exact (Except.ok.inj h) ▸ (length_putU64 _).symm
  | _ =>
    rw [← Except.ok.inj h]
    rfl

/-! ### Reading back -/

variable {read : Reader α} {write : α → Except Panic Bytes} {same : α → α → Prop}

/-- A value is written, and read back from its bytes and whatever follows them. -/
def Codes (read : Reader α) (write : α → Except Panic Bytes) (same : α → α → Prop) (v : α) : Prop :=
  ∃ data, write v = .ok data ∧ ∀ rest, ∃ v', read (data ++ rest) = .ok (v', rest) ∧ same v v'

/-- A value whose bytes are read back exactly. -/
theorem codes_of_read {v : α} (data : Bytes) (hwrite : write v = .ok data) (hread : ∀ rest, read (data ++ rest) = .ok (v, rest)) :
    Codes read write Eq v := ⟨data, hwrite, fun rest => ⟨v, hread rest, rfl⟩⟩

/-- Reading a value as one of another type. -/
theorem map_read {f : α → β} {data : Bytes} {v : α} {rest : Bytes} (h : read data = .ok (v, rest)) :
    Reader.map f read data = .ok (f v, rest) := by
  rw [Reader.map, h]
  rfl

/-- The bytes of a string, with its length and the zero. -/
theorem readZeroEnded {data : Bytes} (h : StringWithin data) (rest : Bytes) :
    readNBytes (UInt16.ofNat (data.length + 1)).toNat (data ++ [0] ++ rest) = .ok (data ++ [0], rest) := by
  have hlen : (UInt16.ofNat (data.length + 1)).toNat = (data ++ [0]).length := by
    have hlimit := h.2
    rw [UInt16.toNat_ofNat', List.length_append, List.length_singleton]
    omega
  rw [hlen]
  refine readNBytes_append ?_ rest
  have hlimit := h.2
  rw [List.length_append, List.length_singleton, maxLengthPrefixedBytes]
  omega

theorem not_empty_length {data : Bytes} (h : StringWithin data) : UInt16.ofNat (data.length + 1) ≠ 0 := by
  intro hzero
  have hlen := congrArg UInt16.toNat hzero
  have hlimit := h.2
  rw [UInt16.toNat_ofNat'] at hlen
  change _ = 0 at hlen
  omega

theorem ends_with_zero {data : Bytes} (h : StringWithin data) :
    (data ++ [0]).getLast? = some 0 ∧ (0 : UInt8) ∉ (data ++ [0]).dropLast := by
  rw [List.getLast?_append, List.dropLast_concat]
  exact ⟨rfl, h.1⟩

theorem codes_cstring {data : Bytes} (h : StringWithin data) :
    Codes streamCString (fun data => .ok (putCString data)) Eq data := by
  refine codes_of_read _ rfl fun rest => ?_
  rw [putCString, streamCString]
  split
  · rename_i hempty
    subst hempty
    rw [streamU16_put]
    rfl
  · rw [List.append_assoc, List.append_assoc, streamU16_put]
    show (if UInt16.ofNat (data.length + 1) = 0 then _ else _) = _
    rw [if_neg (not_empty_length h), ← List.append_assoc, readZeroEnded h]
    show (if (data ++ [0]).getLast? = some 0 ∧ (0 : UInt8) ∉ (data ++ [0]).dropLast then _ else _) = _
    rw [if_pos (ends_with_zero h), List.dropLast_concat]
    rfl

theorem codes_string {t : Text} (h : StringWithin t.toBytes) : Codes streamString (writeString build) Eq t := by
  by_cases hempty : t = []
  · subst hempty
    refine codes_of_read _ rfl fun rest => ?_
    rw [streamString, streamU16_put]
    rfl
  · have hadd : build.addU16 (UInt16.ofNat t.toBytes.length) 1 = .ok (UInt16.ofNat (t.toBytes.length + 1)) := by
      have hlimit := h.2
      rw [build.addU16_ok, UInt16.ofNat_add]
      · rfl
      · rw [UInt16.toNat_ofNat']
        change _ + 1 < _
        omega
    refine codes_of_read (putU16 (UInt16.ofNat (t.toBytes.length + 1)) ++ t.toBytes ++ [0]) ?_ fun rest => ?_
    · rw [writeString, if_neg hempty, hadd]
      rfl
    · rw [List.append_assoc, List.append_assoc, streamString, streamU16_put]
      show (if UInt16.ofNat (t.toBytes.length + 1) = 0 then _ else _) = _
      rw [if_neg (not_empty_length h), ← List.append_assoc, readZeroEnded h]
      show (if (t.toBytes ++ [0]).getLast? = some 0 ∧ (0 : UInt8) ∉ (t.toBytes ++ [0]).dropLast then _ else _) = _
      rw [if_pos (ends_with_zero h), List.dropLast_concat, decodeUtf8_toBytes]
      rfl

theorem Codes.pair {read' : Reader β} {write' : β → Except Panic Bytes} {same' : β → β → Prop} {v : α × β}
    (h : Codes read write same v.1) (h' : Codes read' write' same' v.2) :
    Codes (readPair read read') (writePair write write') (fun v v' => same v.1 v'.1 ∧ same' v.2 v'.2) v := by
  obtain ⟨data, hdata, hread⟩ := h
  obtain ⟨data', hdata', hread'⟩ := h'
  refine ⟨data ++ data', by rw [writePair, hdata, hdata']; rfl, fun rest => ?_⟩
  obtain ⟨first, hfirst, hsame⟩ := hread (data' ++ rest)
  obtain ⟨second, hsecond, hsame'⟩ := hread' rest
  refine ⟨(first, second), ?_, hsame, hsame'⟩
  rw [List.append_assoc, readPair, hfirst]
  show (read' (data' ++ rest) >>= _) = _
  rw [hsecond]
  rfl

/-- Items one after the other. -/
theorem codes_items {items : List α} (h : ∀ item ∈ items, Codes read write same item) :
    ∃ data, writeItems write items = .ok data ∧
      ∀ rest, ∃ items', readItems read items.length (data ++ rest) = .ok (items', rest) ∧ List.Forall₂ same items items' := by
  induction items with
  | nil => exact ⟨[], rfl, fun rest => ⟨[], rfl, .nil⟩⟩
  | cons item items ih =>
    obtain ⟨first, hfirst, hread⟩ := h item List.mem_cons_self
    obtain ⟨data, hdata, hreads⟩ := ih fun item' hmem => h item' (List.mem_cons_of_mem _ hmem)
    refine ⟨first ++ data, by rw [writeItems, hfirst, hdata]; rfl, fun rest => ?_⟩
    obtain ⟨item', hitem, hsame⟩ := hread (data ++ rest)
    obtain ⟨items', hitems, hsames⟩ := hreads rest
    refine ⟨item' :: items', ?_, .cons hsame hsames⟩
    rw [List.append_assoc, List.length_cons]
    show (read (first ++ (data ++ rest)) >>= _) = _
    rw [hitem]
    show (readItems read items.length (data ++ rest) >>= _) = _
    rw [hitems]
    rfl

theorem toNat_length {items : List α} (h : items.length ≤ maxCollectionItems) : (UInt32.ofNat items.length).toNat = items.length := by
  rw [maxCollectionItems] at h
  rw [UInt32.toNat_ofNat']
  omega

/-- A collection. -/
theorem codes_vec {items : List α} (hlength : items.length ≤ maxCollectionItems) (h : ∀ item ∈ items, Codes read write same item) :
    Codes (readVec read) (writeVec write) (List.Forall₂ same) items := by
  obtain ⟨data, hdata, hread⟩ := codes_items h
  refine ⟨putU32 (UInt32.ofNat items.length) ++ data, by rw [writeVec, hdata]; rfl, fun rest => ?_⟩
  obtain ⟨items', hitems, hsame⟩ := hread rest
  refine ⟨items', ?_, hsame⟩
  rw [List.append_assoc, readVec, streamU32_put]
  show (if maxCollectionItems < (UInt32.ofNat items.length).toNat then _ else _) = _
  rw [toNat_length hlength, if_neg (Nat.not_lt.2 hlength)]
  exact hitems

/-- A list. -/
theorem codes_qlist {items : List α} (hlength : items.length ≤ maxCollectionItems) (h : ∀ item ∈ items, Codes read write same item) :
    Codes (readQList read) (writeVec write) (List.Forall₂ same) items := by
  obtain ⟨data, hdata, hread⟩ := codes_items h
  refine ⟨putU32 (UInt32.ofNat items.length) ++ data, by rw [writeVec, hdata]; rfl, fun rest => ?_⟩
  obtain ⟨items', hitems, hsame⟩ := hread rest
  refine ⟨items', ?_, hsame⟩
  rw [List.append_assoc, readQList, streamU32_put]
  show readItems read (UInt32.ofNat items.length).toNat (data ++ rest) = _
  rw [toNat_length hlength]
  exact hitems

/-! ### Maps -/

theorem Forall₂.keys {K V : Type} {same : V → V → Prop} {entries entries' : List (K × V)}
    (h : List.Forall₂ (fun e e' => e.1 = e'.1 ∧ same e.2 e'.2) entries entries') : entries.map (·.1) = entries'.map (·.1) := by
  induction h with
  | nil => rfl
  | cons hentry _ ih => rw [List.map_cons, List.map_cons, hentry.1, ih]

theorem Forall₂.exists_of_mem {K V : Type} {same : V → V → Prop} {entries entries' : List (K × V)}
    (h : List.Forall₂ (fun e e' => e.1 = e'.1 ∧ same e.2 e'.2) entries entries') {e : K × V} (hmem : e ∈ entries) :
    ∃ v, (e.1, v) ∈ entries' ∧ same e.2 v := by
  induction h with
  | nil => nomatch hmem
  | cons hentry _ ih =>
    rename_i first first' _ _ _
    rcases List.mem_cons.1 hmem with rfl | hmem
    · exact ⟨first'.2, by rw [hentry.1]; exact List.mem_cons_self, hentry.2⟩
    · obtain ⟨v, hv, hsame⟩ := ih hmem
      exact ⟨v, List.mem_cons_of_mem _ hv, hsame⟩

/-- The entries of a map, in the order in which it iterates. -/
def listed {K V : Type} (order : MapOrder) (m : AList (fun _ : K => V)) : List (K × V) := (order.apply m.entries).map (fun e => (e.1, e.2))

theorem mem_listed {K V : Type} [DecidableEq K] {m : AList (fun _ : K => V)} {k : K} {v : V} :
    (k, v) ∈ listed order m ↔ m.lookup k = some v := by
  rw [← Option.mem_def, AList.mem_lookup_iff, listed, List.mem_map]
  constructor
  · rintro ⟨e, he, heq⟩
    obtain ⟨rfl, rfl⟩ := Prod.mk.inj heq
    exact (order.mem_apply _ _).1 he
  · exact fun h => ⟨_, (order.mem_apply _ _).2 h, rfl⟩

theorem nodup_listed {K V : Type} (m : AList (fun _ : K => V)) : ((listed order m).map (·.1)).Nodup := by
  rw [listed, List.map_map]
  exact (((order.apply_perm m.entries).map Sigma.fst).nodup_iff).2 m.nodupKeys

theorem length_listed {K V : Type} (m : AList (fun _ : K => V)) : (listed order m).length = m.entries.length := by
  rw [listed, List.length_map, (order.apply_perm _).length_eq]

/-- A map is rebuilt from its entries. -/
theorem insertAll_listed {K V : Type} [DecidableEq K] {m : AList (fun _ : K => V)} {same : V → V → Prop} {entries' : List (K × V)}
    (h : List.Forall₂ (fun e e' => e.1 = e'.1 ∧ same e.2 e'.2) (listed order m) entries') (key : K) :
    Option.Rel same (m.lookup key) ((insertAll ∅ entries').lookup key) := by
  have hkeys := Forall₂.keys h
  cases hlookup : m.lookup key with
  | none =>
    have hnot : key ∉ entries'.map (·.1) := by
      rw [← hkeys]
      intro hmem
      obtain ⟨e, he, rfl⟩ := List.mem_map.1 hmem
      rw [mem_listed.1 he] at hlookup
      nomatch hlookup
    rw [lookup_insertAll_of_notMem hnot]
    exact .none
  | some v =>
    obtain ⟨v', hmem, hsame⟩ := Forall₂.exists_of_mem h (mem_listed.2 hlookup)
    have hnodup : (entries'.map (·.1)).Nodup := hkeys ▸ nodup_listed m
    rw [lookup_insertAll_of_mem hnodup hmem]
    exact .some hsame

/-! ### All types -/

theorem Codes.mono {same' : α → α → Prop} {v : α} (h : Codes read write same v) (hsame : ∀ v', same v v' → same' v v') :
    Codes read write same' v := by
  obtain ⟨data, hdata, hread⟩ := h
  refine ⟨data, hdata, fun rest => ?_⟩
  obtain ⟨v', hv', hs⟩ := hread rest
  exact ⟨v', hv', hsame v' hs⟩

theorem forall₂_eq {items items' : List α} (h : List.Forall₂ same items items') (heq : ∀ item item', same item item' → item = item') :
    items = items' := by
  induction h with
  | nil => rfl
  | cons hitem _ ih => rw [heq _ _ hitem, ih]

/-- Values without maps that are the same are equal. -/
theorem eq_of_same (t : Ty) (hfree : t.MapFree) (v v' : t.Val) (h : t.Same v v') : v = v' := by
  induction t with
  | any k ih =>
    obtain ⟨name, data⟩ := v
    obtain ⟨name', data'⟩ := v'
    obtain ⟨hname, rfl⟩ := h
    obtain rfl := ih hfree name name' hname
    rfl
  | vec t ih => exact forall₂_eq h (ih hfree)
  | qlist t ih => exact forall₂_eq h (ih hfree)
  | map k t => exact hfree.elim
  | pair a b iha ihb => exact Prod.ext (iha hfree.1 _ _ h.1) (ihb hfree.2 _ _ h.2)
  | _ => exact h

theorem formed_of_mapFree (t : Ty) (h : t.MapFree) : t.Formed := by
  induction t with
  | any k ih => exact ih h
  | vec t ih => exact ih h
  | qlist t ih => exact ih h
  | map k t => exact h.elim
  | pair a b iha ihb => exact ⟨iha h.1, ihb h.2⟩
  | _ => trivial

theorem codes_variant {v : Variant} (h : Ty.Within .variant v) : Codes Variant.fromStream (Variant.write build) Eq v := by
  cases v with
  | none => exact codes_of_read _ rfl fun _ => rfl
  | bool b => exact codes_of_read _ rfl fun _ => by cases b <;> rfl
  | i64 n => exact codes_of_read _ rfl fun rest => map_read (f := fun n => Variant.i64 (UInt64.toInt64 n)) (streamU64_put n.toUInt64 rest)
  | f64 n => exact codes_of_read _ rfl fun rest => map_read (f := Variant.f64) (streamU64_put n rest)
  | dateTime n => exact codes_of_read _ rfl fun rest => map_read (f := fun n => Variant.dateTime ⟨n⟩) (streamU64_put n.value rest)
  | u64 n => exact codes_of_read _ rfl fun rest => map_read (f := Variant.u64) (streamU64_put n rest)
  | string text =>
    have hcodes : Codes streamString (writeString build) Eq text := codes_string h
    obtain ⟨data, hdata, hread⟩ := hcodes
    refine codes_of_read (4 :: data) (by rw [Variant.write, hdata]; rfl) fun rest => ?_
    obtain ⟨text', htext, rfl⟩ := hread rest
    exact map_read (f := Variant.string) htext

/-- The bytes of a value with a name. -/
theorem codes_vecU8 (data : Bytes) (h : data.length ≤ maxCollectionItems) (rest : Bytes) :
    readVec streamU8 (putVecU8 data ++ rest) = .ok (data, rest) := by
  have hitems : ∀ data : Bytes, writeItems (fun b => .ok [b]) data = .ok data := by
    intro data
    induction data with
    | nil => rfl
    | cons b data ih => rw [writeItems, ih]; rfl
  have hcodes : Codes (readVec streamU8) (writeVec (fun b => .ok [b])) (List.Forall₂ Eq) data :=
    codes_vec h fun b _ => codes_of_read _ rfl (streamU8_cons b)
  obtain ⟨bytes, hbytes, hread⟩ := hcodes
  obtain ⟨data', hdata', hsame⟩ := hread rest
  rw [writeVec, hitems] at hbytes
  rw [← Except.ok.inj hbytes] at hdata'
  obtain rfl := forall₂_eq hsame fun _ _ heq => heq
  exact hdata'

theorem codes_any {K : Type} {readName : Reader K} {writeName : K → Except Panic Bytes} {same : K → K → Prop} {v : Any K}
    (h : Codes readName writeName same v.typeName) (hdata : v.data.length + 4 ≤ maxCollectionItems) :
    Codes (Any.fromStream readName)
      (fun v => do
        let typeName ← writeName v.typeName
        return typeName ++ putVecU8 (putVecU8 v.data))
      (fun v v' => same v.typeName v'.typeName ∧ v.data = v'.data) v := by
  obtain ⟨name, hname, hread⟩ := h
  refine ⟨name ++ putVecU8 (putVecU8 v.data), by dsimp only; rw [hname]; rfl, fun rest => ?_⟩
  obtain ⟨name', hname', hsame⟩ := hread (putVecU8 (putVecU8 v.data) ++ rest)
  refine ⟨{ typeName := name', data := v.data }, ?_, hsame, rfl⟩
  have hinner : readVec streamU8 (putVecU8 v.data) = .ok (v.data, []) := by
    have hall := codes_vecU8 v.data (by omega) []
    rwa [List.append_nil] at hall
  have houter := codes_vecU8 (putVecU8 v.data) (by rw [length_putVecU8]; omega) rest
  rw [List.append_assoc, Any.fromStream, hname']
  show (readVec streamU8 (putVecU8 (putVecU8 v.data) ++ rest) >>= _) = _
  rw [houter]
  show (readVec streamU8 (putVecU8 v.data) >>= _) = _
  rw [hinner]
  rfl

theorem codes (t : Ty) (hformed : t.Formed) (v : t.Val) (h : t.Within v) : Codes t.read (t.write build order) t.Same v := by
  induction t with
  | unit => exact codes_of_read _ rfl fun _ => rfl
  | bool => exact codes_of_read _ rfl fun _ => by cases v <;> rfl
  | u8 => exact codes_of_read _ rfl fun rest => rfl
  | u16 => exact codes_of_read _ rfl fun rest => streamU16_put v rest
  | u32 | f32 => exact codes_of_read _ rfl fun rest => streamU32_put v rest
  | u64 | f64 => exact codes_of_read _ rfl fun rest => streamU64_put v rest
  | i8 => exact codes_of_read _ rfl fun rest => map_read (f := UInt8.toInt8) (streamU8_cons (Int8.toUInt8 v) rest)
  | i16 => exact codes_of_read _ rfl fun rest => map_read (f := UInt16.toInt16) (streamU16_put (Int16.toUInt16 v) rest)
  | i32 => exact codes_of_read _ rfl fun rest => map_read (f := UInt32.toInt32) (streamU32_put (Int32.toUInt32 v) rest)
  | i64 => exact codes_of_read _ rfl fun rest => map_read (f := UInt64.toInt64) (streamU64_put (Int64.toUInt64 v) rest)
  | array n =>
    exact codes_of_read _ rfl fun rest => readNBytes_of_length h.1 h.2 rest
  | cstring => exact codes_cstring h
  | string => exact codes_string h
  | stationURL => exact h.elim
  | qresult =>
    refine codes_of_read _ rfl fun rest => ?_
    have hread := map_read (f := QResult.ofCode) (streamU32_put (QResult.code v) rest)
    rwa [QResult.ofCode_code v h] at hread
  | dateTime => exact codes_of_read _ rfl fun rest => map_read (f := DateTime.mk) (streamU64_put (DateTime.value v) rest)
  | variant => exact codes_variant h
  | any k ih => exact codes_any (ih hformed _ h.1) h.2
  | vec t ih => exact codes_vec h.1 fun item hmem => ih hformed item (h.2 item hmem)
  | qlist t ih => exact codes_qlist h.1 fun item hmem => ih hformed item (h.2 item hmem)
  | map k t ihk iht =>
    have hentries : ∀ e ∈ listed order v, Codes (readPair k.read t.read) (writePair (k.write build order) (t.write build order))
        (fun e e' => e.1 = e'.1 ∧ t.Same e.2 e'.2) e := by
      intro e he
      have hwithin := h.2 ⟨e.1, e.2⟩ ((AList.mem_lookup_iff).1 (mem_listed.1 he))
      exact ((ihk (formed_of_mapFree k hformed.1) e.1 hwithin.1).pair (iht hformed.2 e.2 hwithin.2)).mono fun e' hs => ⟨eq_of_same k hformed.1 _ _ hs.1, hs.2⟩
    have hlength : (listed order v).length ≤ maxCollectionItems := (length_listed v).symm ▸ h.1
    obtain ⟨data, hdata, hread⟩ := codes_vec hlength hentries
    refine ⟨data, hdata, fun rest => ?_⟩
    obtain ⟨entries', hentries', hsame⟩ := hread rest
    exact ⟨insertAll ∅ entries', map_read hentries', insertAll_listed hsame⟩
  | pair a b iha ihb => exact (iha hformed.1 _ h.1).pair (ihb hformed.2 _ h.2)

end StreamCodecAux

open StreamCodecAux in
/-- Every value within the limits is written, to as many bytes as writing returns, and read back from them and whatever follows. -/
theorem stream_codec (build : Build) (order : MapOrder) (t : Ty) (v : t.Val) (hformed : t.Formed) (h : t.Within v) :
    ∃ data, t.write build order v = .ok data ∧ t.written order v = data.length ∧
      ∀ rest, ∃ v', t.read (data ++ rest) = .ok (v', rest) ∧ t.Same v v' := by
  have hcodes : Codes t.read (t.write build order) t.Same v := codes t hformed v h
  obtain ⟨data, hdata, hread⟩ := hcodes
  exact ⟨data, hdata, length_write t v data hdata, hread⟩

/-- Two texts in a collection. -/
theorem stream_codec_texts : ∃ data, (Ty.vec .string).write .release .listed [[], "hi".toList] = .ok data ∧
    (Ty.vec .string).written .listed [[], "hi".toList] = data.length ∧
      ∀ rest, ∃ v', (Ty.vec .string).read (data ++ rest) = .ok (v', rest) ∧ (Ty.vec .string).Same [[], "hi".toList] v' := by
  refine stream_codec .release .listed (.vec .string) [[], "hi".toList] trivial ⟨by decide, ?_⟩
  intro text hmem
  rcases List.mem_cons.1 hmem with rfl | hmem
  · exact ⟨by decide, by decide⟩
  · rw [List.mem_singleton.1 hmem]
    exact ⟨by decide +kernel, by decide +kernel⟩

/-- An array of more bytes than a length prefix may announce is written, and not read. -/
theorem stream_codec_false : ∃ data, (Ty.array 1048577).write .release .listed (List.replicate 1048577 0) = .ok data ∧
    ∀ v' rest, (Ty.array 1048577).read data ≠ .ok (v', rest) := by
  refine ⟨List.replicate 1048577 0, rfl, fun v' rest hread => ?_⟩
  have hrefused : readNBytes 1048577 (List.replicate 1048577 0) =
      .error (.lengthLimitExceeded 1048577 maxLengthPrefixedBytes) := if_pos (by decide)
  nomatch hrefused.symm.trans hread

end Scbl.Rmc
