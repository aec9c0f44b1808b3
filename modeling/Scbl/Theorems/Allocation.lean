import Scbl.Rmc.Allocation

/-!
# Hostile length prefixes

Every reader of a counted collection or of bytes refuses a prefix above the limit before it reserves anything for it, except the reader
of a list, which reserves as many items as the prefix says.
-/

namespace Scbl.Rmc

open Scbl.Lib

/-- A count or a length above the limit. -/
def Oversized : DecodeEvent → Prop
  | .countRead n => maxCollectionItems < n
  | .lengthRead n => maxLengthPrefixedBytes < n
  | .itemsReserved _ | .bytesReserved _ => False

/-- No more is reserved than the limit. -/
def WithinLimit : DecodeEvent → Prop
  | .itemsReserved n => n ≤ maxCollectionItems
  | .bytesReserved n => n ≤ maxLengthPrefixedBytes
  | .countRead _ | .lengthRead _ => True

/-- Where a prefix is above the limit, the value is refused, and nothing above the limit was reserved. -/
def Rejects (events : List DecodeEvent) {α : Type} (result : Except FromStreamError α) : Prop :=
  (∃ event ∈ events, Oversized event) →
    (∃ length limit, result = .error (.lengthLimitExceeded length limit)) ∧ ∀ event ∈ events, WithinLimit event

/-- Some item of a sequence is one of which something is met, where those before it are read. -/
def ItemMeets {α : Type} (read : Reader α) (meets : Bytes → Prop) : Nat → Bytes → Prop
  | 0, _ => False
  | n + 1, data => meets data ∨ ∃ item rest, read data = .ok (item, rest) ∧ ItemMeets read meets n rest

/-- The reader comes to a list whose count is above the limit. -/
def Ty.MeetsLongList : Ty → Bytes → Prop
  | .qlist t, data => ∃ len rest, streamU32 data = .ok (len, rest) ∧
      (maxCollectionItems < len.toNat ∨ ItemMeets t.read t.MeetsLongList len.toNat rest)
  | .vec t, data => ∃ len rest, streamU32 data = .ok (len, rest) ∧ len.toNat ≤ maxCollectionItems ∧
      ItemMeets t.read t.MeetsLongList len.toNat rest
  | .map k v, data => ∃ len rest, streamU32 data = .ok (len, rest) ∧ len.toNat ≤ maxCollectionItems ∧
      ItemMeets (readPair k.read v.read)
        (fun data => k.MeetsLongList data ∨ ∃ key rest, k.read data = .ok (key, rest) ∧ v.MeetsLongList rest) len.toNat rest
  | .pair a b, data => a.MeetsLongList data ∨ ∃ first rest, a.read data = .ok (first, rest) ∧ b.MeetsLongList rest
  | .any k, data => k.MeetsLongList data
  | _, _ => False

namespace AllocationAux

variable {α β : Type} {events events' : List DecodeEvent} {x : Except FromStreamError α}

/-! ### Guarded readers -/

/-- Nothing above the limit is reserved, and a prefix above the limit is refused. -/
structure Guarded (events : List DecodeEvent) (result : Except FromStreamError α) : Prop where
  within : ∀ event ∈ events, WithinLimit event
  refused : (∃ event ∈ events, Oversized event) → ∃ length limit, result = .error (.lengthLimitExceeded length limit)

theorem Guarded.rejects (h : Guarded events x) : Rejects events x := fun hoversized => ⟨h.refused hoversized, h.within⟩

theorem guarded_nil (x : Except FromStreamError α) : Guarded [] x where
  within _ h := nomatch h
  refused h := nomatch h

/-- One part after another. -/
theorem Guarded.bind {f : α → Except FromStreamError β} {next : α → List DecodeEvent} (h : Guarded events x)
    (hnext : ∀ a, x = .ok a → Guarded (next a) (f a)) : Guarded (events ++ eventsAfter x next) (x >>= f) := by
  cases x with
  | error e =>
    have hevents : events ++ eventsAfter (.error e : Except FromStreamError α) next = events := List.append_nil _
    rw [hevents]
    refine { within := h.within, refused := fun hoversized => ?_ }
    obtain ⟨length, limit, heq⟩ := h.refused hoversized
    exact ⟨length, limit, congrArg Except.error (Except.error.inj heq)⟩
  | ok a =>
    have hthen := hnext a rfl
    refine { within := ?_, refused := ?_ }
    · intro event hmem
      rcases List.mem_append.1 hmem with hfirst | hsecond
      · exact h.within event hfirst
      · exact hthen.within event hsecond
    · rintro ⟨event, hmem, hoversized⟩
      rcases List.mem_append.1 hmem with hfirst | hsecond
      · obtain ⟨_, _, heq⟩ := h.refused ⟨event, hfirst, hoversized⟩
        nomatch heq
      · exact hthen.refused ⟨event, hsecond, hoversized⟩

/-- A part that is read without events, and what comes after it. -/
theorem guarded_after {f : α → Except FromStreamError β} {next : α → List DecodeEvent}
    (hnext : ∀ a, x = .ok a → Guarded (next a) (f a)) : Guarded (eventsAfter x next) (x >>= f) :=
  (guarded_nil x).bind hnext

theorem Guarded.map (h : Guarded events x) (f : α → β) : Guarded events (f <$> x) := by
  refine { within := h.within, refused := fun hoversized => ?_ }
  obtain ⟨length, limit, heq⟩ := h.refused hoversized
  exact ⟨length, limit, by rw [heq]; rfl⟩

/-- What is done with the result, without events. -/
theorem Guarded.andThen (h : Guarded events x) (f : α → Except FromStreamError β) : Guarded events (x >>= f) := by
  have hbind : Guarded (events ++ eventsAfter x fun _ => []) (x >>= f) := h.bind fun a _ => guarded_nil (f a)
  have hevents : events ++ eventsAfter x (fun _ => []) = events := by
    cases x <;> exact List.append_nil _
  rwa [hevents] at hbind

/-- The bytes are reserved after the check. -/
theorem guarded_readNBytes (l : Nat) (data : Bytes) : Guarded (byteEvents l) (readNBytes l data) := by
  rw [byteEvents, readNBytes]
  split
  · refine { within := ?_, refused := fun _ => ⟨_, _, rfl⟩ }
    intro event hmem
    rw [List.mem_singleton.1 hmem]
    trivial
  · rename_i hlimit
    refine { within := ?_, refused := ?_ }
    · intro event hmem
      rcases List.mem_cons.1 hmem with rfl | hmem
      · trivial
      · rw [List.mem_singleton.1 hmem]
        exact Nat.le_of_not_lt hlimit
    · rintro ⟨event, hmem, hoversized⟩
      rcases List.mem_cons.1 hmem with rfl | hmem
      · exact absurd hoversized hlimit
      · rw [List.mem_singleton.1 hmem] at hoversized
        exact hoversized.elim

theorem guarded_streamCString (data : Bytes) : Guarded (stringEvents data) (streamCString data) := by
  refine guarded_after fun r _ => ?_
  dsimp only
  split
  · exact guarded_nil _
  · exact (guarded_readNBytes _ _).andThen _

theorem guarded_streamString (data : Bytes) : Guarded (stringEvents data) (streamString data) := by
  refine guarded_after fun r _ => ?_
  dsimp only
  split
  · exact guarded_nil _
  · exact (guarded_readNBytes _ _).andThen _

theorem guarded_items {read : Reader α} {events : Bytes → List DecodeEvent} {meets : Bytes → Prop}
    (h : ∀ data, ¬ meets data → Guarded (events data) (read data)) {n : Nat} {data : Bytes} (hnot : ¬ ItemMeets read meets n data) :
    Guarded (itemEvents read events n data) (readItems read n data) := by
  induction n generalizing data with
  | zero => exact guarded_nil _
  | succ n ih =>
    refine (h data fun hmeets => hnot (Or.inl hmeets)).bind fun r hread => ?_
    refine Guarded.andThen (ih fun hmeets => hnot (Or.inr ⟨r.1, r.2, hread, hmeets⟩)) _

theorem guarded_readVec {read : Reader α} {events : Bytes → List DecodeEvent} {meets : Bytes → Prop}
    (h : ∀ data, ¬ meets data → Guarded (events data) (read data)) {data : Bytes}
    (hnot : ∀ len rest, streamU32 data = .ok (len, rest) → len.toNat ≤ maxCollectionItems → ¬ ItemMeets read meets len.toNat rest) :
    Guarded (vecEvents read events data) (readVec read data) := by
  refine guarded_after fun r hcount => ?_
  by_cases hlimit : maxCollectionItems < r.1.toNat
  · simp only [if_pos hlimit]
    refine { within := ?_, refused := fun _ => ⟨_, _, rfl⟩ }
    intro event hmem
    rw [List.mem_singleton.1 hmem]
    trivial
  · simp only [if_neg hlimit]
    have hitems := guarded_items h (hnot r.1 r.2 hcount (Nat.le_of_not_lt hlimit))
    refine { within := ?_, refused := ?_ }
    · intro event hmem
      rcases List.mem_cons.1 hmem with rfl | hmem
      · trivial
      · rcases List.mem_cons.1 hmem with rfl | hmem
        · exact Nat.le_of_not_lt hlimit
        · exact hitems.within event hmem
    · rintro ⟨event, hmem, hoversized⟩
      rcases List.mem_cons.1 hmem with rfl | hmem
      · exact absurd hoversized hlimit
      · rcases List.mem_cons.1 hmem with rfl | hmem
        · exact hoversized.elim
        · exact hitems.refused ⟨event, hmem, hoversized⟩

/-- A list whose count is not above the limit. -/
theorem guarded_readQList {read : Reader α} {events : Bytes → List DecodeEvent} {meets : Bytes → Prop}
    (h : ∀ data, ¬ meets data → Guarded (events data) (read data)) {data : Bytes}
    (hnot : ∀ len rest, streamU32 data = .ok (len, rest) → ¬ (maxCollectionItems < len.toNat ∨ ItemMeets read meets len.toNat rest)) :
    Guarded (qlistEvents read events data) (readQList read data) := by
  refine guarded_after fun r hcount => ?_
  obtain ⟨hlimit, hmeets⟩ := not_or.1 (hnot r.1 r.2 hcount)
  have hitems := guarded_items h hmeets
  refine { within := ?_, refused := ?_ }
  · intro event hmem
    rcases List.mem_cons.1 hmem with rfl | hmem
    · trivial
    · rcases List.mem_cons.1 hmem with rfl | hmem
      · exact Nat.le_of_not_lt hlimit
      · exact hitems.within event hmem
  · rintro ⟨event, hmem, hoversized⟩
    rcases List.mem_cons.1 hmem with rfl | hmem
    · exact absurd hoversized hlimit
    · rcases List.mem_cons.1 hmem with rfl | hmem
      · exact hoversized.elim
      · exact hitems.refused ⟨event, hmem, hoversized⟩

theorem guarded_readPair {read : Reader α} {read' : Reader β} {first second : Bytes → List DecodeEvent} {data : Bytes}
    (h : Guarded (first data) (read data)) (h' : ∀ a rest, read data = .ok (a, rest) → Guarded (second rest) (read' rest)) :
    Guarded (pairEvents read first second data) (readPair read read' data) :=
  h.bind fun r hread => (h' r.1 r.2 hread).andThen _

theorem not_itemMeets_false (read : Reader α) (n : Nat) (data : Bytes) : ¬ ItemMeets read (fun _ => False) n data := by
  induction n generalizing data with
  | zero => exact id
  | succ n ih =>
    rintro (hmeets | ⟨_, rest, -, hmeets⟩)
    · exact hmeets
    · exact ih rest hmeets

/-- A collection of bytes. -/
theorem guarded_readVecU8 (data : Bytes) : Guarded (vecEvents streamU8 (fun _ => []) data) (readVec streamU8 data) :=
  @guarded_readVec _ streamU8 (fun _ => []) (fun _ => False) (fun _ _ => guarded_nil _) _ fun _ _ _ _ => not_itemMeets_false _ _ _

theorem guarded_anyFromStream {K : Type} {readName : Reader K} {events : Bytes → List DecodeEvent} {data : Bytes}
    (h : Guarded (events data) (readName data)) : Guarded (pairEvents readName events anyDataEvents data) (Any.fromStream readName data) := by
  refine h.bind fun r _ => ?_
  exact (guarded_readVecU8 r.2).bind fun r' _ => (guarded_readVecU8 r'.1).andThen _

theorem guarded_variant (data : Bytes) : Guarded (variantEvents data) (Variant.fromStream data) := by
  refine guarded_after fun r _ => ?_
  by_cases htag : r.1 = 4
  · simp only [htag, if_true]
    exact (guarded_streamString r.2).map _
  · simp only [if_neg htag]
    exact guarded_nil _

/-- A reader that comes to no long list refuses every prefix above the limit. -/
theorem guarded_read (t : Ty) (data : Bytes) (h : ¬ t.MeetsLongList data) : Guarded (t.events data) (t.read data) := by
  induction t generalizing data with
  | array n => exact guarded_readNBytes n data
  | cstring => exact guarded_streamCString data
  | string => exact guarded_streamString data
  | stationURL => exact (guarded_streamString data).andThen _
  | variant => exact guarded_variant data
  | any k ih => exact guarded_anyFromStream (ih data h)
  | vec t ih => exact guarded_readVec ih fun len rest hcount hlimit hmeets => h ⟨len, rest, hcount, hlimit, hmeets⟩
  | qlist t ih => exact guarded_readQList ih fun len rest hcount hmeets => h ⟨len, rest, hcount, hmeets⟩
  | map k v ihk ihv =>
    refine Guarded.map (guarded_readVec (fun data hnot => ?_) fun len rest hcount hlimit hmeets => h ⟨len, rest, hcount, hlimit, hmeets⟩) _
    obtain ⟨hkey, hvalue⟩ := not_or.1 hnot
    exact guarded_readPair (ihk data hkey) fun key rest hread => ihv rest fun hmeets => hvalue ⟨key, rest, hread, hmeets⟩
  | pair a b iha ihb =>
    obtain ⟨hfirst, hsecond⟩ := not_or.1 h
    exact guarded_readPair (iha data hfirst) fun first rest hread => ihb rest fun hmeets => hsecond ⟨first, rest, hread, hmeets⟩
  | _ => exact guarded_nil _

/-! ### Long lists -/

/-- A count above the limit is read, and as many items are reserved. -/
def Unguarded (events : List DecodeEvent) : Prop :=
  ∃ n, maxCollectionItems < n ∧ DecodeEvent.countRead n ∈ events ∧ DecodeEvent.itemsReserved n ∈ events

theorem Unguarded.left (h : Unguarded events) : Unguarded (events ++ events') := by
  obtain ⟨n, hn, hcount, hreserved⟩ := h
  exact ⟨n, hn, List.mem_append_left _ hcount, List.mem_append_left _ hreserved⟩

theorem Unguarded.right (h : Unguarded events') : Unguarded (events ++ events') := by
  obtain ⟨n, hn, hcount, hreserved⟩ := h
  exact ⟨n, hn, List.mem_append_right _ hcount, List.mem_append_right _ hreserved⟩

theorem Unguarded.cons (h : Unguarded events) (event : DecodeEvent) : Unguarded (event :: events) :=
  (h.right : Unguarded ([event] ++ events))

theorem Unguarded.not_rejects (h : Unguarded events) (x : Except FromStreamError α) : ¬ Rejects events x := by
  obtain ⟨n, hn, hcount, hreserved⟩ := h
  intro hrejects
  exact absurd ((hrejects ⟨_, hcount, hn⟩).2 _ hreserved) (Nat.not_le_of_lt hn)

/-- What happens after a part that is read. -/
theorem Unguarded.after {next : α → List DecodeEvent} {a : α} (hx : x = .ok a) (h : Unguarded (next a)) :
    Unguarded (eventsAfter x next) := by
  subst hx
  exact h

theorem unguarded_items {read : Reader α} {events : Bytes → List DecodeEvent} {meets : Bytes → Prop}
    (h : ∀ data, meets data → Unguarded (events data)) {n : Nat} {data : Bytes} (hmeets : ItemMeets read meets n data) :
    Unguarded (itemEvents read events n data) := by
  induction n generalizing data with
  | zero => exact hmeets.elim
  | succ n ih =>
    rcases hmeets with hmeets | ⟨item, rest, hread, hmeets⟩
    · exact (h data hmeets).left
    · exact Unguarded.right (Unguarded.after hread (ih hmeets))

theorem unguarded_vec {read : Reader α} {events : Bytes → List DecodeEvent} {meets : Bytes → Prop}
    (h : ∀ data, meets data → Unguarded (events data)) {data rest : Bytes} {len : UInt32} (hcount : streamU32 data = .ok (len, rest))
    (hlimit : len.toNat ≤ maxCollectionItems) (hmeets : ItemMeets read meets len.toNat rest) :
    Unguarded (vecEvents read events data) := by
  refine Unguarded.after hcount ?_
  simp only [if_neg (Nat.not_lt_of_le hlimit)]
  exact ((unguarded_items h hmeets).cons _).cons _

theorem unguarded_pair {read : Reader α} {first second : Bytes → List DecodeEvent} {meets meets' : Bytes → Prop} {data : Bytes}
    (h : ∀ data, meets data → Unguarded (first data)) (h' : ∀ data, meets' data → Unguarded (second data))
    (hmeets : meets data ∨ ∃ a rest, read data = .ok (a, rest) ∧ meets' rest) : Unguarded (pairEvents read first second data) := by
  rcases hmeets with hmeets | ⟨a, rest, hread, hmeets⟩
  · exact (h data hmeets).left
  · exact Unguarded.right (Unguarded.after hread (h' rest hmeets))

/-- A reader that comes to a long list reserves it. -/
theorem unguarded_read (t : Ty) (data : Bytes) (h : t.MeetsLongList data) : Unguarded (t.events data) := by
  induction t generalizing data with
  | any k ih => exact (ih data h).left
  | vec t ih =>
    obtain ⟨len, rest, hcount, hlimit, hmeets⟩ := h
    exact unguarded_vec ih hcount hlimit hmeets
  | qlist t ih =>
    obtain ⟨len, rest, hcount, hlong | hmeets⟩ := h
    · exact Unguarded.after hcount ⟨len.toNat, hlong, List.mem_cons_self, List.mem_cons_of_mem _ List.mem_cons_self⟩
    · exact Unguarded.after hcount (((unguarded_items ih hmeets).cons _).cons _)
  | map k v ihk ihv =>
    obtain ⟨len, rest, hcount, hlimit, hmeets⟩ := h
    exact unguarded_vec (fun data hmeets => unguarded_pair ihk ihv hmeets) hcount hlimit hmeets
  | pair a b iha ihb => exact unguarded_pair iha ihb h
  | _ => exact h.elim

end AllocationAux

/-- Decoding refuses every prefix above the limit before it reserves anything for it exactly when it comes to no list whose count is
above the limit. -/
theorem read_rejects_iff (t : Ty) (data : Bytes) : Rejects (t.events data) (t.read data) ↔ ¬ t.MeetsLongList data := by
  constructor
  · intro hrejects hmeets
    exact (AllocationAux.unguarded_read t data hmeets).not_rejects _ hrejects
  · intro hnot
    exact (AllocationAux.guarded_read t data hnot).rejects

/-- The four bytes of a count reserve four billion numbers. -/
theorem read_rejects_false :
    ¬ Rejects ((Ty.qlist .u32).events [0xff, 0xff, 0xff, 0xff]) ((Ty.qlist .u32).read [0xff, 0xff, 0xff, 0xff]) := by
  refine AllocationAux.Unguarded.not_rejects (AllocationAux.unguarded_read _ _ ?_) _
  exact ⟨0xffffffff, [], by decide, Or.inl (by decide)⟩

end Scbl.Rmc
