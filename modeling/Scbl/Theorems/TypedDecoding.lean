import Scbl.Rmc.FromStream

/-!
# Decoding by type ends unless a tuple of one component is reached

The decoder of a tuple of one component calls itself, so that it returns on no input (`fromStream_single`). A type that reaches none is
decoded with calls no deeper than the type is nested; for a type that reaches one there is an input that leads there, of zeros where
components are read before it.
-/

namespace Scbl.Rmc

open Scbl.Lib

variable {α β : Type}

/-- A decoder that returns on every input. -/
def Total (d : Decoder α) : Prop := ∀ rdr, (d rdr).isSome

/-- A decoder that never gives a value. -/
def NeverReads (d : Decoder α) : Prop := ∀ rdr a rest, d rdr ≠ some (.ok (a, rest))

/-- A decoder reads a value from some zeros, if it returns. -/
def ReadsZeros (d : Decoder α) (n : Nat) (a : α) : Prop :=
  ∀ rest, d (List.replicate n 0 ++ rest) = none ∨ d (List.replicate n 0 ++ rest) = some (.ok (a, rest))

namespace Decoder

theorem andThen_ok {d : Decoder α} {f : α → Decoder β} {rdr rest : Bytes} {a : α} (h : d rdr = some (.ok (a, rest))) :
    d.andThen f rdr = f a rest := by
  rw [andThen, h]

theorem andThen_none {d : Decoder α} {f : α → Decoder β} {rdr : Bytes} (h : d rdr = none) : d.andThen f rdr = none := by
  rw [andThen, h]

theorem andThen_eq_ok {d : Decoder α} {f : α → Decoder β} {rdr rest : Bytes} {b : β} (h : d.andThen f rdr = some (.ok (b, rest))) :
    ∃ a rest', d rdr = some (.ok (a, rest')) ∧ f a rest' = some (.ok (b, rest)) := by
  rw [andThen] at h
  split at h
  · nomatch h
  · nomatch h
  · exact ⟨_, _, ‹_›, h⟩

theorem total_andThen {d : Decoder α} {f : α → Decoder β} (hd : Total d)
    (hf : ∀ rdr a rest, d rdr = some (.ok (a, rest)) → (f a rest).isSome) : Total (d.andThen f) := by
  intro rdr
  have hsome := hd rdr
  rw [andThen]
  split
  · rename_i hnone
    rw [hnone] at hsome
    nomatch hsome
  · rfl
  · exact hf _ _ _ ‹_›

theorem total_done (a : α) : Total (done a) := fun _ => rfl

theorem total_ofReader (read : Reader α) : Total (ofReader read) := fun _ => rfl

theorem total_length : Total Decoder.length := by
  refine total_andThen (total_ofReader _) fun rdr len rest _ => ?_
  split <;> rfl

theorem readsZeros_done (a : α) : ReadsZeros (done a) 0 a := fun _ => .inr rfl

/-- Two decoders after each other read zeros. -/
theorem readsZeros_andThen {d : Decoder α} {f : α → Decoder β} {m n : Nat} {a : α} {b : β} (hd : ReadsZeros d m a)
    (hf : ReadsZeros (f a) n b) :
    ReadsZeros (d.andThen f) (m + n) b := by
  intro rest
  rw [← List.replicate_append_replicate, List.append_assoc]
  rcases hd (List.replicate n 0 ++ rest) with hnone | hok
  · exact .inl (andThen_none hnone)
  · rw [andThen_ok hok]
    exact hf rest

theorem readsZeros_ofReader {read : Reader α} {n : Nat} {a : α} (h : ∀ rest, read (List.replicate n 0 ++ rest) = .ok (a, rest)) :
    ReadsZeros (ofReader read) n a := fun rest => .inr (congrArg some (h rest))

theorem readsZeros_map {d : Decoder α} {n : Nat} {a : α} (hd : ReadsZeros d n a) (f : α → β) :
    ReadsZeros (d.andThen (fun a => done (f a))) n (f a) :=
  readsZeros_andThen (f := fun a => done (f a)) hd (readsZeros_done _)

/-- A collection whose length is zero is read from zeros if what follows is given. -/
theorem readsZeros_length {f : Nat → Decoder β} {b : β} (hf : ∀ rest, f 0 rest = some (.ok (b, rest))) :
    ReadsZeros (Decoder.length.andThen f) 4 b := by
  intro rest
  have hlength : Decoder.length (List.replicate 4 0 ++ rest) = some (.ok (0, rest)) := by
    have hread : ofReader streamU32 (List.replicate 4 0 ++ rest) = some (.ok (0, rest)) := congrArg some (streamU32_put 0 rest)
    rw [Decoder.length, andThen_ok hread]
    rfl
  rw [andThen_ok hlength]
  exact .inr (hf rest)

/-- A length of one. -/
theorem length_one (rest : Bytes) : Decoder.length (putU32 1 ++ rest) = some (.ok (1, rest)) := by
  rw [Decoder.length, andThen_ok (congrArg some (streamU32_put 1 rest))]
  rfl

theorem neverReads_andThen {d : Decoder α} {f : α → Decoder β} (hd : NeverReads d) : NeverReads (d.andThen f) := by
  intro rdr b rest h
  obtain ⟨a, rest', ha, -⟩ := andThen_eq_ok h
  exact hd rdr a rest' ha

theorem total_items {d : Decoder α} (hd : Total d) (n : Nat) : Total (d.items n) := by
  induction n with
  | zero => exact total_done _
  | succ n ih => exact total_andThen hd fun _ _ rest _ => total_andThen ih (fun _ _ _ _ => rfl) rest

/-- The loop of a map returns if the keys do and, when a key can be read, the values. -/
theorem total_entries [DecidableEq α] {dk : Decoder α} {dv : Decoder β} (hk : Total dk) (hv : NeverReads dk ∨ Total dv) (n : Nat)
    (m : List (α × β)) : Total (dk.entries dv n m) := by
  induction n generalizing m with
  | zero => exact total_done m
  | succ n ih =>
    refine total_andThen hk fun rdr k rest hread => ?_
    rcases hv with hnever | hv
    · exact absurd hread (hnever rdr k rest)
    · exact total_andThen hv (fun _ v rest _ => ih (Dict.set m k v) rest) rest

end Decoder

open Decoder

/-! ## Tuples of one component -/

/-- The decoder of a tuple of one component returns on no input. -/
theorem fromStream_single (fuel : Nat) (component : StreamType) (rdr : Bytes) : fromStream fuel (.tuple component []) rdr = none := by
  induction fuel with
  | zero => rfl
  | succ fuel ih => exact andThen_none (andThen_none ih)

theorem fromStream_tuple (fuel : Nat) (first second : StreamType) (rest : List StreamType) :
    fromStream (fuel + 1) (.tuple first (second :: rest)) =
      (sequence ((first :: second :: rest).map (fromStream fuel))).andThen (fun vs => done (tupleValue vs)) := rfl

/-! ## Types that cannot be read -/

theorem neverReads_sequence {fuel : Nat} {ts : List StreamType} {t : StreamType} (ht : t ∈ ts) (hnever : NeverReads (fromStream fuel t)) :
    NeverReads (sequence (ts.map (fromStream fuel))) := by
  induction ts with
  | nil => nomatch ht
  | cons first ts ih =>
    rcases List.mem_cons.mp ht with rfl | ht
    · exact neverReads_andThen hnever
    · intro rdr vs rest h
      obtain ⟨v, rest', -, h⟩ := andThen_eq_ok h
      exact neverReads_andThen (ih ht) rest' vs rest h

theorem allReadable_eq_false {ts : List StreamType} (h : allReadable ts = false) : ∃ t ∈ ts, t.isReadable = false := by
  induction ts with
  | nil => nomatch h
  | cons t ts ih =>
    rw [allReadable, Bool.and_eq_false_iff] at h
    rcases h with h | h
    · exact ⟨t, List.mem_cons_self, h⟩
    · obtain ⟨t', ht', hfalse⟩ := ih h
      exact ⟨t', List.mem_cons_of_mem t ht', hfalse⟩

/-- A type that is not readable has a value on no input. -/
theorem neverReads_of_isReadable {t : StreamType} (h : t.isReadable = false) (fuel : Nat) : NeverReads (fromStream fuel t) := by
  induction t using StreamType.components_induction generalizing fuel with
  | bytes n =>
    cases fuel with
    | zero => exact fun _ _ _ h => by cases h
    | succ fuel =>
      rw [StreamType.isReadable, decide_eq_false_iff_not, Nat.not_le] at h
      refine neverReads_andThen fun rdr data rest hread => ?_
      rw [ofReader, readNBytes, if_pos h] at hread
      cases hread
  | tuple first rest hfirst hrest =>
    cases rest with
    | nil => exact fun rdr v rest hread => by cases (fromStream_single fuel first rdr).symm.trans hread
    | cons second rest =>
      cases fuel with
      | zero => exact fun _ _ _ h => by cases h
      | succ fuel =>
        rw [fromStream_tuple]
        refine neverReads_andThen ?_
        rw [StreamType.isReadable, decide_eq_true (List.cons_ne_nil _ _), Bool.true_and, Bool.and_eq_false_iff] at h
        rcases h with h | h
        · exact neverReads_sequence List.mem_cons_self (hfirst h fuel)
        · obtain ⟨t, ht, hfalse⟩ := allReadable_eq_false h
          exact neverReads_sequence (List.mem_cons_of_mem _ ht) (hrest t ht hfalse fuel)
  | _ => cases h

/-! ## Types that can be read -/

theorem replicate_zero (n : Nat) : List.replicate n (0 : UInt8) = leBytes n 0 := by
  induction n with
  | zero => rfl
  | succ n ih => rw [List.replicate_succ, ih, leBytes, Nat.zero_div]; rfl

theorem readsZeros_sequence {ts : List StreamType} (h : ∀ t ∈ ts, ∃ n v, ∀ fuel, ReadsZeros (fromStream fuel t) n v) :
    ∃ n vs, ∀ fuel, ReadsZeros (sequence (ts.map (fromStream fuel))) n vs := by
  induction ts with
  | nil => exact ⟨0, [], fun _ => readsZeros_done []⟩
  | cons t ts ih =>
    obtain ⟨m, v, hv⟩ := h t List.mem_cons_self
    obtain ⟨n, vs, hvs⟩ := ih fun t ht => h t (List.mem_cons_of_mem _ ht)
    exact ⟨m + n, v :: vs, fun fuel => readsZeros_andThen (hv fuel) (readsZeros_map (hvs fuel) (v :: ·))⟩

theorem isReadable_of_allReadable {ts : List StreamType} (h : allReadable ts = true) : ∀ t ∈ ts, t.isReadable = true := by
  induction ts with
  | nil => nofun
  | cons t ts ih =>
    obtain ⟨hfirst, hrest⟩ := Bool.and_eq_true_iff.mp h
    exact fun t' ht' => (List.mem_cons.mp ht').elim (fun heq => heq ▸ hfirst) (ih hrest t')

/-- What is decoded without fuel reads zeros, since it does not return. -/
theorem readsZeros_of_succ {t : StreamType} {n : Nat} {v : Value} (h : ∀ fuel, ReadsZeros (fromStream (fuel + 1) t) n v) (fuel : Nat) :
    ReadsZeros (fromStream fuel t) n v := by
  cases fuel with
  | zero => exact fun _ => .inl rfl
  | succ fuel => exact h fuel

/-- A type that is readable has a value on an input of zeros. -/
theorem readsZeros_of_isReadable {t : StreamType} (h : t.isReadable = true) : ∃ n v, ∀ fuel, ReadsZeros (fromStream fuel t) n v := by
  have hu16 : ∀ rest, streamU16 (List.replicate 2 0 ++ rest) = .ok (0, rest) := streamU16_put 0
  induction t using StreamType.components_induction with
  | num kind =>
    refine ⟨kind.width, .num (leValue (leBytes kind.width 0)), readsZeros_of_succ fun _ =>
      readsZeros_map (readsZeros_ofReader fun rest => ?_) _⟩
    have hread := readExact_append (leBytes kind.width 0) rest
    rw [length_leBytes] at hread
    rw [replicate_zero, readNum, readLE, hread]
    rfl
  | bool => exact ⟨1, _, readsZeros_of_succ fun _ => readsZeros_map (readsZeros_ofReader (streamU8_cons 0)) _⟩
  | bytes n =>
    rw [StreamType.isReadable, decide_eq_true_iff] at h
    refine ⟨n, _, readsZeros_of_succ fun _ => readsZeros_map (readsZeros_ofReader (a := List.replicate n 0) fun rest => ?_) _⟩
    exact readNBytes_of_length List.length_replicate h rest
  | cString =>
    refine ⟨2, _, readsZeros_of_succ fun _ => readsZeros_map (readsZeros_ofReader (a := []) fun rest => ?_) _⟩
    rw [streamCString, hu16 rest]
    rfl
  | string =>
    refine ⟨2, _, readsZeros_of_succ fun _ => readsZeros_map (readsZeros_ofReader (a := []) fun rest => ?_) _⟩
    rw [streamString, hu16 rest]
    rfl
  | vec item _ => exact ⟨4, _, readsZeros_of_succ fun _ => readsZeros_length fun _ => rfl⟩
  | hashMap key value _ _ => exact ⟨4, _, readsZeros_of_succ fun _ => readsZeros_length fun _ => rfl⟩
  | tuple first rest hfirst hrest =>
    cases rest with
    | nil => cases h
    | cons second rest =>
      rw [StreamType.isReadable, decide_eq_true (List.cons_ne_nil _ _), Bool.true_and, Bool.and_eq_true] at h
      have hall : ∀ t ∈ first :: second :: rest, ∃ n v, ∀ fuel, ReadsZeros (fromStream fuel t) n v := by
        intro t ht
        rcases List.mem_cons.mp ht with rfl | ht
        · exact hfirst h.1
        · exact hrest t ht (isReadable_of_allReadable h.2 t ht)
      obtain ⟨n, vs, hvs⟩ := readsZeros_sequence hall
      exact ⟨n, _, readsZeros_of_succ fun fuel => readsZeros_map (hvs fuel) _⟩

/-! ## Types that reach a tuple of one component -/

/-- An input on which a decoder does not return, whatever the fuel. -/
def Spins (d : Nat → Decoder α) : Prop := ∃ input, ∀ fuel, d fuel input = none

theorem Spins.andThen {d : Nat → Decoder α} (h : Spins d) (f : Nat → α → Decoder β) : Spins (fun fuel => (d fuel).andThen (f fuel)) :=
  h.imp fun _ hinput fuel => andThen_none (hinput fuel)

/-- What does not return after a value does not return on an input with zeros for the value. -/
theorem Spins.after {d : Nat → Decoder α} {n : Nat} {a : α} (hd : ∀ fuel, ReadsZeros (d fuel) n a) {f : Nat → α → Decoder β}
    (hf : Spins (fun fuel => f fuel a)) : Spins (fun fuel => (d fuel).andThen (f fuel)) := by
  obtain ⟨input, hinput⟩ := hf
  refine ⟨List.replicate n 0 ++ input, fun fuel => ?_⟩
  rcases hd fuel input with hnone | hok
  · exact andThen_none hnone
  · exact (andThen_ok hok).trans (hinput fuel)

/-- What does not return on one item does not return on a collection of one. -/
theorem Spins.ofLength {f : Nat → Nat → Decoder β} (h : Spins (fun fuel => f fuel 1)) :
    Spins (fun fuel => Decoder.length.andThen (f fuel)) := by
  obtain ⟨input, hinput⟩ := h
  refine ⟨putU32 1 ++ input, fun fuel => ?_⟩
  exact (andThen_ok (length_one input)).trans (hinput fuel)

theorem spins_of_succ {t : StreamType} (h : Spins (fun fuel => fromStream (fuel + 1) t)) : Spins (fun fuel => fromStream fuel t) := by
  obtain ⟨input, hinput⟩ := h
  refine ⟨input, fun fuel => ?_⟩
  cases fuel with
  | zero => rfl
  | succ fuel => exact hinput fuel

theorem spins_sequence {ts : List StreamType} (hts : ∀ t ∈ ts, t.reachesSingle = true → Spins (fun fuel => fromStream fuel t))
    (h : reachesSingleIn ts = true) : Spins (fun fuel => sequence (ts.map (fromStream fuel))) := by
  induction ts with
  | nil => nomatch h
  | cons t ts ih =>
    rw [reachesSingleIn, Bool.or_eq_true, Bool.and_eq_true] at h
    rcases h with h | ⟨hreadable, h⟩
    · exact (hts t List.mem_cons_self h).andThen _
    · obtain ⟨n, v, hv⟩ := readsZeros_of_isReadable hreadable
      exact Spins.after hv ((ih (fun t ht => hts t (List.mem_cons_of_mem _ ht)) h).andThen _)

/-- A type that reaches a tuple of one component does not return on some input. -/
theorem spins_of_reachesSingle {t : StreamType} (h : t.reachesSingle = true) : Spins (fun fuel => fromStream fuel t) := by
  induction t using StreamType.components_induction with
  | vec item hitem => exact spins_of_succ ((((hitem h).andThen _).andThen _).ofLength)
  | hashMap key value hkey hvalue =>
    rw [StreamType.reachesSingle, Bool.or_eq_true, Bool.and_eq_true] at h
    rcases h with h | ⟨hreadable, h⟩
    · exact spins_of_succ ((((hkey h).andThen _).andThen _).ofLength)
    · obtain ⟨n, v, hv⟩ := readsZeros_of_isReadable hreadable
      exact spins_of_succ (((Spins.after hv ((hvalue h).andThen _)).andThen _).ofLength)
  | tuple first rest hfirst hrest =>
    cases rest with
    | nil => exact ⟨[], fun fuel => fromStream_single fuel first []⟩
    | cons second rest =>
      rw [StreamType.reachesSingle, decide_eq_false (List.cons_ne_nil _ _), Bool.false_or] at h
      have hall : ∀ t ∈ first :: second :: rest, t.reachesSingle = true → Spins (fun fuel => fromStream fuel t) := by
        intro t ht
        rcases List.mem_cons.mp ht with rfl | ht
        · exact hfirst
        · exact hrest t ht
      exact spins_of_succ ((spins_sequence hall h).andThen _)
  | _ => nomatch h

/-! ## Types that reach none -/

theorem total_sequence {fuel : Nat} {ts : List StreamType}
    (hts : ∀ t ∈ ts, t.reachesSingle = false → Total (fromStream fuel t)) (h : reachesSingleIn ts = false) :
    Total (sequence (ts.map (fromStream fuel))) := by
  induction ts with
  | nil => exact total_done []
  | cons t ts ih =>
    rw [reachesSingleIn, Bool.or_eq_false_iff, Bool.and_eq_false_iff] at h
    refine total_andThen (hts t List.mem_cons_self h.1) fun rdr v rest hread => ?_
    rcases h.2 with hunreadable | h
    · exact absurd hread (neverReads_of_isReadable hunreadable fuel rdr v rest)
    · exact total_andThen (ih (fun t ht => hts t (List.mem_cons_of_mem _ ht)) h) (fun _ _ _ _ => rfl) rest

theorem height_le_heights {ts : List StreamType} {t : StreamType} (ht : t ∈ ts) : t.height ≤ heights ts := by
  induction ts with
  | nil => nomatch ht
  | cons t' ts ih =>
    rw [heights]
    rcases List.mem_cons.mp ht with rfl | ht
    · exact Nat.le_max_left _ _
    · exact Nat.le_trans (ih ht) (Nat.le_max_right _ _)

/-- A type that reaches no tuple of one component is decoded with calls as deep as it is nested. -/
theorem total_of_reachesSingle {t : StreamType} (h : t.reachesSingle = false) {fuel : Nat} (hfuel : t.height ≤ fuel) :
    Total (fromStream fuel t) := by
  induction t using StreamType.components_induction generalizing fuel with
  | vec item hitem =>
    obtain ⟨fuel, rfl⟩ := Nat.exists_eq_add_of_le' (Nat.le_trans (Nat.succ_le_succ (Nat.zero_le _)) hfuel)
    have hall := hitem h (Nat.le_of_succ_le_succ hfuel)
    exact total_andThen total_length fun _ len rest _ => total_andThen (total_items hall len) (fun _ _ _ _ => rfl) rest
  | hashMap key value hkey hvalue =>
    obtain ⟨fuel, rfl⟩ := Nat.exists_eq_add_of_le' (Nat.le_trans (Nat.succ_le_succ (Nat.zero_le _)) hfuel)
    rw [StreamType.reachesSingle, Bool.or_eq_false_iff, Bool.and_eq_false_iff] at h
    obtain ⟨hkeyHeight, hvalueHeight⟩ := Nat.max_le.mp (Nat.le_of_succ_le_succ hfuel)
    have hvalues := h.2.imp (neverReads_of_isReadable · fuel) (hvalue · hvalueHeight)
    exact total_andThen total_length fun _ n rest _ =>
      total_andThen (total_entries (hkey h.1 hkeyHeight) hvalues n []) (fun _ _ _ _ => rfl) rest
  | tuple first rest hfirst hrest =>
    obtain ⟨fuel, rfl⟩ := Nat.exists_eq_add_of_le' (Nat.le_trans (Nat.succ_le_succ (Nat.zero_le _)) hfuel)
    obtain ⟨hfirstHeight, hrestHeight⟩ := Nat.max_le.mp (Nat.le_of_succ_le_succ hfuel)
    cases rest with
    | nil => nomatch h
    | cons second rest =>
      rw [StreamType.reachesSingle, decide_eq_false (List.cons_ne_nil _ _), Bool.false_or] at h
      rw [fromStream_tuple]
      refine total_andThen (total_sequence (fun t ht hnone => ?_) h) fun _ _ _ _ => rfl
      rcases List.mem_cons.mp ht with rfl | ht
      · exact hfirst hnone hfirstHeight
      · exact hrest t ht hnone (Nat.le_trans (height_le_heights ht) hrestHeight)
  | _ =>
    obtain ⟨fuel, rfl⟩ := Nat.exists_eq_add_of_le' hfuel
    exact total_andThen (total_ofReader _) fun _ _ _ _ => rfl

/-! ## The decoders that return -/

/-- A decoder returns on an input, after calls of any depth. -/
def Returns (type : StreamType) (input : Bytes) : Prop := ∃ fuel, (fromStream fuel type input).isSome

/-- A decoder returns on every input, and its calls descend in the structure of the type: they go no deeper than it is nested. -/
def Descends (type : StreamType) : Prop := ∀ input, (fromStream type.height type input).isSome

/-- Decoding a type ends on every input, descending in its structure, if and only if the type reaches no tuple of one component. -/
theorem typed_decoding_ends_iff (type : StreamType) :
    (Descends type ↔ type.reachesSingle = false) ∧ ((∀ input, Returns type input) ↔ type.reachesSingle = false) := by
  have hends : type.reachesSingle = false → Descends type := fun h => total_of_reachesSingle h (Nat.le_refl _)
  have hspins : (∀ input, Returns type input) → type.reachesSingle = false := by
    intro hreturns
    rw [← Bool.not_eq_true]
    intro hreaches
    obtain ⟨input, hinput⟩ := spins_of_reachesSingle hreaches
    obtain ⟨fuel, hsome⟩ := hreturns input
    have hnone : fromStream fuel type input = none := hinput fuel
    rw [hnone] at hsome
    nomatch hsome
  exact ⟨⟨fun h => hspins fun input => ⟨_, h input⟩, hends⟩, ⟨hspins, fun h input => ⟨_, hends h input⟩⟩⟩

/-- Decoding a tuple of one byte does not return. -/
theorem typed_decoding_ends_false : ¬ ∀ (type : StreamType) (input : Bytes), Returns type input := by
  intro h
  obtain ⟨fuel, hsome⟩ := h (.tuple (.num .u8) []) [7]
  rw [fromStream_single] at hsome
  nomatch hsome

end Scbl.Rmc
