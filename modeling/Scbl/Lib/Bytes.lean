import Mathlib.Data.Nat.ModEq
import Mathlib.Tactic.Ring

/-!
# Bytes: little-endian integers and a cursor over a byte string

The integers of the wire formats are little-endian. `leBytes w n` is the `w` bytes of `n` and `leValue` reads them back; the
typed writers (`putU16`, `putU32`) and readers (`readU8`, `readU16`, `readU32`) are instances of these two. A reader takes the
unread bytes and returns the value and what is left, or `none` when the input ends before the value does.
-/

namespace Scbl.Lib

/-- A byte string. -/
abbrev Bytes : Type := List UInt8

/-- The `w` little-endian bytes of `n`; the bits above the `w`-th byte are dropped. -/
def leBytes : Nat → Nat → Bytes
  | 0, _ => []
  | w + 1, n => UInt8.ofNat n :: leBytes w (n / 256)

/-- The number a little-endian byte string holds. -/
def leValue : Bytes → Nat
  | [] => 0
  | b :: bs => b.toNat + 256 * leValue bs

/-- The next `n` bytes and what follows them, or `none` when fewer are left. -/
def readExact (n : Nat) (rdr : Bytes) : Option (Bytes × Bytes) :=
  if n ≤ rdr.length then some (rdr.take n, rdr.drop n) else none

/-- The little-endian bytes of a `u16`. -/
def putU16 (x : UInt16) : Bytes := leBytes 2 x.toNat

/-- The little-endian bytes of a `u32`. -/
def putU32 (x : UInt32) : Bytes := leBytes 4 x.toNat

/-- The little-endian bytes of a `u64`. -/
def putU64 (x : UInt64) : Bytes := leBytes 8 x.toNat

/-- Read one byte. -/
def readU8 : Bytes → Option (UInt8 × Bytes)
  | [] => none
  | b :: rdr => some (b, rdr)

/-- Read a little-endian number of `w` bytes. -/
def readLE (w : Nat) (rdr : Bytes) : Option (Nat × Bytes) :=
  (readExact w rdr).map (fun r => (leValue r.1, r.2))

/-- Read a little-endian `u16`. -/
def readU16 (rdr : Bytes) : Option (UInt16 × Bytes) :=
  (readLE 2 rdr).map (fun r => (UInt16.ofNat r.1, r.2))

/-- Read a little-endian `u32`. -/
def readU32 (rdr : Bytes) : Option (UInt32 × Bytes) :=
  (readLE 4 rdr).map (fun r => (UInt32.ofNat r.1, r.2))

/-- Read a little-endian `u64`. -/
def readU64 (rdr : Bytes) : Option (UInt64 × Bytes) :=
  (readLE 8 rdr).map (fun r => (UInt64.ofNat r.1, r.2))

/-- A property of the words of a kind below a bound follows from its instances. -/
theorem forall_lt_of_fin {α : Type} {toNat : α → Nat} {ofNat : Nat → α} (hinv : ∀ x, ofNat (toNat x) = x) (p : α → Prop) (n : Nat)
    (h : ∀ i : Fin n, p (ofNat i)) {x : α} (hx : toNat x < n) : p x := by
  have := h ⟨toNat x, hx⟩
  rwa [hinv] at this

/-! ## Lengths -/

@[simp] theorem length_leBytes (w n : Nat) : (leBytes w n).length = w := by
  induction w generalizing n with
  | zero => rfl
  | succ w ih => simp only [leBytes, List.length_cons, ih]

@[simp] theorem length_putU16 (x : UInt16) : (putU16 x).length = 2 := length_leBytes 2 _

@[simp] theorem length_putU32 (x : UInt32) : (putU32 x).length = 4 := length_leBytes 4 _

@[simp] theorem length_putU64 (x : UInt64) : (putU64 x).length = 8 := length_leBytes 8 _

/-! ## Reading back what was written -/

/-- The value of the `w` bytes of `n` is `n` modulo `256 ^ w`. -/
theorem leValue_leBytes (w n : Nat) : leValue (leBytes w n) = n % 256 ^ w := by
  induction w generalizing n with
  | zero => simp [leBytes, leValue, Nat.mod_one]
  | succ w ih =>
    have hb : (UInt8.ofNat n).toNat = n % 256 := UInt8.toNat_ofNat'
    rw [leBytes, leValue, ih, hb, pow_succ', Nat.mod_mul]

/-- A cursor standing before `bs` reads exactly `bs`. -/
theorem readExact_append (bs rest : Bytes) : readExact bs.length (bs ++ rest) = some (bs, rest) := by
  simp [readExact]

/-- What `readExact` returns: the input, cut after `n` bytes. -/
theorem readExact_eq_some {n : Nat} {rdr bs rest : Bytes} (h : readExact n rdr = some (bs, rest)) :
    rdr = bs ++ rest ∧ bs.length = n := by
  unfold readExact at h
  split at h
  · rename_i hn
    simp only [Option.some.injEq, Prod.mk.injEq] at h
    obtain ⟨rfl, rfl⟩ := h
    exact ⟨(List.take_append_drop n rdr).symm, List.length_take_of_le hn⟩
  · nomatch h

@[simp] theorem readU8_cons (b : UInt8) (rest : Bytes) : readU8 (b :: rest) = some (b, rest) := rfl

/-- A number that fits `w` bytes is read back from them. -/
theorem readLE_leBytes {w n : Nat} (h : n < 256 ^ w) (rest : Bytes) : readLE w (leBytes w n ++ rest) = some (n, rest) := by
  have hr := readExact_append (leBytes w n) rest
  rw [length_leBytes] at hr
  rw [readLE, hr, Option.map_some, leValue_leBytes, Nat.mod_eq_of_lt h]

@[simp] theorem readU16_putU16 (x : UInt16) (rest : Bytes) : readU16 (putU16 x ++ rest) = some (x, rest) := by
  rw [readU16, putU16, readLE_leBytes x.toNat_lt, Option.map_some, UInt16.ofNat_toNat]

@[simp] theorem readU32_putU32 (x : UInt32) (rest : Bytes) : readU32 (putU32 x ++ rest) = some (x, rest) := by
  rw [readU32, putU32, readLE_leBytes x.toNat_lt, Option.map_some, UInt32.ofNat_toNat]

@[simp] theorem readU64_putU64 (x : UInt64) (rest : Bytes) : readU64 (putU64 x ++ rest) = some (x, rest) := by
  rw [readU64, putU64, readLE_leBytes x.toNat_lt, Option.map_some, UInt64.ofNat_toNat]

/-! ## What a successful read consumes -/

/-- A `u8` read consumes one byte. -/
theorem readU8_length {rdr rest : Bytes} {b : UInt8} (h : readU8 rdr = some (b, rest)) :
    rdr.length = rest.length + 1 := by
  cases rdr with
  | nil => nomatch h
  | cons a as =>
    simp only [readU8_cons, Option.some.injEq, Prod.mk.injEq] at h
    rw [← h.2, List.length_cons]

/-- A read of `n` bytes consumes `n` bytes. -/
theorem readExact_length {n : Nat} {rdr bs rest : Bytes} (h : readExact n rdr = some (bs, rest)) :
    rdr.length = rest.length + n := by
  obtain ⟨rfl, hl⟩ := readExact_eq_some h
  rw [List.length_append, hl, Nat.add_comm]

/-- A read of a number of `w` bytes consumes `w` bytes. -/
theorem readLE_length {w n : Nat} {rdr rest : Bytes} (h : readLE w rdr = some (n, rest)) :
    rdr.length = rest.length + w := by
  obtain ⟨⟨bs, rest'⟩, hr, he⟩ := Option.map_eq_some_iff.mp h
  simp only [Prod.mk.injEq] at he
  rw [readExact_length hr, he.2]

/-- A `u16` read consumes two bytes. -/
theorem readU16_length {rdr rest : Bytes} {x : UInt16} (h : readU16 rdr = some (x, rest)) :
    rdr.length = rest.length + 2 := by
  obtain ⟨⟨n, rest'⟩, hr, he⟩ := Option.map_eq_some_iff.mp h
  simp only [Prod.mk.injEq] at he
  rw [readLE_length hr, he.2]

/-- A `u32` read consumes four bytes. -/
theorem readU32_length {rdr rest : Bytes} {x : UInt32} (h : readU32 rdr = some (x, rest)) :
    rdr.length = rest.length + 4 := by
  obtain ⟨⟨n, rest'⟩, hr, he⟩ := Option.map_eq_some_iff.mp h
  simp only [Prod.mk.injEq] at he
  rw [readLE_length hr, he.2]

/-! ## When a read succeeds -/

/-- A number of `w` bytes is read when there are that many. -/
theorem exists_readLE {w : Nat} {rdr : Bytes} (h : w ≤ rdr.length) : ∃ n rest, readLE w rdr = some (n, rest) := by
  rw [readLE, readExact, if_pos h]
  exact ⟨_, _, rfl⟩

theorem exists_readU16 {rdr : Bytes} (h : 2 ≤ rdr.length) : ∃ x rest, readU16 rdr = some (x, rest) := by
  obtain ⟨n, rest, hr⟩ := exists_readLE h
  exact ⟨UInt16.ofNat n, rest, by rw [readU16, hr]; rfl⟩

theorem exists_readU32 {rdr : Bytes} (h : 4 ≤ rdr.length) : ∃ x rest, readU32 rdr = some (x, rest) := by
  obtain ⟨n, rest, hr⟩ := exists_readLE h
  exact ⟨UInt32.ofNat n, rest, by rw [readU32, hr]; rfl⟩

/-! ## What a successful read found -/

/-- The bytes of the number that some bytes hold are these bytes. -/
theorem leBytes_leValue (bs : Bytes) : leBytes bs.length (leValue bs) = bs := by
  induction bs with
  | nil => rfl
  | cons b bs ih =>
    have hmod : (b.toNat + 256 * leValue bs) % 256 = b.toNat := by
      rw [Nat.add_mul_mod_self_left, Nat.mod_eq_of_lt b.toNat_lt]
    have hdiv : (b.toNat + 256 * leValue bs) / 256 = leValue bs := by
      rw [Nat.add_mul_div_left _ _ (by decide), Nat.div_eq_of_lt b.toNat_lt, Nat.zero_add]
    have hbyte : UInt8.ofNat (b.toNat + 256 * leValue bs) = b := by
      rw [← UInt8.toNat_inj, UInt8.toNat_ofNat', hmod]
    rw [List.length_cons, leBytes, leValue, hbyte, hdiv, ih]

/-- Some bytes hold a number below the bound of their count. -/
theorem leValue_lt (bs : Bytes) : leValue bs < 256 ^ bs.length := by
  rw [← leBytes_leValue bs, leValue_leBytes, length_leBytes]
  exact Nat.mod_lt _ (Nat.pow_pos (by decide))

/-- A `u8` read finds the byte it returns. -/
theorem readU8_eq_some {rdr rest : Bytes} {b : UInt8} (h : readU8 rdr = some (b, rest)) : rdr = b :: rest := by
  cases rdr with
  | nil => nomatch h
  | cons a as =>
    obtain ⟨rfl, rfl⟩ := Prod.mk.inj (Option.some.inj h)
    rfl

/-- A read of a number of `w` bytes finds the bytes of the number it returns. -/
theorem readLE_eq_some {w n : Nat} {rdr rest : Bytes} (h : readLE w rdr = some (n, rest)) :
    rdr = leBytes w n ++ rest ∧ n < 256 ^ w := by
  obtain ⟨⟨bs, rest'⟩, hr, he⟩ := Option.map_eq_some_iff.mp h
  obtain ⟨rfl, rfl⟩ := Prod.mk.inj he
  obtain ⟨rfl, rfl⟩ := readExact_eq_some hr
  exact ⟨by rw [leBytes_leValue], leValue_lt bs⟩

/-- A `u16` read finds the bytes of the number it returns. -/
theorem readU16_eq_some {rdr rest : Bytes} {x : UInt16} (h : readU16 rdr = some (x, rest)) : rdr = putU16 x ++ rest := by
  obtain ⟨⟨n, rest'⟩, hr, he⟩ := Option.map_eq_some_iff.mp h
  obtain ⟨rfl, rfl⟩ := Prod.mk.inj he
  obtain ⟨rfl, hlt⟩ := readLE_eq_some hr
  rw [putU16, UInt16.toNat_ofNat_of_lt' hlt]

/-- A `u32` read finds the bytes of the number it returns. -/
theorem readU32_eq_some {rdr rest : Bytes} {x : UInt32} (h : readU32 rdr = some (x, rest)) : rdr = putU32 x ++ rest := by
  obtain ⟨⟨n, rest'⟩, hr, he⟩ := Option.map_eq_some_iff.mp h
  obtain ⟨rfl, rfl⟩ := Prod.mk.inj he
  obtain ⟨rfl, hlt⟩ := readLE_eq_some hr
  rw [putU32, UInt32.toNat_ofNat_of_lt' hlt]

/-- A `u64` read finds the bytes of the number it returns. -/
theorem readU64_eq_some {rdr rest : Bytes} {x : UInt64} (h : readU64 rdr = some (x, rest)) : rdr = putU64 x ++ rest := by
  obtain ⟨⟨n, rest'⟩, hr, he⟩ := Option.map_eq_some_iff.mp h
  obtain ⟨rfl, rfl⟩ := Prod.mk.inj he
  obtain ⟨rfl, hlt⟩ := readLE_eq_some hr
  rw [putU64, UInt64.toNat_ofNat_of_lt' hlt]

end Scbl.Lib
