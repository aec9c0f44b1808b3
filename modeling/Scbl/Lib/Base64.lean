import Scbl.Lib.Bytes

/-!
# Base64

Bytes as text in the URL-safe alphabet, without padding. Three bytes are four characters of six bits each. The decoder refuses what
the encoder never writes: a character of another alphabet, a single character at the end, and bits after the last byte.
-/

namespace Scbl.Lib.Base64

/-- The URL-safe alphabet. -/
def alphabet : List Char := "ABCDEFGHIJKLMNOPQRSTUVWXYZabcdefghijklmnopqrstuvwxyz0123456789-_".toList

/-- The character of six bits. -/
def encodeSextet (n : Nat) : Char := alphabet.getD n '_'

/-- The six bits of a character. -/
def decodeSextet (c : Char) : Option Nat := alphabet.idxOf? c

/-- The bits of a byte string, six at a time; the last of them are filled up with zeros. -/
def sextets : Bytes → List Nat
  | [] => []
  | [a] => [a.toNat / 4, a.toNat % 4 * 16]
  | [a, b] => [a.toNat / 4, a.toNat % 4 * 16 + b.toNat / 16, b.toNat % 16 * 4]
  | a :: b :: c :: rest =>
    a.toNat / 4 :: (a.toNat % 4 * 16 + b.toNat / 16) :: (b.toNat % 16 * 4 + c.toNat / 64) :: c.toNat % 64 :: sextets rest

/-- The bytes of a list of sextets. -/
def ofSextets : List Nat → Option Bytes
  | [] => some []
  | [_] => none
  | [w, x] => if x % 16 = 0 then some [UInt8.ofNat (w * 4 + x / 16)] else none
  | [w, x, y] => if y % 4 = 0 then some [UInt8.ofNat (w * 4 + x / 16), UInt8.ofNat (x % 16 * 16 + y / 4)] else none
  | w :: x :: y :: z :: rest =>
    (ofSextets rest).map (fun bs =>
      UInt8.ofNat (w * 4 + x / 16) :: UInt8.ofNat (x % 16 * 16 + y / 4) :: UInt8.ofNat (y % 4 * 64 + z) :: bs)

/-- Encode bytes. -/
def encode (data : Bytes) : List Char := (sextets data).map encodeSextet

/-- Decode a text. -/
def decode (text : List Char) : Option Bytes := (text.mapM decodeSextet).bind ofSextets

/-- A sextet has six bits. -/
theorem sextet_lt {data : Bytes} {n : Nat} (h : n ∈ sextets data) : n < 64 := by
  induction data using sextets.induct with
  | case1 => nomatch h
  | case2 a =>
    have ha := a.toNat_lt
    simp only [sextets, List.mem_cons, List.not_mem_nil, or_false] at h
    omega
  | case3 a b =>
    have ha := a.toNat_lt
    have hb := b.toNat_lt
    simp only [sextets, List.mem_cons, List.not_mem_nil, or_false] at h
    omega
  | case4 a b c rest ih =>
    have ha := a.toNat_lt
    have hb := b.toNat_lt
    have hc := c.toNat_lt
    simp only [sextets, List.mem_cons] at h
    rcases h with h | h | h | h | h
    · omega
    · omega
    · omega
    · omega
    · exact ih h

/-- The bytes are put together again from their sextets. -/
theorem ofSextets_sextets (data : Bytes) : ofSextets (sextets data) = some data := by
  have hbyte : ∀ (a : UInt8) (n : Nat), n = a.toNat → UInt8.ofNat n = a := fun a n h => by rw [h, UInt8.ofNat_toNat]
  induction data using sextets.induct with
  | case1 => rfl
  | case2 a =>
    rw [sextets, ofSextets, if_pos (by omega), hbyte a _ (by omega)]
  | case3 a b =>
    have hb := b.toNat_lt
    rw [sextets, ofSextets, if_pos (by omega), hbyte a _ (by omega), hbyte b _ (by omega)]
  | case4 a b c rest ih =>
    have hb := b.toNat_lt
    have hc := c.toNat_lt
    rw [sextets, ofSextets, ih, Option.map_some, hbyte a _ (by omega), hbyte b _ (by omega), hbyte c _ (by omega)]

/-- Six bits are read back from their character. -/
theorem decodeSextet_encodeSextet {n : Nat} (h : n < 64) : decodeSextet (encodeSextet n) = some n := by
  have hall : ∀ i : Fin 64, decodeSextet (encodeSextet i) = some i.val := by decide +kernel
  exact hall ⟨n, h⟩

/-- What was encoded is decoded. -/
theorem decode_encode (data : Bytes) : decode (encode data) = some data := by
  have hchars : ∀ ns : List Nat, (∀ n ∈ ns, n < 64) → (ns.map encodeSextet).mapM decodeSextet = some ns := by
    intro ns hns
    induction ns with
    | nil => rfl
    | cons n ns ih =>
      rw [List.map_cons, List.mapM_cons, decodeSextet_encodeSextet (hns n List.mem_cons_self),
        ih fun m hm => hns m (List.mem_cons_of_mem n hm)]
      rfl
  rw [decode, encode, hchars _ fun _ => sextet_lt, Option.bind_some, ofSextets_sextets]

/-- An encoded text is in the alphabet. -/
theorem mem_alphabet_of_mem_encode {data : Bytes} {c : Char} (h : c ∈ encode data) : c ∈ alphabet := by
  obtain ⟨n, hn, rfl⟩ := List.mem_map.mp h
  have hlt : n < alphabet.length := sextet_lt hn
  rw [encodeSextet, List.getD_eq_getElem?_getD, List.getElem?_eq_getElem hlt, Option.getD_some]
  exact List.getElem_mem hlt

end Scbl.Lib.Base64
