import Mathlib.Algebra.GroupWithZero.Nat
import Mathlib.Data.List.Induction
import Mathlib.Data.List.Infix
import Mathlib.Data.List.TakeWhile

/-!
# Text

The string operations of the standard library on texts given as lists of characters: splitting at a separator and joining with
one, trimming white space, and reading a number in decimal.
-/

namespace Scbl.Lib

/-- The white space of Unicode. -/
def isWhiteSpace (c : Char) : Bool :=
  let n := c.toNat
  (9 ≤ n ∧ n ≤ 13) ∨ n = 0x20 ∨ n = 0x85 ∨ n = 0xA0 ∨ n = 0x1680 ∨ (0x2000 ≤ n ∧ n ≤ 0x200A) ∨ n = 0x2028 ∨ n = 0x2029 ∨
    n = 0x202F ∨ n = 0x205F ∨ n = 0x3000

/-- A text without the white space at its ends. -/
def trim (t : List Char) : List Char := ((t.dropWhile isWhiteSpace).reverse.dropWhile isWhiteSpace).reverse

/-- What stands before and after the first occurrence of a separator. -/
def splitOnce (sep : List Char) : List Char → Option (List Char × List Char)
  | [] => if sep = [] then some ([], []) else none
  | c :: t =>
    if sep.isPrefixOf (c :: t) then some ([], (c :: t).drop sep.length)
    else (splitOnce sep t).map (fun r => (c :: r.1, r.2))

/-- The value of a decimal digit. -/
def digitValue (c : Char) : Option Nat := if '0' ≤ c ∧ c ≤ '9' then some (c.toNat - '0'.toNat) else none

/-- Read decimal digits after those read so far, as long as the number fits `u32`. -/
def readDigits : Nat → List Char → Option Nat
  | n, [] => some n
  | n, c :: t => do
    let d ← digitValue c
    if n * 10 + d < 2 ^ 32 then readDigits (n * 10 + d) t else none

/-- Read a `u32`: decimal digits, after an optional plus sign. -/
def parseU32 (t : List Char) : Option Nat :=
  match t with
  | [] => none
  | ['+'] => none
  | '+' :: t => readDigits 0 t
  | t => readDigits 0 t

/-- Reading on after some digits. -/
theorem readDigits_append (n : Nat) (t t' : List Char) : readDigits n (t ++ t') = (readDigits n t).bind (readDigits · t') := by
  induction t generalizing n with
  | nil => rfl
  | cons c t ih =>
    rw [List.cons_append, readDigits, readDigits]
    cases digitValue c with
    | none => rfl
    | some d =>
      simp only [Option.bind_eq_bind, Option.bind_some]
      split
      · exact ih _
      · rfl

/-- The digit of a number below ten. -/
theorem digitValue_digitChar {d : Nat} (h : d < 10) : digitValue (Nat.digitChar d) = some d := by
  have hall : ∀ i : Fin 10, digitValue (Nat.digitChar i) = some i.val := by decide
  exact hall ⟨d, h⟩

/-- The digits of a number are read back when it fits. -/
theorem readDigits_toDigits (n : Nat) : readDigits 0 (Nat.toDigits 10 n) = if n < 2 ^ 32 then some n else none := by
  have hdigit : ∀ m d, d < 10 → readDigits m [Nat.digitChar d] = if m * 10 + d < 2 ^ 32 then some (m * 10 + d) else none := by
    intro m d hd
    simp only [readDigits, digitValue_digitChar hd, Option.bind_eq_bind, Option.bind_some]
  induction n using Nat.strongRecOn with
  | ind n ih =>
    rw [Nat.toDigits_eq_if (by decide)]
    split
    · rename_i hn
      rw [hdigit 0 n hn, Nat.zero_mul, Nat.zero_add]
    · rw [readDigits_append, ih (n / 10) (by omega)]
      split
      · rw [Option.bind_some, hdigit _ _ (Nat.mod_lt n (by decide)), Nat.mul_comm, Nat.div_add_mod]
      · rw [Option.bind_none, if_neg (by omega)]

/-- A number is read back from its decimal form when it fits. -/
theorem parseU32_toDigits (n : Nat) : parseU32 (Nat.toDigits 10 n) = if n < 2 ^ 32 then some n else none := by
  have hplus : '+' ∉ Nat.toDigits 10 n := fun hmem => by
    have hdigit := Nat.isDigit_of_mem_toDigits (by decide) (by decide) hmem
    exact absurd hdigit (by decide)
  rw [← readDigits_toDigits]
  unfold parseU32
  split
  · rename_i he
    exact absurd he Nat.toDigits_ne_nil
  · rename_i he
    rw [he] at hplus
    exact absurd List.mem_cons_self hplus
  · rename_i he
    rw [he] at hplus
    exact absurd List.mem_cons_self hplus
  · rfl

/-- Read a `u16`: a number in decimal that fits. -/
def parseU16 (t : List Char) : Option Nat := (parseU32 t).filter (fun n => n < 2 ^ 16)

/-- The longest runs of decimal digits in a text, in their order. -/
def digitRuns (t : List Char) : List (List Char) := (t.splitOnP (fun c => !c.isDigit)).filter (· ≠ [])

/-- The number that decimal digits stand for. -/
def digitsValue (t : List Char) : Nat := t.foldl (fun n c => n * 10 + (c.toNat - '0'.toNat)) 0

/-- The digits of a number stand for it. -/
theorem digitsValue_toDigits (n : Nat) : digitsValue (Nat.toDigits 10 n) = n := by
  have hdigit : ∀ d < 10, (Nat.digitChar d).toNat - '0'.toNat = d := by decide
  induction n using Nat.strongRecOn with
  | ind n ih =>
    rw [Nat.toDigits_eq_if (by decide)]
    split
    · rename_i hn
      rw [digitsValue, List.foldl_cons, List.foldl_nil, Nat.zero_mul, Nat.zero_add]
      exact hdigit n hn
    · rename_i hn
      have hprev := ih (n / 10) (by omega)
      rw [digitsValue] at hprev
      rw [digitsValue, List.foldl_append, hprev, List.foldl_cons, List.foldl_nil, hdigit _ (Nat.mod_lt n (by decide))]
      omega

/-- The pieces of a list are what does not separate them. -/
theorem flatten_splitOnP {α : Type} (p : α → Bool) (xs : List α) : (xs.splitOnP p).flatten = xs.filter (fun x => !p x) := by
  induction xs with
  | nil => rfl
  | cons x xs ih =>
    rw [List.splitOnP_cons_eq_if_modifyHead]
    cases hx : p x with
    | true => simp [hx, ih]
    | false =>
      obtain ⟨first, rest, hsplit⟩ := List.exists_cons_of_ne_nil (List.splitOnP_ne_nil p xs)
      rw [hsplit] at ih
      simp [hx, hsplit, ← ih]

/-- The runs of digits of a text are its digits. -/
theorem flatten_digitRuns (t : List Char) : (digitRuns t).flatten = t.filter Char.isDigit := by
  have hflatten : ∀ ts : List (List Char), (ts.filter (· ≠ [])).flatten = ts.flatten := by
    intro ts
    induction ts with
    | nil => rfl
    | cons t ts ih =>
      cases t with
      | nil => exact ih
      | cons c t => exact congrArg ((c :: t) ++ ·) ih
  rw [digitRuns, hflatten, flatten_splitOnP]
  simp

/-- A number of so many digits. -/
theorem digitsValue_lt {t : List Char} (h : ∀ c ∈ t, c.isDigit = true) : digitsValue t < 10 ^ t.length := by
  have hfold : ∀ (t : List Char) (n : Nat), (∀ c ∈ t, c.isDigit = true) →
      t.foldl (fun n c => n * 10 + (c.toNat - '0'.toNat)) n < (n + 1) * 10 ^ t.length := by
    intro t
    induction t with
    | nil => simp
    | cons c t ih =>
      intro n h
      have hc : c.toNat - '0'.toNat ≤ 9 := by
        have hdigit := h c List.mem_cons_self
        simp only [Char.isDigit, Bool.and_eq_true, decide_eq_true_eq, UInt32.le_iff_toNat_le, ge_iff_le] at hdigit
        have hle : c.toNat ≤ 57 := hdigit.2
        have h0 : '0'.toNat = 48 := rfl
        omega
      refine Nat.lt_of_lt_of_le (ih _ fun c hc => h c (List.mem_cons_of_mem _ hc)) ?_
      rw [List.length_cons, Nat.pow_succ, Nat.mul_comm (10 ^ t.length), ← Nat.mul_assoc]
      have hdigits : n * 10 + (c.toNat - '0'.toNat) + 1 ≤ (n + 1) * 10 := by omega
      exact Nat.mul_le_mul_right _ hdigits
  have h0 := hfold t 0 h
  rwa [Nat.zero_add, Nat.one_mul] at h0

/-- The digit of a digit's value. -/
theorem digitChar_of_isDigit {c : Char} (h : c.isDigit = true) : c.toNat - '0'.toNat < 10 ∧ Nat.digitChar (c.toNat - '0'.toNat) = c := by
  simp only [Char.isDigit, Bool.and_eq_true, decide_eq_true_eq, UInt32.le_iff_toNat_le, ge_iff_le] at h
  have hlow : 48 ≤ c.toNat := h.1
  have hhigh : c.toNat ≤ 57 := h.2
  have hzero : '0'.toNat = 48 := rfl
  have hchar : ∀ d < 10, Nat.digitChar d = Char.ofNat (d + 48) := by decide
  refine ⟨by omega, ?_⟩
  rw [hchar _ (by omega), hzero, Nat.sub_add_cancel hlow]
  exact Char.ofNat_toNat c

/-- Digits without a leading zero are those of the number they stand for. -/
theorem toDigits_digitsValue {t : List Char} (hne : t ≠ []) (hdigits : ∀ c ∈ t, c.isDigit = true)
    (hzero : t = ['0'] ∨ t.head? ≠ some '0') : Nat.toDigits 10 (digitsValue t) = t := by
  induction t using List.reverseRecOn with
  | nil => exact absurd rfl hne
  | append_singleton t c ih =>
    obtain ⟨hlt, hchar⟩ := digitChar_of_isDigit (hdigits c (by simp))
    have hvalue : digitsValue (t ++ [c]) = digitsValue t * 10 + (c.toNat - '0'.toNat) := by
      rw [digitsValue, List.foldl_append]
      rfl
    rw [hvalue]
    cases t with
    | nil =>
      rw [show digitsValue [] = 0 from rfl, Nat.zero_mul, Nat.zero_add, Nat.toDigits_of_lt_base hlt, hchar, List.nil_append]
    | cons d t =>
      have hhead : (d :: t).head? ≠ some '0' := by
        rcases hzero with hzero | hzero
        · simp at hzero
        · simpa using hzero
      have hprev := ih (by simp) (fun c hc => hdigits c (List.mem_append_left _ hc)) (Or.inr hhead)
      have hpos : 0 < digitsValue (d :: t) := by
        refine Nat.pos_of_ne_zero fun hnone => hhead ?_
        rw [hnone] at hprev
        rw [← hprev]
        rfl
      rw [Nat.toDigits_eq_if (by decide), if_neg (by omega), Nat.mul_comm, Nat.mul_add_div (by decide), Nat.mul_add_mod,
        Nat.div_eq_of_lt hlt, Nat.mod_eq_of_lt hlt, Nat.add_zero, hprev, hchar]

/-- An integer in decimal. -/
def intText : Int → List Char
  | .ofNat n => Nat.toDigits 10 n
  | .negSucc n => '-' :: Nat.toDigits 10 (n + 1)

/-- The number of units of a text in UTF-16. -/
def utf16Length (t : List Char) : Nat := (t.map (fun c => if c.toNat < 2 ^ 16 then 1 else 2)).sum

/-- The units of a character in UTF-16. -/
def utf16Char (c : Char) : List Nat :=
  if c.toNat < 2 ^ 16 then [c.toNat] else [0xD800 + (c.toNat - 2 ^ 16) / 2 ^ 10, 0xDC00 + (c.toNat - 2 ^ 16) % 2 ^ 10]

/-- The units of a text in UTF-16. -/
def utf16Units (t : List Char) : List Nat := t.flatMap utf16Char

/-- The texts one after the other, with a separator between them. -/
def joinWith (sep : Char) : List (List Char) → List Char
  | [] => []
  | t :: ts => t ++ ts.flatMap (fun t => sep :: t)

/-- Equality without regard to the case of ASCII letters. -/
def equalsIgnoreCase (a b : List Char) : Bool := a.map Char.toUpper == b.map Char.toUpper

theorem equalsIgnoreCase_self (t : List Char) : equalsIgnoreCase t t = true := beq_self_eq_true _

theorem toUpper_toUpper (c : Char) : c.toUpper.toUpper = c.toUpper := by
  by_cases hlower : 97 ≤ c.toNat ∧ c.toNat ≤ 122
  · have hall : ∀ n : Fin 123, (Char.ofNat n).toUpper.toUpper = (Char.ofNat n).toUpper := by decide
    have hchar := hall ⟨c.toNat, by omega⟩
    rwa [Char.ofNat_toNat] at hchar
  · have hself : c.toUpper = c := by
      refine dif_neg fun h => hlower ?_
      exact ⟨UInt32.le_iff_toNat_le.1 h.1, UInt32.le_iff_toNat_le.1 h.2⟩
    rw [hself, hself]

/-- A text equals itself in capitals. -/
theorem equalsIgnoreCase_upper (t : List Char) : equalsIgnoreCase t (t.map Char.toUpper) = true := by
  have hupper : (t.map Char.toUpper).map Char.toUpper = t.map Char.toUpper := by
    rw [List.map_map]
    exact List.map_congr_left fun c _ => toUpper_toUpper c
  rw [equalsIgnoreCase, hupper]
  exact beq_self_eq_true _

/-- Whether a text starts with another, without regard to the case of ASCII letters. -/
def startsWithIgnoreCase (t start : List Char) : Bool := (start.map Char.toUpper).isPrefixOf (t.map Char.toUpper)

/-- Whether there is nothing but white space in a text. -/
def isBlank (t : List Char) : Bool := t.all isWhiteSpace

/-- Whether a text contains another. -/
def containsText (t pattern : List Char) : Bool := decide (pattern <:+: t)

/-! ## Texts in UTF-16 -/

/-- The first units of two texts are those of one character only if it is the same. -/
theorem utf16Char_append_inj {c d : Char} {s t : List Nat} (h : utf16Char c ++ s = utf16Char d ++ t) : c = d ∧ s = t := by
  have hchar : ∀ c : Char, c.toNat < 0x110000 ∧ (c.toNat < 0xD800 ∨ 0xDFFF < c.toNat) := by
    intro c
    have hvalid := c.valid
    have hnat : c.toNat = c.val.toNat := rfl
    rcases hvalid with hlow | ⟨hhigh, hlt⟩
    · exact ⟨by omega, .inl hlow⟩
    · exact ⟨hlt, .inr hhigh⟩
  have hc := hchar c
  have hd := hchar d
  have hsame : c.toNat = d.toNat → c = d := fun heq => Char.toNat_inj.mp heq
  unfold utf16Char at h
  split at h
  · split at h
    · obtain ⟨hfirst, hrest⟩ := List.cons.inj h
      exact ⟨hsame hfirst, hrest⟩
    · have hfirst := (List.cons.inj h).1
      omega
  · split at h
    · have hfirst := (List.cons.inj h).1
      omega
    · obtain ⟨hfirst, hrest⟩ := List.cons.inj h
      obtain ⟨hsecond, hrest⟩ := List.cons.inj hrest
      exact ⟨hsame (by omega), hrest⟩

theorem utf16Units_inj {t u : List Char} (h : utf16Units t = utf16Units u) : t = u := by
  have hne : ∀ (c : Char) (s : List Nat), utf16Char c ++ s ≠ [] := by
    intro c s
    unfold utf16Char
    split <;> exact List.cons_ne_nil _ _
  induction t generalizing u with
  | nil =>
    cases u with
    | nil => rfl
    | cons d u => exact absurd h.symm (hne d _)
  | cons c t ih =>
    cases u with
    | nil => exact absurd h (hne c _)
    | cons d u =>
      obtain ⟨rfl, hrest⟩ := utf16Char_append_inj h
      rw [ih hrest]

/-! ## Reading a text that was put together -/

/-- A text is split into the pieces it was joined from. -/
theorem splitOn_joinWith {sep : Char} {ts : List (List Char)} (hne : ts ≠ []) (h : ∀ t ∈ ts, sep ∉ t) :
    (joinWith sep ts).splitOn sep = ts := by
  cases ts with
  | nil => exact absurd rfl hne
  | cons t ts =>
    rw [joinWith]
    clear hne
    induction ts generalizing t with
    | nil =>
      rw [List.flatMap_nil, List.append_nil]
      exact List.splitOn_eq_singleton (h t (by simp))
    | cons t' ts ih =>
      rw [List.flatMap_cons, List.cons_append, List.splitOn_append_cons_self_of_not_mem (h t (by simp))]
      rw [ih t' (fun t'' hmem => h t'' (List.mem_cons_of_mem t hmem))]

/-- What stands before and after a separator that starts with a character the text before it does not have. -/
theorem splitOnce_append {c : Char} (sep : List Char) {p : List Char} (t : List Char) (h : c ∉ p) :
    splitOnce (c :: sep) (p ++ c :: sep ++ t) = some (p, t) := by
  induction p with
  | nil => simp [splitOnce]
  | cons d p ih =>
    have hc : c ≠ d := fun heq => h (heq ▸ List.mem_cons_self)
    rw [List.cons_append, List.cons_append, splitOnce, if_neg (by simp [List.isPrefixOf, hc])]
    rw [ih (fun hmem => h (List.mem_cons_of_mem d hmem)), Option.map_some]

/-- A text is what stands before the separator, the separator and what stands after it, and what stands after it does not matter for
where it is found. -/
theorem splitOnce_eq_some {sep t a b : List Char} (h : splitOnce sep t = some (a, b)) :
    t = a ++ sep ++ b ∧ ∀ b', splitOnce sep (a ++ sep ++ b') = some (a, b') := by
  have hhead : ∀ b', splitOnce sep (sep ++ b') = some ([], b') := by
    intro b'
    cases hsep : sep ++ b' with
    | nil => rw [splitOnce, if_pos (List.append_eq_nil_iff.mp hsep).1, (List.append_eq_nil_iff.mp hsep).2]
    | cons c u =>
      have hpre : sep.isPrefixOf (c :: u) = true := by rw [← hsep, List.isPrefixOf_iff_prefix]; exact List.prefix_append _ _
      rw [splitOnce, if_pos hpre, ← hsep, List.drop_left]
  induction t generalizing a with
  | nil =>
    rw [splitOnce] at h
    split at h
    · rename_i hnil
      obtain ⟨rfl, rfl⟩ := Prod.mk.inj (Option.some.inj h)
      exact ⟨by rw [hnil]; rfl, fun b' => by simpa using hhead b'⟩
    · nomatch h
  | cons c t ih =>
    rw [splitOnce] at h
    split at h
    · rename_i hpre
      obtain ⟨rfl, rfl⟩ := Prod.mk.inj (Option.some.inj h)
      have happ := List.prefix_iff_eq_append.mp (List.isPrefixOf_iff_prefix.mp hpre)
      exact ⟨by simpa using happ.symm, fun b' => by simpa using hhead b'⟩
    · rename_i hpre
      obtain ⟨⟨a', b'⟩, hr, he⟩ := Option.map_eq_some_iff.mp h
      obtain ⟨rfl, rfl⟩ := Prod.mk.inj he
      obtain ⟨rfl, hrest⟩ := ih hr
      refine ⟨rfl, fun b'' => ?_⟩
      -- the separator would be found before it is complete, whatever stands after it
      have hno : ¬ sep.isPrefixOf (c :: (a' ++ sep ++ b'')) = true := by
        rw [List.isPrefixOf_iff_prefix] at hpre ⊢
        intro hfound
        refine hpre ((List.prefix_of_prefix_length_le hfound (?_ : c :: (a' ++ sep) <+: _) ?_).trans ?_)
        · exact ⟨b'', rfl⟩
        · simp only [List.length_cons, List.length_append]
          omega
        · exact ⟨b', rfl⟩
      rw [List.cons_append, List.cons_append, splitOnce, if_neg hno, hrest, Option.map_some]

/-- A separator of one character does not stand before its first occurrence. -/
theorem notMem_of_splitOnce {c : Char} {t a b : List Char} (h : splitOnce [c] t = some (a, b)) : c ∉ a := by
  induction t generalizing a with
  | nil => nomatch h
  | cons d t ih =>
    rw [splitOnce] at h
    split at h
    · rw [← (Prod.mk.inj (Option.some.inj h)).1]
      exact List.not_mem_nil
    · rename_i hne
      obtain ⟨⟨a', b'⟩, hr, he⟩ := Option.map_eq_some_iff.mp h
      obtain ⟨rfl, rfl⟩ := Prod.mk.inj he
      rw [List.mem_cons, not_or]
      refine ⟨fun hcd => hne ?_, ih hr⟩
      rw [hcd, List.isPrefixOf_iff_prefix]
      exact ⟨t, rfl⟩

/-- The pieces of a text do not have the separator. -/
theorem notMem_of_mem_splitOn {sep : Char} {t piece : List Char} (h : piece ∈ t.splitOn sep) : sep ∉ piece := by
  induction t generalizing piece with
  | nil =>
    rw [List.splitOn_nil, List.mem_singleton] at h
    rw [h]
    exact List.not_mem_nil
  | cons c t ih =>
    rw [List.splitOn_cons_eq_if_modifyHead] at h
    split at h
    · rcases List.mem_cons.mp h with rfl | h
      · exact List.not_mem_nil
      · exact ih h
    · rename_i hne
      obtain ⟨first, rest, hsplit⟩ := List.exists_cons_of_ne_nil (List.splitOn_ne_nil sep t)
      rw [hsplit, List.modifyHead_cons] at h
      rw [hsplit] at ih
      rcases List.mem_cons.mp h with rfl | h
      · rw [List.mem_cons, not_or]
        exact ⟨fun heq => hne (by rw [heq]; exact beq_self_eq_true c), ih List.mem_cons_self⟩
      · exact ih (List.mem_cons_of_mem _ h)

/-- What is stripped from the ends of a text is what stands around one without any of it. -/
theorem dropWhile_ends_append {p : Char → Bool} {t w v : List Char} (hw : ∀ c ∈ w, p c = true) (hv : ∀ c ∈ v, p c = true)
    (ht : ∀ c ∈ t, p c = false) : (((w ++ t ++ v).dropWhile p).reverse.dropWhile p).reverse = t := by
  have hstop : ∀ l : List Char, (∀ c ∈ l, p c = false) → l.dropWhile p = l := by
    intro l hl
    cases l with
    | nil => rfl
    | cons c l => rw [List.dropWhile_cons_of_neg (by simp [hl c List.mem_cons_self])]
  rw [List.append_assoc, List.dropWhile_append_of_pos hw]
  cases t with
  | nil =>
    rw [List.nil_append, List.dropWhile_eq_nil_iff.2 hv]
    rfl
  | cons c t =>
    rw [List.cons_append, List.dropWhile_cons_of_neg (by simp [ht c List.mem_cons_self]), ← List.cons_append, List.reverse_append]
    rw [List.dropWhile_append_of_pos (by simpa using hv), hstop _ (fun d hd => ht d (List.mem_reverse.1 hd)), List.reverse_reverse]

/-- A text without characters to strip is not stripped. -/
theorem dropWhile_ends {p : Char → Bool} {t : List Char} (h : ∀ c ∈ t, p c = false) :
    ((t.dropWhile p).reverse.dropWhile p).reverse = t := by
  have hends := @dropWhile_ends_append p t [] [] (fun _ hc => nomatch hc) (fun _ hc => nomatch hc) h
  rwa [List.nil_append, List.append_nil] at hends

/-- The white space around a text without any is trimmed. -/
theorem trim_append {t w v : List Char} (hw : ∀ c ∈ w, isWhiteSpace c = true) (hv : ∀ c ∈ v, isWhiteSpace c = true)
    (ht : ∀ c ∈ t, isWhiteSpace c = false) : trim (w ++ t ++ v) = t :=
  dropWhile_ends_append hw hv ht

/-- The white space behind a text without any at its ends is trimmed. -/
theorem trim_ends {t u v w : List Char} (ht : t ≠ []) (hv : v ≠ []) (hleft : ∀ c ∈ t, isWhiteSpace c = false)
    (hright : ∀ c ∈ v, isWhiteSpace c = false) (hw : ∀ c ∈ w, isWhiteSpace c = true) : trim (t ++ u ++ v ++ w) = t ++ u ++ v := by
  have hstop : ∀ (t u : List Char), t ≠ [] → (∀ c ∈ t, isWhiteSpace c = false) → (t ++ u).dropWhile isWhiteSpace = t ++ u := by
    intro t u ht h
    cases t with
    | nil => exact absurd rfl ht
    | cons c t => rw [List.cons_append, List.dropWhile_cons_of_neg (by simp [h c List.mem_cons_self])]
  have hreverse : (t ++ u ++ v).reverse = v.reverse ++ (t ++ u).reverse := List.reverse_append
  have hlast := hstop v.reverse (t ++ u).reverse (by simpa using hv) fun c hc => hright c (List.mem_reverse.mp hc)
  have hfirst : (t ++ u ++ v ++ w).dropWhile isWhiteSpace = t ++ u ++ v ++ w := by
    rw [List.append_assoc, List.append_assoc, hstop t _ ht hleft]
  rw [trim, hfirst, List.reverse_append, List.dropWhile_append_of_pos (by simpa using hw), hreverse, hlast, ← hreverse, List.reverse_reverse]

/-- A text without white space at its ends is not trimmed. -/
theorem trim_eq_self {t u v : List Char} (ht : t ≠ []) (hv : v ≠ []) (hleft : ∀ c ∈ t, isWhiteSpace c = false)
    (hright : ∀ c ∈ v, isWhiteSpace c = false) : trim (t ++ u ++ v) = t ++ u ++ v := by
  have hends := trim_ends (u := u) (w := []) ht hv hleft hright fun _ hc => nomatch hc
  rwa [List.append_nil] at hends

/-- A text that starts with a character is found after a text without that character where it is found in the rest. -/
theorem cons_infix_append {c : Char} {p t u : List Char} (h : c ∉ t) : c :: p <:+: t ++ u ↔ c :: p <:+: u := by
  induction t with
  | nil => rfl
  | cons d t ih =>
    rw [List.cons_append, List.infix_cons_iff, ih (fun hmem => h (List.mem_cons_of_mem d hmem))]
    constructor
    · rintro (hpre | hin)
      · exact absurd (List.cons_prefix_cons.1 hpre).1 (fun heq => h (heq ▸ List.mem_cons_self))
      · exact hin
    · exact Or.inr

/-- Two texts without a separator, each with the separator after it. -/
theorem append_prefix_append {sep : Char} {p t u : List Char} (hp : sep ∉ p) (ht : sep ∉ t) :
    p ++ [sep] <+: t ++ sep :: u ↔ p = t := by
  induction p generalizing t with
  | nil =>
    cases t with
    | nil => simp
    | cons d t =>
      have hd : sep ≠ d := fun heq => ht (heq ▸ List.mem_cons_self)
      simp [hd]
  | cons c p ih =>
    cases t with
    | nil =>
      have hc : c ≠ sep := fun heq => hp (heq ▸ List.mem_cons_self)
      simp [hc]
    | cons d t =>
      rw [List.cons_append, List.cons_append, List.cons_prefix_cons, List.cons_eq_cons]
      rw [ih (fun hmem => hp (List.mem_cons_of_mem c hmem)) (fun hmem => ht (List.mem_cons_of_mem d hmem))]

/-- A piece is found between separators exactly when the text was joined from it among others. -/
theorem containsText_joined {sep : Char} {p : List Char} {ts : List (List Char)} (hp : sep ∉ p) (h : ∀ t ∈ ts, sep ∉ t) :
    containsText (ts.flatMap (fun t => sep :: t) ++ [sep]) (sep :: p ++ [sep]) = true ↔ p ∈ ts := by
  have htail : ∀ ts : List (List Char), ∃ u, ts.flatMap (fun t => sep :: t) ++ [sep] = sep :: u := by
    intro ts
    cases ts with
    | nil => exact ⟨[], rfl⟩
    | cons t ts => exact ⟨_, by rw [List.flatMap_cons, List.cons_append, List.cons_append]⟩
  rw [containsText, decide_eq_true_iff]
  induction ts with
  | nil =>
    simp only [List.flatMap_nil, List.nil_append, List.not_mem_nil, iff_false]
    intro hin
    have hle := hin.length_le
    simp at hle
  | cons t ts ih =>
    have hts : ∀ t' ∈ ts, sep ∉ t' := fun t' hmem => h t' (List.mem_cons_of_mem t hmem)
    obtain ⟨u, hu⟩ := htail ts
    have hpat : sep :: p ++ [sep] <:+: t ++ (ts.flatMap (fun t => sep :: t) ++ [sep]) ↔ p ∈ ts := by
      rw [List.cons_append, cons_infix_append (h t List.mem_cons_self), ← List.cons_append]
      exact ih hts
    have hcons : (t :: ts).flatMap (fun t => sep :: t) ++ [sep] = sep :: (t ++ (ts.flatMap (fun t => sep :: t) ++ [sep])) := by
      rw [List.flatMap_cons, List.append_assoc, List.cons_append]
    rw [hcons, List.infix_cons_iff, hpat, List.mem_cons, hu, List.cons_append, List.cons_prefix_cons, append_prefix_append hp (h t List.mem_cons_self)]
    simp
end Scbl.Lib
