import Scbl.Lib.Dict
import Scbl.Lib.Quoting

/-!
# TOML

Documents of TOML: how their lines are read, and the tables that the lines make up. Of the values those are read that are strings on one
line in double quotes, decimal integers, truth values and arrays of these, and of the keys of items those with one part.
-/

namespace Scbl.Lib

/-- A value of a document; a table and an array of tables have headers. -/
inductive TomlValue where
  | string (value : List Char)
  | integer (value : Int)
  | boolean (value : Bool)
  | array (values : List TomlValue)
  | table (items : List (List Char × TomlValue))
  | tables (elements : List (List (List Char × TomlValue)))

/-- The items of a table by their keys. -/
abbrev TomlTable := List (List Char × TomlValue)

/-! ## Values -/

/-- A basic string behind its opening quote, and what stands behind its closing quote. -/
def basicString : List Char → Option (List Char × List Char)
  | [] => none
  | c :: t =>
    if c = '"' then some ([], t)
    else if c = '\\' then
      match t with
      | [] => none
      | e :: t =>
        if e = 'u' then
          match t with
          | c₁ :: c₂ :: c₃ :: c₄ :: t =>
            (unicodeEscape [c₁, c₂, c₃, c₄]).bind (fun first => (basicString t).map (fun r => (first :: r.1, r.2)))
          | _ => none
        else if e = 'U' then
          match t with
          | c₁ :: c₂ :: c₃ :: c₄ :: c₅ :: c₆ :: c₇ :: c₈ :: t =>
            (unicodeEscape [c₁, c₂, c₃, c₄, c₅, c₆, c₇, c₈]).bind (fun first => (basicString t).map (fun r => (first :: r.1, r.2)))
          | _ => none
        else (tomlEscape e).bind (fun first => (basicString t).map (fun r => (first :: r.1, r.2)))
    else if isControl c then none
    else (basicString t).map (fun r => (c :: r.1, r.2))

/-- Decimal digits, of which the first is a zero only if it is the last one. -/
def decimalDigits (t : List Char) : Option (Nat × List Char) :=
  let digits := t.takeWhile (·.isDigit)
  if digits = [] ∨ (digits.head? = some '0' ∧ digits.length ≠ 1) then none else some (digitsValue digits, t.dropWhile (·.isDigit))

def decimalInteger : List Char → Option (Int × List Char)
  | '-' :: t => (decimalDigits t).map (fun r => (-(r.1 : Int), r.2))
  | '+' :: t => (decimalDigits t).map (fun r => ((r.1 : Int), r.2))
  | t => (decimalDigits t).map (fun r => ((r.1 : Int), r.2))

/-- A value other than an array, and what stands behind it. -/
def tomlScalar (t : List Char) : Option (TomlValue × List Char) :=
  if "\"".toList.isPrefixOf t then (basicString (t.drop 1)).map (fun r => (.string r.1, r.2))
  else if "true".toList.isPrefixOf t then some (.boolean true, t.drop 4)
  else if "false".toList.isPrefixOf t then some (.boolean false, t.drop 5)
  else (decimalInteger t).map (fun r => (.integer r.1, r.2))

def skipSpace (t : List Char) : List Char := t.dropWhile (fun c => c = ' ' || c = '\t')

/-- Inside an array a line can end anywhere. -/
def skipLines (t : List Char) : List Char := t.dropWhile (fun c => c = ' ' || c = '\t' || c = '\n')

/-- The values of an array behind its opening bracket, or behind a comma, of which there may be one behind the last. -/
def arrayItems : Nat → List Char → Option (List TomlValue × List Char)
  | 0, _ => none
  | n + 1, t =>
    match skipLines t with
    | ']' :: t => some ([], t)
    | t => do
      let (value, t) ← tomlScalar t
      match skipLines t with
      | ']' :: t => some ([value], t)
      | ',' :: t => (arrayItems n t).map (fun r => (value :: r.1, r.2))
      | _ => none

def tomlValue : List Char → Option (TomlValue × List Char)
  | '[' :: t => (arrayItems (t.length + 1) t).map (fun r => (.array r.1, r.2))
  | t => tomlScalar t

/-! ## Lines -/

def isBareKeyChar (c : Char) : Bool := c.isAlphanum || c = '-' || c = '_'

def keyPart : List Char → Option (List Char × List Char)
  | '"' :: t => basicString t
  | t => if t.takeWhile isBareKeyChar = [] then none else some (t.takeWhile isBareKeyChar, t.dropWhile isBareKeyChar)

/-- The parts of the key of a header, with dots between them. -/
def keyPath : Nat → List Char → Option (List (List Char) × List Char)
  | 0, _ => none
  | n + 1, t => do
    let (key, t) ← keyPart t
    match skipSpace t with
    | '.' :: t => (keyPath n (skipSpace t)).map (fun r => (key :: r.1, r.2))
    | t => some ([key], t)

/-- What stands behind the end of a line, which a comment may precede. -/
def lineEnd (t : List Char) : Option (List Char) :=
  match skipSpace t with
  | [] => some []
  | '\n' :: t => some t
  | '#' :: t => if (t.takeWhile (· ≠ '\n')).any isControl then none else some ((t.dropWhile (· ≠ '\n')).drop 1)
  | _ => none

inductive TomlStatement where
  | table (path : List (List Char))
  | element (path : List (List Char))
  | item (key : List Char) (value : TomlValue)

/-- The statement of a line, if it is not blank, and what stands behind the line. -/
def tomlLine (t : List Char) : Option (Option TomlStatement × List Char) :=
  match skipSpace t with
  | '[' :: '[' :: t => do
    let (path, t) ← keyPath t.length (skipSpace t)
    match t with
    | ']' :: ']' :: t => (lineEnd t).map (some (.element path), ·)
    | _ => none
  | '[' :: t => do
    let (path, t) ← keyPath t.length (skipSpace t)
    match t with
    | ']' :: t => (lineEnd t).map (some (.table path), ·)
    | _ => none
  | t =>
    match keyPart t with
    | some (key, t) =>
      match skipSpace t with
      | '=' :: t => do
        let (value, t) ← tomlValue (skipSpace t)
        (lineEnd t).map (some (.item key value), ·)
      | _ => none
    | none => (lineEnd t).map (none, ·)

/-- The statements of so many lines at most. -/
def tomlStatements : Nat → List Char → Option (List TomlStatement)
  | _, [] => some []
  | 0, _ :: _ => none
  | n + 1, c :: t => do
    let (statement, t) ← tomlLine (c :: t)
    (tomlStatements n t).map (statement.toList ++ ·)

/-! ## Tables -/

/-- Change the table at a path, which is made where it is missing; of an array of tables it is the last one. -/
def changeTable (change : TomlTable → Option TomlTable) : List (List Char) → TomlTable → Option TomlTable
  | [], items => change items
  | key :: path, items =>
    match Dict.get items key with
    | none => (changeTable change path []).map (fun inner => Dict.set items key (.table inner))
    | some (.table inner) => (changeTable change path inner).map (fun inner => Dict.set items key (.table inner))
    | some (.tables elements) =>
      match elements.getLast? with
      | some last => (changeTable change path last).map (fun last => Dict.set items key (.tables (elements.dropLast ++ [last])))
      | none => none
    | some _ => none

/-- Put an item into a table that does not have its key. -/
def addItem (key : List Char) (value : TomlValue) (items : TomlTable) : Option TomlTable :=
  if (Dict.get items key).isSome then none else some (Dict.set items key value)

/-- Put an empty table at the end of an array of tables. -/
def addElement (key : List Char) (items : TomlTable) : Option TomlTable :=
  match Dict.get items key with
  | none => some (Dict.set items key (.tables [[]]))
  | some (.tables elements) => some (Dict.set items key (.tables (elements ++ [[]])))
  | some _ => none

/-- What was read: the items, the path of the last header, and the paths of headers that cannot be used again. -/
structure TomlState where
  items : TomlTable := []
  header : List (List Char) := []
  declared : List (List (List Char)) := []

def TomlState.read (state : TomlState) : TomlStatement → Option TomlState
  | .table path =>
    if path ∈ state.declared then none
    else (changeTable some path state.items).map (fun items => { items, header := path, declared := path :: state.declared })
  | .element path =>
    match path.getLast? with
    | some key =>
      (changeTable (addElement key) path.dropLast state.items).map (fun items =>
        { items, header := path, declared := path :: state.declared.filter (fun declared => !path.isPrefixOf declared) })
    | none => none
  | .item key value => (changeTable (addItem key value) state.header state.items).map (fun items => { state with items })

/-- The items of a document. -/
def toml (text : List Char) : Option TomlTable := do
  let statements ← tomlStatements text.length text
  let state ← statements.foldlM TomlState.read {}
  some state.items

example : toml "a = 1 # one\n[b.c]\nd = [true,\n  -2, ]".toList =
    some [(['a'], .integer 1), (['b'], .table [(['c'], .table [(['d'], .array [.boolean true, .integer (-2)])])])] := rfl
example : (toml "[[a]]\n[[a]]\nb = \"\\t\"\nb = 2\n".toList).isSome = false := by decide +kernel

/-! ## Strings that were written character by character -/

section Strings

variable {escape : Char → List Char} {bad : Char → Bool}

/-- A string is read as it was written if each character is read as it was written, and is not read if it has one that is not. -/
theorem basicString_flatMap
    (hgood : ∀ c rest, bad c = false → basicString (escape c ++ rest) = (basicString rest).map (fun r => (c :: r.1, r.2)))
    (hbad : ∀ c rest, bad c = true → basicString (escape c ++ rest) = none) (t rest : List Char) :
    basicString (t.flatMap escape ++ '"' :: rest) = if t.any bad then none else some (t, rest) := by
  induction t with
  | nil =>
    rw [List.flatMap_nil, List.nil_append, basicString.eq_def]
    rfl
  | cons c t ih =>
    rw [List.flatMap_cons, List.append_assoc, List.any_cons]
    cases hc : bad c with
    | true => rw [hbad c _ hc, Bool.true_or, if_pos rfl]
    | false =>
      rw [hgood c _ hc, ih, Bool.false_or]
      split <;> rfl

end Strings

theorem basicString_plain {c : Char} (hquote : c ≠ '"') (hslash : c ≠ '\\') (rest : List Char) :
    basicString (c :: rest) = if isControl c then none else (basicString rest).map (fun r => (c :: r.1, r.2)) := by
  rw [basicString.eq_def]
  simp only [hquote, hslash, if_false]

theorem basicString_escape {c d : Char} (h : tomlEscape c = some d) (rest : List Char) :
    basicString ('\\' :: c :: rest) = (basicString rest).map (fun r => (d :: r.1, r.2)) := by
  have hshort : c ≠ 'u' := by
    rintro rfl
    nomatch h
  have hlong : c ≠ 'U' := by
    rintro rfl
    nomatch h
  have hquote : '\\' ≠ '"' := by decide
  rw [basicString.eq_def]
  simp only [hquote, hshort, hlong, h, if_false, if_true, Option.bind_some]

theorem basicString_unicode {c₁ c₂ c₃ c₄ d : Char} (h : unicodeEscape [c₁, c₂, c₃, c₄] = some d) (rest : List Char) :
    basicString ('\\' :: 'u' :: c₁ :: c₂ :: c₃ :: c₄ :: rest) = (basicString rest).map (fun r => (d :: r.1, r.2)) := by
  have hquote : '\\' ≠ '"' := by decide
  rw [basicString.eq_def]
  simp only [hquote, h, if_false, if_true, Option.bind_some]

/-- The one character that JSON writes as it is and TOML does not accept. -/
def isDelete (c : Char) : Bool := c.toNat = 0x7F

/-- A string of JSON is read by TOML unless it has such a character. -/
theorem basicString_json (t rest : List Char) :
    basicString (t.flatMap jsonEscape ++ '"' :: rest) = if t.any isDelete then none else some (t, rest) := by
  refine basicString_flatMap (fun c rest hc => ?_) (fun c rest hc => ?_) t rest
  · by_cases hquote : c = '"'
    · subst hquote
      exact basicString_escape rfl rest
    by_cases hslash : c = '\\'
    · subst hslash
      exact basicString_escape rfl rest
    by_cases hline : c = '\n'
    · subst hline
      exact basicString_escape rfl rest
    by_cases hreturn : c = '\r'
    · subst hreturn
      exact basicString_escape rfl rest
    by_cases htab : c = '\t'
    · subst htab
      exact basicString_escape rfl rest
    have hnat : Char.ofNat c.toNat = c := Char.ofNat_toNat c
    by_cases hback : c.toNat = 8
    · rw [← hnat, hback]
      exact basicString_escape rfl rest
    by_cases hfeed : c.toNat = 12
    · rw [← hnat, hfeed]
      exact basicString_escape rfl rest
    simp only [jsonEscape, hquote, hslash, hline, hreturn, htab, hback, hfeed, if_false]
    by_cases hcontrol : c.toNat < 0x20
    · have hdigits : ∀ n : Fin 0x20, unicodeEscape ['0', '0', Nat.digitChar (n.val / 16), Nat.digitChar (n.val % 16)] = some (Char.ofNat n.val) := by
        decide
      have hread := hdigits ⟨c.toNat, hcontrol⟩
      rw [hnat] at hread
      rw [if_pos hcontrol]
      exact basicString_unicode hread rest
    · have hplain : isControl c = false := by
        have hdelete : c.toNat ≠ 0x7F := of_decide_eq_false hc
        simp [isControl, hcontrol, hdelete]
      rw [if_neg hcontrol, List.singleton_append, basicString_plain hquote hslash, hplain]
      rfl
  · have hdelete : c.toNat = 0x7F := of_decide_eq_true hc
    obtain rfl : c = Char.ofNat 0x7F := by rw [← hdelete, Char.ofNat_toNat]
    exact basicString_plain (by decide) (by decide) rest

/-! ## Values that were written -/

/-- What stands behind a value does not go on with it. -/
def Ends (rest : List Char) : Prop := ∀ c ∈ rest.head?, c.isDigit = false

theorem tomlScalar_string (t : List Char) : tomlScalar ('"' :: t) = (basicString t).map (fun r => (.string r.1, r.2)) := rfl

/-- The digits of a number begin with a zero only if there is no other. -/
theorem toDigits_no_zero {n : Nat} (h : n ≠ 0) : (Nat.toDigits 10 n).head? ≠ some '0' := by
  have hdigit : ∀ d < 10, d ≠ 0 → Nat.digitChar d ≠ '0' := by decide
  induction n using Nat.strongRecOn with
  | ind n ih =>
    rw [Nat.toDigits_eq_if (by decide)]
    split
    · rename_i hn
      exact fun hzero => hdigit n hn h (Option.some.inj hzero)
    · obtain ⟨c, digits, hcons⟩ := List.exists_cons_of_ne_nil (Nat.toDigits_ne_nil (n := n / 10) (b := 10))
      have hprev := ih (n / 10) (by omega) (by omega)
      rw [hcons] at hprev ⊢
      exact hprev

theorem decimalDigits_toDigits (n : Nat) {rest : List Char} (h : Ends rest) :
    decimalDigits (Nat.toDigits 10 n ++ rest) = some (n, rest) := by
  have hdigits : ∀ c ∈ Nat.toDigits 10 n, c.isDigit = true := fun c hc => Nat.isDigit_of_mem_toDigits (by decide) (by decide) hc
  have hrest : rest.takeWhile (·.isDigit) = [] ∧ rest.dropWhile (·.isDigit) = rest := by
    cases rest with
    | nil => exact ⟨rfl, rfl⟩
    | cons c rest => simp [h c rfl]
  have htake : (Nat.toDigits 10 n ++ rest).takeWhile (·.isDigit) = Nat.toDigits 10 n := by
    rw [List.takeWhile_append_of_pos hdigits, hrest.1, List.append_nil]
  have hdrop : (Nat.toDigits 10 n ++ rest).dropWhile (·.isDigit) = rest := by
    rw [List.dropWhile_append_of_pos hdigits, hrest.2]
  have hread : ¬ (Nat.toDigits 10 n = [] ∨ (Nat.toDigits 10 n).head? = some '0' ∧ (Nat.toDigits 10 n).length ≠ 1) := by
    rintro (hnil | ⟨hzero, hlong⟩)
    · exact Nat.toDigits_ne_nil hnil
    · by_cases hn : n = 0
      · subst hn
        exact hlong rfl
      · exact toDigits_no_zero hn hzero
  simp only [decimalDigits, htake, hdrop, if_neg hread, digitsValue_toDigits]

theorem tomlScalar_intText (n : Int) {rest : List Char} (h : Ends rest) : tomlScalar (intText n ++ rest) = some (.integer n, rest) := by
  have hscalar : ∀ (c : Char) (t : List Char), c ≠ '"' → c ≠ 't' → c ≠ 'f' →
      tomlScalar (c :: t) = (decimalInteger (c :: t)).map (fun r => (.integer r.1, r.2)) := by
    intro c t hquote htrue hfalse
    simp [tomlScalar, List.isPrefixOf, Ne.symm hquote, Ne.symm htrue, Ne.symm hfalse]
  cases n with
  | ofNat n =>
    obtain ⟨c, digits, hcons⟩ := List.exists_cons_of_ne_nil (Nat.toDigits_ne_nil (n := n) (b := 10))
    have hdigit : c.isDigit = true := Nat.isDigit_of_mem_toDigits (by decide) (by decide) (hcons ▸ List.mem_cons_self)
    have hne : ∀ d : Char, d.isDigit = false → c ≠ d := by
      rintro d hd rfl
      rw [hdigit] at hd
      nomatch hd
    have hread := decimalDigits_toDigits n h
    rw [intText, hcons, List.cons_append] at *
    rw [hscalar c _ (hne _ rfl) (hne _ rfl) (hne _ rfl), decimalInteger.eq_def]
    split
    · exact absurd (List.cons.inj ‹_›).1 (hne _ rfl)
    · exact absurd (List.cons.inj ‹_›).1 (hne _ rfl)
    · rw [hread]
      rfl
  | negSucc n =>
    rw [intText, List.cons_append, hscalar '-' _ (by decide) (by decide) (by decide), decimalInteger, decimalDigits_toDigits _ h]
    rfl

/-- A text that is read as a value of one word, whatever ends it. -/
structure ReadsScalar (text : List Char) (value : TomlValue) : Prop where
  starts : ∃ c t, text = c :: t ∧ c ≠ ' ' ∧ c ≠ '\t' ∧ c ≠ '\n' ∧ c ≠ '[' ∧ c ≠ ']'
  reads : ∀ rest, Ends rest → tomlScalar (text ++ rest) = some (value, rest)

theorem readsScalar_string {text value : List Char} (h : ∀ rest, basicString (text ++ '"' :: rest) = some (value, rest)) :
    ReadsScalar ('"' :: text ++ ['"']) (.string value) where
  starts := ⟨'"', text ++ ['"'], rfl, by decide, by decide, by decide, by decide, by decide⟩
  reads rest _ := by
    rw [List.cons_append, List.cons_append, List.append_assoc, List.singleton_append, tomlScalar_string, h rest]
    rfl

theorem readsScalar_json {t : List Char} (h : t.any isDelete = false) : ReadsScalar (jsonQuote t) (.string t) :=
  readsScalar_string fun rest => by rw [basicString_json, h, if_neg Bool.false_ne_true]

theorem readsScalar_intText (n : Int) : ReadsScalar (intText n) (.integer n) where
  starts := by
    cases n with
    | ofNat n =>
      obtain ⟨c, digits, hcons⟩ := List.exists_cons_of_ne_nil (Nat.toDigits_ne_nil (n := n) (b := 10))
      have hdigit : c.isDigit = true := Nat.isDigit_of_mem_toDigits (by decide) (by decide) (hcons ▸ List.mem_cons_self)
      have hne : ∀ d : Char, d.isDigit = false → c ≠ d := by
        rintro d hd rfl
        rw [hdigit] at hd
        nomatch hd
      exact ⟨c, digits, hcons, hne _ rfl, hne _ rfl, hne _ rfl, hne _ rfl, hne _ rfl⟩
    | negSucc n => exact ⟨'-', _, rfl, by decide, by decide, by decide, by decide, by decide⟩
  reads _ h := tomlScalar_intText n h

/-- Such a text is a value where no bracket opens an array. -/
theorem ReadsScalar.value {text : List Char} {value : TomlValue} (h : ReadsScalar text value) {rest : List Char} (hrest : Ends rest) :
    tomlValue (text ++ rest) = some (value, rest) := by
  rw [← h.reads rest hrest]
  obtain ⟨c, t, rfl, -, -, -, hopen, -⟩ := h.starts
  rw [List.cons_append, tomlValue.eq_def]
  split
  · exact absurd (List.cons.inj ‹_›).1 hopen
  · rfl

section Arrays

variable {n : Nat} {space space' text rest : List Char} {value : TomlValue}

theorem skipLines_append (hspace : ∀ c ∈ space, c = ' ' ∨ c = '\n') {c : Char} (hc : c ≠ ' ' ∧ c ≠ '\t' ∧ c ≠ '\n') (t : List Char) :
    skipLines (space ++ c :: t) = c :: t := by
  have hall : ∀ c ∈ space, (decide (c = ' ') || decide (c = '\t') || decide (c = '\n')) = true := by
    intro c hc
    rcases hspace c hc with rfl | rfl <;> rfl
  rw [skipLines, List.dropWhile_append_of_pos hall]
  exact List.dropWhile_cons_of_neg (by simp [hc])

theorem arrayItems_nil (hspace : ∀ c ∈ space, c = ' ' ∨ c = '\n') : arrayItems (n + 1) (space ++ ']' :: rest) = some ([], rest) := by
  rw [arrayItems, skipLines_append hspace (by decide)]
  rfl

theorem arrayItems_cons (hspace : ∀ c ∈ space, c = ' ' ∨ c = '\n') (h : ReadsScalar text value) :
    arrayItems (n + 1) (space ++ (text ++ ',' :: rest)) = (arrayItems n rest).map (fun r => (value :: r.1, r.2)) := by
  have hread := h.reads (',' :: rest) (by simp [Ends])
  obtain ⟨c, t, rfl, hblank, htab, hline, -, hclose⟩ := h.starts
  rw [List.cons_append] at hread ⊢
  rw [arrayItems, skipLines_append hspace ⟨hblank, htab, hline⟩]
  split
  · exact absurd (List.cons.inj ‹_›).1 hclose
  · rw [hread]
    rfl

theorem arrayItems_last (hspace : ∀ c ∈ space, c = ' ' ∨ c = '\n') (h : ReadsScalar text value) :
    arrayItems (n + 1) (space ++ (text ++ ']' :: rest)) = some ([value], rest) := by
  have hread := h.reads (']' :: rest) (by simp [Ends])
  obtain ⟨c, t, rfl, hblank, htab, hline, -, hclose⟩ := h.starts
  rw [List.cons_append] at hread ⊢
  rw [arrayItems, skipLines_append hspace ⟨hblank, htab, hline⟩]
  split
  · exact absurd (List.cons.inj ‹_›).1 hclose
  · rw [hread]
    rfl

/-- Values with a comma behind each, and with the same space before each. -/
theorem arrayItems_lines (hspace : ∀ c ∈ space, c = ' ' ∨ c = '\n') (hspace' : ∀ c ∈ space', c = ' ' ∨ c = '\n')
    {items : List (List Char × TomlValue)} (h : ∀ item ∈ items, ReadsScalar item.1 item.2) :
    ∀ n, items.length < n →
      arrayItems n (items.flatMap (fun item => space ++ (item.1 ++ [','])) ++ (space' ++ ']' :: rest)) = some (items.map Prod.snd, rest) := by
  induction items with
  | nil =>
    intro n hn
    obtain ⟨n, rfl⟩ : ∃ m, n = m + 1 := ⟨n - 1, by simp at hn; omega⟩
    exact arrayItems_nil hspace'
  | cons item items ih =>
    intro n hn
    obtain ⟨n, rfl⟩ : ∃ m, n = m + 1 := ⟨n - 1, by simp at hn; omega⟩
    obtain ⟨hitem, hitems⟩ := List.forall_mem_cons.mp h
    have hprev := ih hitems n (Nat.lt_of_succ_lt_succ hn)
    rw [List.flatMap_cons, List.append_assoc, List.append_assoc, List.append_assoc, List.singleton_append, arrayItems_cons hspace hitem, hprev]
    rfl

/-- Values with a comma and a space between them. -/
theorem arrayItems_joined {items : List (List Char × TomlValue)} (h : ∀ item ∈ items, ReadsScalar item.1 item.2) :
    ∀ {space text value}, (∀ c ∈ space, c = ' ' ∨ c = '\n') → ReadsScalar text value → ∀ n, items.length < n →
      arrayItems n (space ++ (text ++ (items.flatMap (fun item => ", ".toList ++ item.1) ++ ']' :: rest))) =
        some (value :: items.map Prod.snd, rest) := by
  induction items with
  | nil =>
    intro space text value hspace htext n hn
    obtain ⟨n, rfl⟩ : ∃ m, n = m + 1 := ⟨n - 1, by simp at hn; omega⟩
    exact arrayItems_last hspace htext
  | cons item items ih =>
    intro space text value hspace htext n hn
    obtain ⟨n, rfl⟩ : ∃ m, n = m + 1 := ⟨n - 1, by simp at hn; omega⟩
    obtain ⟨hitem, hitems⟩ := List.forall_mem_cons.mp h
    have hblank : ∀ c ∈ [' '], c = ' ' ∨ c = '\n' := by simp
    have hprev := ih hitems hblank hitem n (Nat.lt_of_succ_lt_succ hn)
    have hfirst : arrayItems (n + 1)
        (space ++ (text ++ ',' :: ([' '] ++ (item.1 ++ (items.flatMap (fun item => ", ".toList ++ item.1) ++ ']' :: rest))))) = _ :=
      arrayItems_cons hspace htext
    rw [hprev] at hfirst
    simpa using hfirst

end Arrays

/-! ## Lines that were written -/

/-- A key that is written without quotes. -/
def IsBareKey (key : List Char) : Prop := key ≠ [] ∧ ∀ c ∈ key, isBareKeyChar c = true

instance (key : List Char) : Decidable (IsBareKey key) :=
  decidable_of_iff (key ≠ [] ∧ key.all isBareKeyChar = true) (and_congr_right fun _ => List.all_eq_true)

section Lines

variable {key text rest : List Char} {path : List (List Char)} {c : Char}

theorem keyPart_bare (h : IsBareKey key) (hc : isBareKeyChar c = false) : keyPart (key ++ c :: rest) = some (key, c :: rest) := by
  have htake : (key ++ c :: rest).takeWhile isBareKeyChar = key := by
    rw [List.takeWhile_append_of_pos h.2, List.takeWhile_cons_of_neg (by simp [hc]), List.append_nil]
  have hdrop : (key ++ c :: rest).dropWhile isBareKeyChar = c :: rest := by
    rw [List.dropWhile_append_of_pos h.2, List.dropWhile_cons_of_neg (by simp [hc])]
  obtain ⟨d, key, rfl⟩ := List.exists_cons_of_ne_nil h.1
  have hd : d ≠ '"' := by
    rintro rfl
    nomatch h.2 _ List.mem_cons_self
  rw [keyPart.eq_def]
  split
  · exact absurd (List.cons.inj ‹_›).1 hd
  · rw [htake, hdrop, if_neg h.1]

theorem skipSpace_cons (hc : c ≠ ' ' ∧ c ≠ '\t') (t : List Char) : skipSpace (c :: t) = c :: t :=
  List.dropWhile_cons_of_neg (by simp [hc])

/-- A key without quotes begins with neither a space nor a bracket. -/
theorem IsBareKey.starts (h : IsBareKey key) : ∃ c t, key = c :: t ∧ (c ≠ ' ' ∧ c ≠ '\t') ∧ c ≠ '[' := by
  obtain ⟨c, t, rfl⟩ := List.exists_cons_of_ne_nil h.1
  have hc := h.2 c List.mem_cons_self
  refine ⟨c, t, rfl, ⟨?_, ?_⟩, ?_⟩ <;>
    · rintro rfl
      nomatch hc

/-- The path of a header begins as its first key does. -/
theorem join_starts (hbare : ∀ key ∈ path, IsBareKey key) (hne : path ≠ []) :
    ∃ c t, joinWith '.' path = c :: t ∧ (c ≠ ' ' ∧ c ≠ '\t') ∧ c ≠ '[' := by
  obtain ⟨key, path, rfl⟩ := List.exists_cons_of_ne_nil hne
  obtain ⟨c, t, rfl, hc⟩ := (hbare key List.mem_cons_self).starts
  exact ⟨c, t ++ path.flatMap (fun t => '.' :: t), rfl, hc⟩

theorem keyPath_join (hbare : ∀ key ∈ path, IsBareKey key) (hne : path ≠ []) :
    ∀ n, path.length ≤ n → keyPath n (joinWith '.' path ++ ']' :: rest) = some (path, ']' :: rest) := by
  induction path with
  | nil => exact absurd rfl hne
  | cons key path ih =>
    intro n hn
    obtain ⟨n, rfl⟩ : ∃ m, n = m + 1 := ⟨n - 1, by simp at hn; omega⟩
    obtain ⟨hkey, hpath⟩ := List.forall_mem_cons.mp hbare
    cases path with
    | nil =>
      have hjoin : joinWith '.' [key] = key := by simp [joinWith]
      rw [hjoin, keyPath, keyPart_bare hkey (by decide)]
      rfl
    | cons key' path =>
      have hjoin : joinWith '.' (key :: key' :: path) ++ ']' :: rest = key ++ '.' :: (joinWith '.' (key' :: path) ++ ']' :: rest) := by
        simp [joinWith]
      have hprev := ih hpath (List.cons_ne_nil _ _) n (Nat.le_of_succ_le_succ hn)
      obtain ⟨c, t, hstart, hc, -⟩ := join_starts hpath (List.cons_ne_nil _ _)
      have hskip : skipSpace (joinWith '.' (key' :: path) ++ ']' :: rest) = joinWith '.' (key' :: path) ++ ']' :: rest := by
        rw [hstart, List.cons_append, skipSpace_cons hc]
      rw [hjoin, keyPath, keyPart_bare hkey (by decide)]
      have hdot : skipSpace ('.' :: (joinWith '.' (key' :: path) ++ ']' :: rest)) = '.' :: (joinWith '.' (key' :: path) ++ ']' :: rest) :=
        skipSpace_cons (by decide) _
      simp only [Option.bind_eq_bind, Option.bind_some, hdot, hskip, hprev, Option.map_some]

/-- A path is no longer than its text. -/
theorem length_le_join (hbare : ∀ key ∈ path, IsBareKey key) : path.length ≤ (joinWith '.' path).length := by
  cases path with
  | nil => exact Nat.zero_le _
  | cons key path =>
    have hkey : 0 < key.length := List.length_pos_iff.mpr (hbare key List.mem_cons_self).1
    have hrest : path.length ≤ (path.flatMap (fun t => '.' :: t)).length := by
      induction path with
      | nil => exact Nat.le_refl _
      | cons key' path ih =>
        have hprev := ih (fun k hk => hbare k (by
          rcases List.mem_cons.mp hk with rfl | hk
          · exact List.mem_cons_self
          · exact List.mem_cons_of_mem _ (List.mem_cons_of_mem _ hk)))
        simp only [List.flatMap_cons, List.length_append, List.length_cons]
        omega
    simp only [joinWith, List.length_append, List.length_cons]
    omega

theorem keyPath_header (hbare : ∀ key ∈ path, IsBareKey key) (hne : path ≠ []) :
    keyPath (joinWith '.' path ++ ']' :: rest).length (skipSpace (joinWith '.' path ++ ']' :: rest)) = some (path, ']' :: rest) := by
  obtain ⟨c, t, hstart, hc, -⟩ := join_starts hbare hne
  have hskip : skipSpace (joinWith '.' path ++ ']' :: rest) = joinWith '.' path ++ ']' :: rest := by
    rw [hstart, List.cons_append, skipSpace_cons hc]
  rw [hskip]
  refine keyPath_join hbare hne _ ((length_le_join hbare).trans ?_)
  rw [List.length_append]
  exact Nat.le_add_right _ _

theorem tomlLine_table (hbare : ∀ key ∈ path, IsBareKey key) (hne : path ≠ []) :
    tomlLine ('[' :: joinWith '.' path ++ ']' :: '\n' :: rest) = some (some (.table path), rest) := by
  have hskip : skipSpace ('[' :: (joinWith '.' path ++ ']' :: '\n' :: rest)) = '[' :: (joinWith '.' path ++ ']' :: '\n' :: rest) :=
    skipSpace_cons (by decide) _
  rw [List.cons_append, tomlLine.eq_def, hskip]
  split
  · rename_i heq
    obtain ⟨c, t, hstart, -, hopen⟩ := join_starts hbare hne
    rw [hstart, List.cons_append] at heq
    exact absurd (List.cons.inj (List.cons.inj heq).2).1 hopen
  · rename_i heq
    rw [← (List.cons.inj heq).2, keyPath_header hbare hne]
    rfl
  · rename_i heq
    exact absurd rfl (heq _)

theorem tomlLine_element (hbare : ∀ key ∈ path, IsBareKey key) (hne : path ≠ []) :
    tomlLine ('[' :: '[' :: joinWith '.' path ++ ']' :: ']' :: '\n' :: rest) = some (some (.element path), rest) := by
  have hskip : ∀ t, skipSpace ('[' :: t) = '[' :: t := skipSpace_cons (by decide)
  rw [List.cons_append, List.cons_append, tomlLine.eq_def, hskip]
  simp only [keyPath_header hbare hne]
  rfl

/-- A key as it is written: it begins with neither a space nor a bracket, and is read where a space ends it. -/
structure ReadsKey (text key : List Char) : Prop where
  starts : ∃ c t, text = c :: t ∧ (c ≠ ' ' ∧ c ≠ '\t') ∧ c ≠ '['
  reads : ∀ rest, keyPart (text ++ ' ' :: rest) = some (key, ' ' :: rest)

theorem readsKey_bare (h : IsBareKey key) : ReadsKey key key := ⟨h.starts, fun _ => keyPart_bare h (by decide)⟩

theorem readsKey_json (h : key.any isDelete = false) : ReadsKey (jsonQuote key) key where
  starts := ⟨'"', key.flatMap jsonEscape ++ ['"'], rfl, by decide, by decide⟩
  reads rest := by
    have hread := basicString_json key (' ' :: rest)
    rw [h, if_neg Bool.false_ne_true] at hread
    rw [← hread, jsonQuote, List.cons_append, List.cons_append, List.append_assoc, List.singleton_append]
    rfl

/-- The line of an item whose value is read, or is not. -/
theorem tomlLine_item {written : List Char} (hkey : ReadsKey written key) (hc : c ≠ ' ' ∧ c ≠ '\t') :
    tomlLine (written ++ " = ".toList ++ c :: text ++ rest) =
      (tomlValue (c :: text ++ rest)).bind (fun r => (lineEnd r.2).map (some (.item key r.1), ·)) := by
  have hline : written ++ " = ".toList ++ c :: text ++ rest = written ++ ' ' :: ('=' :: ' ' :: (c :: text ++ rest)) := by simp
  rw [hline]
  have hpart := hkey.reads ('=' :: ' ' :: (c :: text ++ rest))
  obtain ⟨d, t, rfl, hspace, hopen⟩ := hkey.starts
  rw [List.cons_append] at hpart ⊢
  rw [tomlLine.eq_def, skipSpace_cons hspace]
  split
  · exact absurd (List.cons.inj ‹_›).1 hopen
  · exact absurd (List.cons.inj ‹_›).1 hopen
  · have hskip : skipSpace (' ' :: (c :: text ++ rest)) = c :: text ++ rest := by
      rw [skipSpace, List.dropWhile_cons_of_pos rfl]
      exact skipSpace_cons hc _
    have hequals : skipSpace (' ' :: '=' :: ' ' :: (c :: text ++ rest)) = '=' :: ' ' :: (c :: text ++ rest) := by
      rw [skipSpace, List.dropWhile_cons_of_pos rfl]
      exact skipSpace_cons (by decide) _
    simp only [hpart, hequals, hskip]
    rfl

end Lines

theorem mapM_of_bad {α β : Type} (bad : α → Bool) (value : α → β) (items : List α) :
    items.mapM (fun item => if bad item then none else some (value item)) = if items.any bad then none else some (items.map value) := by
  induction items with
  | nil => rfl
  | cons item items ih =>
    rw [List.mapM_cons, ih, List.any_cons]
    cases bad item with
    | true => rfl
    | false =>
      rw [Bool.false_or]
      cases items.any bad <;> rfl

theorem length_le_lines {α : Type} (line : α → List Char) (items : List α) :
    items.length ≤ (items.flatMap (fun item => line item ++ ['\n'])).length := by
  induction items with
  | nil => exact Nat.le_refl _
  | cons item items ih =>
    simp only [List.flatMap_cons, List.length_append, List.length_cons, List.length_nil]
    omega

/-- The statements of lines that are read one by one, and of what stands behind them. -/
theorem tomlStatements_append {α : Type} {line : α → List Char} {outcome : α → Option (Option TomlStatement)} {items : List α} {rest : List Char}
    (h : ∀ item ∈ items, ∀ rest, tomlLine (line item ++ '\n' :: rest) = (outcome item).map (·, rest)) (n : Nat) :
    tomlStatements (items.length + n) (items.flatMap (fun item => line item ++ ['\n']) ++ rest) =
      (items.mapM outcome).bind (fun statements => (tomlStatements n rest).map (statements.flatMap Option.toList ++ ·)) := by
  induction items with
  | nil => cases hrest : tomlStatements n rest <;> simp [hrest]
  | cons item items ih =>
    obtain ⟨hitem, hitems⟩ := List.forall_mem_cons.mp h
    have hread := hitem (items.flatMap (fun item => line item ++ ['\n']) ++ rest)
    have hprev := ih hitems
    have hline : (item :: items).flatMap (fun item => line item ++ ['\n']) ++ rest =
        line item ++ '\n' :: (items.flatMap (fun item => line item ++ ['\n']) ++ rest) := by simp
    obtain ⟨c, t, hcons⟩ : ∃ c t, line item ++ '\n' :: (items.flatMap (fun item => line item ++ ['\n']) ++ rest) = c :: t :=
      List.exists_cons_of_ne_nil (by simp)
    rw [hline, List.length_cons, Nat.add_right_comm, List.mapM_cons]
    rw [hcons] at hread ⊢
    rw [tomlStatements, hread]
    cases outcome item with
    | none => rfl
    | some statement =>
      simp only [Option.map_some, Option.bind_eq_bind, Option.bind_some, hprev]
      cases items.mapM outcome with
      | none => rfl
      | some statements => cases tomlStatements n rest <;> simp

/-- The statements of lines that are read one by one. -/
theorem tomlStatements_lines {α : Type} {line : α → List Char} {outcome : α → Option (Option TomlStatement)} {items : List α}
    (h : ∀ item ∈ items, ∀ rest, tomlLine (line item ++ '\n' :: rest) = (outcome item).map (·, rest)) (n : Nat) (hn : items.length ≤ n) :
    tomlStatements n (items.flatMap (fun item => line item ++ ['\n'])) = (items.mapM outcome).map (·.flatMap Option.toList) := by
  obtain ⟨m, rfl⟩ := Nat.exists_eq_add_of_le hn
  have happend := @tomlStatements_append α line outcome items [] h m
  rw [List.append_nil] at happend
  rw [happend, tomlStatements.eq_def]
  cases items.mapM outcome <;> simp

/-- A document of lines that are read one by one, unless one of them is not read. -/
theorem toml_lines {α : Type} {line : α → List Char} {bad : α → Bool} {statement : α → Option TomlStatement} {items : List α}
    (h : ∀ item ∈ items, ∀ rest,
      tomlLine (line item ++ '\n' :: rest) = (if bad item then none else some (statement item)).map (·, rest)) :
    toml (items.flatMap (fun item => line item ++ ['\n'])) =
      if items.any bad then none else ((items.filterMap statement).foldlM TomlState.read {}).map TomlState.items := by
  have hstatements : ∀ items : List α, (items.map statement).flatMap Option.toList = items.filterMap statement := by
    intro items
    induction items with
    | nil => rfl
    | cons item items ih =>
      rw [List.map_cons, List.flatMap_cons, ih, List.filterMap_cons]
      cases statement item <;> rfl
  rw [toml, tomlStatements_lines h _ (length_le_lines line items), mapM_of_bad]
  split
  · rfl
  · rw [Option.map_some, Option.bind_eq_bind, Option.bind_some, hstatements]
    cases (items.filterMap statement).foldlM TomlState.read {} <;> rfl

/-! ## Documents that were written -/

/-- A value as it was written: a string of JSON, an integer, a truth value, or another text, which is not read or is read as a value. -/
inductive WrittenValue where
  | string (value : List Char)
  | integer (value : Int)
  | boolean (value : Bool)
  | other (text : List Char) (unread : Bool) (value : TomlValue)

def WrittenValue.toText : WrittenValue → List Char
  | .string value => jsonQuote value
  | .integer value => intText value
  | .boolean value => if value then "true".toList else "false".toList
  | .other text _ _ => text

def WrittenValue.unread : WrittenValue → Bool
  | .string value => value.any isDelete
  | .other _ unread _ => unread
  | _ => false

def WrittenValue.value : WrittenValue → TomlValue
  | .string value => .string value
  | .integer value => .integer value
  | .boolean value => .boolean value
  | .other _ _ value => value

/-- What is said of another text is so. -/
def WrittenValue.Sound : WrittenValue → Prop
  | .other text unread value =>
    (∃ c t, text = c :: t ∧ c ≠ ' ' ∧ c ≠ '\t') ∧
      ∀ rest, tomlValue (text ++ '\n' :: rest) = (if unread then none else some value).map (·, '\n' :: rest)
  | _ => True

theorem WrittenValue.starts {written : WrittenValue} (h : written.Sound) : ∃ c t, written.toText = c :: t ∧ c ≠ ' ' ∧ c ≠ '\t' := by
  cases written with
  | string value => exact ⟨'"', _, rfl, by decide, by decide⟩
  | integer value =>
    obtain ⟨c, t, hcons, hspace, htab, -⟩ := (readsScalar_intText value).starts
    exact ⟨c, t, hcons, hspace, htab⟩
  | boolean value => cases value <;> exact ⟨_, _, rfl, by decide, by decide⟩
  | other text unread value => exact h.1

theorem WrittenValue.reads {written : WrittenValue} (h : written.Sound) (rest : List Char) :
    tomlValue (written.toText ++ '\n' :: rest) = (if written.unread then none else some written.value).map (·, '\n' :: rest) := by
  have hends : Ends ('\n' :: rest) := by simp [Ends]
  cases written with
  | string value =>
    have hread : tomlValue (jsonQuote value ++ '\n' :: rest) =
        (basicString (value.flatMap jsonEscape ++ '"' :: '\n' :: rest)).map (fun r => (.string r.1, r.2)) := by
      rw [jsonQuote, List.cons_append, List.cons_append, List.append_assoc, List.singleton_append]
      rfl
    rw [WrittenValue.toText, WrittenValue.unread, WrittenValue.value, hread, basicString_json]
    split <;> rfl
  | integer value => exact (readsScalar_intText value).value hends
  | boolean value => cases value <;> rfl
  | other text unread value => exact h.2 rest

inductive WrittenLine where
  | blank
  | table (path : List (List Char))
  | element (path : List (List Char))
  | item (key : List Char) (value : WrittenValue)
  | quotedItem (key : List Char) (value : WrittenValue)

def WrittenLine.toText : WrittenLine → List Char
  | .blank => []
  | .table path => '[' :: joinWith '.' path ++ [']']
  | .element path => '[' :: '[' :: joinWith '.' path ++ [']', ']']
  | .item key value => key ++ " = ".toList ++ value.toText
  | .quotedItem key value => jsonQuote key ++ " = ".toList ++ value.toText

def WrittenLine.unread : WrittenLine → Bool
  | .item _ value => value.unread
  | .quotedItem _ value => value.unread
  | _ => false

def WrittenLine.statement : WrittenLine → Option TomlStatement
  | .blank => none
  | .table path => some (.table path)
  | .element path => some (.element path)
  | .item key value => some (.item key value.value)
  | .quotedItem key value => some (.item key value.value)

/-- The keys can be written as they are. -/
def WrittenLine.Sound : WrittenLine → Prop
  | .blank => True
  | .table path => path ≠ [] ∧ ∀ key ∈ path, IsBareKey key
  | .element path => path ≠ [] ∧ ∀ key ∈ path, IsBareKey key
  | .item key value => IsBareKey key ∧ value.Sound
  | .quotedItem key value => key.any isDelete = false ∧ value.Sound

/-- An item is read as it was written. -/
theorem WrittenValue.reads_item {value : WrittenValue} {written key : List Char} (h : value.Sound) (hkey : ReadsKey written key) (rest : List Char) :
    tomlLine (written ++ " = ".toList ++ value.toText ++ '\n' :: rest) =
      (if value.unread then none else some (some (.item key value.value))).map (·, rest) := by
  have hread := WrittenValue.reads h rest
  obtain ⟨c, t, hcons, hc⟩ := WrittenValue.starts h
  rw [hcons] at hread ⊢
  rw [tomlLine_item hkey hc, hread]
  split <;> rfl

/-- A line is read as its statement, or is not read. -/
theorem WrittenLine.reads {line : WrittenLine} (h : line.Sound) (rest : List Char) :
    tomlLine (line.toText ++ '\n' :: rest) = (if line.unread then none else some line.statement).map (·, rest) := by
  cases line with
  | blank => rfl
  | table path =>
    rw [WrittenLine.toText, List.append_assoc]
    exact tomlLine_table h.2 h.1
  | element path =>
    rw [WrittenLine.toText, List.append_assoc]
    exact tomlLine_element h.2 h.1
  | item key value => exact WrittenValue.reads_item h.2 (readsKey_bare h.1) rest
  | quotedItem key value => exact WrittenValue.reads_item h.2 (readsKey_json h.1) rest

/-- A document is read as it was written, unless one of its lines is not read. -/
theorem toml_written {lines : List WrittenLine} (h : ∀ line ∈ lines, line.Sound) :
    toml (lines.flatMap (fun line => line.toText ++ ['\n'])) =
      if lines.any WrittenLine.unread then none
      else ((lines.filterMap WrittenLine.statement).foldlM TomlState.read {}).map TomlState.items :=
  toml_lines fun line hline => WrittenLine.reads (h line hline)

/-! ## Documents of tables with one key -/

section Tables

variable {name : List Char} {front done : TomlTable} {declared : List (List (List Char))}

/-- Items in front of all headers are those of the document. -/
theorem foldlM_root (items : TomlTable) :
    ∀ done : TomlTable, ((done ++ items).map Prod.fst).Nodup →
      (items.map (fun item => TomlStatement.item item.1 item.2)).foldlM TomlState.read { items := done, declared } =
        some { items := done ++ items, declared } := by
  induction items with
  | nil =>
    intro done _
    rw [List.append_nil]
    rfl
  | cons item items ih =>
    intro done hkeys
    have hnew : Dict.get done item.1 = none := by
      rw [Dict.get_eq_none_iff]
      intro hmem
      rw [List.map_append, List.nodup_append] at hkeys
      exact hkeys.2.2 _ hmem _ List.mem_cons_self rfl
    have hread : TomlState.read { items := done, declared } (.item item.1 item.2) = some { items := done ++ [item], declared } := by
      simp only [TomlState.read, changeTable, addItem, hnew, Dict.set_of_get_none _ hnew, Option.isSome_none, Bool.false_eq_true, if_false,
        Option.map_some]
    rw [List.map_cons, List.foldlM_cons, hread, Option.bind_eq_bind, Option.bind_some, ih (done ++ [item]) (by simpa using hkeys)]
    simp

/-- Items go to the end of the table of the last header. -/
theorem foldlM_items (hname : Dict.get front name = none) (items : TomlTable) :
    ∀ done : TomlTable, ((done ++ items).map Prod.fst).Nodup →
      (items.map (fun item => TomlStatement.item item.1 item.2)).foldlM TomlState.read
          { items := front ++ [(name, .table done)], header := [name], declared } =
        some { items := front ++ [(name, .table (done ++ items))], header := [name], declared } := by
  induction items with
  | nil =>
    intro done _
    rw [List.append_nil]
    rfl
  | cons item items ih =>
    intro done hkeys
    have hlast : Dict.get (front ++ [(name, TomlValue.table done)]) name = some (.table done) := by
      rw [Dict.get_append, hname, Dict.get_cons, if_pos rfl]
      rfl
    have hnew : Dict.get done item.1 = none := by
      rw [Dict.get_eq_none_iff]
      intro hmem
      rw [List.map_append, List.nodup_append] at hkeys
      exact hkeys.2.2 _ hmem _ List.mem_cons_self rfl
    have hset : Dict.set (front ++ [(name, TomlValue.table done)]) name (.table (done ++ [item])) =
        front ++ [(name, .table (done ++ [item]))] := by
      rw [Dict.set_append _ _ hname, Dict.set, if_pos rfl]
    have hread : TomlState.read { items := front ++ [(name, .table done)], header := [name], declared } (.item item.1 item.2) =
        some { items := front ++ [(name, .table (done ++ [item]))], header := [name], declared } := by
      simp only [TomlState.read, changeTable, hlast, addItem, hnew, Dict.set_of_get_none _ hnew, Option.isSome_none, Bool.false_eq_true,
        if_false, Option.map_some, hset]
    rw [List.map_cons, List.foldlM_cons, hread, Option.bind_eq_bind, Option.bind_some, ih (done ++ [item]) (by simpa using hkeys)]
    simp

/-- Tables with their items are read as they are written. -/
theorem foldlM_tables (tables : List (List Char × TomlTable)) (hitems : ∀ table ∈ tables, (table.2.map Prod.fst).Nodup) :
    ∀ state : TomlState, (state.items.map Prod.fst ++ tables.map Prod.fst).Nodup → (∀ table ∈ tables, [table.1] ∉ state.declared) →
      ∃ header declared,
        (tables.flatMap (fun table => .table [table.1] :: table.2.map (fun item => .item item.1 item.2))).foldlM TomlState.read state =
          some { items := state.items ++ tables.map (fun table => (table.1, .table table.2)), header, declared } := by
  induction tables with
  | nil =>
    intro state _ _
    exact ⟨state.header, state.declared, by simp⟩
  | cons table tables ih =>
    intro state hkeys hdeclared
    obtain ⟨htable, htables⟩ := List.forall_mem_cons.mp hitems
    have hnew : Dict.get state.items table.1 = none := by
      rw [Dict.get_eq_none_iff]
      intro hmem
      rw [List.nodup_append] at hkeys
      exact hkeys.2.2 _ hmem _ List.mem_cons_self rfl
    have hread : TomlState.read state (.table [table.1]) =
        some { items := state.items ++ [(table.1, .table [])], header := [table.1], declared := [table.1] :: state.declared } := by
      simp only [TomlState.read, if_neg (hdeclared table List.mem_cons_self), changeTable, hnew, Option.map_some, Dict.set_of_get_none _ hnew]
    obtain ⟨header, declared, hrest⟩ := ih htables
      { items := state.items ++ [(table.1, .table table.2)], header := [table.1], declared := [table.1] :: state.declared }
      (by simpa using hkeys) (by
        intro other hother hmem
        rcases List.mem_cons.mp hmem with heq | hmem
        · rw [List.nodup_append] at hkeys
          have hne := (List.nodup_cons.mp hkeys.2.1).1
          exact hne ((List.cons.inj heq).1 ▸ List.mem_map_of_mem hother)
        · exact hdeclared other (List.mem_cons_of_mem _ hother) hmem)
    refine ⟨header, declared, ?_⟩
    rw [List.flatMap_cons, List.cons_append, List.foldlM_cons, hread, Option.bind_eq_bind, Option.bind_some, List.foldlM_append,
      foldlM_items hnew table.2 [] (by simpa using htable), Option.bind_eq_bind, Option.bind_some]
    simpa using hrest

end Tables

/-- The lines of items in front of tables, with a blank one before each table. -/
def plainLines (root : List (List Char × WrittenValue)) (tables : List (List Char × List (List Char × WrittenValue))) : List WrittenLine :=
  root.map (fun item => .item item.1 item.2) ++
    tables.flatMap (fun table => .blank :: .table [table.1] :: table.2.map (fun item => .item item.1 item.2))

/-- The values of items. -/
def valuesOf (items : List (List Char × WrittenValue)) : TomlTable := items.map (fun item => (item.1, item.2.value))

section Plain

variable {root : List (List Char × WrittenValue)} {tables : List (List Char × List (List Char × WrittenValue))}

theorem plainLines_sound (hroot : ∀ item ∈ root, IsBareKey item.1 ∧ item.2.Sound)
    (htables : ∀ table ∈ tables, IsBareKey table.1 ∧ ∀ item ∈ table.2, IsBareKey item.1 ∧ item.2.Sound) :
    ∀ line ∈ plainLines root tables, line.Sound := by
  intro line hline
  rcases List.mem_append.mp hline with hline | hline
  · obtain ⟨item, hitem, rfl⟩ := List.mem_map.mp hline
    exact hroot item hitem
  · obtain ⟨table, htable, hline⟩ := List.mem_flatMap.mp hline
    rcases List.mem_cons.mp hline with rfl | hline
    · trivial
    rcases List.mem_cons.mp hline with rfl | hline
    · exact ⟨List.cons_ne_nil _ _, by simpa using (htables table htable).1⟩
    · obtain ⟨item, hitem, rfl⟩ := List.mem_map.mp hline
      exact (htables table htable).2 item hitem

theorem statements_plain :
    (plainLines root tables).filterMap WrittenLine.statement =
      (valuesOf root).map (fun item => .item item.1 item.2) ++
        (tables.map (fun table => (table.1, valuesOf table.2))).flatMap
          (fun table => .table [table.1] :: table.2.map (fun item => .item item.1 item.2)) := by
  have hitems : ∀ items : List (List Char × WrittenValue), (items.map (fun item => WrittenLine.item item.1 item.2)).filterMap WrittenLine.statement =
      (valuesOf items).map (fun item => .item item.1 item.2) := by
    intro items
    rw [List.filterMap_map, valuesOf, List.map_map]
    exact congrFun List.filterMap_eq_map items
  rw [plainLines, List.filterMap_append, hitems, List.filterMap_flatMap, List.flatMap_map]
  congr 2
  funext table
  have htable : (WrittenLine.blank :: WrittenLine.table [table.1] :: table.2.map (fun item => WrittenLine.item item.1 item.2)).filterMap
      WrittenLine.statement = .table [table.1] :: (table.2.map (fun item => WrittenLine.item item.1 item.2)).filterMap WrittenLine.statement := rfl
  rw [htable, hitems]

theorem keys_valuesOf (items : List (List Char × WrittenValue)) : (valuesOf items).map Prod.fst = items.map Prod.fst := by
  rw [valuesOf, List.map_map]
  rfl

/-- A document of items and tables is read as it was written, unless one of its values is not read. -/
theorem toml_plain (hroot : ∀ item ∈ root, IsBareKey item.1 ∧ item.2.Sound)
    (htables : ∀ table ∈ tables, IsBareKey table.1 ∧ ∀ item ∈ table.2, IsBareKey item.1 ∧ item.2.Sound)
    (hnames : (root.map Prod.fst ++ tables.map Prod.fst).Nodup) (hkeys : ∀ table ∈ tables, (table.2.map Prod.fst).Nodup) :
    toml ((plainLines root tables).flatMap (fun line => line.toText ++ ['\n'])) =
      if (plainLines root tables).any WrittenLine.unread then none
      else some (valuesOf root ++ tables.map (fun table => (table.1, .table (valuesOf table.2)))) := by
  have hfirst : ((valuesOf root).map (fun item => TomlStatement.item item.1 item.2)).foldlM TomlState.read {} =
      some { items := valuesOf root, declared := [] } := by
    refine foldlM_root (valuesOf root) [] ?_
    rw [List.nil_append, keys_valuesOf]
    exact (List.nodup_append.mp hnames).1
  obtain ⟨header, declared, hrest⟩ := foldlM_tables (tables.map (fun table => (table.1, valuesOf table.2)))
    (by
      intro table htable
      obtain ⟨written, hwritten, rfl⟩ := List.mem_map.mp htable
      rw [keys_valuesOf]
      exact hkeys written hwritten)
    { items := valuesOf root, declared := [] }
    (by
      rw [keys_valuesOf, List.map_map]
      exact hnames)
    fun _ _ => List.not_mem_nil
  rw [toml_written (plainLines_sound hroot htables), statements_plain, List.foldlM_append, hfirst, Option.bind_eq_bind, Option.bind_some, hrest,
    Option.map_some, List.map_map]
  rfl

end Plain

/-! ## Lines that end in two characters, and a last line that does not end -/

/-- A text in which each line ends in one character. -/
def normalizeNewlines : List Char → List Char
  | [] => []
  | c :: t => if c = '\r' ∧ t.head? = some '\n' then normalizeNewlines t else c :: normalizeNewlines t

/-- The items of a document, the lines of which can end in a carriage return and a line feed too. -/
def tomlDocument (text : List Char) : Option TomlTable := toml (normalizeNewlines text)

example : (tomlDocument "a = 1\r\nb = 2".toList).map List.length = some 2 := by decide +kernel
example : (tomlDocument "a = 1\rb = 2".toList).isSome = false := by decide +kernel

theorem normalizeNewlines_append {t : List Char} (h : '\r' ∉ t) (rest : List Char) :
    normalizeNewlines (t ++ rest) = t ++ normalizeNewlines rest := by
  induction t with
  | nil => rfl
  | cons c t ih =>
    obtain ⟨hc, ht⟩ := not_or.mp (mt List.mem_cons.mpr h)
    rw [List.cons_append, normalizeNewlines, if_neg fun heq => hc heq.1.symm, ih ht]
    rfl

/-- Lines without carriage returns. -/
theorem normalizeNewlines_lines {α : Type} {line : α → List Char} {items : List α} {last : List Char} (hitems : ∀ item ∈ items, '\r' ∉ line item)
    (hlast : '\r' ∉ last) :
    normalizeNewlines (items.flatMap (fun item => line item ++ ['\r', '\n']) ++ last) = items.flatMap (fun item => line item ++ ['\n']) ++ last := by
  induction items with
  | nil =>
    have hend := normalizeNewlines_append hlast []
    rwa [List.append_nil, normalizeNewlines, List.append_nil] at hend
  | cons item items ih =>
    obtain ⟨hitem, hrest⟩ := List.forall_mem_cons.mp hitems
    have hreturn : ∀ t, normalizeNewlines ('\r' :: '\n' :: t) = '\n' :: normalizeNewlines t := by
      intro t
      rw [normalizeNewlines, if_pos ⟨rfl, rfl⟩, normalizeNewlines, if_neg fun heq => absurd heq.1 (by decide)]
    simp only [List.flatMap_cons, List.append_assoc, List.cons_append, List.nil_append]
    rw [normalizeNewlines_append hitem, hreturn, ih hrest]

/-- A document is read as if its last line ended. -/
theorem toml_unended {lines : List WrittenLine} {last : WrittenLine} (hlines : ∀ line ∈ lines, line.Sound) (hlast : last.Sound)
    (hread : last.unread = false) (hne : last.toText ≠ []) (hend : tomlLine last.toText = some (last.statement, [])) :
    toml (lines.flatMap (fun line => line.toText ++ ['\n']) ++ last.toText) =
      toml ((lines ++ [last]).flatMap (fun line => line.toText ++ ['\n'])) := by
  let outcome := fun line : WrittenLine => if line.unread then none else some line.statement
  have hreads : ∀ line ∈ lines, ∀ rest, tomlLine (line.toText ++ '\n' :: rest) = (outcome line).map (·, rest) :=
    fun line hline => WrittenLine.reads (hlines line hline)
  have hone : ∀ rest n, rest ≠ [] → tomlLine rest = some (last.statement, []) → tomlStatements (n + 1) rest = some last.statement.toList := by
    intro rest n hne hline
    obtain ⟨c, t, rfl⟩ := List.exists_cons_of_ne_nil hne
    rw [tomlStatements, hline]
    simp [tomlStatements]
  have hended : tomlLine (last.toText ++ ['\n']) = some (last.statement, []) := by
    rw [WrittenLine.reads hlast [], hread]
    rfl
  have hlength := length_le_lines WrittenLine.toText lines
  have htext : ∀ rest : List Char, rest ≠ [] → tomlLine rest = some (last.statement, []) →
      tomlStatements (lines.flatMap (fun line => line.toText ++ ['\n']) ++ rest).length (lines.flatMap (fun line => line.toText ++ ['\n']) ++ rest) =
        (lines.mapM outcome).map (·.flatMap Option.toList ++ last.statement.toList) := by
    intro rest hne hline
    have hpos := List.length_pos_iff.mpr hne
    obtain ⟨n, hn⟩ : ∃ n, (lines.flatMap (fun line => line.toText ++ ['\n']) ++ rest).length = lines.length + (n + 1) :=
      ⟨(lines.flatMap (fun line => line.toText ++ ['\n']) ++ rest).length - lines.length - 1, by rw [List.length_append]; omega⟩
    rw [hn, tomlStatements_append hreads, hone rest n hne hline]
    cases lines.mapM outcome <;> rfl
  rw [List.flatMap_append, List.flatMap_singleton, toml, toml, htext _ hne hend, htext _ (by simp) hended]

end Scbl.Lib
