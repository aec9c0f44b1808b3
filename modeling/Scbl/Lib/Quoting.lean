import Scbl.Lib.Dict
import Scbl.Lib.Text

/-!
# Quoted texts

Texts in double quotes as JSON writes them and as TOML reads them, and files that assign quoted texts to the names of environment
variables.
-/

namespace Scbl.Lib

/-! ## Strings of JSON and TOML -/

/-- How a character stands in a JSON string that may hold characters beyond ASCII. -/
def jsonEscape (c : Char) : List Char :=
  if c = '"' then "\\\"".toList
  else if c = '\\' then "\\\\".toList
  else if c = '\n' then "\\n".toList
  else if c = '\r' then "\\r".toList
  else if c = '\t' then "\\t".toList
  else if c.toNat = 8 then "\\b".toList
  else if c.toNat = 12 then "\\f".toList
  else if c.toNat < 0x20 then "\\u00".toList ++ [Nat.digitChar (c.toNat / 16), Nat.digitChar (c.toNat % 16)]
  else [c]

def jsonQuote (t : List Char) : List Char := '"' :: t.flatMap jsonEscape ++ ['"']

/-- A control character other than the tabulator. -/
def isControl (c : Char) : Bool := (c.toNat < 0x20 || c.toNat = 0x7F) && c ≠ '\t'

/-- What a character behind a backslash stands for in a basic string of TOML. -/
def tomlEscape (c : Char) : Option Char :=
  if c = '"' || c = '\\' then some c
  else if c = 'n' then some '\n'
  else if c = 'r' then some '\r'
  else if c = 't' then some '\t'
  else if c = 'b' then some (Char.ofNat 8)
  else if c = 'f' then some (Char.ofNat 12)
  else none

/-- The value of hexadecimal digits, if it is a character. -/
def unicodeEscape (digits : List Char) : Option Char := do
  let values ← digits.mapM (fun c => ("0123456789abcdef".toList.idxOf? c).or ("0123456789ABCDEF".toList.idxOf? c))
  let n := values.foldl (fun n d => n * 16 + d) 0
  if n.isValidChar then some (Char.ofNat n) else none

/-- The rest of a basic string of TOML behind its opening quote, up to the closing quote at the end. -/
def readBasicString : List Char → Option (List Char)
  | [] => none
  | c :: t =>
    if c = '"' then if t = [] then some [] else none
    else if c = '\\' then
      match t with
      | 'u' :: a :: b :: c :: d :: t => (unicodeEscape [a, b, c, d]).bind (fun first => (readBasicString t).map (first :: ·))
      | c :: t => (tomlEscape c).bind (fun first => (readBasicString t).map (first :: ·))
      | [] => none
    else if isControl c then none
    else (readBasicString t).map (c :: ·)

/-- The string that a key is set to in a file of TOML, where no other table has the key. -/
def tomlString (key text : List Char) : Option (List Char) :=
  match ((text.splitOn '\n').filter ((key ++ " = \"".toList).isPrefixOf ·)).head? with
  | some line => readBasicString (line.drop (key.length + 4))
  | none => none

/-- A text without control characters is read as it was written. -/
theorem readBasicString_jsonQuote {t : List Char} (h : ∀ c ∈ t, isControl c = false) :
    readBasicString (t.flatMap jsonEscape ++ ['"']) = some t := by
  induction t with
  | nil => rfl
  | cons c t ih =>
    obtain ⟨hc, ht⟩ := List.forall_mem_cons.mp h
    rw [List.flatMap_cons, List.append_assoc]
    by_cases hquote : c = '"'
    · subst hquote
      simp [jsonEscape, readBasicString, tomlEscape, ih ht]
    by_cases hslash : c = '\\'
    · subst hslash
      simp [jsonEscape, readBasicString, tomlEscape, ih ht]
    by_cases htab : c = '\t'
    · subst htab
      simp [jsonEscape, readBasicString, tomlEscape, ih ht]
    have hplain : ¬ c.toNat < 0x20 := by
      intro hlt
      simp [isControl, hlt, htab] at hc
    have hescape : jsonEscape c = [c] := by
      have hline : c ≠ '\n' := fun heq => hplain (heq ▸ (by decide))
      have hreturn : c ≠ '\r' := fun heq => hplain (heq ▸ (by decide))
      rw [jsonEscape, if_neg hquote, if_neg hslash, if_neg hline, if_neg hreturn, if_neg htab, if_neg (by omega), if_neg (by omega),
        if_neg hplain]
    rw [hescape, List.singleton_append, readBasicString.eq_def]
    simp [hquote, hslash, hc, ih ht]

/-- A quoted text is on one line. -/
theorem newline_not_mem_jsonQuote (t : List Char) : '\n' ∉ jsonQuote t := by
  have hescape : ∀ c, '\n' ∉ jsonEscape c := by
    intro c
    unfold jsonEscape
    repeat' split
    any_goals decide
    · rename_i hlt
      have hall : ∀ n : Fin 0x20, '\n' ∉ "\\u00".toList ++ [Nat.digitChar (n.val / 16), Nat.digitChar (n.val % 16)] := by decide
      exact hall ⟨c.toNat, hlt⟩
    · rename_i hne _ _ _ _ _
      exact fun hmem => hne (List.mem_singleton.mp hmem).symm
  intro hmem
  rw [jsonQuote, List.mem_append, List.mem_cons, List.mem_flatMap] at hmem
  rcases hmem with (heq | ⟨c, -, hc⟩) | heq
  · exact absurd heq (by decide)
  · exact hescape c hc
  · exact absurd heq (by decide)

/-! ## Files of environment variables -/

/-- How a character stands in the quoted value of a variable. -/
def environmentEscape (c : Char) : List Char := if c = '\\' || c = '"' then ['\\', c] else [c]

/-- The rest of a quoted value behind its opening quote, up to the closing quote at the end. -/
def readQuotedValue : List Char → Option (List Char)
  | [] => none
  | c :: t =>
    if c = '"' then if t = [] then some [] else none
    else if c = '\\' then
      match t with
      | d :: t => (readQuotedValue t).map (fun rest => if ['"', '\\', '`', '$'].contains d then d :: rest else '\\' :: d :: rest)
      | [] => none
    else (readQuotedValue t).map (c :: ·)

/-- The assignment that a line is. -/
def readAssignment (line : List Char) : Option (List Char × List Char) := do
  let (key, value) ← splitOnce "=".toList line
  match value with
  | '"' :: quoted => (readQuotedValue quoted).map (key, ·)
  | _ => none

/-- The variables that a file sets; a value with a control character is rejected. -/
def readEnvironment (text : List Char) : List (List Char × List Char) :=
  ((text.splitOn '\n').filterMap readAssignment).filter (fun item => !item.2.any isControl)

/-- The line that sets a variable. -/
def assignmentLine (item : List Char × List Char) : List Char := item.1 ++ "=\"".toList ++ item.2.flatMap environmentEscape ++ "\"".toList

theorem readQuotedValue_escape (t : List Char) : readQuotedValue (t.flatMap environmentEscape ++ ['"']) = some t := by
  induction t with
  | nil => rfl
  | cons c t ih =>
    rw [List.flatMap_cons, List.append_assoc]
    by_cases hquote : c = '"'
    · subst hquote
      simp [environmentEscape, readQuotedValue, ih]
    by_cases hslash : c = '\\'
    · subst hslash
      simp [environmentEscape, readQuotedValue, ih]
    have hescape : environmentEscape c = [c] := by simp [environmentEscape, hquote, hslash]
    rw [hescape, List.singleton_append, readQuotedValue.eq_def]
    simp [hquote, hslash, ih]

theorem readAssignment_line {item : List Char × List Char} (h : '=' ∉ item.1) : readAssignment (assignmentLine item) = some item := by
  have hsplit : splitOnce "=".toList (assignmentLine item) = some (item.1, '"' :: (item.2.flatMap environmentEscape ++ ['"'])) := by
    have h := splitOnce_append [] ('"' :: (item.2.flatMap environmentEscape ++ ['"'])) h
    simpa [assignmentLine] using h
  rw [readAssignment, hsplit]
  simp [readQuotedValue_escape]

/-- Lines are found in the text they were written to. -/
theorem splitOn_lines {α : Type} {line : α → List Char} {items : List α} (h : ∀ item ∈ items, '\n' ∉ line item) :
    (items.flatMap (fun item => line item ++ ['\n'])).splitOn '\n' = items.map line ++ [[]] := by
  induction items with
  | nil => rfl
  | cons item items ih =>
    obtain ⟨hitem, hitems⟩ := List.forall_mem_cons.mp h
    rw [List.flatMap_cons, List.append_assoc, List.singleton_append, List.splitOn_append_cons_self_of_not_mem hitem, ih hitems]
    rfl

/-- A file that was written line by line sets what was written, as far as it is not rejected. -/
theorem readEnvironment_lines {items : List (List Char × List Char)}
    (h : ∀ item ∈ items, '=' ∉ item.1 ∧ '\n' ∉ item.1 ∧ '\n' ∉ item.2) :
    readEnvironment (items.flatMap (fun item => assignmentLine item ++ ['\n'])) = items.filter (fun item => !item.2.any isControl) := by
  have hline : ∀ item ∈ items, '\n' ∉ assignmentLine item := by
    intro item hitem hmem
    obtain ⟨-, hkey, hvalue⟩ := h item hitem
    simp only [assignmentLine, List.mem_append, List.mem_flatMap] at hmem
    rcases hmem with ((hmem | hmem) | ⟨c, hc, hmem⟩) | hmem
    · exact hkey hmem
    · exact absurd hmem (by decide)
    · have hne : c ≠ '\n' := fun heq => hvalue (heq ▸ hc)
      unfold environmentEscape at hmem
      split at hmem
      · rcases List.mem_cons.mp hmem with heq | hmem
        · exact absurd heq (by decide)
        · exact hne (List.mem_singleton.mp hmem).symm
      · exact hne (List.mem_singleton.mp hmem).symm
    · exact absurd hmem (by decide)
  have hread : ∀ items : List (List Char × List Char), (∀ item ∈ items, '=' ∉ item.1) →
      (items.map assignmentLine).filterMap readAssignment = items := by
    intro items hkeys
    rw [List.filterMap_map]
    conv => rhs; rw [← List.filterMap_some (l := items)]
    refine List.filterMap_congr fun item hitem => readAssignment_line (hkeys item hitem)
  have hnone : readAssignment [] = none := by decide
  rw [readEnvironment, splitOn_lines hline, List.filterMap_append, hread items fun item hitem => (h item hitem).1,
    List.filterMap_cons_none hnone, List.filterMap_nil, List.append_nil]

end Scbl.Lib
