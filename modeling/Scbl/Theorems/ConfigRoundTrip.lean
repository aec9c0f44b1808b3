import Scbl.Manager.ConfigFile
import Scbl.Theorems.Bootstrap

/-!
# The configuration in its file

Which configurations are read back from the text that is written for them.
-/

namespace Scbl.Manager

open Scbl.Lib

namespace RoundTripAux

variable {config : ServerConfig}

/-! ## Values -/

/-- What the replacements make of a character. -/
def valueEscape (c : Char) : Text :=
  if c = '\\' then "\\\\".toList
  else if c = '"' then "\\\"".toList
  else if c = '\n' then "\\n".toList
  else if c = '\r' then "\\r".toList
  else if c = '\t' then "\\t".toList
  else [c]

theorem tomlValueText_text (value : Text) : tomlValueText (.text value) = '"' :: value.flatMap valueEscape ++ ['"'] := by
  have hescape : ∀ c, ((((replaceChar '\\' "\\\\".toList [c]).flatMap (fun c => if c = '"' then "\\\"".toList else [c])).flatMap
      (fun c => if c = '\n' then "\\n".toList else [c])).flatMap (fun c => if c = '\r' then "\\r".toList else [c])).flatMap
      (fun c => if c = '\t' then "\\t".toList else [c]) = valueEscape c := by
    intro c
    by_cases hslash : c = '\\'
    · subst hslash
      rfl
    by_cases hquote : c = '"'
    · subst hquote
      rfl
    by_cases hline : c = '\n'
    · subst hline
      rfl
    by_cases hreturn : c = '\r'
    · subst hreturn
      rfl
    simp [replaceChar, valueEscape, hslash, hquote, hline, hreturn]
  have hchain : ∀ value : Text, replaceChar '\t' "\\t".toList (replaceChar '\r' "\\r".toList (replaceChar '\n' "\\n".toList
      (replaceChar '"' "\\\"".toList (replaceChar '\\' "\\\\".toList value)))) = value.flatMap valueEscape := by
    intro value
    induction value with
    | nil => rfl
    | cons c value ih =>
      have hc := hescape c
      simp only [replaceChar, List.flatMap_cons, List.flatMap_append, List.flatMap_nil, List.append_nil] at ih hc ⊢
      rw [ih, hc]
  simp only [tomlValueText, hchain]
  rfl

/-- A control character that is not replaced. -/
def isUnwritable (c : Char) : Bool := isControl c && c ≠ '\n' && c ≠ '\r'

/-- A text is read back unless it has such a character. -/
theorem basicString_valueEscape (t rest : Text) :
    basicString (t.flatMap valueEscape ++ '"' :: rest) = if t.any isUnwritable then none else some (t, rest) := by
  have hescaped : ∀ c d, tomlEscape c = some d → ∀ rest : Text, basicString ('\\' :: c :: rest) = (basicString rest).map (fun r => (d :: r.1, r.2)) :=
    fun _ _ h rest => basicString_escape h rest
  refine basicString_flatMap (fun c rest hc => ?_) (fun c rest hc => ?_) t rest
  · by_cases hslash : c = '\\'
    · subst hslash
      exact hescaped _ _ rfl rest
    by_cases hquote : c = '"'
    · subst hquote
      exact hescaped _ _ rfl rest
    by_cases hline : c = '\n'
    · subst hline
      exact hescaped _ _ rfl rest
    by_cases hreturn : c = '\r'
    · subst hreturn
      exact hescaped _ _ rfl rest
    by_cases htab : c = '\t'
    · subst htab
      exact hescaped _ _ rfl rest
    have hplain : isControl c = false := by simpa [isUnwritable, hline, hreturn] using hc
    simp only [valueEscape, hslash, hquote, hline, hreturn, htab, if_false]
    rw [List.singleton_append, basicString_plain hquote hslash, hplain]
    rfl
  · simp only [isUnwritable, Bool.and_eq_true, decide_eq_true_eq] at hc
    obtain ⟨⟨hcontrol, hline⟩, hreturn⟩ := hc
    have hne : ∀ d, isControl d = false → c ≠ d := by
      rintro d hd rfl
      rw [hcontrol] at hd
      nomatch hd
    have hslash : c ≠ '\\' := hne _ rfl
    have hquote : c ≠ '"' := hne _ rfl
    have htab : c ≠ '\t' := hne _ rfl
    simp only [valueEscape, hslash, hquote, hline, hreturn, htab, if_false]
    rw [List.singleton_append, basicString_plain hquote hslash, hcontrol]
    rfl

/-! ## Lines -/

/-- A value of a field as it stands in the file. -/
def written : FieldValue → WrittenValue
  | .text value => .other (tomlValueText (.text value)) (value.any isUnwritable) (.string value)
  | .integer value => .integer value
  | .boolean value => .boolean value

theorem written_text (value : FieldValue) : (written value).toText = tomlValueText value := by
  cases value with
  | text value => rfl
  | integer value => rfl
  | boolean value => rfl

theorem written_sound (value : FieldValue) : (written value).Sound := by
  cases value with
  | text value =>
    refine ⟨⟨'"', _, tomlValueText_text value, by decide, by decide⟩, fun rest => ?_⟩
    have hvalue : ∀ t, tomlValue ('"' :: t) = (basicString t).map (fun r => (.string r.1, r.2)) := fun _ => rfl
    rw [tomlValueText_text, List.cons_append, List.cons_append, List.append_assoc, List.singleton_append, hvalue, basicString_valueEscape]
    split <;> rfl
  | integer value => trivial
  | boolean value => trivial

/-! ## The file -/

/-- The sections as they stand in the file. -/
def writtenSections (config : ServerConfig) : List (Text × List (Text × WrittenValue)) :=
  (config.toMapping false).map (fun item => (item.1, item.2.map (fun field => (field.1, written field.2))))

def fileLines (config : ServerConfig) : List WrittenLine :=
  plainLines [("schema_version".toList, .integer configSchemaVersion)] (writtenSections config)

/-- Blank lines behind sections are blank lines before them. -/
theorem flatMap_blank {α β : Type} (blank : β) (f : α → List β) (items : List α) :
    [blank] ++ items.flatMap (fun item => f item ++ [blank]) = items.flatMap (fun item => blank :: f item) ++ [blank] := by
  induction items with
  | nil => rfl
  | cons item items ih =>
    rw [List.flatMap_cons, List.flatMap_cons, List.append_assoc _ _ [blank], ← ih]
    simp

/-- Lines that are joined, with an empty one at the end, end in newlines. -/
theorem joinWith_lines (t : Text) (ts : List Text) : joinWith '\n' (t :: (ts ++ [[]])) = (t :: ts).flatMap (· ++ ['\n']) := by
  induction ts generalizing t with
  | nil => simp [joinWith]
  | cons u ts ih =>
    have hprev := ih u
    rw [joinWith] at hprev ⊢
    rw [List.flatMap_cons, ← hprev]
    simp

theorem dumpToml_eq (config : ServerConfig) : config.dumpToml false = (fileLines config).flatMap (fun line => line.toText ++ ['\n']) := by
  have hlines := flatMap_blank ([] : Text) (fun item : Text × List (Text × FieldValue) =>
    ["[".toList ++ item.1 ++ "]".toList] ++ item.2.map (fun field => field.1 ++ " = ".toList ++ tomlValueText field.2)) (config.toMapping false)
  have htexts : (fileLines config).map WrittenLine.toText =
      ("schema_version = ".toList ++ intText configSchemaVersion) ::
        (config.toMapping false).flatMap (fun item => [] :: (["[".toList ++ item.1 ++ "]".toList] ++
          item.2.map (fun field => field.1 ++ " = ".toList ++ tomlValueText field.2))) := by
    rw [fileLines, plainLines, writtenSections, List.map_append, List.map_flatMap, List.flatMap_map]
    refine congrArg (List.cons _) (congrArg (List.flatMap · (config.toMapping false)) (funext fun item => ?_))
    simp [WrittenLine.toText, joinWith, written_text]
  rw [ServerConfig.dumpToml, List.cons_append, hlines, joinWith_lines, ← htexts, List.flatMap_map]

/-- The keys of the file are those of the fields. -/
theorem section_keys (config : ServerConfig) :
    (writtenSections config).map (fun item => (item.1, item.2.map Prod.fst)) = sectionTypes.map (fun item => (item.1, item.2.map Prod.fst)) := rfl

/-- The items of a file that was written. -/
def writtenItems (config : ServerConfig) : TomlTable :=
  ("schema_version".toList, .integer configSchemaVersion) :: (writtenSections config).map (fun item => (item.1, .table (valuesOf item.2)))

/-- The file is read as it was written unless a line has a text that is not. -/
theorem toml_dump (config : ServerConfig) :
    toml (config.dumpToml false) = if (fileLines config).any WrittenLine.unread then none else some (writtenItems config) := by
  have hkeys : ∀ item ∈ sectionTypes.map (fun item => (item.1, item.2.map Prod.fst)),
      IsBareKey item.1 ∧ (∀ key ∈ item.2, IsBareKey key) ∧ item.2.Nodup := by decide
  rw [← section_keys config] at hkeys
  have hvalues : ∀ item ∈ writtenSections config, ∀ field ∈ item.2, field.2.Sound := by
    intro item hitem field hfield
    obtain ⟨item, -, rfl⟩ := List.mem_map.mp hitem
    obtain ⟨field, -, rfl⟩ := List.mem_map.mp hfield
    exact written_sound field.2
  rw [dumpToml_eq]
  refine toml_plain ?_ (fun item hitem => ?_) (by decide : ("schema_version".toList :: sectionTypes.map Prod.fst).Nodup) fun item hitem => ?_
  · simp only [List.mem_singleton, forall_eq]
    exact ⟨by decide, trivial⟩
  · have hitem' := hkeys _ (List.mem_map_of_mem hitem)
    exact ⟨hitem'.1, fun field hfield => ⟨hitem'.2.1 _ (List.mem_map_of_mem hfield), hvalues item hitem field hfield⟩⟩
  · exact (hkeys _ (List.mem_map_of_mem hitem)).2.2

/-! ## The configuration -/

theorem fromMapping_written (config : ServerConfig) :
    ServerConfig.fromMapping (writtenItems config) = .ok { config with schemaVersion := configSchemaVersion } := rfl

/-- The texts of the lines are those of the fields. -/
theorem unwritable_lines (config : ServerConfig) :
    (fileLines config).any WrittenLine.unread = config.textFields.any (fun field => field.2.any isUnwritable) := rfl

theorem loadConfig_dump (config : ServerConfig) (path : Text) :
    loadConfig path (some (config.dumpToml false)) =
      if config.textFields.any (fun field => field.2.any isUnwritable) then .error (.invalid "TOML 解析失败".toList)
      else .ok { config with schemaVersion := configSchemaVersion } := by
  have hread := toml_dump config
  rw [unwritable_lines] at hread
  split
  · rename_i hunwritable
    rw [if_pos hunwritable] at hread
    simp only [loadConfig, hread]
  · rename_i hwritable
    rw [if_neg hwritable] at hread
    simp only [loadConfig, hread, fromMapping_written]

/-- After the check the control characters that are not replaced are all but the tabulator. -/
theorem writable_iff (h : Checked config) :
    config.textFields.any (fun field => field.2.any isUnwritable) = false ↔
      ∀ field ∈ config.textFields, ∀ c ∈ field.2, isControl c = false := by
  simp only [List.any_eq_false, Bool.not_eq_true]
  refine forall₂_congr fun field hfield => forall₂_congr fun c hc => ?_
  obtain ⟨-, hreturn, hline⟩ := h.texts field hfield
  have hline' : c ≠ '\n' := ne_of_mem_of_not_mem hc hline
  have hreturn' : c ≠ '\r' := ne_of_mem_of_not_mem hc hreturn
  simp [isUnwritable, hline', hreturn']

end RoundTripAux

open RoundTripAux

theorem sampleConfig_plain : ∀ field ∈ sampleConfig.textFields, ∀ c ∈ field.2, isControl c = false := by
  have hplain : sampleConfig.textFields.all (fun field => field.2.all (fun c => !isControl c)) = true := by decide +kernel
  intro field hfield c hc
  simpa using List.all_eq_true.mp (List.all_eq_true.mp hplain field hfield) c hc

end Scbl.Manager
