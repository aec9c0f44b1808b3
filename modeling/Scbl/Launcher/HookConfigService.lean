import Scbl.Lib.IpAddress
import Scbl.Lib.Toml
import Scbl.Lib.Text

/-!
# The configuration of the hooks as the launcher writes it

`HookConfigService.cs`: the text of `scbl.toml`. The lines of the literal end as those of the source file do.
-/

namespace Scbl.Launcher.HookConfigService

open Scbl.Lib

abbrev Text := List Char

/-- `Replace` of a character. -/
def replaceChar (old : Char) (new : Text) (t : Text) : Text := t.flatMap (fun c => if c = old then new else [c])

def tomlEscape (value : Text) : Text :=
  let value := replaceChar '\\' ['\\', '\\'] value
  let value := replaceChar '"' ['\\', '"'] value
  let value := replaceChar '\r' ['\\', 'r'] value
  let value := replaceChar '\n' ['\\', 'n'] value
  replaceChar '\t' ['\\', 't'] value

def publicConfigServerHost : Text := "10.66.0.1".toList

def publicGrpcAddress : Text := "http://10.66.0.1:50051".toList

/-- A line of the literal with a value in it. -/
def settingLine (key value : Text) : Text := key ++ " = ".toList ++ '"' :: tomlEscape value ++ ['"']

def authFileLines (username password accountId bindIp : Text) : List Text :=
  [settingLine "ConfigServer".toList publicConfigServerHost,
    settingLine "ApiServer".toList (publicGrpcAddress ++ "/".toList),
    "AutoJoinInvite = false".toList,
    "EnableOverlay = true".toList,
    [],
    "[User]".toList,
    settingLine "Username".toList username,
    settingLine "Password".toList password,
    settingLine "AccountId".toList accountId,
    [],
    "[Networking]".toList,
    settingLine "IpAddress".toList bindIp,
    [],
    "[Logging]".toList,
    "Level = \"INFO\"".toList]

/-- The text that `WriteAuthFile` writes. -/
def authFile (username password accountId bindIp : Text) : Text :=
  trim ((authFileLines username password accountId bindIp).flatMap (fun line => line ++ ['\r', '\n']))

/-! ## What the escaper does to a character -/

/-- The escape of a character by all the replacements. -/
def escapeChar (c : Char) : Text :=
  if c = '\\' then ['\\', '\\'] else if c = '"' then ['\\', '"'] else if c = '\r' then ['\\', 'r'] else if c = '\n' then ['\\', 'n']
  else if c = '\t' then ['\\', 't'] else [c]

/-- A later replacement does not change what an earlier one has put in. -/
theorem tomlEscape_eq (value : Text) : tomlEscape value = value.flatMap escapeChar := by
  simp only [tomlEscape, replaceChar, List.flatMap_assoc]
  congr 1
  funext c
  unfold escapeChar
  by_cases hslash : c = '\\'
  · subst hslash
    decide
  by_cases hquote : c = '"'
  · subst hquote
    decide
  by_cases hreturn : c = '\r'
  · subst hreturn
    decide
  by_cases hline : c = '\n'
  · subst hline
    decide
  simp [hslash, hquote, hreturn, hline]

/-- A character that is written as it is and that TOML does not accept: the escaper knows three of the control characters only. -/
def isUnescaped (c : Char) : Bool := isControl c && c ≠ '\n' && c ≠ '\r'

/-- A value is read as it was written unless it has such a character. -/
theorem basicString_tomlEscape (t rest : Text) :
    basicString (tomlEscape t ++ '"' :: rest) = if t.any isUnescaped then none else some (t, rest) := by
  rw [tomlEscape_eq]
  refine basicString_flatMap (fun c rest hc => ?_) (fun c rest hc => ?_) t rest
  · unfold escapeChar
    by_cases hslash : c = '\\'
    · subst hslash
      exact basicString_escape rfl rest
    by_cases hquote : c = '"'
    · subst hquote
      exact basicString_escape rfl rest
    by_cases hreturn : c = '\r'
    · subst hreturn
      exact basicString_escape rfl rest
    by_cases hline : c = '\n'
    · subst hline
      exact basicString_escape rfl rest
    by_cases htab : c = '\t'
    · subst htab
      exact basicString_escape rfl rest
    have hplain : isControl c = false := by simpa [isUnescaped, hline, hreturn] using hc
    simp only [hslash, hquote, hreturn, hline, htab, if_false, List.singleton_append]
    rw [basicString_plain hquote hslash, hplain]
    rfl
  · have hcontrol : isControl c = true ∧ c ≠ '\n' ∧ c ≠ '\r' := by simpa [isUnescaped, and_assoc] using hc
    obtain ⟨hcontrol, hline, hreturn⟩ := hcontrol
    have hslash : c ≠ '\\' := by
      rintro rfl
      exact absurd hcontrol (by decide)
    have hquote : c ≠ '"' := by
      rintro rfl
      exact absurd hcontrol (by decide)
    have htab : c ≠ '\t' := by
      rintro rfl
      exact absurd hcontrol (by decide)
    unfold escapeChar
    simp only [hslash, hquote, hreturn, hline, htab, if_false, List.singleton_append]
    rw [basicString_plain hquote hslash, hcontrol]
    rfl

end Scbl.Launcher.HookConfigService
