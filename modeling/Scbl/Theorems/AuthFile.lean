import Scbl.Hooks.HooksConfig
import Scbl.Launcher.HookConfigService

/-!
# What the hooks read of the launcher's file

`HookConfigService.WriteAuthFile` and `parse_scbl_config`: the document as items in front of tables, and when its values are those that
were given.
-/

namespace Scbl.Launcher.HookConfigService

open Scbl.Lib Scbl.Hooks.HooksConfig

/-! ## The file as a document -/

/-- A value as the launcher writes it. -/
def settingValue (value : Text) : WrittenValue :=
  .other ('"' :: tomlEscape value ++ ['"']) (value.any isUnescaped) (.string value)

theorem settingValue_sound (value : Text) : (settingValue value).Sound := by
  refine ⟨⟨'"', _, rfl, by decide, by decide⟩, fun rest => ?_⟩
  have hread : tomlValue ('"' :: tomlEscape value ++ ['"'] ++ '\n' :: rest) =
      (basicString (tomlEscape value ++ '"' :: '\n' :: rest)).map (fun r => (.string r.1, r.2)) := by
    rw [List.cons_append, List.cons_append, List.append_assoc, List.singleton_append]
    rfl
  rw [hread, basicString_tomlEscape]
  split <;> rfl

theorem settingLine_eq (key value : Text) : settingLine key value = (WrittenLine.item key (settingValue value)).toText := by
  simp [settingLine, WrittenLine.toText, settingValue, WrittenValue.toText]

def rootItems : List (Text × WrittenValue) :=
  [("ConfigServer".toList, settingValue publicConfigServerHost), ("ApiServer".toList, settingValue (publicGrpcAddress ++ "/".toList)),
    ("AutoJoinInvite".toList, .boolean false), ("EnableOverlay".toList, .boolean true)]

def tableItems (username password accountId bindIp : Text) : List (Text × List (Text × WrittenValue)) :=
  [("User".toList, [("Username".toList, settingValue username), ("Password".toList, settingValue password),
      ("AccountId".toList, settingValue accountId)]),
    ("Networking".toList, [("IpAddress".toList, settingValue bindIp)]),
    ("Logging".toList, [("Level".toList, .string "INFO".toList)])]

variable {username password accountId bindIp : Text}

theorem authFileLines_eq :
    authFileLines username password accountId bindIp =
      (plainLines rootItems (tableItems username password accountId bindIp)).map WrittenLine.toText := by
  simp only [authFileLines, settingLine_eq]
  rfl

/-- The lines in front of the last one. -/
def frontLines (username password accountId bindIp : Text) : List WrittenLine :=
  plainLines rootItems ((tableItems username password accountId bindIp).dropLast ++ [("Logging".toList, [])])

def lastLine : WrittenLine := .item "Level".toList (.string "INFO".toList)

theorem plainLines_eq :
    plainLines rootItems (tableItems username password accountId bindIp) = frontLines username password accountId bindIp ++ [lastLine] := rfl

/-- The file is its lines, of which the last one does not end. -/
theorem authFile_eq :
    authFile username password accountId bindIp =
      (frontLines username password accountId bindIp).flatMap (fun line => line.toText ++ ['\r', '\n']) ++ lastLine.toText := by
  obtain ⟨rest, hfront⟩ : ∃ rest, (frontLines username password accountId bindIp).flatMap (fun line => line.toText ++ ['\r', '\n']) =
      "ConfigServer".toList ++ rest := by
    have hcons : frontLines username password accountId bindIp =
      .item "ConfigServer".toList (settingValue publicConfigServerHost) :: (frontLines username password accountId bindIp).tail := rfl
    rw [hcons, List.flatMap_cons, WrittenLine.toText, List.append_assoc, List.append_assoc, List.append_assoc]
    exact ⟨_, rfl⟩
  have hlast : lastLine.toText = "Level = ".toList ++ "\"INFO\"".toList := rfl
  have hplain : ∀ t : Text, t.all (fun c => !isWhiteSpace c) = true → ∀ c ∈ t, isWhiteSpace c = false := by simp
  have hblank : ∀ c ∈ ['\r', '\n'], isWhiteSpace c = true := by simp [isWhiteSpace]
  rw [authFile, authFileLines_eq, plainLines_eq, List.map_append, List.flatMap_append, List.flatMap_map, List.map_singleton,
    List.flatMap_singleton, hfront, hlast, ← List.append_assoc, ← List.append_assoc, List.append_assoc "ConfigServer".toList]
  exact trim_ends (by decide) (by decide) (hplain _ rfl) (hplain _ rfl) hblank

/-- Carriage returns are escaped. -/
theorem not_mem_tomlEscape (value : Text) : '\r' ∉ tomlEscape value := by
  rw [tomlEscape_eq]
  intro hmem
  obtain ⟨c, -, hc⟩ := List.mem_flatMap.mp hmem
  unfold escapeChar at hc
  split at hc
  · exact absurd hc (by decide)
  split at hc
  · exact absurd hc (by decide)
  split at hc
  · exact absurd hc (by decide)
  split at hc
  · exact absurd hc (by decide)
  split at hc
  · exact absurd hc (by decide)
  · exact absurd (List.mem_singleton.mp hc).symm ‹_›

/-! ## What is read of the document -/

theorem rootItems_sound : ∀ item ∈ rootItems, IsBareKey item.1 ∧ item.2.Sound := by
  simp only [rootItems, List.forall_mem_cons]
  exact ⟨⟨by decide, settingValue_sound _⟩, ⟨by decide, settingValue_sound _⟩, ⟨by decide, trivial⟩, ⟨by decide, trivial⟩,
    fun _ hitem => nomatch hitem⟩

theorem tableItems_sound :
    ∀ table ∈ tableItems username password accountId bindIp, IsBareKey table.1 ∧ ∀ item ∈ table.2, IsBareKey item.1 ∧ item.2.Sound := by
  simp only [tableItems, List.forall_mem_cons]
  exact ⟨⟨by decide, ⟨by decide, settingValue_sound _⟩, ⟨by decide, settingValue_sound _⟩, ⟨by decide, settingValue_sound _⟩,
      fun _ hitem => nomatch hitem⟩, ⟨by decide, ⟨by decide, settingValue_sound _⟩, fun _ hitem => nomatch hitem⟩,
    ⟨by decide, ⟨by decide, trivial⟩, fun _ hitem => nomatch hitem⟩, fun _ htable => nomatch htable⟩

/-- Items and tables without carriage returns are lines without. -/
theorem no_return_of_plain {root : List (Text × WrittenValue)} {tables : List (Text × List (Text × WrittenValue))}
    (hroot : ∀ item ∈ root, '\r' ∉ item.1 ∧ '\r' ∉ item.2.toText)
    (htables : ∀ table ∈ tables, '\r' ∉ table.1 ∧ ∀ item ∈ table.2, '\r' ∉ item.1 ∧ '\r' ∉ item.2.toText) :
    ∀ line ∈ plainLines root tables, '\r' ∉ line.toText := by
  have hitem : ∀ item : Text × WrittenValue, '\r' ∉ item.1 ∧ '\r' ∉ item.2.toText → '\r' ∉ (WrittenLine.item item.1 item.2).toText := by
    intro item h
    have hequals : '\r' ∉ " = ".toList := by decide
    simp only [WrittenLine.toText, List.mem_append, not_or]
    exact ⟨⟨h.1, hequals⟩, h.2⟩
  intro line hline
  rcases List.mem_append.mp hline with hline | hline
  · obtain ⟨item, hmem, rfl⟩ := List.mem_map.mp hline
    exact hitem item (hroot item hmem)
  · obtain ⟨table, htable, hline⟩ := List.mem_flatMap.mp hline
    rcases List.mem_cons.mp hline with rfl | hline
    · exact List.not_mem_nil
    rcases List.mem_cons.mp hline with rfl | hline
    · simpa [WrittenLine.toText, joinWith] using (htables table htable).1
    · obtain ⟨item, hmem, rfl⟩ := List.mem_map.mp hline
      exact hitem item ((htables table htable).2 item hmem)

/-- What an address is written with is not a control character. -/
theorem isControl_of_isAddressChar {c : Char} (h : IsAddressChar c) : isControl c = false := by
  have hrange : ∀ {a b : Char}, 0x20 ≤ a.toNat → b.toNat < 0x7F → a.toNat ≤ c.toNat ∧ c.toNat ≤ b.toNat → isControl c = false := by
    intro a b ha hb hc
    have hlow : ¬ c.toNat < 0x20 := by omega
    have hdelete : c.toNat ≠ 0x7F := by omega
    simp [isControl, hlow, hdelete]
  rcases h with h | rfl | rfl
  · unfold hexDigitValue at h
    split at h
    · rename_i hdigit
      exact hrange (by decide) (by decide) (Char.isDigit_iff_toNat.mp hdigit)
    split at h
    · rename_i hlower
      exact hrange (a := 'a') (b := 'f') (by decide) (by decide) hlower
    split at h
    · rename_i hupper
      exact hrange (a := 'A') (b := 'F') (by decide) (by decide) hupper
    · cases h
  · rfl
  · rfl

/-- The values that the file has. -/
def authItems (username password accountId bindIp : Text) : TomlTable :=
  valuesOf rootItems ++ (tableItems username password accountId bindIp).map (fun table => (table.1, .table (valuesOf table.2)))

/-- The file is read as its values, unless one of those that were given has a character that the escaper leaves. -/
theorem tomlDocument_authFile (hip : (ipv4Octets bindIp).isSome) :
    tomlDocument (authFile username password accountId bindIp) =
      if [username, password, accountId].any (·.any isUnescaped) then none else some (authItems username password accountId bindIp) := by
  have hlines : ∀ line ∈ frontLines username password accountId bindIp, '\r' ∉ line.toText := by
    have hsetting : ∀ value, '\r' ∉ (settingValue value).toText := by
      intro value
      have hvalue := not_mem_tomlEscape value
      simp [settingValue, WrittenValue.toText, hvalue]
    refine no_return_of_plain ?_ ?_
    · simp only [rootItems, List.forall_mem_cons]
      exact ⟨⟨by decide, hsetting _⟩, ⟨by decide, hsetting _⟩, ⟨by decide, by decide⟩, ⟨by decide, by decide⟩, fun _ hitem => by cases hitem⟩
    · simp only [tableItems, List.dropLast_cons_cons, List.dropLast_singleton, List.cons_append, List.nil_append, List.forall_mem_cons]
      exact ⟨⟨by decide, ⟨by decide, hsetting _⟩, ⟨by decide, hsetting _⟩, ⟨by decide, hsetting _⟩, fun _ hitem => by cases hitem⟩,
        ⟨by decide, ⟨by decide, hsetting _⟩, fun _ hitem => by cases hitem⟩, ⟨by decide, fun _ hitem => by cases hitem⟩,
        fun _ htable => by cases htable⟩
  have hunread : (frontLines username password accountId bindIp ++ [lastLine]).any WrittenLine.unread =
      [username, password, accountId].any (·.any isUnescaped) := by
    have hbind : bindIp.any isUnescaped = false := by
      rw [List.any_eq_false]
      intro c hc
      simp [isUnescaped, isControl_of_isAddressChar (isAddressChar_of_ipv4Octets hip c hc)]
    have hany : (frontLines username password accountId bindIp ++ [lastLine]).any WrittenLine.unread =
        (username.any isUnescaped || (password.any isUnescaped || (accountId.any isUnescaped || (bindIp.any isUnescaped || false)))) := rfl
    rw [hany, hbind]
    rfl
  have hsound : ∀ line ∈ frontLines username password accountId bindIp ++ [lastLine], line.Sound := by
    rw [← plainLines_eq]
    exact plainLines_sound rootItems_sound tableItems_sound
  rw [tomlDocument, authFile_eq, normalizeNewlines_lines hlines (by decide),
    toml_unended (fun line hline => hsound line (List.mem_append_left _ hline)) (hsound lastLine (by simp)) rfl (by decide) rfl,
    ← hunread, ← plainLines_eq]
  refine toml_plain rootItems_sound tableItems_sound ?_ ?_
  · have hnames : rootItems.map Prod.fst ++ (tableItems username password accountId bindIp).map Prod.fst =
        ["ConfigServer", "ApiServer", "AutoJoinInvite", "EnableOverlay", "User", "Networking", "Logging"].map String.toList := rfl
    rw [hnames]
    decide
  · simp only [tableItems, List.forall_mem_cons]
    have hone : ∀ name : Text, [name].Nodup := fun _ => List.nodup_cons.mpr ⟨List.not_mem_nil, List.nodup_nil⟩
    have huser : (["Username", "Password", "AccountId"].map String.toList).Nodup := by decide
    exact ⟨huser, hone _, hone _, fun _ htable => by cases htable⟩

/-- What the configuration of the hooks says of the user and the address is what was given. -/
def Agrees {Url : Type} (config : Config Url) (username password accountId : Text) (octets : List Nat) : Prop :=
  config.user.username = username ∧ config.user.password = password ∧ config.user.accountId = accountId ∧
    config.networking.ipAddress = some octets

/-- The values of the file make up a configuration. -/
theorem ofTable_authItems {Url : Type} {build : Build Url} {octets : List Nat} {url : Url}
    (hurl : build.parseUrl (publicGrpcAddress ++ "/".toList) = some url) (hip : ipv4Octets bindIp = some octets) :
    ∃ config, Config.ofTable build (authItems username password accountId bindIp) = some config ∧
      Agrees config username password accountId octets := by
  have hnetworking : readNetworking (.table (valuesOf [("IpAddress".toList, settingValue bindIp)])) =
      ((ipv4Octets bindIp).map some).bind (fun ipAddress => some { ipAddress }) := rfl
  have htable : Config.ofTable build (authItems username password accountId bindIp) =
      (build.parseUrl (publicGrpcAddress ++ "/".toList)).bind (fun apiServer =>
        (readNetworking (.table (valuesOf [("IpAddress".toList, settingValue bindIp)]))).bind (fun networking =>
          some {
            user := { username, password, cdKeys := [], accountId }, save := {}, forwardCalls := [], forwardAllCalls := false
            internalCommandLine := [], enableHooks := [], enableAllHooks := false, enableOverlay := true
            configServer := some publicConfigServerHost, apiServer, networking, logging := {}, autoJoinInvite := false })) := rfl
  rw [htable, hurl, hnetworking, hip]
  exact ⟨_, rfl, rfl, rfl, rfl, rfl⟩

/-- The hooks read what the launcher wrote if and only if what was given has none of the characters that the escaper leaves. -/
theorem auth_file_read_iff {Url : Type} (build : Build Url) (username password accountId bindIp : Text) (octets : List Nat)
    (hurl : (build.parseUrl (publicGrpcAddress ++ "/".toList)).isSome) (hip : ipv4Octets bindIp = some octets) :
    (∃ config, parseScblConfig build (authFile username password accountId bindIp) = some config ∧
        Agrees config username password accountId octets) ↔
      ∀ value ∈ [username, password, accountId], ∀ c ∈ value, isUnescaped c = false := by
  obtain ⟨url, hurl⟩ := Option.isSome_iff_exists.mp hurl
  have hread := @tomlDocument_authFile username password accountId bindIp (Option.isSome_of_eq_some hip)
  have hclean : [username, password, accountId].any (·.any isUnescaped) = false ↔
      ∀ value ∈ [username, password, accountId], ∀ c ∈ value, isUnescaped c = false := by simp
  rw [← hclean, parseScblConfig, hread]
  constructor
  · rintro ⟨config, hconfig, -⟩
    cases hany : [username, password, accountId].any (·.any isUnescaped) with
    | false => rfl
    | true =>
      rw [hany] at hconfig
      nomatch hconfig
  · intro hany
    obtain ⟨config, hconfig, hagrees⟩ := @ofTable_authItems username password accountId bindIp Url build octets url hurl hip
    refine ⟨applyScblRequiredHooks config, ?_, hagrees⟩
    rw [hany, if_neg Bool.false_ne_true, Option.bind_eq_bind, Option.bind_some, hconfig]
    rfl

/-- A build whose reader of addresses takes every text. -/
def plainBuild : Build Text := { modding := false, parseUrl := some }

/-- A name with quotes, a password with a backslash and a tab, and an account id. -/
theorem auth_file_read_iff_sample :
    ∃ config, parseScblConfig plainBuild (authFile "\"Sam\"".toList "a\\\tb".toList "id".toList "10.66.0.2".toList) = some config ∧
      Agrees config "\"Sam\"".toList "a\\\tb".toList "id".toList [10, 66, 0, 2] := by
  have hclean : ["\"Sam\"".toList, "a\\\tb".toList, "id".toList].all (·.all (fun c => !isUnescaped c)) = true := by decide +kernel
  exact (auth_file_read_iff plainBuild _ _ _ _ _ rfl rfl).mpr (by simpa using hclean)

/-- A password that ends in the character 0x7F makes a file that is not read. -/
theorem auth_file_read_false :
    ¬ ∃ config, parseScblConfig plainBuild (authFile "Sam".toList ['a', '\x7f'] "id".toList "10.66.0.2".toList) = some config := by
  have hread := @tomlDocument_authFile "Sam".toList ['a', '\x7f'] "id".toList "10.66.0.2".toList rfl
  have hany : ["Sam".toList, ['a', '\x7f'], "id".toList].any (·.any isUnescaped) = true := by decide +kernel
  rw [parseScblConfig, hread, hany]
  rintro ⟨config, hconfig⟩
  nomatch hconfig

end Scbl.Launcher.HookConfigService
