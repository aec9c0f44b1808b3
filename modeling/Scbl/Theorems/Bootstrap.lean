import Scbl.Launcher.NetworkBootstrap
import Scbl.Manager.NetworkBootstrap
import Scbl.Manager.Templates
import Mathlib

/-!
# Server and launcher on the network

Which configurations of the server reach the launcher as they are: the bootstrap of the configuration is accepted there, and the settings
denote the host, the ports, the name and the secret that the server's own services use.
-/

namespace Scbl.Manager

open Scbl.Lib Scbl.Launcher

/-! ## Hosts -/

/-- What a host denotes: an address, or a name without regard to case. -/
inductive HostValue where
  | address (address : IpAddress)
  | name (name : Text)

def hostValue (host : Text) : HostValue :=
  match ipAddress (stripBrackets host) with
  | some address => .address address
  | none => .name ((stripBrackets host).map Char.toLower)

/-- A character of a domain name or of an address without a scope. -/
def isHostChar (c : Char) : Bool := c.isAlphanum || c = '-' || c = '.' || c = ':'

/-- A text of such characters. -/
structure PlainHost (host : Text) : Prop where
  nonempty : host ≠ []
  chars : ∀ c ∈ host, isHostChar c = true

/-- A domain name: labels with dots between them, and at most one behind the last. -/
def isDomainName (name : Text) : Bool :=
  name.length ≤ 253 && ((if name.getLast? = some '.' then name.dropLast else name).splitOn '.').all matchesLabel

/-- A domain name, or an address without a scope. -/
def IsHost (host : Text) : Prop := isDomainName host = true ∨ ∃ address, ipAddress host = some address ∧ address.scope = none

/-- What .NET does with hosts. A host and a port are parsed into that host and port; a plain host stays one, and a known name has no empty
label at its end; the `Host` of a URI leaves out the scope of an address. -/
structure ReadsHosts (net : DotNet) : Prop where
  reads : ∀ host port, IsHost host → 0 < port → port ≤ 65535 →
    ∃ uri, net.tryCreateUri ("tcp://".toList ++ buildEndpoint host port) = some uri ∧ uri.port = port ∧
      hostValue uri.host = hostValue host ∧ net.checkHostName (trimBrackets uri.host) = true
  plain : ∀ host port uri, PlainHost host → net.tryCreateUri ("tcp://".toList ++ buildEndpoint host port) = some uri →
    net.checkHostName (trimBrackets uri.host) = true →
      PlainHost (trimBrackets uri.host) ∧ (ipAddress (trimBrackets uri.host) = none → ¬ ['.', '.'] <:+ trimBrackets uri.host)
  scopeless : ∀ text uri, net.tryCreateUri text = some uri → net.checkHostName (trimBrackets uri.host) = true → '%' ∉ uri.host

/-! ## Agreement -/

/-- The settings of a launcher denote the values of the server: those of its configuration, and those its services read in their files. -/
structure Agrees (net : DotNet) (config : ServerConfig) (settings : NetworkBootstrapSettings) : Prop where
  host : hostValue (getEndpointHost net settings.publicEndpoint) = hostValue config.server.publicHost
  tunnelPort : getEndpointPort net settings.publicEndpoint = config.network.publicPort
  updatePort : settings.publicUpdatePort = config.services.updatePort
  wssPort : settings.easyTierWssPort = config.network.wssPort
  networkName : settings.easyTierNetworkName = config.easytier.networkName
  secret : settings.tunnelSecret = config.network.secret
  easytierSecret : tomlString "network_secret".toList (renderEasytierConfig config) = some settings.tunnelSecret
  controlPlaneSecret : ∃ text, renderRuntimeEnv config managerVersion = .ok text ∧
    Dict.get (readEnvironment text) "SCBL_SECRET".toList = some settings.tunnelSecret

/-- The settings that a launcher makes of what it is told. -/
def settingsOf (net : DotNet) (bootstrap : NetworkBootstrap) : Option NetworkBootstrapSettings :=
  tryCreate net bootstrap.schemaVersion (some bootstrap.publicEndpoint) bootstrap.publicUpdatePort (some bootstrap.tunnelSecret)
    (some bootstrap.easyTierNetworkName) bootstrap.easyTierWssPort

/-- What the launcher and the services take as it is: an address without a scope, or a name that does not end in two dots; a secret
without control characters and without white space at its ends, of at most 256 units; a name of the characters and the length the launcher
asks for. -/
structure Conveyable (config : ServerConfig) : Prop where
  host : (∃ address, ipAddress (stripBrackets config.server.publicHost) = some address ∧ address.scope = none) ∨
    (ipAddress (stripBrackets config.server.publicHost) = none ∧ ¬ ['.', '.'] <:+ config.server.publicHost)
  secret : trim config.network.secret = config.network.secret ∧ utf16Length config.network.secret ≤ 256 ∧
    ∀ c ∈ config.network.secret, isControl c = false
  networkName : matchesNetworkName config.easytier.networkName = true

/-! ## Plain texts -/

/-- The characters of plain endpoints: none of them is white space or a slash. -/
def isEndpointChar (c : Char) : Bool := isHostChar c || c = '[' || c = ']'

theorem toNat_of_isEndpointChar {c : Char} (h : isEndpointChar c = true) :
    (48 ≤ c.toNat ∧ c.toNat ≤ 57) ∨ (65 ≤ c.toNat ∧ c.toNat ≤ 90) ∨ (97 ≤ c.toNat ∧ c.toNat ≤ 122) ∨
      c.toNat = 45 ∨ c.toNat = 46 ∨ c.toNat = 58 ∨ c.toNat = 91 ∨ c.toNat = 93 := by
  simp only [isEndpointChar, isHostChar, Char.isAlphanum, Char.isAlpha, Char.isUpper, Char.isLower, Char.isDigit, Bool.or_eq_true,
    Bool.and_eq_true, decide_eq_true_eq, ge_iff_le, UInt32.le_iff_toNat_le] at h
  rcases h with (((((((hupper | hlower) | hdigit) | rfl) | rfl) | rfl) | rfl) | rfl)
  · exact .inr (.inl hupper)
  · exact .inr (.inr (.inl hlower))
  · exact .inl hdigit
  all_goals decide

theorem not_isSpace_of_isEndpointChar {c : Char} (h : isEndpointChar c = true) : isSpace c = false ∧ isWhiteSpace c = false := by
  have hranges := toNat_of_isEndpointChar h
  simp only [isSpace, isWhiteSpace, Bool.or_eq_false_iff, decide_eq_false_iff_not, Bool.and_eq_false_iff]
  omega

theorem ne_of_isEndpointChar {c d : Char} (h : isEndpointChar c = true) (hd : isEndpointChar d = false) : c ≠ d := by
  rintro rfl
  rw [h] at hd
  nomatch hd

theorem PlainHost.isEndpointChar {host : Text} (h : PlainHost host) : ∀ c ∈ host, isEndpointChar c = true := by
  intro c hc
  simp [Manager.isEndpointChar, h.chars c hc]

theorem PlainHost.not_mem {host : Text} (h : PlainHost host) {c : Char} (hc : isHostChar c = false) : c ∉ host := by
  intro hmem
  rw [h.chars c hmem] at hc
  nomatch hc

theorem PlainHost.not_bracket {host : Text} (h : PlainHost host) : ∀ c ∈ host, ['[', ']'].contains c = false := by
  intro c hc
  have hopen : c ≠ '[' := ne_of_mem_of_not_mem hc (h.not_mem rfl)
  have hclose : c ≠ ']' := ne_of_mem_of_not_mem hc (h.not_mem rfl)
  simp [hopen, hclose]

theorem PlainHost.trimBrackets_eq {host : Text} (h : PlainHost host) : trimBrackets host = host := by
  exact dropWhile_ends h.not_bracket

theorem PlainHost.formatHost_eq {host : Text} (h : PlainHost host) :
    formatHost host = if ':' ∈ host then "[".toList ++ host ++ "]".toList else host := by
  have htrim : trim host = host := dropWhile_ends fun c hc => (not_isSpace_of_isEndpointChar (h.isEndpointChar c hc)).2
  rw [formatHost, htrim, h.trimBrackets_eq]

theorem intText_pos {port : Int} (h : 0 < port) : intText port = Nat.toDigits 10 port.toNat := by
  cases port with
  | ofNat n => rfl
  | negSucc n => nomatch h

theorem isDigit_of_mem_intText {port : Int} (h : 0 < port) : ∀ c ∈ intText port, c.isDigit = true := by
  intro c hc
  rw [intText_pos h] at hc
  exact Nat.isDigit_of_mem_toDigits (by decide) (by decide) hc

theorem isEndpointChar_of_mem_build {host : Text} {port : Int} (h : PlainHost host) (hport : 0 < port) :
    ∀ c ∈ buildEndpoint host port, isEndpointChar c = true := by
  intro c hc
  rw [buildEndpoint, h.formatHost_eq, List.mem_append, List.mem_append] at hc
  rcases hc with (hc | hc) | hc
  · split at hc
    · rw [List.mem_append, List.mem_append] at hc
      rcases hc with (hc | hc) | hc
      · rw [List.mem_singleton.mp hc]
        rfl
      · exact h.isEndpointChar c hc
      · rw [List.mem_singleton.mp hc]
        rfl
    · exact h.isEndpointChar c hc
  · rw [List.mem_singleton.mp hc]
    rfl
  · have hdigit := isDigit_of_mem_intText hport c hc
    simp [isEndpointChar, isHostChar, Char.isAlphanum, hdigit]

/-! ## Endpoints -/

/-- No other character than a sign or a digit itself is one in capitals. -/
theorem toUpper_eq_of_lt {c d : Char} (hd : d.toNat < 65) (h : c.toUpper = d) : c = d := by
  unfold Char.toUpper at h
  split at h
  · rename_i hlower
    have hlow : 97 ≤ c.toNat := UInt32.le_iff_toNat_le.mp hlower.1
    have hhigh : c.toNat ≤ 122 := UInt32.le_iff_toNat_le.mp hlower.2
    have hall : ∀ n : Fin 123, 97 ≤ n.val → 65 ≤ (Char.ofNat n).toUpper.toNat := by decide
    have hletter := hall ⟨c.toNat, by omega⟩ hlow
    rw [Char.ofNat_toNat, Char.toUpper, dif_pos hlower, h] at hletter
    omega
  · exact h

theorem toUpper_eq_slash {c : Char} (h : c.toUpper = '/') : c = '/' := toUpper_eq_of_lt (by decide) h

theorem withoutPrefix_eq {endpoint : Text} (h : '/' ∉ endpoint) : withoutPrefix endpoint = endpoint := by
  have hstart : ∀ scheme : Text, '/' ∈ scheme.map Char.toUpper → startsWithIgnoreCase endpoint scheme = false := by
    intro scheme hslash
    rw [Bool.eq_false_iff]
    intro hprefix
    have hmem := (List.isPrefixOf_iff_prefix.mp hprefix).subset hslash
    obtain ⟨c, hc, hupper⟩ := List.mem_map.mp hmem
    exact h (toUpper_eq_slash hupper ▸ hc)
  rw [withoutPrefix, List.find?_eq_none.mpr]
  intro scheme hscheme
  rw [hstart scheme (by revert scheme; decide)]
  decide

/-- The place of a character behind a text without it. -/
theorem idxOf?_append {c : Char} {front : Text} (behind : Text) (h : c ∉ front) :
    (front ++ c :: behind).idxOf? c = some front.length := by
  induction front with
  | nil => simp [List.idxOf?_cons]
  | cons d front ih =>
    have hd : d ≠ c := fun heq => h (heq ▸ List.mem_cons_self)
    rw [List.cons_append, List.idxOf?_cons, ih fun hmem => h (List.mem_cons_of_mem d hmem)]
    simp [hd]

theorem lastIndexOf_append {c : Char} (front : Text) {behind : Text} (h : c ∉ behind) :
    lastIndexOf c (front ++ c :: behind) = some front.length := by
  rw [lastIndexOf, List.reverse_append, List.reverse_cons, List.append_assoc, List.singleton_append,
    idxOf?_append _ (by simpa using h), Option.map_some]
  simp

/-- An endpoint of a plain host: the host in brackets if it has a colon, and the digits of the port behind a colon. -/
theorem buildEndpoint_eq {host : Text} (port : Int) (h : PlainHost host) :
    buildEndpoint host port = (if ':' ∈ host then '[' :: host ++ [']'] else host) ++ ':' :: intText port := by
  rw [buildEndpoint, h.formatHost_eq, List.append_assoc]
  split <;> rfl

theorem not_mem_intText {port : Int} (hport : 0 < port) {c : Char} (hc : c.isDigit = false) : c ∉ intText port := by
  intro hmem
  rw [isDigit_of_mem_intText hport c hmem] at hc
  nomatch hc

theorem PlainHost.not_bracketed {host : Text} (h : PlainHost host) (behind : Text) : "[".toList.isPrefixOf (host ++ behind) = false := by
  obtain ⟨c, rest, rfl⟩ := List.exists_cons_of_ne_nil h.nonempty
  have hne : '[' ≠ c := fun heq => h.not_mem (c := '[') (by decide) (heq ▸ List.mem_cons_self)
  simp [List.isPrefixOf, hne]

theorem normalizePublicEndpoint_build (net : DotNet) {host : Text} {port : Int} (h : PlainHost host) (hport : 0 < port) :
    normalizePublicEndpoint net (buildEndpoint host port) = buildEndpoint host port := by
  have hchars := isEndpointChar_of_mem_build h hport
  have htrim : trim (buildEndpoint host port) = buildEndpoint host port :=
    dropWhile_ends fun c hc => (not_isSpace_of_isEndpointChar (hchars c hc)).2
  have hslash : '/' ∉ buildEndpoint host port := fun hmem => absurd (hchars _ hmem) (by decide)
  have hslashes : trimChars ['/'] (buildEndpoint host port) = buildEndpoint host port :=
    dropWhile_ends fun c hc => by simpa using ne_of_mem_of_not_mem hc hslash
  have hblank : isBlank (buildEndpoint host port) = false := by
    rw [isBlank, List.all_eq_false]
    refine ⟨':', by simp [buildEndpoint_eq port h], by decide⟩
  simp only [normalizePublicEndpoint, hblank, htrim, withoutPrefix_eq hslash, hslashes, Bool.false_eq_true, if_false]
  rw [buildEndpoint_eq port h]
  by_cases hcolon : ':' ∈ host
  · have hclose : ']' ∉ '[' :: host := by
      simp [h.not_mem (c := ']') (by decide)]
    have hindex := idxOf?_append (':' :: intText port) hclose
    simp only [List.cons_append, List.length_cons] at hindex
    simp [hcolon, hindex]
  · have hopen := h.not_bracketed (':' :: intText port)
    have hcount : (host ++ ':' :: intText port).count ':' = 1 := by
      rw [List.count_append, List.count_eq_zero_of_not_mem hcolon, List.count_cons_self,
        List.count_eq_zero_of_not_mem (not_mem_intText hport (by decide))]
    simp only [hcolon, if_false, hopen, hcount, Bool.false_eq_true, Nat.one_ne_zero, gt_iff_lt, lt_irrefl, false_and]

theorem getEndpointHost_build (net : DotNet) {host : Text} {port : Int} (h : PlainHost host) (hport : 0 < port) :
    getEndpointHost net (buildEndpoint host port) = host := by
  simp only [getEndpointHost, normalizePublicEndpoint_build net h hport]
  rw [buildEndpoint_eq port h]
  have hpos : 0 < host.length := List.length_pos_iff.mpr h.nonempty
  by_cases hcolon : ':' ∈ host
  · have hclose : ']' ∉ '[' :: host := by
      simp [h.not_mem (c := ']') (by decide)]
    have hindex := idxOf?_append (':' :: intText port) hclose
    simp only [List.cons_append, List.length_cons] at hindex
    simp [hcolon, hindex, hpos]
  · have hopen := h.not_bracketed (':' :: intText port)
    have hindex := lastIndexOf_append host (not_mem_intText hport (c := ':') (by decide))
    simp only [hcolon, if_false, hopen, Bool.false_eq_true, hindex, gt_iff_lt, hpos, if_true, List.take_left]

/-- A port in decimal is read back. -/
theorem tryParseInt_intText {port : Int} (hport : 0 < port) (hle : port ≤ 65535) : tryParseInt (intText port) = some port := by
  have hdigits := isDigit_of_mem_intText hport
  have htrim : trim (intText port) = intText port := by
    refine dropWhile_ends fun c hc => (not_isSpace_of_isEndpointChar ?_).2
    simp [isEndpointChar, isHostChar, Char.isAlphanum, hdigits c hc]
  have hminus : '-' ∉ intText port := not_mem_intText hport (by decide)
  have hplus : '+' ∉ intText port := not_mem_intText hport (by decide)
  have hvalue : digitsValue (intText port) = port.toNat := by rw [intText_pos hport, digitsValue_toDigits]
  have hne : intText port ≠ [] := by
    rw [intText_pos hport]
    exact Nat.toDigits_ne_nil
  have hall : (intText port).all (·.isDigit) = true := List.all_eq_true.mpr hdigits
  have hfilter : (some port).filter (fun n : Int => -2 ^ 31 ≤ n ∧ n < 2 ^ 31) = some port := by
    rw [Option.filter_some, if_pos (decide_eq_true (by omega))]
  have hport' : Int.ofNat (digitsValue (intText port)) = port := by
    rw [hvalue]
    exact Int.toNat_of_nonneg (by omega)
  rw [tryParseInt, htrim]
  simp only []
  split
  · rename_i heq
    exact absurd (heq ▸ List.mem_cons_self) hminus
  · rename_i heq
    exact absurd (heq ▸ List.mem_cons_self) hplus
  · rw [if_pos ⟨hne, hall⟩, Option.map_some, hport']
    exact hfilter

theorem getEndpointPort_build (net : DotNet) {host : Text} {port : Int} (h : PlainHost host) (hport : 0 < port) (hle : port ≤ 65535) :
    getEndpointPort net (buildEndpoint host port) = port := by
  have hcolon : ':' ∉ intText port := not_mem_intText hport (by decide)
  simp only [getEndpointPort, normalizePublicEndpoint_build net h hport]
  rw [buildEndpoint_eq port h, lastIndexOf_append _ hcolon]
  generalize (if ':' ∈ host then '[' :: host ++ [']'] else host) = front
  have hdrop : (front ++ ':' :: intText port).drop (front.length + 1) = intText port := by simp
  simp only [hdrop, tryParseInt_intText hport hle, hport, hle, and_self, if_true]

/-! ## Hosts of the server -/

theorem isHostChar_of_isAddressChar {c : Char} (h : IsAddressChar c) : isHostChar c = true := by
  rcases h with h | rfl | rfl
  · have halnum : c.isAlphanum = true := by
      unfold hexDigitValue at h
      split at h
      · rename_i hdigit
        simp [Char.isAlphanum, hdigit]
      split at h
      · rename_i hlower
        have hle : c.isLower = true := Bool.and_eq_true_iff.mpr ⟨decide_eq_true hlower.1, decide_eq_true (UInt32.le_trans hlower.2 (by decide))⟩
        simp [Char.isAlphanum, Char.isAlpha, hle]
      split at h
      · rename_i hupper
        have hle : c.isUpper = true := decide_eq_true ⟨hupper.1, UInt32.le_trans hupper.2 (by decide)⟩
        simp [Char.isAlphanum, Char.isAlpha, hle]
      · cases h
    simp [isHostChar, halnum]
  · rfl
  · rfl

theorem isHostChar_of_matchesLabel {label : Text} (h : matchesLabel label = true) : ∀ c ∈ label, isHostChar c = true := by
  intro c hc
  have hall := List.all_eq_true.mp (of_decide_eq_true h).2.2.1 c hc
  rw [Bool.or_eq_true] at hall
  rcases hall with halnum | hhyphen
  · simp [isHostChar, halnum]
  · simp [isHostChar, of_decide_eq_true hhyphen]

/-- An address without a scope is a plain text. -/
theorem plainHost_of_ipAddress {host : Text} {address : IpAddress} (h : ipAddress host = some address) (hscope : address.scope = none) :
    PlainHost host := by
  refine ⟨?_, fun c hc => isHostChar_of_isAddressChar ((ipAddress_chars h).1 hscope c hc)⟩
  rintro rfl
  have hnone : ipAddress [] = none := by decide
  rw [hnone] at h
  nomatch h

/-- What is not stripped from the ends of a text is left in it. -/
theorem mem_ends {p : Char → Bool} {c : Char} {t : Text} (hc : c ∈ t) (hp : p c = false) :
    c ∈ ((t.dropWhile p).reverse.dropWhile p).reverse := by
  have hdrop : ∀ t : Text, c ∈ t → c ∈ t.dropWhile p := by
    intro t hc
    rw [← List.takeWhile_append_dropWhile (p := p) (l := t), List.mem_append] at hc
    rcases hc with hc | hc
    · rw [List.mem_takeWhile_imp hc] at hp
      nomatch hp
    · exact hc
  exact List.mem_reverse.mpr (hdrop _ (List.mem_reverse.mpr (hdrop t hc)))

/-- A host the server accepts is an address, in brackets or not, or a name of labels. -/
theorem validPublicHost_cases {value : Text} (h : validPublicHost value = true) :
    (∃ address, ipAddress (stripBrackets value) = some address) ∨
      (ipAddress (stripBrackets value) = none ∧ value ≠ [] ∧ value.length ≤ 253 ∧ ((stripDots value).splitOn '.').all matchesLabel = true) := by
  unfold validPublicHost at h
  split at h
  · nomatch h
  · rename_i hshape
    rw [Bool.or_eq_true] at h
    cases haddress : ipAddress (stripBrackets value) with
    | some address => exact .inl ⟨address, rfl⟩
    | none =>
      rw [haddress] at h
      exact .inr ⟨rfl, fun hempty => hshape (.inl hempty), by omega, h.resolve_left Bool.false_ne_true⟩

theorem plainHost_of_labels {value : Text} (hne : value ≠ []) (h : ((stripDots value).splitOn '.').all matchesLabel = true) :
    PlainHost value := by
  refine ⟨hne, fun c hc => ?_⟩
  by_cases hdot : c = '.'
  · subst hdot
    rfl
  · have hmem : c ∈ stripDots value := by
      have hrest : c ∈ value.reverse.dropWhile (· = '.') := by
        have hc' := List.mem_reverse.mpr hc
        rw [← List.takeWhile_append_dropWhile (p := (· = '.')) (l := value.reverse), List.mem_append] at hc'
        rcases hc' with hc' | hc'
        · exact absurd (by simpa using List.mem_takeWhile_imp hc') hdot
        · exact hc'
      exact List.mem_reverse.mpr hrest
    obtain ⟨label, hlabel, hin⟩ := mem_splitOn hmem hdot
    exact isHostChar_of_matchesLabel (List.all_eq_true.mp h label hlabel) c hin

/-- A name of labels that does not end in two dots is a domain name. -/
theorem isDomainName_of_labels {value : Text} (hlen : value.length ≤ 253) (h : ((stripDots value).splitOn '.').all matchesLabel = true)
    (hdots : ¬ ['.', '.'] <:+ value) : isDomainName value = true := by
  have hstrip : stripDots value = if value.getLast? = some '.' then value.dropLast else value := by
    rcases List.eq_nil_or_concat value with rfl | ⟨front, last, rfl⟩
    · rfl
    rw [stripDots, List.concat_eq_append, List.reverse_append, List.reverse_singleton, List.singleton_append, List.getLast?_concat,
      List.dropLast_concat]
    by_cases hlast : last = '.'
    · subst hlast
      rw [if_pos rfl, List.dropWhile_cons_of_pos (by simp)]
      rcases List.eq_nil_or_concat front with rfl | ⟨front', last', rfl⟩
      · rfl
      have hne : last' ≠ '.' := by
        rintro rfl
        exact hdots ⟨front', by simp⟩
      rw [List.concat_eq_append, List.reverse_append, List.reverse_singleton, List.singleton_append,
        List.dropWhile_cons_of_neg (by simp [hne])]
      simp
    · rw [if_neg (by simpa using hlast), List.dropWhile_cons_of_neg (by simp [hlast])]
      simp
  rw [isDomainName, ← hstrip, h, decide_eq_true hlen]
  rfl

/-- What the server takes as its host: a plain text in brackets or not, or an address with a scope. -/
theorem strip_publicHost {value : Text} (h : PlainHost (stripBrackets value)) : strip value = value := by
  refine dropWhile_ends fun c hc => ?_
  by_cases hbracket : c = '[' ∨ c = ']'
  · rcases hbracket with rfl | rfl <;> rfl
  · have hmem : c ∈ stripBrackets value := mem_ends hc (decide_eq_false hbracket)
    exact (not_isSpace_of_isEndpointChar (h.isEndpointChar c hmem)).1

theorem stripBrackets_plain {host : Text} (h : PlainHost host) : stripBrackets host = host := by
  refine dropWhile_ends fun c hc => decide_eq_false ?_
  rintro (rfl | rfl)
  · exact absurd hc (h.not_mem (by decide))
  · exact absurd hc (h.not_mem (by decide))

/-- The endpoint that the server tells is that of its host, if this is a plain text between its brackets. -/
theorem payload_endpoint {config : ServerConfig} (h : PlainHost (stripBrackets config.server.publicHost)) :
    (networkBootstrapPayload config).publicEndpoint =
      buildEndpoint (stripBrackets config.server.publicHost) config.network.publicPort := by
  rw [buildEndpoint, h.formatHost_eq]
  simp only [networkBootstrapPayload, strip_publicHost h]

/-! ## The configuration -/

/-- What a check that finds no error has seen. -/
structure Checked (config : ServerConfig) : Prop where
  host : validPublicHost config.server.publicHost = true
  texts : ∀ field ∈ config.textFields, '\u0000' ∉ field.2 ∧ '\r' ∉ field.2 ∧ '\n' ∉ field.2
  ports : ∀ port ∈ config.ports, 1 ≤ port.2 ∧ port.2 ≤ 65535
  secret : 24 ≤ config.network.secret.length

theorem errorUnless_eq_nil {holds : Bool} {error : String} (h : errorUnless holds error = []) : holds = true := by
  cases holds with
  | true => rfl
  | false => nomatch h

theorem checked_of_validate {config : ServerConfig} (h : config.validate = .ok []) : Checked config := by
  unfold ServerConfig.validate at h
  cases hnetwork : networkErrors config.network with
  | error e =>
    rw [hnetwork] at h
    nomatch h
  | ok errors =>
    rw [hnetwork] at h
    have hnil := Except.ok.inj h
    simp only [List.append_eq_nil_iff] at hnil
    obtain ⟨⟨⟨⟨⟨⟨⟨⟨⟨⟨htexts, hhost⟩, -⟩, hports⟩, -⟩, -⟩, -⟩, hsecret⟩, -⟩, -⟩, -⟩ := hnil
    refine ⟨errorUnless_eq_nil hhost, fun field hfield => ?_, fun port hport => ?_, of_decide_eq_true (errorUnless_eq_nil hsecret)⟩
    · have hnone := List.flatMap_eq_nil_iff.mp htexts field hfield
      split at hnone
      · nomatch hnone
      · rename_i hany
        simp only [List.any_eq_true, Bool.or_eq_true, decide_eq_true_eq, not_exists, not_and, not_or] at hany
        exact ⟨fun hmem => (hany _ hmem).1.1 rfl, fun hmem => (hany _ hmem).1.2 rfl, fun hmem => (hany _ hmem).2 rfl⟩
    · have hnone := List.flatMap_eq_nil_iff.mp hports port hport
      split at hnone
      · assumption
      · nomatch hnone

/-! ## The files of the services -/

theorem not_mem_intText_of_ne {n : Int} {c : Char} (hdigit : c.isDigit = false) (hminus : c ≠ '-') : c ∉ intText n := by
  have hdigits : ∀ m, c ∉ Nat.toDigits 10 m := by
    intro m hmem
    rw [Nat.isDigit_of_mem_toDigits (by decide) (by decide) hmem] at hdigit
    nomatch hdigit
  cases n with
  | ofNat m => exact hdigits m
  | negSucc m => exact fun hmem => (List.mem_cons.mp hmem).elim hminus (hdigits _)

/-- A value that can stand in a file of variables. -/
def OneLine (value : Text) : Prop := '\u0000' ∉ value ∧ '\r' ∉ value ∧ '\n' ∉ value

theorem oneLine_intText (n : Int) : OneLine (intText n) :=
  ⟨not_mem_intText_of_ne rfl (by decide), not_mem_intText_of_ne rfl (by decide), not_mem_intText_of_ne rfl (by decide)⟩

instance (value : Text) : Decidable (OneLine value) := inferInstanceAs (Decidable (_ ∧ _ ∧ _))

theorem envQ_eq {value : Text} (h : OneLine value) : envQ value = .ok ("\"".toList ++ value.flatMap environmentEscape ++ "\"".toList) := by
  rw [envQ, if_neg]
  intro hany
  simp only [List.any_eq_true, Bool.or_eq_true, decide_eq_true_eq] at hany
  obtain ⟨c, hc, (rfl | rfl) | rfl⟩ := hany
  · exact h.1 hc
  · exact h.2.1 hc
  · exact h.2.2 hc

theorem oneLine_runtimeValues {config : ServerConfig} (h : Checked config) : ∀ item ∈ runtimeValues config managerVersion, OneLine item.2 := by
  have htext : ∀ value ∈ config.textFields.map Prod.snd, OneLine value := by
    intro value hvalue
    obtain ⟨field, hfield, rfl⟩ := List.mem_map.mp hvalue
    exact h.texts field hfield
  have hflag : ∀ b : Bool, OneLine (if b = true then ['y'] else ['n']) := by decide
  simp only [runtimeValues, List.forall_mem_cons]
  refine ⟨by decide, htext _ ?_, oneLine_intText _, htext _ ?_, by decide, by decide, hflag _, oneLine_intText _, htext _ ?_,
    oneLine_intText _, oneLine_intText _, oneLine_intText _, hflag _, htext _ ?_, fun _ hmem => nomatch hmem⟩
  all_goals simp [ServerConfig.textFields]

/-- The control plane reads the secret exactly if it has no control characters. -/
theorem controlPlaneSecret_eq {config : ServerConfig} (h : Checked config) :
    ∃ text, renderRuntimeEnv config managerVersion = .ok text ∧
      Dict.get (readEnvironment text) "SCBL_SECRET".toList = (some config.network.secret).filter (fun secret => !secret.any isControl) := by
  have hvalues := oneLine_runtimeValues h
  have hkeys : ∀ key ∈ (runtimeValues config managerVersion).map Prod.fst, '=' ∉ key ∧ '\n' ∉ key := by
    simp only [runtimeValues, List.map_cons, List.map_nil]
    decide
  have hnodup : ((runtimeValues config managerVersion).map Prod.fst).Nodup := by
    simp only [runtimeValues, List.map_cons, List.map_nil]
    decide
  have hget : Dict.get (runtimeValues config managerVersion) "SCBL_SECRET".toList = some config.network.secret := rfl
  unfold renderRuntimeEnv
  generalize runtimeValues config managerVersion = items at hvalues hkeys hnodup hget
  have hlines : items.mapM (fun item => (envQ item.2).map (fun value => item.1 ++ "=".toList ++ value ++ ['\n'])) =
      .ok (items.map (fun item => assignmentLine item ++ ['\n'])) := by
    clear hkeys hnodup hget
    induction items with
    | nil => rfl
    | cons item items ih =>
      obtain ⟨hitem, hitems⟩ := List.forall_mem_cons.mp hvalues
      rw [List.mapM_cons, envQ_eq hitem, ih hitems]
      simp [assignmentLine, Except.map, bind, Except.bind, pure, Except.pure]
  refine ⟨items.flatMap (fun item => assignmentLine item ++ ['\n']), ?_, ?_⟩
  · rw [hlines, List.flatMap_def]
    rfl
  · rw [readEnvironment_lines fun item hitem => ⟨(hkeys _ (List.mem_map_of_mem hitem)).1, (hkeys _ (List.mem_map_of_mem hitem)).2,
      (hvalues item hitem).2.2⟩, Dict.get_filter _ hnodup, hget]

/-- EasyTier reads the secret, if it has no control characters. -/
theorem easytierSecret_eq {config : ServerConfig} (h : ∀ c ∈ config.network.secret, isControl c = false) :
    tomlString "network_secret".toList (renderEasytierConfig config) = some config.network.secret := by
  have hint : ∀ n : Int, '\n' ∉ intText n := fun n => not_mem_intText_of_ne rfl (by decide)
  have hlist : ∀ values, '\n' ∉ quoteList values := by
    intro values
    cases values with
    | nil => decide
    | cons value values => simp [quoteList, q, newline_not_mem_jsonQuote]
  have hlines : ∀ line ∈ easytierLines config, '\n' ∉ line := by
    simp [easytierLines, q, newline_not_mem_jsonQuote, hint, hlist]
  rw [tomlString, renderEasytierConfig, splitOn_lines hlines]
  have hline : (((easytierLines config).map (fun line => line) ++ [[]]).filter
      (("network_secret".toList ++ " = \"".toList).isPrefixOf ·)).head? = some ("network_secret = ".toList ++ q config.network.secret) := rfl
  rw [hline]
  exact readBasicString_jsonQuote h

/-! ## Settings -/

theorem endpointUri_eq_some {net : DotNet} {endpoint : Text} {uri : Uri} (h : endpointUri net endpoint = some uri) :
    net.tryCreateUri ("tcp://".toList ++ normalizePublicEndpoint net endpoint) = some uri ∧ 0 < uri.port ∧ uri.port ≤ 65535 ∧
      net.checkHostName (trimBrackets uri.host) = true := by
  rw [endpointUri, Option.filter_eq_some_iff, Bool.and_eq_true, Bool.and_eq_true] at h
  obtain ⟨hcreate, ⟨-, hport⟩, hname⟩ := h
  exact ⟨hcreate, (of_decide_eq_true hport).1, (of_decide_eq_true hport).2, hname⟩

/-- Settings come of a URI whose host is known, and of a secret and a name that were trimmed and checked. -/
theorem settingsOf_eq_some {net : DotNet} {bootstrap : NetworkBootstrap} {settings : NetworkBootstrapSettings}
    (h : settingsOf net bootstrap = some settings) :
    ∃ uri, endpointUri net (withoutPrefix (trim bootstrap.publicEndpoint)) = some uri ∧
      settings.publicEndpoint = buildEndpoint (trimBrackets uri.host) uri.port ∧
      settings.tunnelSecret = trim bootstrap.tunnelSecret ∧ utf16Length (trim bootstrap.tunnelSecret) ≤ 256 ∧
      settings.easyTierNetworkName = trim bootstrap.easyTierNetworkName ∧
      matchesNetworkName (trim bootstrap.easyTierNetworkName) = true := by
  unfold settingsOf tryCreate at h
  split at h
  · nomatch h
  split at h
  · nomatch h
  rename_i validated hvalidated
  simp only [Option.getD_some] at h hvalidated
  split at h
  · nomatch h
  rename_i hchecks
  obtain rfl := Option.some.inj h
  have huri : ∃ uri, endpointUri net (withoutPrefix (trim bootstrap.publicEndpoint)) = some uri ∧
      validated.publicEndpoint = buildEndpoint (trimBrackets uri.host) uri.port := by
    simp only [tryValidate] at hvalidated
    split at hvalidated
    · nomatch hvalidated
    split at hvalidated
    · nomatch hvalidated
    split at hvalidated
    · nomatch hvalidated
    rename_i uri huri
    split at hvalidated
    · nomatch hvalidated
    · obtain rfl := Except.ok.inj hvalidated
      exact ⟨uri, huri, rfl⟩
  obtain ⟨uri, huri, hendpoint⟩ := huri
  refine ⟨uri, huri, hendpoint, rfl, by omega, rfl, ?_⟩
  by_contra hname
  exact hchecks (.inr (.inr (.inr (.inl hname))))

/-- A bootstrap with the endpoint of a plain host is accepted if its URI can be used and the rest passes the checks as it is. -/
theorem settingsOf_build {net : DotNet} {bootstrap : NetworkBootstrap} {host : Text} {port : Int} {uri : Uri} (hhost : PlainHost host)
    (hschema : bootstrap.schemaVersion = 1) (hendpoint : bootstrap.publicEndpoint = buildEndpoint host port) (hport : 0 < port)
    (hupdate : 0 < bootstrap.publicUpdatePort ∧ bootstrap.publicUpdatePort ≤ 65535)
    (hwss : 0 < bootstrap.easyTierWssPort ∧ bootstrap.easyTierWssPort ≤ 65535)
    (huri : endpointUri net (buildEndpoint host port) = some uri)
    (hsecret : trim bootstrap.tunnelSecret = bootstrap.tunnelSecret) (hlong : 16 ≤ utf16Length bootstrap.tunnelSecret)
    (hshort : utf16Length bootstrap.tunnelSecret ≤ 256) (hline : OneLine bootstrap.tunnelSecret)
    (hname : matchesNetworkName bootstrap.easyTierNetworkName = true) :
    settingsOf net bootstrap =
      some
        { publicEndpoint := buildEndpoint (trimBrackets uri.host) uri.port, publicUpdatePort := bootstrap.publicUpdatePort
          tunnelSecret := bootstrap.tunnelSecret, easyTierNetworkName := bootstrap.easyTierNetworkName
          easyTierWssPort := bootstrap.easyTierWssPort } := by
  have hchars := isEndpointChar_of_mem_build hhost hport
  have htrim : trim (buildEndpoint host port) = buildEndpoint host port :=
    dropWhile_ends fun c hc => (not_isSpace_of_isEndpointChar (hchars c hc)).2
  have hnot : ∀ c, isEndpointChar c = false → c ∉ buildEndpoint host port := fun c hc hmem => by
    rw [hchars c hmem] at hc
    nomatch hc
  have hblank : isBlank (buildEndpoint host port) = false := by
    rw [isBlank, List.all_eq_false]
    exact ⟨':', by simp [buildEndpoint_eq port hhost], by decide⟩
  have hforbidden : (buildEndpoint host port).any (['/', '?', '#', '@'].contains ·) = false := by
    rw [List.any_eq_false]
    intro c hc hforbidden
    have hcases : c = '/' ∨ c = '?' ∨ c = '#' ∨ c = '@' := by simpa using hforbidden
    have hplain : isEndpointChar c = false := by
      rcases hcases with rfl | rfl | rfl | rfl <;> rfl
    exact hnot c hplain hc
  have hupdateText : trim (intText bootstrap.publicUpdatePort) = intText bootstrap.publicUpdatePort := by
    refine dropWhile_ends fun c hc => (not_isSpace_of_isEndpointChar ?_).2
    simp [isEndpointChar, isHostChar, Char.isAlphanum, isDigit_of_mem_intText hupdate.1 c hc]
  have hvalidate : tryValidate net bootstrap.publicEndpoint (intText bootstrap.publicUpdatePort) =
      .ok { publicEndpoint := buildEndpoint (trimBrackets uri.host) uri.port, tunnelPort := uri.port
            updatePort := bootstrap.publicUpdatePort } := by
    have hfilter : (some bootstrap.publicUpdatePort).filter (fun port => decide (0 < port ∧ port ≤ 65535)) =
        some bootstrap.publicUpdatePort := by
      rw [Option.filter_some, if_pos (decide_eq_true hupdate)]
    simp only [tryValidate, hendpoint, htrim, hblank, withoutPrefix_eq (hnot '/' rfl), hforbidden, huri, hupdateText,
      tryParseInt_intText hupdate.1 hupdate.2, hfilter, Bool.false_eq_true, if_false]
  have hnameTrim : trim bootstrap.easyTierNetworkName = bootstrap.easyTierNetworkName := by
    refine dropWhile_ends fun c hc => ?_
    have hc' := List.all_eq_true.mp (of_decide_eq_true hname).2.2 c hc
    simp only [Bool.or_eq_true, decide_eq_true_eq] at hc'
    rcases hc' with ((halnum | rfl) | rfl) | rfl
    · exact (not_isSpace_of_isEndpointChar (by simp [isEndpointChar, isHostChar, halnum])).2
    all_goals decide
  have hlines : bootstrap.tunnelSecret.any (['\u0000', '\r', '\n'].contains ·) = false := by
    rw [List.any_eq_false]
    intro c hc hmem
    have hcases : c = '\u0000' ∨ c = '\r' ∨ c = '\n' := by simpa using hmem
    rcases hcases with rfl | rfl | rfl
    · exact hline.1 hc
    · exact hline.2.1 hc
    · exact hline.2.2 hc
  unfold settingsOf tryCreate
  rw [if_neg (by simpa using hschema)]
  simp only [Option.getD_some, hvalidate, hsecret, hnameTrim]
  rw [if_neg]
  rintro (h | h | h | h | h | h)
  · omega
  · omega
  · rw [hlines] at h
    nomatch h
  · exact h hname
  · omega
  · omega

/-- The units of a text are no fewer than its characters. -/
theorem length_le_utf16Length (t : Text) : t.length ≤ utf16Length t := by
  induction t with
  | nil => exact Nat.le_refl _
  | cons c t ih =>
    rw [utf16Length, List.map_cons, List.sum_cons, ← utf16Length, List.length_cons]
    split <;> omega

/-! ## Names and addresses that are told apart -/

theorem mem_of_ends {p : Char → Bool} {c : Char} {t : Text} (h : c ∈ ((t.dropWhile p).reverse.dropWhile p).reverse) : c ∈ t := by
  have h' := (List.dropWhile_sublist p).subset (List.mem_reverse.mp h)
  exact (List.dropWhile_sublist p).subset (List.mem_reverse.mp h')

theorem mem_of_trim {c : Char} {t : Text} (h : c ∈ trim t) : c ∈ t := mem_of_ends h

theorem mem_of_trimBrackets {c : Char} {t : Text} (h : c ∈ trimBrackets t) : c ∈ t := mem_of_ends h

theorem mem_of_withoutPrefix {endpoint : Text} {c : Char} (h : c ∈ withoutPrefix endpoint) : c ∈ endpoint := by
  unfold withoutPrefix at h
  split at h
  · exact List.mem_of_mem_drop h
  · exact h

/-- What the launcher puts in the place of a blank endpoint, and what it adds to one without a port. -/
def fixedParts : Text := defaultPublicEndpoint ++ "[]".toList ++ (":".toList ++ intText defaultTunnelPort)

theorem mem_normalizePublicEndpoint {net : DotNet} {endpoint : Text} {c : Char} (h : c ∈ normalizePublicEndpoint net endpoint) :
    c ∈ endpoint ∨ c ∈ fixedParts := by
  have hdefault : ∀ t, (c ∈ t → c ∈ endpoint ∨ c ∈ fixedParts) →
      c ∈ (if isBlank t then defaultPublicEndpoint else t) → c ∈ endpoint ∨ c ∈ fixedParts := by
    intro t ht hc
    split at hc
    · exact .inr (List.mem_append_left _ (List.mem_append_left _ hc))
    · exact ht hc
  have hparts : c ∈ ":".toList ++ intText defaultTunnelPort → c ∈ fixedParts := List.mem_append_right _
  simp only [normalizePublicEndpoint] at h
  generalize hfirst : (if isBlank endpoint then defaultPublicEndpoint else trim endpoint) = first at h
  have hin : c ∈ first → c ∈ endpoint ∨ c ∈ fixedParts := by
    intro hc
    rw [← hfirst] at hc
    split at hc
    · exact .inr (List.mem_append_left _ (List.mem_append_left _ hc))
    · exact .inl (mem_of_ends hc)
  generalize hsecond : trimChars ['/'] (trim (withoutPrefix first)) = second at h
  have hin' : c ∈ second → c ∈ endpoint ∨ c ∈ fixedParts := by
    intro hc
    rw [← hsecond] at hc
    exact hin (mem_of_withoutPrefix (mem_of_ends (mem_of_ends hc)))
  generalize hthird : (if isBlank second then defaultPublicEndpoint else second) = third at h
  have hin'' : c ∈ third → c ∈ endpoint ∨ c ∈ fixedParts := fun hc => hdefault second hin' (hthird ▸ hc)
  split at h
  · split at h
    · split at h
      · exact (List.mem_append.mp h).elim hin'' fun hc => .inr (hparts hc)
      · exact hin'' h
    · exact hin'' h
  · split at h
    · exact (List.mem_append.mp h).elim hin'' fun hc => .inr (hparts hc)
    split at h
    · rw [List.mem_append, List.mem_append, List.mem_append] at h
      rcases h with ((hc | hc) | hc) | hc
      · rw [List.mem_singleton.mp hc]
        exact .inr (by decide)
      · exact hin'' hc
      · rw [List.mem_singleton.mp hc]
        exact .inr (by decide)
      · exact .inr (hparts hc)
    · exact hin'' h

/-- What an endpoint's host is made of stands in the endpoint, or in what is put in its place or added to it. -/
theorem mem_getEndpointHost {net : DotNet} {endpoint : Text} {c : Char} (h : c ∈ getEndpointHost net endpoint) :
    c ∈ endpoint ∨ c ∈ fixedParts := by
  refine @mem_normalizePublicEndpoint net _ _ ?_
  simp only [getEndpointHost] at h
  split at h
  · split at h
    · split at h
      · exact List.mem_of_mem_take (List.mem_of_mem_drop h)
      · exact h
    · exact h
  · split at h
    · split at h
      · exact List.mem_of_mem_take h
      · exact h
    · exact h

theorem trimBrackets_eq_stripBrackets (host : Text) : trimBrackets host = stripBrackets host := by
  have hp : ['[', ']'].contains = fun c : Char => decide (c = '[' ∨ c = ']') := by
    funext c
    simp
  rw [trimBrackets, trimChars, hp]
  rfl

theorem hostValue_address {host : Text} {address : IpAddress} (h : hostValue host = .address address) :
    ipAddress (stripBrackets host) = some address := by
  unfold hostValue at h
  split at h
  · rename_i haddress
    rw [haddress, HostValue.address.inj h]
  · nomatch h

theorem hostValue_name {host name : Text} (h : hostValue host = .name name) :
    ipAddress (stripBrackets host) = none ∧ (stripBrackets host).map Char.toLower = name := by
  unfold hostValue at h
  split at h
  · nomatch h
  · rename_i hnone
    exact ⟨hnone, HostValue.name.inj h⟩

theorem toLower_eq_dot {c : Char} (h : c.toLower = '.') : c = '.' := by
  unfold Char.toLower at h
  split at h
  · rename_i hupper
    have hlow : 65 ≤ c.toNat := UInt32.le_iff_toNat_le.mp hupper.1
    have hhigh : c.toNat ≤ 90 := UInt32.le_iff_toNat_le.mp hupper.2
    have hall : ∀ n : Fin 91, 65 ≤ n.val → (Char.ofNat n).toLower ≠ '.' := by decide
    have hnot := hall ⟨c.toNat, by omega⟩ hlow
    rw [Char.ofNat_toNat] at hnot
    exact absurd (by rw [Char.toLower, dif_pos hupper]; exact h) hnot
  · exact h

/-- Texts that are the same without regard to case end in two dots together. -/
theorem dots_suffix_of_lower {host name : Text} (h : host.map Char.toLower = name.map Char.toLower) (hdots : ['.', '.'] <:+ name) :
    ['.', '.'] <:+ host := by
  obtain ⟨front, rfl⟩ := hdots
  have hmap : host.map Char.toLower = front.map Char.toLower ++ ['.', '.'] := by
    rw [h, List.map_append]
    rfl
  obtain ⟨front', behind, rfl, -, hbehind⟩ := List.map_eq_append_iff.mp hmap
  obtain ⟨c, rest, rfl, hc, hrest⟩ := List.map_eq_cons_iff.mp hbehind
  obtain ⟨d, rest', rfl, hd, hnil⟩ := List.map_eq_cons_iff.mp hrest
  rw [toLower_eq_dot hc, toLower_eq_dot hd, List.map_eq_nil_iff.mp hnil]
  exact ⟨front', rfl⟩

/-- A host with a scope is not the host that the launcher is told of. -/
theorem no_scope {net : DotNet} (hnet : ReadsHosts net) {config : ServerConfig} {settings : NetworkBootstrapSettings} {address : IpAddress}
    (hset : settingsOf net (networkBootstrapPayload config) = some settings)
    (hhost : hostValue (getEndpointHost net settings.publicEndpoint) = .address address) : address.scope = none := by
  by_contra hscope
  have hmem : '%' ∈ getEndpointHost net settings.publicEndpoint :=
    mem_of_trimBrackets (trimBrackets_eq_stripBrackets _ ▸ (ipAddress_chars (hostValue_address hhost)).2 hscope)
  obtain ⟨uri, huri, hendpoint, -⟩ := settingsOf_eq_some hset
  obtain ⟨hcreate, hport, -, hname⟩ := endpointUri_eq_some huri
  have hnot : '%' ∉ trimBrackets uri.host := fun h => hnet.scopeless _ uri hcreate hname (mem_of_trimBrackets h)
  rcases mem_getEndpointHost hmem with h | h
  · rw [hendpoint, buildEndpoint, List.mem_append, List.mem_append] at h
    rcases h with (h | h) | h
    · unfold formatHost at h
      have hinner : '%' ∉ trimBrackets (trim (trimBrackets uri.host)) := fun h => hnot (mem_of_trim (mem_of_trimBrackets h))
      simp only [] at h
      split at h
      · rw [List.mem_append, List.mem_append] at h
        rcases h with (h | h) | h
        · exact absurd h (by decide)
        · exact hinner h
        · exact absurd h (by decide)
      · exact hinner h
    · exact absurd h (by decide)
    · exact not_mem_intText hport (by decide) h
  · exact absurd h (by decide)

/-- A name that ends in two dots is not the host that the launcher is told of. -/
theorem no_dots {net : DotNet} (hnet : ReadsHosts net) {config : ServerConfig} {settings : NetworkBootstrapSettings}
    (hplain : PlainHost config.server.publicHost) (hname : ipAddress (stripBrackets config.server.publicHost) = none)
    (hport : 0 < config.network.publicPort) (hset : settingsOf net (networkBootstrapPayload config) = some settings)
    (hhost : hostValue (getEndpointHost net settings.publicEndpoint) = hostValue config.server.publicHost) :
    ¬ ['.', '.'] <:+ config.server.publicHost := by
  intro hdots
  have hstrip := stripBrackets_plain hplain
  have hendpoint : (networkBootstrapPayload config).publicEndpoint =
      buildEndpoint config.server.publicHost config.network.publicPort := by
    rw [payload_endpoint (by rw [hstrip]; exact hplain), hstrip]
  have hchars := isEndpointChar_of_mem_build hplain hport
  have htrim : trim (buildEndpoint config.server.publicHost config.network.publicPort) =
      buildEndpoint config.server.publicHost config.network.publicPort :=
    dropWhile_ends fun c hc => (not_isSpace_of_isEndpointChar (hchars c hc)).2
  obtain ⟨uri, huri, hsettings, -⟩ := settingsOf_eq_some hset
  rw [hendpoint, htrim, withoutPrefix_eq fun hmem => absurd (hchars _ hmem) (by decide)] at huri
  obtain ⟨hcreate, hport', -, hknown⟩ := endpointUri_eq_some huri
  rw [normalizePublicEndpoint_build net hplain hport] at hcreate
  obtain ⟨hplain', hnodots⟩ := hnet.plain _ _ uri hplain hcreate hknown
  rw [hsettings, getEndpointHost_build net hplain' hport'] at hhost
  have hvalue : hostValue config.server.publicHost = .name (config.server.publicHost.map Char.toLower) := by
    rw [hostValue, hname, hstrip]
  obtain ⟨hnone, hlower⟩ := hostValue_name (hhost.trans hvalue)
  rw [stripBrackets_plain hplain'] at hnone hlower
  exact hnodots hnone (dots_suffix_of_lower hlower hdots)

/-- The URI of a plain endpoint can be used if it is parsed into a known host and a port. -/
theorem endpointUri_build {net : DotNet} (hnet : ReadsHosts net) {host : Text} {port : Int} (hplain : PlainHost host) (hhost : IsHost host)
    (hport : 0 < port) (hle : port ≤ 65535) :
    ∃ uri, endpointUri net (buildEndpoint host port) = some uri ∧ uri.port = port ∧ PlainHost (trimBrackets uri.host) ∧
      hostValue (trimBrackets uri.host) = hostValue host := by
  obtain ⟨uri, hcreate, rfl, hvalue, hknown⟩ := hnet.reads host port hhost hport hle
  obtain ⟨hplain', -⟩ := hnet.plain _ _ uri hplain hcreate hknown
  have hblank : isBlank uri.host = false := by
    obtain ⟨c, hc⟩ := List.exists_mem_of_ne_nil _ hplain'.nonempty
    rw [isBlank, List.all_eq_false]
    exact ⟨c, mem_of_trimBrackets hc, by simp [(not_isSpace_of_isEndpointChar (hplain'.isEndpointChar c hc)).2]⟩
  have hsame : hostValue (trimBrackets uri.host) = hostValue uri.host := by
    rw [trimBrackets_eq_stripBrackets] at hplain' ⊢
    simp only [hostValue, stripBrackets_plain hplain']
  refine ⟨uri, ?_, rfl, hplain', hsame.trans hvalue⟩
  rw [endpointUri, normalizePublicEndpoint_build net hplain hport, hcreate, Option.filter_some, if_pos]
  simp [hblank, hport, hle, hknown]

/-- A parser of hosts and ports that knows plain hosts. -/
def simpleNet : DotNet where
  tryCreateUri text :=
    let endpoint := text.drop 6
    (lastIndexOf ':' endpoint).bind (fun i => (tryParseInt (endpoint.drop (i + 1))).map (fun port => { host := endpoint.take i, port }))
  checkHostName host := host ≠ [] && host.all isHostChar && ((ipAddress host).isSome || !(['.', '.'].isSuffixOf host))
  isIpv6Address host := (ipAddress host).any (·.version = .v6)

/-- A separator at the end leaves an empty piece. -/
theorem splitOn_concat (sep : Char) (t : Text) : (t ++ [sep]).splitOn sep = t.splitOn sep ++ [[]] := by
  rw [List.splitOn_eq_splitOnP, List.splitOn_eq_splitOnP]
  induction t with
  | nil => simp [List.splitOnP_cons_eq_if_modifyHead]
  | cons c t ih =>
    rw [List.cons_append, List.splitOnP_cons_eq_if_modifyHead, List.splitOnP_cons_eq_if_modifyHead, ih]
    split
    · rfl
    · obtain ⟨first, rest, hsplit⟩ := List.exists_cons_of_ne_nil (List.splitOnP_ne_nil (· == sep) t)
      rw [hsplit]
      rfl

theorem isHost_spec {host : Text} (h : IsHost host) : PlainHost host ∧ (ipAddress host = none → ¬ ['.', '.'] <:+ host) := by
  rcases h with h | ⟨address, haddress, hscope⟩
  · rw [isDomainName, Bool.and_eq_true] at h
    obtain ⟨-, hlabels⟩ := h
    have hlabel : matchesLabel [] = false := rfl
    have hempty : [] ∉ ((if host.getLast? = some '.' then host.dropLast else host).splitOn '.') := fun hmem => by
      rw [List.all_eq_true.mp hlabels [] hmem] at hlabel
      nomatch hlabel
    refine ⟨⟨?_, fun c hc => ?_⟩, fun _ hdots => ?_⟩
    · rintro rfl
      exact hempty (by decide)
    · by_cases hdot : c = '.'
      · subst hdot
        rfl
      · have hmem : c ∈ (if host.getLast? = some '.' then host.dropLast else host) := by
          split
          · rename_i hlast
            obtain ⟨front, rfl⟩ := List.getLast?_eq_some_iff.mp hlast
            rw [List.dropLast_concat]
            exact (List.mem_append.mp hc).resolve_right fun hlast => hdot (List.mem_singleton.mp hlast)
          · exact hc
        obtain ⟨label, hin, hclabel⟩ := mem_splitOn hmem hdot
        exact isHostChar_of_matchesLabel (List.all_eq_true.mp hlabels label hin) c hclabel
    · obtain ⟨front, rfl⟩ := hdots
      have hfront : front ++ ['.', '.'] = (front ++ ['.']) ++ ['.'] := by simp
      rw [hfront, List.getLast?_concat, if_pos rfl, List.dropLast_concat, splitOn_concat] at hempty
      exact hempty (List.mem_append_right _ List.mem_cons_self)
  · refine ⟨plainHost_of_ipAddress haddress hscope, fun hnone => ?_⟩
    rw [haddress] at hnone
    nomatch hnone

theorem readsHosts_simpleNet : ReadsHosts simpleNet := by
  have hknown : ∀ host, simpleNet.checkHostName host = true ↔
      PlainHost host ∧ (ipAddress host = none → ¬ ['.', '.'] <:+ host) := by
    intro host
    have hdots : ['.', '.'].isSuffixOf host = true ↔ ['.', '.'] <:+ host := List.isSuffixOf_iff_suffix
    simp only [simpleNet, Bool.and_eq_true, decide_eq_true_eq, List.all_eq_true, Bool.or_eq_true, Bool.not_eq_true', ← Bool.not_eq_true, hdots]
    constructor
    · rintro ⟨⟨hne, hchars⟩, h⟩
      refine ⟨⟨hne, hchars⟩, fun hnone => ?_⟩
      rw [hnone] at h
      exact h.resolve_left Bool.false_ne_true
    · rintro ⟨⟨hne, hchars⟩, h⟩
      refine ⟨⟨hne, hchars⟩, ?_⟩
      cases haddress : ipAddress host with
      | none => exact .inr (h haddress)
      | some address => exact .inl rfl
  refine ⟨fun host port hhost hport hle => ?_, fun host port uri _ _ h => (hknown _).mp h, fun text uri _ h hmem => ?_⟩
  · obtain ⟨hplain, hdots⟩ := isHost_spec hhost
    have htrim : trimBrackets (if ':' ∈ host then '[' :: host ++ [']'] else host) = host := by
      split
      · exact @dropWhile_ends_append ['[', ']'].contains host ['['] [']'] (by simp) (by simp) hplain.not_bracket
      · exact hplain.trimBrackets_eq
    refine ⟨{ host := if ':' ∈ host then '[' :: host ++ [']'] else host, port }, ?_, rfl, ?_, ?_⟩
    · have hdrop : ("tcp://".toList ++ buildEndpoint host port).drop 6 = buildEndpoint host port := rfl
      have hindex := lastIndexOf_append (if ':' ∈ host then '[' :: host ++ [']'] else host) (not_mem_intText hport (c := ':') (by decide))
      simp only [simpleNet, hdrop]
      rw [buildEndpoint_eq port hplain, hindex, Option.bind_some, List.take_left]
      generalize (if ':' ∈ host then '[' :: host ++ [']'] else host) = front
      have hport' : (front ++ ':' :: intText port).drop (front.length + 1) = intText port := by simp
      rw [hport', tryParseInt_intText hport hle]
      rfl
    · simp only [hostValue, ← trimBrackets_eq_stripBrackets, htrim, hplain.trimBrackets_eq]
    · rw [htrim]
      exact (hknown host).mpr ⟨hplain, hdots⟩
  · have hmem' : '%' ∈ trimBrackets uri.host := mem_ends hmem rfl
    exact ((hknown _).mp h).1.not_mem rfl hmem'

/-- A configuration whose values reach the launcher as they are. -/
def sampleConfig : ServerConfig := .new "sc6.example.com".toList "server-specific-network-secret".toList

end Scbl.Manager
