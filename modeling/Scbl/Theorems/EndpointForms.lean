import Scbl.Theorems.Bootstrap

/-!
# Endpoints that are read as they are normalised

For which texts the host and the port that the launcher reads of an endpoint give its normal form back, and which of these forms are
normal themselves.
-/

namespace Scbl.Launcher

open Scbl.Lib Scbl.Manager

/-! ## How an endpoint is written -/

/-- What is left of an endpoint without the white space, the scheme and the slashes around it. -/
def bareEndpoint (value : Text) : Text := trimChars ['/'] (trim (withoutPrefix (trim value)))

/-- A host with neither white space nor a bracket at its ends. -/
def IsTidy (host : Text) : Prop := trimBrackets (trim host) = host

/-- The decimal digits of a port. -/
def IsPort (text : Text) : Prop := ∃ port : Int, 0 < port ∧ port ≤ 65535 ∧ text = intText port

/-- A name or an address of version 4 without a port or with one, an address of version 6, and one in brackets without a port or with one. -/
inductive WrittenEndpoint (net : DotNet) : Text → Prop where
  | name {host : Text} : IsTidy host → ':' ∉ host → WrittenEndpoint net host
  | nameWithPort {host port : Text} : host ≠ [] → IsTidy host → ':' ∉ host → IsPort port → WrittenEndpoint net (host ++ ':' :: port)
  | ipv6 {address : Text} :
      1 < address.count ':' → net.isIpv6Address address = true → IsTidy address → ']' ∉ address → WrittenEndpoint net address
  | bracketed {address : Text} : IsTidy address → ':' ∈ address → ']' ∉ address → WrittenEndpoint net ('[' :: address ++ [']'])
  | bracketedWithPort {address port : Text} :
      IsTidy address → ':' ∈ address → ']' ∉ address → IsPort port → WrittenEndpoint net ('[' :: address ++ ']' :: ':' :: port)

namespace EndpointAux

variable {net : DotNet} {t x y u v : Text} {port : Int}

/-! ## The ends of a text -/

section Ends

variable {p : Char → Bool}

/-- Nothing is stripped from a text that begins and ends otherwise. -/
theorem strip_eq (hhead : ∀ c ∈ t.head?, p c = false) (hlast : ∀ c ∈ t.getLast?, p c = false) :
    ((t.dropWhile p).reverse.dropWhile p).reverse = t := by
  have hdrop : ∀ t : Text, (∀ c ∈ t.head?, p c = false) → t.dropWhile p = t := by
    intro t h
    cases t with
    | nil => rfl
    | cons c t => exact List.dropWhile_cons_of_neg (by simp [h c rfl])
  rw [hdrop t hhead, hdrop t.reverse (by rwa [List.head?_reverse]), List.reverse_reverse]

/-- What is left of a text does not begin with what was stripped. -/
theorem head_strip : ∀ c ∈ ((t.dropWhile p).reverse.dropWhile p).reverse.head?, p c = false := by
  intro c hc
  have hscheme : ((t.dropWhile p).reverse.dropWhile p).reverse <+: t.dropWhile p := by
    rw [← List.reverse_suffix, List.reverse_reverse]
    exact List.dropWhile_suffix p
  obtain ⟨rest, hrest⟩ := hscheme
  have hhead := List.head?_dropWhile_not p t
  rw [← hrest, List.head?_append, hc] at hhead
  exact hhead

end Ends

theorem strip_sublist (p : Char → Bool) (t : Text) : ((t.dropWhile p).reverse.dropWhile p).reverse.Sublist t := by
  have h := (List.dropWhile_sublist (l := (t.dropWhile p).reverse) p).reverse
  rw [List.reverse_reverse] at h
  exact h.trans (List.dropWhile_sublist p)

/-- A tidy host keeps its ends when white space is stripped, and when brackets are. -/
theorem trim_of_tidy (h : IsTidy t) : trim t = t ∧ trimBrackets t = t := by
  rw [IsTidy] at h
  have htrim : trim t = t := by
    have hsub : (trimBrackets (trim t)).Sublist (trim t) := strip_sublist _ _
    rw [h] at hsub
    exact (strip_sublist _ t).antisymm hsub
  rw [htrim] at h
  exact ⟨htrim, h⟩

theorem head_of_tidy (h : IsTidy t) : ∀ c ∈ t.head?, isWhiteSpace c = false ∧ c ≠ '[' := by
  intro c hc
  obtain ⟨htrim, hbrackets⟩ := trim_of_tidy h
  constructor
  · rw [← htrim] at hc
    exact head_strip c hc
  · rw [← hbrackets] at hc
    have hbracket := head_strip c hc
    rintro rfl
    nomatch hbracket

/-! ## Normal forms -/

/-- A bare endpoint with the port it lacks. -/
def withPort (net : DotNet) (endpoint : Text) : Text :=
  let port := ":".toList ++ intText defaultTunnelPort
  if "[".toList.isPrefixOf endpoint then
    match endpoint.idxOf? ']' with
    | some close => if close > 0 ∧ (endpoint.length = close + 1 ∨ endpoint[close + 1]? ≠ some ':') then endpoint ++ port else endpoint
    | none => endpoint
  else
    let colonCount := endpoint.count ':'
    if colonCount = 0 then endpoint ++ port
    else if colonCount > 1 ∧ net.isIpv6Address endpoint then "[".toList ++ endpoint ++ "]".toList ++ port
    else endpoint

theorem trim_of_blank (h : isBlank t = true) : trim t = [] := by
  rw [trim, List.dropWhile_eq_nil_iff.mpr (List.all_eq_true.mp h)]
  rfl

theorem normalizePublicEndpoint_eq (net : DotNet) (value : Text) :
    normalizePublicEndpoint net value =
      withPort net (if isBlank (bareEndpoint value) then defaultPublicEndpoint else bareEndpoint value) := by
  by_cases h : isBlank value = true
  · have hbare : bareEndpoint value = [] := by
      rw [bareEndpoint, trim_of_blank h]
      rfl
    rw [hbare]
    simp only [normalizePublicEndpoint, h, if_true]
    rfl
  · simp only [normalizePublicEndpoint, Bool.eq_false_iff.mpr h]
    rfl

/-- The host of an endpoint in its normal form. -/
def hostOf (normalized : Text) : Text :=
  if "[".toList.isPrefixOf normalized then
    match normalized.idxOf? ']' with
    | some close => if close > 1 then (normalized.take close).drop 1 else normalized
    | none => normalized
  else
    match lastIndexOf ':' normalized with
    | some lastColon => if lastColon > 0 then normalized.take lastColon else normalized
    | none => normalized

/-- The port of what stands behind the last colon. -/
def portValue (text : Text) : Int :=
  match tryParseInt text with
  | some port => if 0 < port ∧ port ≤ 65535 then port else defaultTunnelPort
  | none => defaultTunnelPort

def portOf (normalized : Text) : Int :=
  match lastIndexOf ':' normalized with
  | some lastColon => portValue (normalized.drop (lastColon + 1))
  | none => defaultTunnelPort

theorem portValue_range (text : Text) : 0 < portValue text ∧ portValue text ≤ 65535 := by
  unfold portValue
  split
  · split
    · assumption
    · decide
  · decide

theorem portOf_range (normalized : Text) : 0 < portOf normalized ∧ portOf normalized ≤ 65535 := by
  unfold portOf
  split
  · exact portValue_range _
  · decide

/-- A text is that of its own port exactly if it is the text of a port. -/
theorem isPort_iff : IsPort y ↔ y = intText (portValue y) := by
  constructor
  · rintro ⟨port, hpos, hle, rfl⟩
    simp only [portValue, tryParseInt_intText hpos hle, hpos, hle, and_self, if_true]
  · exact fun h => ⟨portValue y, (portValue_range y).1, (portValue_range y).2, h⟩

theorem getEndpointHost_eq (net : DotNet) (value : Text) : getEndpointHost net value = hostOf (normalizePublicEndpoint net value) := by
  simp only [getEndpointHost]
  generalize normalizePublicEndpoint net value = normalized
  rfl

theorem getEndpointPort_eq (net : DotNet) (value : Text) : getEndpointPort net value = portOf (normalizePublicEndpoint net value) := by
  simp only [getEndpointPort]
  generalize normalizePublicEndpoint net value = normalized
  rfl

/-! ## What is read of a text, and built of it again -/

/-- A text can be cut in one way in front of the first occurrence of a character. -/
theorem append_cons_inj {c : Char} {front front' behind behind' : Text} (hfront : c ∉ front) (hfront' : c ∉ front') :
    front ++ c :: behind = front' ++ c :: behind' ↔ front = front' ∧ behind = behind' := by
  constructor
  · intro h
    have hindex := idxOf?_append behind hfront
    rw [h, idxOf?_append behind' hfront'] at hindex
    obtain ⟨hfronts, hbehind⟩ := List.append_inj h (Option.some.inj hindex).symm
    exact ⟨hfronts, (List.cons.inj hbehind).2⟩
  · rintro ⟨rfl, rfl⟩
    rfl

theorem not_opened (h : ∀ c ∈ t.head?, c ≠ '[') : "[".toList.isPrefixOf t = false := by
  cases t with
  | nil => rfl
  | cons c t =>
    have hc : '[' ≠ c := (h c rfl).symm
    simp [List.isPrefixOf, hc]

theorem head_append (hx : x ≠ []) (h : ∀ c ∈ x.head?, c ≠ '[') : ∀ c ∈ (x ++ y).head?, c ≠ '[' := by
  obtain ⟨d, x, rfl⟩ := List.exists_cons_of_ne_nil hx
  exact h

theorem hostOf_colon (hx : x ≠ []) (hopen : ∀ c ∈ x.head?, c ≠ '[') (hy : ':' ∉ y) : hostOf (x ++ ':' :: y) = x := by
  have hpos : 0 < x.length := List.length_pos_iff.mpr hx
  simp only [hostOf, not_opened (head_append hx hopen), lastIndexOf_append x hy, Bool.false_eq_true, if_false, gt_iff_lt, hpos, if_true,
    List.take_left]

theorem portOf_colon (hy : ':' ∉ y) : portOf (x ++ ':' :: y) = portValue y := by
  have hdrop : (x ++ ':' :: y).drop (x.length + 1) = y := by simp
  simp only [portOf, lastIndexOf_append x hy, hdrop]

theorem idxOf?_bracket (hu : ']' ∉ u) : ('[' :: u ++ ']' :: v).idxOf? ']' = some (u.length + 1) := by
  have hclose : ']' ∉ '[' :: u := by simpa using hu
  exact idxOf?_append v hclose

theorem hostOf_bracket (hu : ']' ∉ u) (hne : u ≠ []) : hostOf ('[' :: u ++ ']' :: v) = u := by
  have hpos : 0 < u.length := List.length_pos_iff.mpr hne
  have hopened : "[".toList.isPrefixOf ('[' :: u ++ ']' :: v) = true := by simp
  simp only [hostOf, hopened, idxOf?_bracket hu, if_true]
  rw [if_pos (by omega), List.cons_append, List.take_succ_cons, List.drop_succ_cons, List.drop_zero, List.take_left]

/-- What the launcher makes of a host: nothing is left at its ends, and one with a colon is put in brackets. -/
theorem buildEndpoint_cases (x : Text) (port : Int) :
    buildEndpoint x port =
      (if ':' ∈ x then '[' :: trimBrackets (trim x) ++ [']'] else trimBrackets (trim x)) ++ ':' :: intText port := by
  have hcolon : ':' ∈ trimBrackets (trim x) ↔ ':' ∈ x :=
    ⟨fun h => mem_of_trim (mem_of_trimBrackets h), fun h => mem_ends (mem_ends h rfl) rfl⟩
  simp only [buildEndpoint, formatHost, hcolon, List.append_assoc]
  split <;> rfl

theorem build_name (hx : ':' ∉ x) : buildEndpoint x port = x ++ ':' :: y ↔ IsTidy x ∧ y = intText port := by
  have hcolon : ':' ∉ trimBrackets (trim x) := fun h => hx (mem_of_trim (mem_of_trimBrackets h))
  rw [buildEndpoint_cases, if_neg hx, append_cons_inj hcolon hx]
  exact ⟨fun h => ⟨h.1, h.2.symm⟩, fun h => ⟨h.1, h.2.symm⟩⟩

theorem not_mem_build (hx : ':' ∉ x) (hx' : ']' ∉ x) (hport : 0 < port) : ']' ∉ buildEndpoint x port := by
  rw [buildEndpoint_cases, if_neg hx, List.mem_append, List.mem_cons]
  rintro (h | h | h)
  · exact hx' (mem_of_trim (mem_of_trimBrackets h))
  · nomatch h
  · exact not_mem_intText hport rfl h

theorem build_bracket (hu : ']' ∉ u) (hport : 0 < port) :
    buildEndpoint u port = '[' :: u ++ ']' :: v ↔ IsTidy u ∧ ':' ∈ u ∧ v = ':' :: intText port := by
  by_cases hcolon : ':' ∈ u
  · have hclose : ']' ∉ '[' :: trimBrackets (trim u) := by
      simpa using fun h => hu (mem_of_trim (mem_of_trimBrackets h))
    have hclose' : ']' ∉ '[' :: u := by simpa using hu
    rw [buildEndpoint_cases, if_pos hcolon, List.append_assoc, List.singleton_append, append_cons_inj hclose hclose']
    constructor
    · rintro ⟨htidy, hv⟩
      exact ⟨(List.cons.inj htidy).2, hcolon, hv.symm⟩
    · rintro ⟨htidy, -, hv⟩
      rw [IsTidy] at htidy
      exact ⟨by rw [htidy], hv.symm⟩
  · refine iff_of_false (fun h => ?_) fun h => hcolon h.2.1
    have hnot := not_mem_build hcolon hu hport
    rw [h] at hnot
    simp at hnot

theorem intText_ne_nil (hport : 0 < port) : intText port ≠ [] := by
  rw [intText_pos hport]
  exact Nat.toDigits_ne_nil

/-- The last character of an endpoint with a port is a digit. -/
theorem last_digit (hport : 0 < port) : ∀ c ∈ (x ++ ':' :: intText port).getLast?, c.isDigit = true := by
  intro c hc
  obtain ⟨d, digits, hdigits⟩ := List.exists_cons_of_ne_nil (intText_ne_nil hport)
  have hlast : (x ++ ':' :: intText port).getLast? = (intText port).getLast? := by
    rw [List.getLast?_append, hdigits, List.getLast?_cons_cons, List.getLast?_cons, Option.some_or]
  rw [hlast] at hc
  exact isDigit_of_mem_intText hport c (List.mem_of_getLast? hc)

theorem isWhiteSpace_of_isDigit {c : Char} (h : c.isDigit = true) : isWhiteSpace c = false :=
  (not_isSpace_of_isEndpointChar (by simp [isEndpointChar, isHostChar, Char.isAlphanum, h])).2

/-- A text that is its own host is not built again: the first bracket is taken from the host, and the port stays behind it. -/
theorem build_whole (hport : 0 < port) : buildEndpoint t port ≠ t := by
  intro h
  have hlast := last_digit (x := if ':' ∈ t then '[' :: trimBrackets (trim t) ++ [']'] else trimBrackets (trim t)) hport
  rw [← buildEndpoint_cases, h] at hlast
  have hcolon : ':' ∈ t := by
    rw [← h, buildEndpoint_cases]
    simp
  have hcolon' : ':' ∈ trimBrackets (trim t) := mem_ends (mem_ends hcolon rfl) rfl
  have htext : t = '[' :: (trimBrackets (trim t) ++ ']' :: ':' :: intText port) := by
    rw [buildEndpoint_cases, if_pos hcolon, List.append_assoc, List.singleton_append, List.cons_append] at h
    exact h.symm
  -- the white space at the ends is none, and of the brackets only the first is one
  have htrim : trim t = t := by
    refine strip_eq (fun c hc => ?_) fun c hc => isWhiteSpace_of_isDigit (hlast c hc)
    rw [htext] at hc
    obtain rfl := Option.some.inj hc
    rfl
  have hbrackets : trimBrackets t = trimBrackets (trim t) ++ ']' :: ':' :: intText port := by
    obtain ⟨d, host, hhost⟩ := List.exists_cons_of_ne_nil (List.ne_nil_of_mem hcolon')
    have hd : ['[', ']'].contains d = false := head_strip (t := trim t) d (by rw [← trimChars, ← trimBrackets, hhost]; rfl)
    rw [hhost] at htext ⊢
    have hnot : ∀ c ∈ t.getLast?, ['[', ']'].contains c = false := by
      intro c hc
      have hdigit := hlast c hc
      rw [List.contains_eq_mem, decide_eq_false_iff_not]
      rintro hmem
      rcases List.mem_pair.mp hmem with rfl | rfl <;> cases hdigit
    rw [htext, List.cons_append, List.getLast?_cons_cons] at hnot
    rw [htext, trimBrackets, trimChars, List.dropWhile_cons_of_pos rfl]
    refine strip_eq (fun c hc => ?_) hnot
    obtain rfl := Option.some.inj hc
    exact hd
  rw [htrim] at hbrackets
  have hlength := congrArg List.length hbrackets
  simp at hlength

/-! ## When the normal form is built again -/

/-- The host and the port that are read of a text are those it is built of. -/
def Agrees (normalized : Text) : Prop := buildEndpoint (hostOf normalized) (portOf normalized) = normalized

theorem agrees_name (hne : x ≠ []) (hopen : ∀ c ∈ x.head?, c ≠ '[') (hx : ':' ∉ x) (hy : ':' ∉ y) :
    Agrees (x ++ ':' :: y) ↔ IsTidy x ∧ IsPort y := by
  rw [Agrees, hostOf_colon hne hopen hy, portOf_colon hy, build_name hx, isPort_iff]

theorem not_mem_of_isPort (h : IsPort y) {c : Char} (hc : c.isDigit = false) : c ∉ y := by
  obtain ⟨port, hpos, -, rfl⟩ := h
  exact not_mem_intText hpos hc

theorem not_agrees_whole (h : hostOf t = t) : ¬ Agrees t := by
  rw [Agrees, h]
  exact build_whole (portOf_range t).1

theorem agrees_bracket (hu : ']' ∉ u) : Agrees ('[' :: u ++ ']' :: v) ↔ IsTidy u ∧ ':' ∈ u ∧ ∃ port, v = ':' :: port ∧ IsPort port := by
  have hrange := portOf_range ('[' :: u ++ ']' :: v)
  by_cases hne : u = []
  · subst hne
    exact iff_of_false (not_agrees_whole rfl) fun h => nomatch h.2.1
  rw [Agrees, hostOf_bracket hu hne, build_bracket hu hrange.1]
  refine and_congr_right fun _ => and_congr_right fun _ => ⟨fun h => ⟨_, h, _, hrange.1, hrange.2, rfl⟩, ?_⟩
  rintro ⟨port, rfl, hport⟩
  have hvalue := portOf_colon (x := '[' :: u ++ [']']) (not_mem_of_isPort hport rfl)
  rw [List.append_assoc, List.singleton_append] at hvalue
  rw [hvalue, ← isPort_iff.mp hport]

theorem not_agrees_open (h : ']' ∉ t) (hopened : "[".toList.isPrefixOf t = true) : ¬ Agrees t := by
  refine not_agrees_whole ?_
  simp only [hostOf, hopened, List.idxOf?_eq_none_iff.mpr h, if_true]

theorem not_agrees_colon (hy : ':' ∉ y) : ¬ Agrees (':' :: y) := by
  refine not_agrees_whole ?_
  have hindex : lastIndexOf ':' (':' :: y) = some 0 := lastIndexOf_append [] hy
  simp only [hostOf, not_opened (t := ':' :: y) (by simp), hindex, Bool.false_eq_true, if_false, gt_iff_lt, lt_irrefl]

/-- A host with a colon is put in brackets, which were not there. -/
theorem not_agrees_colons (hopen : ∀ c ∈ x.head?, c ≠ '[') (hx : ':' ∈ x) (hy : ':' ∉ y) : ¬ Agrees (x ++ ':' :: y) := by
  have hne : x ≠ [] := List.ne_nil_of_mem hx
  rw [Agrees, hostOf_colon hne hopen hy, buildEndpoint_cases, if_pos hx]
  intro h
  obtain ⟨c, x, rfl⟩ := List.exists_cons_of_ne_nil hne
  exact hopen c rfl (List.cons.inj h).1.symm

/-! ## The port that is added -/

theorem withPort_name (hopen : ∀ c ∈ x.head?, c ≠ '[') (hx : ':' ∉ x) : withPort net x = x ++ ':' :: intText defaultTunnelPort := by
  simp only [withPort, not_opened hopen, List.count_eq_zero_of_not_mem hx, Bool.false_eq_true, if_false, if_true]
  rfl

theorem withPort_one (hopen : ∀ c ∈ t.head?, c ≠ '[') (hcount : t.count ':' = 1) : withPort net t = t := by
  simp only [withPort, not_opened hopen, hcount, Bool.false_eq_true, Nat.one_ne_zero, gt_iff_lt, lt_irrefl, false_and, if_false]

theorem withPort_colons (hopen : ∀ c ∈ t.head?, c ≠ '[') (hcount : 1 < t.count ':') :
    withPort net t = if net.isIpv6Address t then '[' :: t ++ ']' :: ':' :: intText defaultTunnelPort else t := by
  have hsome : t.count ':' ≠ 0 := by omega
  simp only [withPort, not_opened hopen, hcount, hsome, Bool.false_eq_true, if_false, gt_iff_lt, true_and, List.append_assoc]
  rfl

/-- Behind brackets a port is added unless a colon stands there. -/
theorem withPort_bracket (hu : ']' ∉ u) :
    withPort net ('[' :: u ++ ']' :: v) = '[' :: u ++ ']' :: (if v.head? = some ':' then v else v ++ ':' :: intText defaultTunnelPort) := by
  have hopened : "[".toList.isPrefixOf ('[' :: u ++ ']' :: v) = true := by simp
  have hbehind : ('[' :: u ++ ']' :: v)[u.length + 1 + 1]? = v.head? := by
    rw [List.getElem?_append_right (by simp), List.head?_eq_getElem?]
    simp
  have hlength : ('[' :: u ++ ']' :: v).length = u.length + 1 + 1 ↔ v = [] := by simp
  simp only [withPort, hopened, idxOf?_bracket hu, hbehind, hlength, if_true, gt_iff_lt, Nat.zero_lt_succ, true_and]
  cases v with
  | nil => simp
  | cons c v => by_cases hc : c = ':' <;> simp [hc]

theorem withPort_open (h : ']' ∉ t) (hopened : "[".toList.isPrefixOf t = true) : withPort net t = t := by
  simp only [withPort, hopened, List.idxOf?_eq_none_iff.mpr h, if_true]

/-- An endpoint that is written in one of the ways is read as it is normalised. -/
theorem agrees_of_written (hne : t ≠ []) (h : WrittenEndpoint net t) : Agrees (withPort net t) := by
  have hport : IsPort (intText defaultTunnelPort) := ⟨_, by decide, by decide, rfl⟩
  have hdigits : ':' ∉ intText defaultTunnelPort := by decide
  cases h with
  | name htidy hcolon =>
    have hopen := fun c hc => (head_of_tidy htidy c hc).2
    rw [withPort_name hopen hcolon, agrees_name hne hopen hcolon hdigits]
    exact ⟨htidy, hport⟩
  | @nameWithPort host port hhost htidy hcolon hisPort =>
    have hopen := fun c hc => (head_of_tidy htidy c hc).2
    have hport' : ':' ∉ port := not_mem_of_isPort hisPort rfl
    have hcount : (host ++ ':' :: port).count ':' = 1 := by
      rw [List.count_append, List.count_cons_self, List.count_eq_zero_of_not_mem hcolon, List.count_eq_zero_of_not_mem hport']
    rw [withPort_one (head_append hhost hopen) hcount, agrees_name hhost hopen hcolon hport']
    exact ⟨htidy, hisPort⟩
  | ipv6 hcount hipv6 htidy hclose =>
    have hopen := fun c hc => (head_of_tidy htidy c hc).2
    rw [withPort_colons hopen hcount, if_pos hipv6, agrees_bracket hclose]
    exact ⟨htidy, List.count_pos_iff.mp (by omega), _, rfl, hport⟩
  | bracketed htidy hcolon hclose =>
    rw [withPort_bracket hclose, agrees_bracket hclose]
    exact ⟨htidy, hcolon, _, rfl, hport⟩
  | bracketedWithPort htidy hcolon hclose hisPort =>
    rw [withPort_bracket hclose, agrees_bracket hclose]
    exact ⟨htidy, hcolon, _, rfl, hisPort⟩

/-- What is read as it is normalised is written in one of the ways: the cases are those of the brackets and of the number of colons. -/
theorem written_of_agrees (h : Agrees (withPort net t)) : WrittenEndpoint net t := by
  by_cases hopened : "[".toList.isPrefixOf t = true
  · by_cases hclose : ']' ∈ t
    · obtain ⟨front, v, rfl, hfront⟩ := List.eq_append_cons_of_mem hclose
      obtain ⟨u, rfl⟩ : ∃ u, front = '[' :: u := by
        cases front with
        | nil => nomatch hopened
        | cons c u =>
          have hc : '[' = c := by simpa using hopened
          exact ⟨u, by rw [hc]⟩
      have hu : ']' ∉ u := fun hmem => hfront (List.mem_cons_of_mem _ hmem)
      rw [withPort_bracket hu, agrees_bracket hu] at h
      obtain ⟨htidy, hcolon, port, hbehind, hport⟩ := h
      split at hbehind
      · rw [hbehind]
        exact .bracketedWithPort htidy hcolon hu hport
      · rename_i hnot
        cases v with
        | nil => exact .bracketed htidy hcolon hu
        | cons c v =>
          obtain rfl := (List.cons.inj hbehind).1
          exact absurd rfl hnot
    · rw [withPort_open hclose hopened] at h
      exact absurd h (not_agrees_open hclose hopened)
  have hopen : ∀ c ∈ t.head?, c ≠ '[' := by
    rintro c hc rfl
    obtain ⟨u, rfl⟩ := List.head?_eq_some_iff.mp hc
    exact hopened (by simp)
  have hdigits : ':' ∉ intText defaultTunnelPort := by decide
  rcases Nat.lt_trichotomy (t.count ':') 1 with hnone | hone | hmore
  · have hcolon : ':' ∉ t := List.count_eq_zero.mp (by omega)
    by_cases hne : t = []
    · subst hne
      exact .name rfl hcolon
    · rw [withPort_name hopen hcolon, agrees_name hne hopen hcolon hdigits] at h
      exact .name h.1 hcolon
  · rw [withPort_one hopen hone] at h
    obtain ⟨x, y, rfl, hx⟩ := List.eq_append_cons_of_mem (List.count_pos_iff.mp (by omega : 0 < t.count ':'))
    rw [List.count_append, List.count_cons_self] at hone
    have hy : ':' ∉ y := List.count_eq_zero.mp (by omega)
    by_cases hne : x = []
    · subst hne
      exact absurd h (not_agrees_colon hy)
    · have hopen' : ∀ c ∈ x.head?, c ≠ '[' := by
        obtain ⟨d, x, rfl⟩ := List.exists_cons_of_ne_nil hne
        exact hopen
      rw [agrees_name hne hopen' hx hy] at h
      exact .nameWithPort hne h.1 hx h.2
  · rw [withPort_colons hopen hmore] at h
    split at h
    · rename_i hipv6
      by_cases hclose : ']' ∈ t
      · obtain ⟨u, v, rfl, hu⟩ := List.eq_append_cons_of_mem hclose
        have hfirst : '[' :: (u ++ ']' :: v) ++ ']' :: ':' :: intText defaultTunnelPort =
            '[' :: u ++ ']' :: (v ++ ']' :: ':' :: intText defaultTunnelPort) := by simp
        rw [hfirst, agrees_bracket hu] at h
        obtain ⟨-, -, port, hbehind, hport⟩ := h
        have hmem : ']' ∈ ':' :: port := by
          rw [← hbehind]
          simp
        exact absurd ((List.mem_cons.mp hmem).resolve_left (by decide)) (not_mem_of_isPort hport rfl)
      · rw [agrees_bracket hclose] at h
        exact .ipv6 hmore hipv6 h.1 hclose
    · obtain ⟨y, x, hsplit, hy⟩ := List.eq_append_cons_of_mem (List.mem_reverse.mpr (List.count_pos_iff.mp (by omega : 0 < t.count ':')))
      obtain rfl : t = x.reverse ++ ':' :: y.reverse := by
        rw [← List.reverse_reverse t, hsplit]
        simp
      have hy' : ':' ∉ y.reverse := by simpa using hy
      rw [List.count_append, List.count_cons_self, List.count_eq_zero_of_not_mem hy'] at hmore
      have hx : ':' ∈ x.reverse := List.count_pos_iff.mp (by omega)
      have hopen' : ∀ c ∈ x.reverse.head?, c ≠ '[' := by
        obtain ⟨d, front, hfront⟩ := List.exists_cons_of_ne_nil (List.ne_nil_of_mem hx)
        rw [hfront] at hopen ⊢
        exact hopen
      exact absurd h (not_agrees_colons hopen' hx hy')

/-! ## Normal forms are normal -/

theorem withoutPrefix_colon (hx : ':' ∉ x) (hy : ∀ c ∈ y.head?, c ≠ '/') : withoutPrefix (x ++ ':' :: y) = x ++ ':' :: y := by
  have hstart : ∀ name : Text, ':' ∉ name.map Char.toUpper → startsWithIgnoreCase (x ++ ':' :: y) (name ++ "://".toList) = false := by
    intro name hname
    rw [Bool.eq_false_iff]
    intro hscheme
    obtain ⟨rest, hrest⟩ := List.isPrefixOf_iff_prefix.mp hscheme
    have hx' : ':' ∉ x.map Char.toUpper := by
      intro hmem
      obtain ⟨c, hc, hupper⟩ := List.mem_map.mp hmem
      exact hx (toUpper_eq_of_lt (by decide) hupper ▸ hc)
    rw [List.map_append, List.map_append, List.append_assoc] at hrest
    obtain ⟨-, hbehind⟩ := (append_cons_inj hname hx' : _ ++ _ :: '/' :: '/' :: rest = _ ↔ _).mp hrest
    cases y with
    | nil => nomatch hbehind
    | cons c y => exact hy c rfl (toUpper_eq_slash (List.cons.inj hbehind).1.symm)
  rw [withoutPrefix, List.find?_eq_none.mpr]
  intro scheme hscheme
  rw [Bool.not_eq_true]
  rcases List.mem_cons.mp hscheme with rfl | hscheme
  · exact hstart "tcp".toList (by decide)
  rcases List.mem_cons.mp hscheme with rfl | hscheme
  · exact hstart "udp".toList (by decide)
  rcases List.mem_cons.mp hscheme with rfl | hscheme
  · exact hstart "ws".toList (by decide)
  · obtain rfl := List.mem_singleton.mp hscheme
    exact hstart "wss".toList (by decide)

theorem withoutPrefix_bracket : withoutPrefix ('[' :: t) = '[' :: t := rfl

/-- A text with a port is a bare endpoint if there is nothing in front of it. -/
theorem bareEndpoint_eq (hport : 0 < port) (hhead : ∀ c ∈ (x ++ ':' :: intText port).head?, isWhiteSpace c = false ∧ c ≠ '/')
    (hscheme : withoutPrefix (x ++ ':' :: intText port) = x ++ ':' :: intText port) :
    bareEndpoint (x ++ ':' :: intText port) = x ++ ':' :: intText port := by
  have hlast := last_digit (x := x) hport
  have htrim : trim (x ++ ':' :: intText port) = x ++ ':' :: intText port :=
    strip_eq (fun c hc => (hhead c hc).1) fun c hc => isWhiteSpace_of_isDigit (hlast c hc)
  rw [bareEndpoint, htrim, hscheme, htrim]
  refine strip_eq (fun c hc => by simpa using (hhead c hc).2) fun c hc => ?_
  have hdigit := hlast c hc
  rw [List.contains_eq_mem, decide_eq_false_iff_not, List.mem_singleton]
  rintro rfl
  nomatch hdigit

theorem not_blank (h : bareEndpoint t = x ++ ':' :: y) : isBlank (bareEndpoint t) = false := by
  rw [h, isBlank, List.all_eq_false]
  exact ⟨':', by simp, by decide⟩

theorem normal_name (hne : x ≠ []) (hhead : ∀ c ∈ x.head?, c ≠ '/') (htidy : IsTidy x) (hx : ':' ∉ x) (hport : 0 < port) :
    normalizePublicEndpoint net (x ++ ':' :: intText port) = x ++ ':' :: intText port := by
  have hdigits : ':' ∉ intText port := not_mem_intText hport rfl
  have hslash : ∀ c ∈ (intText port).head?, c ≠ '/' := by
    rintro c hc rfl
    exact absurd (isDigit_of_mem_intText hport _ (List.mem_of_mem_head? hc)) (by decide)
  have hbare : bareEndpoint (x ++ ':' :: intText port) = x ++ ':' :: intText port := by
    refine bareEndpoint_eq hport (fun c hc => ?_) (withoutPrefix_colon hx hslash)
    obtain ⟨d, x, rfl⟩ := List.exists_cons_of_ne_nil hne
    exact ⟨(head_of_tidy htidy c hc).1, hhead c hc⟩
  have hcount : (x ++ ':' :: intText port).count ':' = 1 := by
    rw [List.count_append, List.count_cons_self, List.count_eq_zero_of_not_mem hx, List.count_eq_zero_of_not_mem hdigits]
  rw [normalizePublicEndpoint_eq, not_blank hbare, hbare]
  exact withPort_one (head_append hne fun c hc => (head_of_tidy htidy c hc).2) hcount

theorem normal_bracket (hu : ']' ∉ u) (hport : 0 < port) :
    normalizePublicEndpoint net ('[' :: u ++ ']' :: ':' :: intText port) = '[' :: u ++ ']' :: ':' :: intText port := by
  have hbare : bareEndpoint ('[' :: u ++ ']' :: ':' :: intText port) = '[' :: u ++ ']' :: ':' :: intText port := by
    have happend : '[' :: u ++ ']' :: ':' :: intText port = ('[' :: u ++ [']']) ++ ':' :: intText port := by simp
    rw [happend]
    refine bareEndpoint_eq hport (fun c hc => ?_) withoutPrefix_bracket
    obtain rfl := Option.some.inj hc
    decide
  have hblank : isBlank ('[' :: u ++ ']' :: ':' :: intText port) = false := rfl
  rw [normalizePublicEndpoint_eq, hbare, hblank]
  exact (withPort_bracket hu).trans (by simp)

/-- The normal form of a written endpoint that does not begin with a slash. -/
theorem normal_of_written (hne : t ≠ []) (hslash : ∀ c ∈ t.head?, c ≠ '/') (h : WrittenEndpoint net t) :
    normalizePublicEndpoint net (withPort net t) = withPort net t := by
  have hport : 0 < defaultTunnelPort := by decide
  cases h with
  | name htidy hcolon =>
    rw [withPort_name (fun c hc => (head_of_tidy htidy c hc).2) hcolon]
    exact normal_name hne hslash htidy hcolon hport
  | @nameWithPort host port hhost htidy hcolon hisPort =>
    have hopen := head_append (y := ':' :: port) hhost fun c hc => (head_of_tidy htidy c hc).2
    have hcount : (host ++ ':' :: port).count ':' = 1 := by
      rw [List.count_append, List.count_cons_self, List.count_eq_zero_of_not_mem hcolon,
        List.count_eq_zero_of_not_mem (not_mem_of_isPort hisPort rfl)]
    rw [withPort_one hopen hcount]
    obtain ⟨port, hpos, -, rfl⟩ := hisPort
    refine normal_name hhost ?_ htidy hcolon hpos
    obtain ⟨d, host, rfl⟩ := List.exists_cons_of_ne_nil hhost
    exact hslash
  | ipv6 hcount hipv6 htidy hclose =>
    rw [withPort_colons (fun c hc => (head_of_tidy htidy c hc).2) hcount, if_pos hipv6]
    exact normal_bracket hclose hport
  | bracketed htidy hcolon hclose =>
    rw [withPort_bracket hclose]
    exact normal_bracket hclose hport
  | bracketedWithPort htidy hcolon hclose hisPort =>
    obtain ⟨port, hpos, -, rfl⟩ := hisPort
    rw [withPort_bracket hclose]
    exact normal_bracket hclose hpos

end EndpointAux

open EndpointAux

/-- The normal form of an endpoint is normal, is built of the host and the port read of the endpoint, and is where the launcher connects,
exactly if the endpoint is blank between its scheme and its slashes or is written in one of the ways there. -/
theorem endpoint_agrees_iff (net : DotNet) (endpoint : Text) :
    (normalizePublicEndpoint net (normalizePublicEndpoint net endpoint) = normalizePublicEndpoint net endpoint ∧
        buildEndpoint (getEndpointHost net endpoint) (getEndpointPort net endpoint) = normalizePublicEndpoint net endpoint ∧
        toTcpPeerUrl net endpoint = "tcp://".toList ++ buildEndpoint (getEndpointHost net endpoint) (getEndpointPort net endpoint)) ↔
      isBlank (bareEndpoint endpoint) = true ∨ WrittenEndpoint net (bareEndpoint endpoint) := by
  rw [getEndpointHost_eq, getEndpointPort_eq, toTcpPeerUrl]
  by_cases hblank : isBlank (bareEndpoint endpoint) = true
  · have hdefault : normalizePublicEndpoint net endpoint = defaultPublicEndpoint := by
      rw [normalizePublicEndpoint_eq, if_pos hblank]
      rfl
    refine iff_of_true ?_ (.inl hblank)
    rw [hdefault]
    have hagrees : buildEndpoint (hostOf defaultPublicEndpoint) (portOf defaultPublicEndpoint) = defaultPublicEndpoint := by decide
    exact ⟨rfl, hagrees, by rw [hagrees]⟩
  have hne : bareEndpoint endpoint ≠ [] := by
    intro hnil
    rw [hnil] at hblank
    exact hblank rfl
  have hslash : ∀ c ∈ (bareEndpoint endpoint).head?, c ≠ '/' := by
    intro c hc
    simpa using head_strip (p := ['/'].contains) c hc
  rw [normalizePublicEndpoint_eq net endpoint, if_neg hblank]
  constructor
  · rintro ⟨-, hagrees, -⟩
    exact .inr (written_of_agrees hagrees)
  · intro h
    have hwritten := h.resolve_left hblank
    have hagrees : buildEndpoint _ _ = _ := agrees_of_written hne hwritten
    exact ⟨normal_of_written hne hslash hwritten, hagrees, by rw [hagrees]⟩

/-- A port that is too large stays in the peer's address, while the port that is read is the one of the tunnel. -/
theorem endpoint_agrees_false :
    ¬ ∀ (net : DotNet) (endpoint : Text),
        normalizePublicEndpoint net (normalizePublicEndpoint net endpoint) = normalizePublicEndpoint net endpoint ∧
          buildEndpoint (getEndpointHost net endpoint) (getEndpointPort net endpoint) = normalizePublicEndpoint net endpoint ∧
          toTcpPeerUrl net endpoint = "tcp://".toList ++ buildEndpoint (getEndpointHost net endpoint) (getEndpointPort net endpoint) := by
  intro h
  have hbuilt := (h simpleNet "sc6.elonline.top:99999".toList).2.1
  exact absurd hbuilt (by decide)

end Scbl.Launcher
