import Scbl.Hooks.VersionResource

/-!
# The parser of version resources ends

Every reader moves the cursor on (`Advanced`) or ends with an error of its own, never with a slice out of range; a round of a loop over the
nodes reads at least a header. So each loop ends within as many rounds as there are bytes.
-/

namespace Scbl.Hooks.VersionResource

open Scbl.Lib

/-- A computation gives a result with a property, or ends with an error or a panic of its own. -/
def Safe {α : Type} (x : Except Stop α) (P : α → Prop) : Prop :=
  match x with
  | .ok a => P a
  | .error e => e = .unexpectedEof ∨ e = .panic

/-- A cursor moves on by at least some bytes of the same input. -/
structure Advanced (bytes : Nat) (c c' : Cursor) : Prop where
  inner : c'.inner = c.inner
  moved : c.position + bytes ≤ c'.position
  bound : c'.position ≤ c'.inner.length

/-- A cursor stands in its bytes, and there is fuel for them. -/
structure Fueled (fuel : Nat) (c : Cursor) : Prop where
  bound : c.position ≤ c.inner.length
  fuel : c.inner.length < fuel

theorem Safe.bind {α β : Type} {x : Except Stop α} {f : α → Except Stop β} {P : α → Prop} {Q : β → Prop} (hx : Safe x P)
    (hf : ∀ a, P a → Safe (f a) Q) : Safe (x >>= f) Q := by
  cases x with
  | ok a => exact hf a hx
  | error e => exact hx

theorem Safe.imp {α : Type} {x : Except Stop α} {P Q : α → Prop} (hx : Safe x P) (h : ∀ a, P a → Q a) : Safe x Q := by
  cases x with
  | ok a => exact h a hx
  | error e => exact hx

/-- An outcome that is safe is neither of the other two. -/
theorem Safe.not_out {α : Type} {x : Except Stop α} {P : α → Prop} (h : Safe x P) : x ≠ .error .outOfFuel ∧ x ≠ .error .outOfRange := by
  constructor <;> rintro rfl <;> rcases h with h | h <;> nomatch h

theorem Advanced.trans {m n : Nat} {a b c : Cursor} (h : Advanced m a b) (h' : Advanced n b c) : Advanced (m + n) a c :=
  ⟨h'.inner.trans h.inner, by have := h.moved; have := h'.moved; omega, h'.bound⟩

theorem Advanced.fueled {n fuel : Nat} {c c' : Cursor} (h : Advanced n c c') (hc : Fueled fuel c) : Fueled fuel c' :=
  ⟨h.bound, h.inner ▸ hc.fuel⟩

theorem Advanced.le {m n : Nat} {c c' : Cursor} (h : Advanced n c c') (hle : m ≤ n) : Advanced m c c' :=
  ⟨h.inner, by have := h.moved; omega, h.bound⟩

/-! ## Readers -/

theorem safe_read (width : Nat) (c : Cursor) : Safe (c.read width) (fun r => Advanced width c r.2) := by
  rw [Cursor.read]
  split
  · exact ⟨rfl, Nat.le_refl _, ‹_›⟩
  · exact .inl rfl

/-- The cursor of a node holds the bytes that the cursor after it has left behind. -/
theorem safe_subCursor (c : Cursor) :
    Safe c.subCursorFromLength (fun r => r.1.position = 0 ∧ r.1.inner.length ≤ c.inner.length ∧ Advanced r.1.inner.length c r.2) := by
  rw [Cursor.subCursorFromLength]
  refine (safe_read 2 c).bind fun ⟨size, c1⟩ hr => ?_
  dsimp only at hr ⊢
  split
  · exact .inl rfl
  · rename_i hend
    have hle : c.position + size ≤ c1.inner.length := Nat.le_of_not_lt hend
    rw [slice, if_pos ⟨Nat.le_add_right _ _, hle⟩]
    have hlength : ((c1.inner.drop c.position).take (c.position + size - c.position)).length = size := by
      rw [List.length_take, List.length_drop]
      omega
    refine ⟨rfl, ?_, hr.inner, ?_, hle⟩
    · rw [hlength, ← hr.inner]
      omega
    · rw [hlength]

theorem safe_header (c : Cursor) : Safe (header c) (Advanced 6 c) := by
  refine (safe_read 2 c).bind fun a ha => (safe_read 2 a.2).bind fun b hb => (safe_read 2 b.2).bind fun r hr => ?_
  exact (ha.trans hb).trans hr

variable {fuel : Nat} {c : Cursor}

theorem safe_align (hc : Fueled fuel c) : Safe (align fuel c) (Advanced 0 c) := by
  refine loop_ends (P := fun r => Safe r (Advanced 0 c)) (fun s : Cursor => s.inner.length - s.position) (fun s => Advanced 0 c s) ?_ ?_
    ⟨rfl, Nat.le_refl _, hc.bound⟩ ?_
  · intro s s' hs hbody
    split at hbody
    · have hread := safe_read 1 s
      rw [← Cursor.u8] at hread
      split at hbody
      · rename_i r s1 hu8
        rw [hu8] at hread
        obtain rfl := Sum.inl.inj hbody
        refine ⟨hs.trans (hread.le (Nat.zero_le 1)), ?_⟩
        have := hread.moved
        have := hread.bound
        have := congrArg List.length hread.inner
        dsimp only at *
        omega
      · nomatch hbody
    · nomatch hbody
  · intro s r hs hbody
    split at hbody
    · have hread := safe_read 1 s
      rw [← Cursor.u8] at hread
      split at hbody
      · nomatch hbody
      · rename_i e hu8
        rw [hu8] at hread
        obtain rfl := Sum.inr.inj hbody
        exact hread
    · obtain rfl := Sum.inr.inj hbody
      exact hs
  · have := hc.fuel
    omega

theorem safe_wideText (hc : Fueled fuel c) : Safe (wideText fuel c) (fun r => Advanced 0 c r.2) := by
  have hstart : Advanced 0 c (([], c) : List Nat × Cursor).2 := ⟨rfl, Nat.le_refl _, hc.bound⟩
  refine loop_ends (P := fun x => Safe x (fun r : List Nat × Cursor => Advanced 0 c r.2)) (fun s : List Nat × Cursor => s.2.inner.length - s.2.position)
    (fun s => Advanced 0 c s.2) ?_ ?_ hstart ?_
  · intro s s' hs hbody
    have hread := safe_read 2 s.2
    rw [← Cursor.u16] at hread
    dsimp only at hbody
    split at hbody
    · rename_i unit s1 hu16
      rw [hu16] at hread
      split at hbody
      · obtain rfl := Sum.inl.inj hbody
        refine ⟨hs.trans (hread.le (Nat.zero_le 2)), ?_⟩
        have := hread.moved
        have := hread.bound
        have := congrArg List.length hread.inner
        dsimp only at *
        omega
      · nomatch hbody
    · nomatch hbody
  · intro s r hs hbody
    have hread := safe_read 2 s.2
    rw [← Cursor.u16] at hread
    dsimp only at hbody
    split at hbody
    · rename_i unit s1 hu16
      rw [hu16] at hread
      split at hbody
      · nomatch hbody
      · obtain rfl := Sum.inr.inj hbody
        exact hs.trans (hread.le (Nat.zero_le 2))
    · obtain rfl := Sum.inr.inj hbody
      have hend : Advanced 0 s.2 { s.2 with position := s.2.inner.length } := ⟨rfl, hs.bound, Nat.le_refl _⟩
      exact hs.trans hend
  · have := hc.fuel
    dsimp only
    omega

theorem safe_unwrapText (units : List Nat) : Safe (unwrapText units) (fun _ => True) := by
  rw [unwrapText]
  split
  · trivial
  · exact .inr rfl

theorem safe_readUnits (n : Nat) (c : Cursor) (hc : c.position ≤ c.inner.length) : Safe (readUnits n c) (fun r => Advanced 0 c r.2) := by
  induction n generalizing c with
  | zero => exact ⟨rfl, Nat.le_refl _, hc⟩
  | succ n ih =>
    refine (safe_read 2 c).bind fun a ha => (ih a.2 ha.bound).bind fun r hr => ?_
    exact (ha.trans hr).le (Nat.zero_le _)

theorem safe_fixedFileInfo (c : Cursor) : Safe (parseFixedFileInfo c) (fun r => Advanced 0 c r.2) := by
  refine (safe_read 4 c).bind fun r1 h1 => ?_
  dsimp only
  split
  · exact .inr rfl
  · refine (safe_read 4 r1.2).bind fun r2 h2 => (safe_read 2 r2.2).bind fun r3 h3 => (safe_read 2 r3.2).bind fun r4 h4 => ?_
    refine (safe_read 2 r4.2).bind fun r5 h5 => (safe_read 2 r5.2).bind fun r6 h6 => (safe_read 8 r6.2).bind fun r7 h7 => ?_
    refine (safe_read 8 r7.2).bind fun r8 h8 => (safe_read 4 r8.2).bind fun r9 h9 => (safe_read 4 r9.2).bind fun r10 h10 => ?_
    refine (safe_read 4 r10.2).bind fun r11 h11 => (safe_read 4 r11.2).bind fun r12 h12 => (safe_read 4 r12.2).bind fun r13 h13 => ?_
    have hfirst := ((((h1.trans h2).trans h3).trans h4).trans h5).trans h6
    exact (((((((hfirst.trans h7).trans h8).trans h9).trans h10).trans h11).trans h12).trans h13).le (Nat.zero_le _)

/-! ## Nodes -/

/-- The cursor of a node has fuel when the one around it has. -/
theorem fueled_node {node : Cursor} (hc : Fueled fuel c) (hposition : node.position = 0) (hlength : node.inner.length ≤ c.inner.length) :
    Fueled fuel node :=
  ⟨by omega, Nat.lt_of_le_of_lt hlength hc.fuel⟩

/-- A string that is read has at least a header. -/
theorem safe_stringBody {node : Cursor} (hnode : Fueled fuel node) (hposition : node.position = 0) (dll : Dll) :
    Safe (parseStringBody fuel node dll) (fun _ => 6 ≤ node.inner.length) := by
  refine (safe_header node).bind fun c hheader => ?_
  have hc := hheader.fueled hnode
  refine (safe_wideText hc).bind fun key hkey => (safe_align (hkey.fueled hc)).bind fun c' halign => ?_
  refine (safe_unwrapText _).bind fun name _ => (safe_wideText (halign.fueled (hkey.fueled hc))).bind fun value _ => ?_
  refine (safe_unwrapText _).bind fun text _ => ?_
  have hlong : 6 ≤ node.inner.length := by
    have := hheader.moved
    have := hheader.bound
    have := congrArg List.length hheader.inner
    omega
  split
  · exact hlong
  · split
    · exact hlong
    · exact hlong

theorem safe_string (hc : Fueled fuel c) (dll : Dll) : Safe (parseString fuel c dll) (fun s => Advanced 6 c s.1) := by
  refine (safe_subCursor c).bind fun r hr => ?_
  refine (safe_stringBody (fueled_node hc hr.1 hr.2.1) hr.1 dll).bind fun dll' hlong => ?_
  exact hr.2.2.le hlong

/-- A round of the loop over the strings moves on by a header, or ends the loop. -/
theorem stringTableRound_spec {s : Cursor × Dll} (hs : Fueled fuel s.1) :
    (∀ s', stringTableRound fuel s = .inl s' → Advanced 6 s.1 s'.1) ∧
      ∀ r, stringTableRound fuel s = .inr r → Safe r.1 (fun _ => True) := by
  have halign := safe_align hs
  unfold stringTableRound
  cases ha : align fuel s.1 with
  | error e =>
    rw [ha] at halign
    refine ⟨fun s' h => (nomatch h), fun r h => ?_⟩
    rw [← Sum.inr.inj h]
    exact halign
  | ok c =>
    rw [ha] at halign
    have hstring := safe_string (halign.fueled hs) s.2
    dsimp only
    cases hp : parseString fuel c s.2 with
    | ok s1 =>
      rw [hp] at hstring
      refine ⟨fun s' h => ?_, fun r h => nomatch h⟩
      rw [← Sum.inl.inj h]
      exact (halign.trans hstring).le (Nat.le_refl 6)
    | error e =>
      rw [hp] at hstring
      refine ⟨fun s' h => ?_, fun r h => ?_⟩
      · cases e <;> nomatch h
      · rcases hstring with rfl | rfl
        · rw [← Sum.inr.inj h]
          trivial
        · rw [← Sum.inr.inj h]
          exact .inr rfl

/-- A loop whose rounds move on by a header ends. -/
theorem loop_advanced {ρ : Type} {out : ρ} {body : Cursor × Dll → (Cursor × Dll) ⊕ ρ} {P : ρ → Prop}
    (hbody : ∀ s, Fueled fuel s.1 → (∀ s', body s = .inl s' → Advanced 6 s.1 s'.1) ∧ ∀ r, body s = .inr r → P r)
    {s : Cursor × Dll} (hs : Fueled fuel s.1) : P (loop out body fuel s) := by
  refine loop_ends (fun s : Cursor × Dll => s.1.inner.length - s.1.position) (fun s => Fueled fuel s.1)
    (fun s s' hs h => ?_) (fun s r hs h => (hbody s hs).2 r h) hs ?_
  · have hmoved := (hbody s hs).1 s' h
    refine ⟨hmoved.fueled hs, ?_⟩
    have := hmoved.moved
    have := hmoved.bound
    have := congrArg List.length hmoved.inner
    omega
  · have := hs.fuel
    omega

theorem safe_stringTable (hc : Fueled fuel c) (dll : Dll) : Safe (parseStringTable fuel c dll).1 (fun _ => True) := by
  have hstart : Safe (c.subCursorFromLength >>= fun r => header r.1 >>= fun c' => wideText fuel c' >>= fun text => .ok text.2)
      (fun c' => Fueled fuel c') := by
    refine (safe_subCursor c).bind fun r hr => (safe_header r.1).bind fun c1 h1 => ?_
    have hc1 := h1.fueled (fueled_node hc hr.1 hr.2.1)
    exact (safe_wideText hc1).bind fun text htext => htext.fueled hc1
  rw [parseStringTable]
  dsimp only
  split
  · rename_i e he
    have hstop : Safe (.error e) (fun c' => Fueled fuel c') := by
      rw [← he]
      exact hstart
    exact hstop
  · rename_i c' hc'
    have hreached : Safe (.ok c') (fun c' => Fueled fuel c') := by
      rw [← hc']
      exact hstart
    exact loop_advanced (P := fun r : Except Stop Unit × Dll => Safe r.1 (fun _ => True)) (fun _ hs => stringTableRound_spec hs) hreached

theorem safe_entryKey (hc : Fueled fuel c) :
    Safe (parseEntryKey fuel c) (fun r => Fueled fuel r.2.1 ∧ Advanced 6 c r.2.2) := by
  refine (safe_subCursor c).bind fun r hr => (safe_header r.1).bind fun c1 h1 => ?_
  have hc1 := h1.fueled (fueled_node hc hr.1 hr.2.1)
  refine (safe_wideText hc1).bind fun key hkey => (safe_align (hkey.fueled hc1)).bind fun c2 h2 => ?_
  refine (safe_unwrapText _).bind fun text _ => ⟨h2.fueled (hkey.fueled hc1), hr.2.2.le ?_⟩
  have := h1.moved
  have := h1.bound
  have := congrArg List.length h1.inner
  omega

theorem safe_versionEntry (hc : Fueled fuel c) (dll : Dll) : Safe (parseVersionEntry fuel c dll).1 (Advanced 6 c) := by
  have hkey := safe_entryKey hc
  rw [parseVersionEntry]
  split
  · rename_i e he
    rw [he] at hkey
    exact hkey
  · rename_i key node after hentry
    rw [hentry] at hkey
    split
    · exact hkey.2
    · have htable := safe_stringTable hkey.1 dll
      split
      · exact hkey.2
      · rename_i e dll' he
        rw [he] at htable
        exact htable

/-- A round of the loop over the entries moves on by a header, or ends the loop. -/
theorem versionRound_spec {s : Cursor × Dll} (hs : Fueled fuel s.1) :
    (∀ s', versionRound fuel s = .inl s' → Advanced 6 s.1 s'.1) ∧ ∀ r, versionRound fuel s = .inr r → Safe r (fun _ => True) := by
  have hentry := safe_versionEntry hs s.2
  unfold versionRound
  rcases hresult : parseVersionEntry fuel s.1 s.2 with ⟨result, dll⟩
  rw [hresult] at hentry
  cases result with
  | ok c =>
    refine ⟨fun s' h => ?_, fun r h => nomatch h⟩
    rw [← Sum.inl.inj h]
    exact hentry
  | error e =>
    refine ⟨fun s' h => ?_, fun r h => ?_⟩
    · cases e <;> nomatch h
    · rcases hentry with rfl | rfl
      · rw [← Sum.inr.inj h]
        trivial
      · rw [← Sum.inr.inj h]
        exact .inr rfl

theorem findIdx?_getD_le {α : Type} (p : α → Bool) (items : List α) : (items.findIdx? p).getD 0 ≤ items.length := by
  cases h : items.findIdx? p with
  | none => exact Nat.zero_le _
  | some i => exact Nat.le_of_lt (List.findIdx?_eq_some_iff_getElem.mp h).1

theorem safe_versionStart (hc : Fueled fuel c) : Safe (parseVersionStart fuel c) (fun r => Fueled fuel r.2) := by
  refine (safe_subCursor c).bind fun r hr => (safe_header r.1).bind fun c1 h1 => ?_
  have hc1 := h1.fueled (fueled_node hc hr.1 hr.2.1)
  refine (safe_readUnits 16 c1 h1.bound).bind fun key hkey => ?_
  have hc2 := hkey.fueled hc1
  dsimp only
  rw [slice, if_pos ⟨Nat.zero_le _, findIdx?_getD_le _ _⟩]
  refine (safe_unwrapText _).bind fun text _ => ?_
  split
  · exact .inr rfl
  · refine (safe_align hc2).bind fun c3 h3 => (safe_fixedFileInfo c3).bind fun info h4 => ?_
    have hc4 := h4.fueled (h3.fueled hc2)
    exact (safe_align hc4).bind fun c5 h5 => h5.fueled hc4

theorem safe_version (hc : Fueled fuel c) : Safe (parseVersion fuel c) (fun _ => True) :=
  (safe_versionStart hc).bind fun _ hr => loop_advanced (P := fun r => Safe r (fun _ => True)) (fun _ hs => versionRound_spec hs) hr

/-! ## The parser ends -/

/-- What is asked of the parser on some bytes, with some fuel: on every cursor over no more bytes a round of either loop moves on by at least
a header or ends the loop, and the parser neither runs out of fuel nor slices out of range. -/
structure ParsingEnds (fuel : Nat) (data : Bytes) : Prop where
  versionLoop : ∀ s : Cursor × Dll, s.1.position ≤ s.1.inner.length → s.1.inner.length ≤ data.length →
    (∃ s', versionRound fuel s = .inl s' ∧ Advanced 6 s.1 s'.1) ∨
      ∃ r, versionRound fuel s = .inr r ∧ r ≠ .error .outOfFuel ∧ r ≠ .error .outOfRange
  stringLoop : ∀ s : Cursor × Dll, s.1.position ≤ s.1.inner.length → s.1.inner.length ≤ data.length →
    (∃ s', stringTableRound fuel s = .inl s' ∧ Advanced 6 s.1 s'.1) ∨
      ∃ r, stringTableRound fuel s = .inr r ∧ r.1 ≠ .error .outOfFuel ∧ r.1 ≠ .error .outOfRange
  ends : parseVersion fuel { inner := data, position := 0 } ≠ .error .outOfFuel
  inRange : parseVersion fuel { inner := data, position := 0 } ≠ .error .outOfRange

/-- On every byte string the parser ends, with as much fuel as there are bytes and one more. -/
theorem version_parsing_ends (data : Bytes) (more : Nat) : ParsingEnds (data.length + 1 + more) data := by
  have hfueled : ∀ c : Cursor, c.position ≤ c.inner.length → c.inner.length ≤ data.length → Fueled (data.length + 1 + more) c :=
    fun c hbound hlength => ⟨hbound, by omega⟩
  have hall := (safe_version (hfueled { inner := data, position := 0 } (Nat.zero_le _) (Nat.le_refl _))).not_out
  refine ⟨fun s hbound hlength => ?_, fun s hbound hlength => ?_, hall.1, hall.2⟩
  · have hround := versionRound_spec (hfueled s.1 hbound hlength)
    cases h : versionRound (data.length + 1 + more) s with
    | inl s' => exact .inl ⟨s', rfl, hround.1 s' h⟩
    | inr r => exact .inr ⟨r, rfl, (hround.2 r h).not_out⟩
  · have hround := stringTableRound_spec (hfueled s.1 hbound hlength)
    cases h : stringTableRound (data.length + 1 + more) s with
    | inl s' => exact .inl ⟨s', rfl, hround.1 s' h⟩
    | inr r => exact .inr ⟨r, rfl, (hround.2 r h).not_out⟩

end Scbl.Hooks.VersionResource
