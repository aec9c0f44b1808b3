import Mathlib.Data.List.Basic

/-!
# Paths of Windows

A path is the names between its separators, the first of which name a volume: a drive, or a server and a share. A full path is normal: it
has no empty, current or parent directories, and no name ends in a period or a space that is not part of it.
-/

namespace Scbl.Lib

/-- The names between the separators of a path. -/
abbrev PathNames := List (List Char)

def isSeparator (c : Char) : Bool := c = '\\' || c = '/'

def pathNames (t : List Char) : PathNames := t.splitOnP isSeparator

/-- How many names make up the volume of a path that is fully qualified. -/
def volumeLength : PathNames → Option Nat
  | [drive, ':'] :: _ :: _ => if drive.isAlpha then some 1 else none
  | [] :: [] :: server :: share :: _ =>
    if server = [] ∨ server = ['.'] ∨ server = ['?'] ∨ share = [] then none else some 4
  | _ => none

/-- A name without the single period at its end. -/
def trimPeriod (name : List Char) : List Char :=
  if name.getLast? = some '.' ∧ name.dropLast.getLast? ≠ some '.' then name.dropLast else name

/-- Go into a directory that stands between others. -/
def enterName (names : PathNames) (name : List Char) : PathNames :=
  if name = [] ∨ name = ['.'] then names else if name = ['.', '.'] then names.dropLast else names ++ [trimPeriod name]

/-- Go on to the last name of a path. -/
def enterLast (names : PathNames) (name : List Char) : PathNames :=
  if name = ['.', '.'] then names.dropLast
  else
    let name := (name.reverse.dropWhile (fun c => c = '.' || c = ' ')).reverse
    if name = [] then names else names ++ [name]

def resolveNames (names : PathNames) : PathNames → PathNames
  | [] => names
  | [last] => enterLast names last
  | name :: rest => resolveNames (enterName names name) rest

/-- The normal path of a fully qualified one. -/
def normalPath (path : PathNames) : PathNames :=
  let volume := (volumeLength path).getD 0
  path.take volume ++ resolveNames [] (path.drop volume)

/-- The directory of a path, if it is not a volume. -/
def directoryName (path : PathNames) : Option PathNames :=
  (volumeLength path).bind (fun volume => if volume < path.length then some path.dropLast else none)

example : normalPath (pathNames "C:\\a\\.\\b.\\..\\c. /d. .".toList) = pathNames "C:\\a\\c. \\d".toList := by decide +kernel

/-- A name that a directory can have. -/
def IsFileName (name : List Char) : Prop :=
  name ≠ [] ∧ name.getLast? ≠ some '.' ∧ name.getLast? ≠ some ' ' ∧ ∀ c ∈ name, isSeparator c = false

section Names

variable {names rest path : PathNames} {name : List Char}

theorem enterName_of_isFileName (h : IsFileName name) : enterName names name = names ++ [name] := by
  have hdot : name ≠ ['.'] := by
    rintro rfl
    exact h.2.1 rfl
  have hdots : name ≠ ['.', '.'] := by
    rintro rfl
    exact h.2.1 rfl
  rw [enterName, if_neg (not_or.mpr ⟨h.1, hdot⟩), if_neg hdots, trimPeriod, if_neg fun htrim => h.2.1 htrim.1]

theorem enterLast_of_isFileName (h : IsFileName name) : enterLast names name = names ++ [name] := by
  have hdots : name ≠ ['.', '.'] := by
    rintro rfl
    exact h.2.1 rfl
  have hkept : (name.reverse.dropWhile (fun c => decide (c = '.') || decide (c = ' '))).reverse = name := by
    obtain ⟨c, t, hcons⟩ := List.exists_cons_of_ne_nil (mt List.reverse_eq_nil_iff.mp h.1)
    have hlast : name.getLast? = some c := by rw [← List.head?_reverse, hcons, List.head?_cons]
    have hc : ¬ (decide (c = '.') || decide (c = ' ')) = true := by
      rintro hblank
      rcases (Bool.or_eq_true _ _).mp hblank with hc | hc
      · exact h.2.1 (hlast.trans (congrArg some (of_decide_eq_true hc)))
      · exact h.2.2.1 (hlast.trans (congrArg some (of_decide_eq_true hc)))
    have hdrop : (c :: t).dropWhile (fun c => decide (c = '.') || decide (c = ' ')) = c :: t := List.dropWhile_cons_of_neg hc
    rw [hcons, hdrop, ← hcons, List.reverse_reverse]
  simp only [enterLast, if_neg hdots, hkept, if_neg h.1]

/-- A name that stands between others stays, goes back, or is entered as some name. -/
theorem enterName_cases (names : PathNames) (name : List Char) :
    enterName names name = names ∨ enterName names name = names.dropLast ∨ ∃ name', enterName names name = names ++ [name'] := by
  unfold enterName
  split
  · exact .inl rfl
  · split
    · exact .inr (.inl rfl)
    · exact .inr (.inr ⟨_, rfl⟩)

/-- The names in front are entered one by one. -/
theorem resolveNames_append (path : PathNames) (h : rest ≠ []) :
    resolveNames names (path ++ rest) = resolveNames (path.foldl enterName names) rest := by
  induction path generalizing names with
  | nil => rfl
  | cons name path ih =>
    obtain ⟨next, after, hcons⟩ := List.exists_cons_of_ne_nil (List.append_ne_nil_of_right_ne_nil path h)
    have hstep : resolveNames names (name :: path ++ rest) = resolveNames (enterName names name) (path ++ rest) := by
      rw [List.cons_append, hcons, resolveNames]
      exact fun heq => nomatch heq
    rw [hstep, ih]
    rfl

/-- What is behind the volume does not change it. -/
theorem volumeLength_append {n : Nat} (h : volumeLength path = some n) (rest : PathNames) :
    volumeLength (path ++ rest) = some n ∧ n ≤ path.length := by
  unfold volumeLength at h
  split at h
  · split at h
    · obtain rfl := Option.some.inj h
      rename_i hdrive
      refine ⟨?_, by simp⟩
      simp [volumeLength, hdrive]
    · nomatch h
  · split at h
    · nomatch h
    · rename_i hshare
      obtain rfl := Option.some.inj h
      refine ⟨?_, by simp⟩
      simp only [List.cons_append, volumeLength, if_neg hshare]
  · nomatch h

/-- The normal path of a directory, with what it leads to. -/
theorem normalPath_append {n : Nat} (h : volumeLength path = some n) (hrest : rest ≠ []) :
    normalPath (path ++ rest) = path.take n ++ resolveNames ((path.drop n).foldl enterName []) rest := by
  obtain ⟨hvolume, hle⟩ := volumeLength_append h rest
  simp only [normalPath, hvolume, Option.getD_some]
  rw [List.take_append_of_le_length hle, List.drop_append_of_le_length hle, resolveNames_append _ hrest]

/-- A name that stays as it is where it is entered. -/
def IsNormalName (name : List Char) : Prop := name ≠ [] ∧ name ≠ ['.'] ∧ name ≠ ['.', '.'] ∧ trimPeriod name = name

theorem enterName_of_isNormalName (h : IsNormalName name) : enterName names name = names ++ [name] := by
  rw [enterName, if_neg (not_or.mpr ⟨h.1, h.2.1⟩), if_neg h.2.2.1, h.2.2.2]

theorem isNormalName_trimPeriod (hne : name ≠ []) (hdot : name ≠ ['.']) (hdots : name ≠ ['.', '.']) : IsNormalName (trimPeriod name) := by
  unfold trimPeriod
  split
  · rename_i hlast
    have hkept : trimPeriod name.dropLast = name.dropLast := if_neg fun htrim => hlast.2 htrim.1
    have hnil : name.dropLast ≠ [] := by
      intro hnil
      obtain ⟨c, rfl⟩ : ∃ c, name = [c] := by
        cases name with
        | nil => exact absurd rfl hne
        | cons c t =>
          cases t with
          | nil => exact ⟨c, rfl⟩
          | cons d t => nomatch hnil
      exact hdot (congrArg (fun c => [c]) (Option.some.inj hlast.1))
    refine ⟨hnil, ?_, ?_, hkept⟩ <;>
      · intro heq
        rw [heq] at hlast
        exact hlast.2 rfl
  · rename_i hlast
    exact ⟨hne, hdot, hdots, if_neg hlast⟩

theorem isNormalName_foldl (path : PathNames) (h : ∀ name ∈ names, IsNormalName name) :
    ∀ name ∈ path.foldl enterName names, IsNormalName name := by
  induction path generalizing names with
  | nil => exact h
  | cons name path ih =>
    refine ih fun other hother => ?_
    unfold enterName at hother
    split at hother
    · exact h other hother
    · rename_i hdot
      obtain ⟨hne, hdot⟩ := not_or.mp hdot
      split at hother
      · exact h other (List.dropLast_subset _ hother)
      · rename_i hdots
        rcases List.mem_append.mp hother with hother | hother
        · exact h other hother
        · rw [List.mem_singleton.mp hother]
          exact isNormalName_trimPeriod hne hdot hdots

/-- Normal names are entered as they are. -/
theorem foldl_enterName (path : PathNames) (h : ∀ name ∈ path, IsNormalName name) : path.foldl enterName names = names ++ path := by
  induction path generalizing names with
  | nil => simp
  | cons name path ih =>
    obtain ⟨hname, hpath⟩ := List.forall_mem_cons.mp h
    rw [List.foldl_cons, enterName_of_isNormalName hname, ih hpath, List.append_assoc]
    rfl

/-- Names of files are entered as they are. -/
theorem resolveNames_of_isFileName (h : ∀ name ∈ rest, IsFileName name) : resolveNames names rest = names ++ rest := by
  induction rest generalizing names with
  | nil => rw [resolveNames, List.append_nil]
  | cons name rest ih =>
    obtain ⟨hname, hrest⟩ := List.forall_mem_cons.mp h
    cases rest with
    | nil => rw [resolveNames, enterLast_of_isFileName hname]
    | cons next rest =>
      rw [resolveNames, enterName_of_isFileName hname, ih hrest, List.append_assoc]
      · rfl
      · exact fun heq => nomatch heq

/-- The directory that a fully qualified path leads to when more names follow. -/
def baseOf (path : PathNames) : PathNames :=
  let volume := (volumeLength path).getD 0
  path.take volume ++ (path.drop volume).foldl enterName []

/-- The volume of a path is that of the directory it leads to. -/
theorem volumeLength_baseOf {n : Nat} (h : volumeLength path = some n) (hrest : rest ≠ []) :
    volumeLength (baseOf path ++ rest) = some n ∧ (baseOf path).take n = path.take n ∧ n ≤ (baseOf path).length ∧
      (baseOf path).drop n = (path.drop n).foldl enterName [] := by
  have hle : n ≤ path.length := (volumeLength_append h []).2
  have hlength : (path.take n).length = n := List.length_take_of_le hle
  have htake : (baseOf path).take n = path.take n := by
    rw [baseOf, h, Option.getD_some, List.take_append_of_le_length (Nat.le_of_eq hlength.symm), List.take_of_length_le (Nat.le_of_eq hlength)]
  have hdrop : (baseOf path).drop n = (path.drop n).foldl enterName [] := by
    rw [baseOf, h, Option.getD_some, List.drop_append_of_le_length (Nat.le_of_eq hlength.symm), List.drop_of_length_le (Nat.le_of_eq hlength), List.nil_append]
  have hbase : n ≤ (baseOf path).length := by
    rw [baseOf, h, Option.getD_some, List.length_append, hlength]
    exact Nat.le_add_right _ _
  refine ⟨?_, htake, hbase, hdrop⟩
  have hsplit : baseOf path ++ rest = path.take n ++ ((baseOf path).drop n ++ rest) := by
    rw [← htake, ← List.append_assoc, List.take_append_drop]
  obtain ⟨c, t, hcons⟩ := List.exists_cons_of_ne_nil (List.append_ne_nil_of_right_ne_nil ((baseOf path).drop n) hrest)
  rw [hsplit, hcons]
  unfold volumeLength at h
  split at h
  · split at h
    · obtain rfl := Option.some.inj h
      rename_i hdrive
      simp [volumeLength, hdrive]
    · nomatch h
  · split at h
    · nomatch h
    · rename_i hshare
      obtain rfl := Option.some.inj h
      simp only [List.take_succ_cons, List.take_zero, List.cons_append, List.nil_append, volumeLength, if_neg hshare]
  · nomatch h

/-- Names of files behind a directory that a path leads to. -/
theorem normalPath_of_isFileName {n : Nat} (h : volumeLength path = some n) (hne : rest ≠ []) (hrest : ∀ name ∈ rest, IsFileName name) :
    normalPath (path ++ rest) = baseOf path ++ rest ∧ normalPath (baseOf path ++ rest) = baseOf path ++ rest := by
  have hfirst : normalPath (path ++ rest) = baseOf path ++ rest := by
    rw [normalPath_append h hne, resolveNames_of_isFileName hrest, baseOf, h, Option.getD_some, List.append_assoc]
  refine ⟨hfirst, ?_⟩
  obtain ⟨hvolume, htake, hle, hdrop⟩ := volumeLength_baseOf h hne
  simp only [normalPath, hvolume, Option.getD_some]
  rw [List.take_append_of_le_length hle, List.drop_append_of_le_length hle, resolveNames_append _ hne, htake, hdrop]
  have hnormal := isNormalName_foldl (path.drop n) fun name (hname : name ∈ []) => absurd hname List.not_mem_nil
  rw [foldl_enterName _ hnormal, resolveNames_of_isFileName hrest, List.nil_append, baseOf, h, Option.getD_some, List.append_assoc]

end Names

end Scbl.Lib
