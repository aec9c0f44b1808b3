import Mathlib.Logic.Function.Basic
import Scbl.Lib.Bytes
import Scbl.Lib.Program

/-!
# Files

The files of a disk by their paths, beside the local variables of the program that works on them, and the operations on whole files. A
copy that fails or is killed leaves its target as it was or with the first bytes of the source; a move and a deletion happen at once or
not at all.
-/

namespace Scbl.Lib

/-- The files, and the local variables of a program. -/
structure Disk (P L : Type) where
  files : P → Option Bytes
  locals : L

namespace Disk

variable {P L ε : Type}

/-- Whether there is a file. -/
def fileExists (path : P) : Program (Disk P L) ε Bool := .query (fun d => (d.files path).isSome)

/-- Set the local variables. -/
def setLocals (f : L → L) : Program (Disk P L) ε Unit := .assign (fun d => { d with locals := f d.locals })

/-- Read a file. -/
def readFile (io : ε) (path : P) : Program (Disk P L) ε Bytes :=
  .operation io (fun _ d => d) (fun d =>
    match d.files path with
    | some content => .ok (content, d)
    | none => .error io)

section Rules

variable {I : Disk P L → Prop} {E : ε → Mishaps → Disk P L → Prop} {K : Disk P L → Prop} {io : ε}

theorem meets_fileExists {F : Mishaps → Disk P L → Prop} (path : P) :
    (fileExists path : Program (Disk P L) ε Bool).Meets F (fun b mishaps d => F mishaps d ∧ b = (d.files path).isSome) E K :=
  Program.meets_query fun _ _ hs => ⟨hs, rfl⟩

/-- A file is read, where at most one operation fails. -/
theorem meets_readFile_once {path : P} (hraise : ∀ mishaps d, FailsAtMostOnce mishaps → I d → d.files path = none → E io mishaps d)
    (hfail : ∀ mishaps d, NoFailure mishaps → I d → E io mishaps d) :
    (readFile io path).Meets (fun mishaps d => FailsAtMostOnce mishaps ∧ I d)
      (fun content mishaps d => FailsAtMostOnce mishaps ∧ I d ∧ d.files path = some content) E K := by
  refine Program.meets_operation_once (J := fun content d => I d ∧ d.files path = some content) ?_ ?_ ?_
  · intro d content d' hI hstep
    cases hfile : d.files path with
    | none => simp [hfile] at hstep
    | some content' =>
      simp only [hfile, Except.ok.injEq, Prod.mk.injEq] at hstep
      obtain ⟨rfl, rfl⟩ := hstep
      exact ⟨hI, hfile⟩
  · intro mishaps d e hmishaps hI hstep
    cases hfile : d.files path with
    | none =>
      simp only [hfile, Except.error.injEq] at hstep
      subst hstep
      exact hraise mishaps d hmishaps hI hfile
    | some content => simp [hfile] at hstep
  · intro mishaps d _ hmishaps hI
    exact hfail mishaps d hmishaps hI

/-- A file is read, whatever befalls. -/
theorem meets_readFile_any {path : P} (hE : ∀ mishaps d, I d → E io mishaps d) (hK : ∀ d, I d → K d) :
    (readFile io path).Meets (fun _ d => I d) (fun content _ d => I d ∧ d.files path = some content) E K := by
  refine Program.meets_operation_any (J := fun content d => I d ∧ d.files path = some content) ?_ ?_ (fun mishaps d _ => hE mishaps d)
    (fun d _ => hK d)
  · intro d content d' hI hstep
    cases hfile : d.files path with
    | none => simp [hfile] at hstep
    | some content' =>
      simp only [hfile, Except.ok.injEq, Prod.mk.injEq] at hstep
      obtain ⟨rfl, rfl⟩ := hstep
      exact ⟨hI, hfile⟩
  · intro mishaps d e hI hstep
    cases hfile : d.files path with
    | none =>
      simp only [hfile, Except.error.injEq] at hstep
      subst hstep
      exact hE mishaps d hI
    | some content => simp [hfile] at hstep

/-- A file that is there is read. -/
theorem completes_readFile {path : P} {d : Disk P L} {content : Bytes} {Q : Bytes → Disk P L → Prop}
    (hfile : d.files path = some content) (h : Q content d) : (readFile io path).Completes d Q :=
  Program.completes_operation (by simp only [hfile]) h

end Rules

section Leaves

variable {α β : Type} {path source : P} {io : ε}

/-- The program leaves the file at a path as it is, whatever befalls. -/
def Leaves (path : P) (m : Program (Disk P L) ε α) : Prop :=
  ∀ content, m.Keeps (fun d => d.files path = content) (fun _ => True) (fun _ _ => True)

theorem leaves_pure {a : α} : Leaves path (pure a : Program (Disk P L) ε α) := fun _ => Program.keeps_pure fun _ _ _ => trivial

theorem leaves_raise {e : ε} : Leaves path (.raise e : Program (Disk P L) ε α) := fun _ => Program.keeps_raise

theorem leaves_query {f : Disk P L → α} : Leaves path (.query f : Program (Disk P L) ε α) := fun _ => Program.keeps_query fun _ _ _ => trivial

theorem leaves_ofExcept {x : Except ε α} : Leaves path (.ofExcept x : Program (Disk P L) ε α) :=
  fun _ => Program.keeps_ofExcept fun _ _ _ _ _ => trivial

theorem leaves_bind {m : Program (Disk P L) ε β} {f : β → Program (Disk P L) ε α} (hm : Leaves path m) (hf : ∀ b, Leaves path (f b)) :
    Leaves path (m >>= f) := fun content => Program.keeps_bind (hm content) fun b => hf b content

theorem leaves_tryCatch {m : Program (Disk P L) ε α} {handler : ε → Program (Disk P L) ε α} (hm : Leaves path m)
    (hhandler : ∀ e, Leaves path (handler e)) : Leaves path (m.tryCatch handler) :=
  fun content => Program.keeps_tryCatch (hm content) fun e => hhandler e content

theorem leaves_when {condition : Bool} {m : Program (Disk P L) ε Unit} (hm : Leaves path m) : Leaves path (.when condition m) :=
  fun content => Program.keeps_when (fun _ => hm content) fun _ _ _ _ => trivial

theorem leaves_ite {φ : Prop} [Decidable φ] {m m' : Program (Disk P L) ε α} (hm : Leaves path m) (hm' : Leaves path m') :
    Leaves path (if φ then m else m') := by
  split
  · exact hm
  · exact hm'

theorem leaves_readFile : Leaves path (readFile io source : Program (Disk P L) ε Bytes) := by
  intro content
  refine Program.keeps_operation fun d a d' hd _ hstep => ?_
  split at hstep
  · simp only [Except.ok.injEq, Prod.mk.injEq] at hstep
    exact ⟨hstep.2 ▸ hd, trivial⟩
  · nomatch hstep

/-- However a program ends that leaves a file alone, the file is as it was. -/
theorem Leaves.state {m : Program (Disk P L) ε α} (h : Leaves path m) (mishaps : Mishaps) (d : Disk P L) :
    (m.run mishaps d).state.files path = d.files path :=
  Program.Keeps.state (G := fun d' : Disk P L => d'.files path = d.files path) (h _) mishaps rfl trivial

end Leaves

variable [DecidableEq P]

/-- The disk with a file written or removed. -/
def write (d : Disk P L) (path : P) (content : Option Bytes) : Disk P L :=
  { d with files := Function.update d.files path content }

@[simp] theorem write_locals (d : Disk P L) (path : P) (content : Option Bytes) : (d.write path content).locals = d.locals := rfl

@[simp] theorem write_self (d : Disk P L) (path : P) (content : Option Bytes) : (d.write path content).files path = content :=
  Function.update_self _ _ _

theorem write_other {path path' : P} (d : Disk P L) (content : Option Bytes) (h : path' ≠ path) :
    (d.write path content).files path' = d.files path' :=
  Function.update_of_ne h _ _

/-- Writing what is there. -/
theorem write_eq_self {d : Disk P L} {path : P} {content : Option Bytes} (h : d.files path = content) :
    d.write path content = d := by
  subst h
  rw [write, Function.update_eq_self]

/-- Remove a file. -/
def deleteFile (io : ε) (path : P) : Program (Disk P L) ε Unit :=
  .operation io (fun _ d => d) (fun d =>
    match d.files path with
    | some _ => .ok ((), d.write path none)
    | none => .error io)

/-- The state in which a write of some content stops: nothing was done, or some first bytes are written. -/
def stopWriting (path : P) (content : Bytes) (stop : Nat) (d : Disk P L) : Disk P L :=
  match stop with
  | 0 => d
  | n + 1 => d.write path (some (content.take n))

/-- Write a file from its beginning. -/
def writeFile (io : ε) (path : P) (content : Bytes) : Program (Disk P L) ε Unit :=
  .operation io (fun stop d => stopWriting path content stop d) (fun d => .ok ((), d.write path (some content)))

/-- Copy a file over another. -/
def copyFile (io : ε) (source target : P) : Program (Disk P L) ε Unit :=
  .operation io
    (fun stop d =>
      match d.files source with
      | some content => if source = target then d else stopWriting target content stop d
      | none => d)
    (fun d =>
      match d.files source with
      | some content => if source = target then .error io else .ok ((), d.write target (some content))
      | none => .error io)

/-- Move a file over another. -/
def moveFile (io : ε) (source target : P) : Program (Disk P L) ε Unit :=
  .operation io (fun _ d => d) (fun d =>
    match d.files source with
    | some content => .ok ((), (d.write source none).write target (some content))
    | none => .error io)

/-- Remove a file if there is one, whatever happens. -/
def tryDelete (io : ε) (path : P) : Program (Disk P L) ε Unit :=
  Program.tryCatch
    (do
      let found ← fileExists path
      Program.when found (deleteFile io path))
    (fun _ => pure ())

/-! ## Rules -/

variable {I : Disk P L → Prop} {E : ε → Mishaps → Disk P L → Prop} {K : Disk P L → Prop} {io : ε}

/-- A file is copied to a path that the invariant leaves open, where at most one operation fails. -/
theorem meets_copyFile_once {source target : P} (hwrite : ∀ d content, I d → I (d.write target content))
    (hE : ∀ mishaps d, FailsAtMostOnce mishaps → I d → E io mishaps d) :
    (copyFile io source target).Meets (fun mishaps d => FailsAtMostOnce mishaps ∧ I d)
      (fun _ mishaps d => FailsAtMostOnce mishaps ∧ I d) E K := by
  refine Program.meets_operation_once (J := fun _ d => I d) ?_ ?_ ?_
  · intro d _ d' hI hstep
    split at hstep
    · split at hstep
      · nomatch hstep
      · simp only [Except.ok.injEq, Prod.mk.injEq, true_and] at hstep
        subst hstep
        exact hwrite d _ hI
    · nomatch hstep
  · intro mishaps d e hmishaps hI hstep
    have he : e = io := by
      split at hstep
      · split at hstep
        · exact (Except.error.inj hstep).symm
        · nomatch hstep
      · exact (Except.error.inj hstep).symm
    subst he
    exact hE mishaps d hmishaps hI
  · intro mishaps d stop hmishaps hI
    have hstop : I (match d.files source with
        | some content => if source = target then d else stopWriting target content stop d
        | none => d) := by
      split
      · split
        · exact hI
        · cases stop with
          | zero => exact hI
          | succ n => exact hwrite d _ hI
      · exact hI
    exact hE mishaps _ hmishaps.failsAtMostOnce hstop

/-- A file is copied, whatever befalls. -/
theorem meets_copyFile_any {source target : P} (hwrite : source ≠ target → ∀ d content, I d → I (d.write target content))
    (hE : ∀ mishaps d, I d → E io mishaps d) (hK : ∀ d, I d → K d) :
    (copyFile io source target).Meets (fun _ d => I d)
      (fun _ _ d => I d ∧ ∃ content, d.files source = some content ∧ d.files target = some content) E K := by
  have hstop : ∀ d stop, I d → I (match d.files source with
      | some content => if source = target then d else stopWriting target content stop d
      | none => d) := by
    intro d stop hI
    split
    · split
      · exact hI
      · rename_i hne
        cases stop with
        | zero => exact hI
        | succ n => exact hwrite hne d _ hI
    · exact hI
  refine Program.meets_operation_any (J := fun _ d => I d ∧ ∃ content, d.files source = some content ∧ d.files target = some content)
    ?_ ?_ (fun mishaps d stop hI => hE mishaps _ (hstop d stop hI)) (fun d stop hI => hK _ (hstop d stop hI))
  · intro d _ d' hI hstep
    split at hstep
    · rename_i content hfile
      split at hstep
      · nomatch hstep
      · rename_i hne
        simp only [Except.ok.injEq, Prod.mk.injEq, true_and] at hstep
        subst hstep
        exact ⟨hwrite hne d _ hI, content, (write_other d _ hne).trans hfile, write_self d _ _⟩
    · nomatch hstep
  · intro mishaps d e hI hstep
    have he : e = io := by
      split at hstep
      · split at hstep
        · exact (Except.error.inj hstep).symm
        · nomatch hstep
      · exact (Except.error.inj hstep).symm
    subst he
    exact hE mishaps d hI

/-- A file that is there is copied to another path. -/
theorem completes_copyFile {source target : P} {d : Disk P L} {content : Bytes} {Q : Unit → Disk P L → Prop}
    (hfile : d.files source = some content) (hne : source ≠ target) (h : Q () (d.write target (some content))) :
    (copyFile io source target).Completes d Q :=
  Program.completes_operation (by simp only [hfile, if_neg hne]) h

/-- How a copy of a file that is there ends. -/
theorem run_copyFile {source target : P} {d : Disk P L} {content : Bytes} (hfile : d.files source = some content) (hne : source ≠ target)
    (mishaps : Mishaps) :
    (copyFile io source target).run mishaps d =
      match mishaps.head?.join with
      | some (.fail stop) => .raised io mishaps.tail (stopWriting target content stop d)
      | some (.kill stop) => .killed (stopWriting target content stop d)
      | none => .done () mishaps.tail (d.write target (some content)) := by
  rw [copyFile]
  rcases hbefalls : mishaps.head?.join with _ | stop | stop
  · exact Program.run_operation_done hbefalls (by simp only [hfile, if_neg hne])
  · exact (Program.run_operation_fail hbefalls).trans (by simp only [hfile, if_neg hne])
  · exact (Program.run_operation_kill hbefalls).trans (by simp only [hfile, if_neg hne])

section Move

variable {J : Disk P L → Prop} {source target : P}

/-- A file that is there is moved, where at most one operation fails. -/
theorem meets_moveFile_once (hpresent : ∀ d, I d → (d.files source).isSome)
    (hdone : ∀ d content, I d → d.files source = some content → J ((d.write source none).write target (some content)))
    (hfail : ∀ mishaps d, NoFailure mishaps → I d → E io mishaps d) :
    (moveFile io source target).Meets (fun mishaps d => FailsAtMostOnce mishaps ∧ I d)
      (fun _ mishaps d => FailsAtMostOnce mishaps ∧ J d) E K := by
  refine Program.meets_operation_once (J := fun _ d => J d) ?_ ?_ ?_
  · intro d _ d' hI hstep
    cases hfile : d.files source with
    | none => simp [hfile] at hstep
    | some content =>
      simp only [hfile, Except.ok.injEq, Prod.mk.injEq, true_and] at hstep
      subst hstep
      exact hdone d content hI hfile
  · intro mishaps d e _ hI hstep
    have hsome := hpresent d hI
    cases hfile : d.files source with
    | none => simp [hfile] at hsome
    | some content => simp [hfile] at hstep
  · intro mishaps d _ hmishaps hI
    exact hfail mishaps d hmishaps hI

/-- A file is moved, whatever befalls. -/
theorem meets_moveFile_any
    (hdone : ∀ d content, I d → d.files source = some content → J ((d.write source none).write target (some content)))
    (hE : ∀ mishaps d, I d → E io mishaps d) (hK : ∀ d, I d → K d) :
    (moveFile io source target).Meets (fun _ d => I d) (fun _ _ d => J d) E K := by
  refine Program.meets_operation_any (J := fun _ d => J d) ?_ ?_ (fun mishaps d _ => hE mishaps d) (fun d _ => hK d)
  · intro d _ d' hI hstep
    cases hfile : d.files source with
    | none => simp [hfile] at hstep
    | some content =>
      simp only [hfile, Except.ok.injEq, Prod.mk.injEq, true_and] at hstep
      subst hstep
      exact hdone d content hI hfile
  · intro mishaps d e hI hstep
    cases hfile : d.files source with
    | none =>
      simp only [hfile, Except.error.injEq] at hstep
      subst hstep
      exact hE mishaps d hI
    | some content => simp [hfile] at hstep

/-- A file that is there is moved. -/
theorem completes_moveFile {d : Disk P L} {content : Bytes} {Q : Unit → Disk P L → Prop} (hfile : d.files source = some content)
    (h : Q () ((d.write source none).write target (some content))) : (moveFile io source target).Completes d Q :=
  Program.completes_operation (by simp only [hfile]) h

/-- A file that is there is moved, where no operation fails. -/
theorem meets_moveFile_never (hpresent : ∀ d, I d → (d.files source).isSome)
    (hdone : ∀ d content, I d → d.files source = some content → J ((d.write source none).write target (some content))) :
    (moveFile io source target).Meets (fun mishaps d => NoFailure mishaps ∧ I d) (fun _ mishaps d => NoFailure mishaps ∧ J d) E K := by
  refine Program.meets_of_completes fun d hI => ?_
  obtain ⟨content, hfile⟩ := Option.isSome_iff_exists.1 (hpresent d hI)
  exact completes_moveFile hfile (hdone d content hI hfile)

end Move

section TryDelete

variable {J : Disk P L → Prop} {path : P}

/-- A file is removed, if it can be, where at most one operation fails. -/
theorem meets_tryDelete_once (hdelete : ∀ d, I d → I (d.write path none)) :
    (tryDelete io path).Meets (fun mishaps d => FailsAtMostOnce mishaps ∧ I d) (fun _ mishaps d => FailsAtMostOnce mishaps ∧ I d) E K := by
  refine Program.meets_tryCatch (F := fun _ mishaps d => FailsAtMostOnce mishaps ∧ I d) ?_ (fun _ => Program.meets_pure fun _ _ hs => hs)
  refine Program.meets_bind (meets_fileExists path) fun found => Program.meets_when ?_ ?_
  · intro _
    refine (Program.meets_operation_once (I := I) (J := fun _ d => I d) ?_ ?_ ?_).from fun _ _ hs => hs.1
    · intro d _ d' hI hstep
      split at hstep
      · simp only [Except.ok.injEq, Prod.mk.injEq, true_and] at hstep
        subst hstep
        exact hdelete d hI
      · nomatch hstep
    · intro mishaps d _ hmishaps hI _
      exact ⟨hmishaps, hI⟩
    · intro mishaps d _ hmishaps hI
      exact ⟨hmishaps.failsAtMostOnce, hI⟩
  · intro _ mishaps d hs
    exact hs.1

/-- A file is removed, if it can be, whatever befalls. -/
theorem meets_tryDelete_any (hdelete : ∀ d, I d → I (d.write path none)) (hK : ∀ d, I d → K d) :
    (tryDelete io path).Meets (fun _ d => I d) (fun _ _ d => I d) E K := by
  refine Program.meets_tryCatch (F := fun _ _ d => I d) ?_ (fun _ => Program.meets_pure fun _ _ hs => hs)
  refine Program.meets_bind (meets_fileExists path) fun found => Program.meets_when (fun _ => ?_) (fun _ _ _ hs => hs.1)
  refine (Program.meets_operation_any (I := I) (J := fun _ d => I d) ?_ (fun _ _ _ hI _ => hI) (fun _ _ _ hI => hI)
    (fun d _ => hK d)).from fun _ _ hs => hs.1
  intro d _ d' hI hstep
  split at hstep
  · simp only [Except.ok.injEq, Prod.mk.injEq, true_and] at hstep
    subst hstep
    exact hdelete d hI
  · nomatch hstep

/-- A file is removed, if there is one. -/
theorem completes_tryDelete {d : Disk P L} {Q : Unit → Disk P L → Prop} (h : Q () (d.write path none)) :
    (tryDelete io path).Completes d Q := by
  refine Program.completes_tryCatch (Program.completes_bind (Program.completes_query (Program.completes_when ?_ ?_)))
  · intro hsome
    obtain ⟨content, hfile⟩ := Option.isSome_iff_exists.1 hsome
    exact Program.completes_operation (by simp only [hfile]) h
  · intro hnone
    rwa [write_eq_self (by simpa using hnone)] at h

/-- A file is removed, where no operation fails. -/
theorem meets_tryDelete_never (hdelete : ∀ d, I d → J (d.write path none)) :
    (tryDelete io path).Meets (fun mishaps d => NoFailure mishaps ∧ I d) (fun _ mishaps d => NoFailure mishaps ∧ J d) E K :=
  Program.meets_of_completes fun d hI => completes_tryDelete (hdelete d hI)

end TryDelete

section May

variable {d : Disk P L} {path source target : P} {R : Except ε Unit → Disk P L → Prop}

/-- A file may be left where it is to be removed if it can be. -/
theorem may_keep (h : R (.ok ()) d) : (tryDelete io path).May d R := by
  refine Program.may_tryCatch (Program.may_bind (Program.Completes.may (Program.completes_query ?_)))
  cases hfound : (d.files path).isSome with
  | false => exact Program.Completes.may (Program.completes_pure h)
  | true => exact Program.may_fail 0 (Program.Completes.may (Program.completes_pure h))

/-- A copy may fail before anything is written. -/
theorem may_not_copy (h : R (.error io) d) : (copyFile io source target).May d R := by
  refine Program.may_fail 0 ?_
  split
  · rwa [stopWriting, ite_self]
  · exact h

end May

section Leaves

variable {path source target : P}

theorem leaves_writeFile {written : Bytes} (h : path ≠ target) : Leaves path (writeFile io target written : Program (Disk P L) ε Unit) := by
  intro content
  have hstop : ∀ d : Disk P L, ∀ stop, d.files path = content → (stopWriting target written stop d).files path = content := by
    intro d stop hd
    cases stop with
    | zero => exact hd
    | succ n => exact (write_other d _ h).trans hd
  refine Program.meets_operation_any (I := fun d : Disk P L => d.files path = content ∧ True) (J := fun _ d => d.files path = content ∧ True) ?_ ?_ ?_ ?_
  · intro d _ d' hd hstep
    simp only [Except.ok.injEq, Prod.mk.injEq, true_and] at hstep
    exact ⟨hstep ▸ (write_other d _ h).trans hd.1, trivial⟩
  · intro mishaps d e hd hstep
    nomatch hstep
  · exact fun _ d stop hd => hstop d stop hd.1
  · exact fun d stop hd => hstop d stop hd.1

theorem leaves_copyFile (h : path ≠ target) : Leaves path (copyFile io source target : Program (Disk P L) ε Unit) := by
  intro content
  refine Program.Meets.weaken (meets_copyFile_any (I := fun d : Disk P L => d.files path = content) (E := fun _ _ d => d.files path = content)
    (K := fun d => d.files path = content) ?_ (fun _ _ hd => hd) (fun _ hd => hd)) (fun _ _ hd => hd.1) (fun _ _ _ hd => ⟨hd.1, trivial⟩)
    (fun _ _ _ hd => hd) (fun _ hd => hd)
  exact fun _ d written hd => (write_other d _ h).trans hd

theorem leaves_moveFile (hsource : path ≠ source) (htarget : path ≠ target) :
    Leaves path (moveFile io source target : Program (Disk P L) ε Unit) := by
  intro content
  refine Program.keeps_operation fun d _ d' hd _ hstep => ?_
  split at hstep
  · simp only [Except.ok.injEq, Prod.mk.injEq, true_and] at hstep
    subst hstep
    exact ⟨((write_other _ _ htarget).trans (write_other d _ hsource)).trans hd, trivial⟩
  · nomatch hstep

theorem leaves_tryDelete (h : path ≠ target) : Leaves path (tryDelete io target : Program (Disk P L) ε Unit) := by
  refine leaves_tryCatch (leaves_bind leaves_query fun _ => leaves_when ?_) fun _ => leaves_pure
  intro content
  refine Program.keeps_operation fun d _ d' hd _ hstep => ?_
  split at hstep
  · simp only [Except.ok.injEq, Prod.mk.injEq, true_and] at hstep
    subst hstep
    exact ⟨(write_other d _ h).trans hd, trivial⟩
  · nomatch hstep

end Leaves

end Disk

end Scbl.Lib
