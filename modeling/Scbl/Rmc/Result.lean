import Mathlib.Data.List.Basic

/-!
# Results of calls

The errors of `quazal/src/rmc/result.rs` and their conversion from and to `u32`. An error is a category and one of the numbers that
the enumeration of the category lists; the highest bit of its code is set.
-/

namespace Scbl.Rmc

namespace Result

/-- The categories of errors. -/
inductive ErrorCategory where
  | core | ddl | rendezVous | pythonCore | transport | doCore | fpd | ranking | authentication | dataStore | serviceItem
  | matchmakeReferee | subscriber | ranking2 | smartDeviceVoiceChat | screening | custom | ess
  deriving DecidableEq, Repr

namespace ErrorCategory

/-- The number of a category in a code. -/
def number : ErrorCategory → UInt32
  | .core => 1
  | .ddl => 2
  | .rendezVous => 3
  | .pythonCore => 4
  | .transport => 5
  | .doCore => 6
  | .fpd => 0x65
  | .ranking => 0x67
  | .authentication => 0x68
  | .dataStore => 0x69
  | .serviceItem => 0x6c
  | .matchmakeReferee => 0x6f
  | .subscriber => 0x70
  | .ranking2 => 0x71
  | .smartDeviceVoiceChat => 0x72
  | .screening => 0x73
  | .custom => 0x74
  | .ess => 0x75

/-- The numbers from the first to the last. -/
def through (first last : Nat) : List UInt16 := (List.range' first (last + 1 - first)).map UInt16.ofNat

/-- The numbers that the enumeration of a category lists. -/
def numbers : ErrorCategory → List UInt16
  | .core => through 0x0001 0x0013
  | .ddl => through 0x0001 0x0002
  | .rendezVous => [0x0001, 0x0002] ++ through 0x0064 0x0073 ++ [0x0075, 0x0076] ++ through 0x00C8 0x00E2
  | .pythonCore => through 0x0001 0x000A
  | .transport => through 0x0001 0x0011 ++ through 0x0013 0x0021
  | .doCore => through 0x0001 0x0016
  | .fpd => through 0x0000 0x0015 ++ [0x0017, 0x0019, 0x001A] ++ through 0x001C 0x002D
  | .ranking => [0x0001, 0x0002, 0x0003, 0x0005, 0x0006, 0x0007, 0x0009, 0x000A, 0x000B]
  | .authentication => through 0x0001 0x0018
  | .dataStore => through 0x0001 0x000D
  | .serviceItem => through 0x0001 0x0007
  | .matchmakeReferee => through 0x0001 0x0009
  | .subscriber => through 0x0001 0x0004
  | .ranking2 => through 0x0001 0x0003
  | .smartDeviceVoiceChat => through 0x0001 0x0014
  | .screening => through 0x0001 0x0003
  | .custom => [0x0001]
  | .ess => through 0x0001 0x0003

/-- All categories, in the order of the conversion. -/
def all : List ErrorCategory :=
  [.core, .ddl, .rendezVous, .pythonCore, .transport, .doCore, .fpd, .ranking, .authentication, .dataStore, .serviceItem,
    .matchmakeReferee, .subscriber, .ranking2, .smartDeviceVoiceChat, .screening, .custom, .ess]

theorem mem_all (category : ErrorCategory) : category ∈ all := by
  cases category <;> decide

end ErrorCategory

/-- An error: its category and its number in the category. -/
structure Error where
  category : ErrorCategory
  number : UInt16
  listed : number ∈ category.numbers
  deriving DecidableEq

namespace Error

/-- The code of a category and a number. -/
def codeOf (category : ErrorCategory) (number : UInt16) : UInt32 :=
  ((category.number <<< 16) ||| number.toUInt32) ||| 0x80000000

/-- The code of an error. -/
def toU32 (err : Error) : UInt32 := codeOf err.category err.number

/-- The category and the number of a code. -/
def split (value : UInt32) : Option (ErrorCategory × UInt16) :=
  if value &&& 0x80000000 = 0 then none
  else
    let code := value ^^^ 0x80000000
    (ErrorCategory.all.find? (fun category => code >>> 16 = category.number)).map (fun category => (category, code.toUInt16))

/-- The error with a code. -/
def tryFrom (value : UInt32) : Option Error :=
  match split value with
  | some (category, number) => if listed : number ∈ category.numbers then some { category, number, listed } else none
  | none => none

/-- The codes of the listed errors are split into what they were made of. -/
theorem split_codeOf : ∀ category ∈ ErrorCategory.all, ∀ number ∈ category.numbers,
    split (codeOf category number) = some (category, number) := by
  have hall : ErrorCategory.all.all (fun category => category.numbers.all (fun number =>
      split (codeOf category number) == some (category, number))) = true := by decide +kernel
  intro category hcategory number hnumber
  exact eq_of_beq (List.all_eq_true.1 (List.all_eq_true.1 hall category hcategory) number hnumber)

/-- An error is read back from its code. -/
theorem tryFrom_toU32 (err : Error) : tryFrom err.toU32 = some err := by
  have hsplit := split_codeOf err.category (ErrorCategory.mem_all _) err.number err.listed
  rw [tryFrom, toU32, hsplit]
  exact dif_pos err.listed

end Error

end Result

/-- The outcome of a call. -/
inductive QResult where
  | ok
  | error (err : Result.Error)
  | unknown (code : UInt32)
  deriving DecidableEq

namespace QResult

/-- The code of a call that succeeded. -/
def okCode : UInt32 := 0x10001

/-- The code of an outcome. -/
def code : QResult → UInt32
  | .ok => okCode
  | .error err => err.toU32
  | .unknown c => c

/-- The outcome with a code. -/
def ofCode (code : UInt32) : QResult :=
  if code = okCode then .ok
  else
    match Result.Error.tryFrom code with
    | some err => .error err
    | none => .unknown code

/-- A code that is neither that of success nor that of an error. -/
def IsUnknown (code : UInt32) : Prop := code ≠ okCode ∧ Result.Error.tryFrom code = none

/-- The codes of errors are none of success. -/
theorem codeOf_ne_okCode : ∀ category ∈ Result.ErrorCategory.all, ∀ number ∈ category.numbers,
    Result.Error.codeOf category number ≠ okCode := by
  have hall : Result.ErrorCategory.all.all (fun category => category.numbers.all (fun number =>
      Result.Error.codeOf category number != okCode)) = true := by decide +kernel
  intro category hcategory number hnumber
  exact bne_iff_ne.1 (List.all_eq_true.1 (List.all_eq_true.1 hall category hcategory) number hnumber)

/-- An outcome is read back from its code, unless it is an unknown one with the code of another. -/
theorem ofCode_code (result : QResult) (h : ∀ c, result = .unknown c → IsUnknown c) : ofCode result.code = result := by
  cases result with
  | ok => rfl
  | error err =>
    have hne : err.toU32 ≠ okCode := codeOf_ne_okCode err.category (Result.ErrorCategory.mem_all _) err.number err.listed
    rw [code, ofCode, if_neg hne, Result.Error.tryFrom_toU32]
  | unknown c =>
    obtain ⟨hne, hnone⟩ := h c rfl
    rw [code, ofCode, if_neg hne, hnone]

end QResult

end Scbl.Rmc
