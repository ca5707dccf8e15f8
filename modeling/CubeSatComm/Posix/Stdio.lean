import CubeSatComm.Lib.Decimal

/-!
# Standard I/O: files, `sprintf` and `sscanf`

What the programs use of `stdio.h`: whole-file reading with `fread`, writing a new
file with `fwrite`, and the conversion `%u` of `sprintf` and `sscanf`.

`%u` takes an `unsigned int`.  Scanning follows the C library: white space is
skipped, a sign is allowed, the digits are converted as an `unsigned long`, which
is clamped to its largest value, and its low 32 bits are stored.
-/

namespace CubeSatComm
namespace Posix

open Lib Decimal

/-! ## Files -/

/-- A file to read: its bytes, the size that `stat` left in `st_size`, and whether
`fopen` opens it. -/
structure SourceFile where
  content : List UInt8
  statSize : Nat
  readable : Bool

/-- What an `fwrite` call does: it stores its whole argument, or at most `count`
bytes from its front. -/
inductive FwriteOutcome where
  | complete
  | short (count : Nat)
  deriving DecidableEq, Repr

/-- Number of bytes out of `len` that an `fwrite` call stores and returns. -/
def FwriteOutcome.stored (outcome : FwriteOutcome) (len : Nat) : Nat :=
  match outcome with
  | complete => len
  | short count => min count len

/-- A file to write. -/
structure TargetFile where
  /-- Whether `fopen` opens it. -/
  openable : Bool
  /-- Whether it has been opened, and so truncated. -/
  opened : Bool
  /-- What has been written to it since then. -/
  content : List UInt8
  /-- Outcomes of the coming `fwrite` calls; the calls after them are complete. -/
  fwrites : List FwriteOutcome

namespace TargetFile

/-- `fopen(path, "w")` -/
def fopen (file : TargetFile) : Option TargetFile :=
  if file.openable then
    some { file with opened := true, content := [] }
  else
    none

/-- Outcome of the next `fwrite` call. -/
def nextOutcome (file : TargetFile) : FwriteOutcome :=
  file.fwrites.headD .complete

/-- `fwrite(bytes, sizeof(char), bytes.length, fp)` -/
def fwrite (file : TargetFile) (bytes : List UInt8) : Nat × TargetFile :=
  let stored := file.nextOutcome.stored bytes.length
  (stored,
    { file with
      content := file.content ++ bytes.take stored
      fwrites := file.fwrites.tail })

/-- Every coming `fwrite` call stores its whole argument. -/
def CompleteFwrites (file : TargetFile) : Prop :=
  ∀ outcome ∈ file.fwrites, outcome = .complete

/-- Without outcomes for them, all coming calls are complete. -/
theorem completeFwrites_of_eq_nil {file : TargetFile} (hNil : file.fwrites = []) :
    file.CompleteFwrites := by
  intro outcome hMem
  rw [hNil] at hMem
  cases hMem

theorem CompleteFwrites.fwrite_eq {file : TargetFile} (h : file.CompleteFwrites)
    (bytes : List UInt8) :
    file.fwrite bytes = (bytes.length,
      { file with
        content := file.content ++ bytes, fwrites := file.fwrites.tail }) := by
  have hNext : file.nextOutcome = .complete := by
    unfold nextOutcome
    cases hFwrites : file.fwrites with
    | nil => rfl
    | cons outcome rest =>
        apply h outcome
        rw [hFwrites]
        exact List.mem_cons_self
  simp [fwrite, hNext, FwriteOutcome.stored]

theorem completeFwrites_tail {file file' : TargetFile} (h : file.CompleteFwrites)
    (hFwrites : file'.fwrites = file.fwrites.tail) : file'.CompleteFwrites := by
  intro outcome hMem
  rw [hFwrites] at hMem
  exact h outcome (List.mem_of_mem_tail hMem)

end TargetFile

/-! ## Conversions -/

/-- `sprintf` of `%u`: the numeral of the low 32 bits. -/
def sprintfUnsigned (n : Nat) : List UInt8 := numeral (n % 2 ^ 32)

/-- `isspace` in the C locale. -/
def isSpace (c : UInt8) : Bool := c = 32 || (9 ≤ c && c ≤ 13)

/-- The C string at the front of a memory region. -/
def cString (region : List UInt8) : List UInt8 := region.takeWhile (· ≠ 0)

/-- The string of a region begins with the bytes at its front, as long as no NUL is
among them. -/
theorem cString_append {text : List UInt8} (hText : ∀ c ∈ text, c ≠ 0)
    (rest : List UInt8) : cString (text ++ rest) = text ++ cString rest :=
  List.takeWhile_append_of_pos fun c hMem => decide_eq_true (hText c hMem)

/-- Bytes without a NUL that stand at the front of a region are its string exactly if
there is a NUL behind them. -/
theorem cString_append_eq_iff {text : List UInt8} (hText : ∀ c ∈ text, c ≠ 0) (c : UInt8)
    (rest : List UInt8) : cString (text ++ c :: rest) = text ↔ c = 0 := by
  rw [cString_append hText, List.append_right_eq_self, cString]
  by_cases hNul : c = 0
  · simp [hNul]
  · simp [hNul]

/-- An optional sign: whether it is a minus, and what follows. -/
def scanSign : List UInt8 → Bool × List UInt8
  | 45 :: rest => (true, rest)
  | 43 :: rest => (false, rest)
  | text => (false, text)

/-- `strtoul` of a sign and a string of digits. -/
def strtoul (negative : Bool) (digits : List UInt8) : Nat :=
  if value digits < 2 ^ 64 then
    if negative then (2 ^ 64 - value digits) % 2 ^ 64 else value digits
  else
    2 ^ 64 - 1

/-- `sscanf` of `%u`; `none` means that nothing is stored. -/
def scanUnsigned (text : List UInt8) : Option Nat :=
  let (negative, body) := scanSign (text.dropWhile isSpace)
  let digits := body.takeWhile isDigit
  if digits = [] then none else some (strtoul negative digits % 2 ^ 32)

theorem scanUnsigned_lt {text : List UInt8} {v : Nat}
    (hScan : scanUnsigned text = some v) : v < 2 ^ 32 := by
  unfold scanUnsigned at hScan
  dsimp only at hScan
  split at hScan
  · cases hScan
  · obtain rfl := Option.some.inj hScan
    exact Nat.mod_lt _ (by decide)

theorem isSpace_of_isDigit {c : UInt8} (hDigit : isDigit c = true) :
    isSpace c = false := by
  have hLow : (48 : UInt8).toNat = 48 := rfl
  have hTab : (9 : UInt8).toNat = 9 := rfl
  have hReturn : (13 : UInt8).toNat = 13 := rfl
  have hBlank : (32 : UInt8).toNat = 32 := rfl
  simp only [isDigit, Bool.and_eq_true, decide_eq_true_eq, UInt8.le_iff_toNat_le,
    hLow] at hDigit
  simp only [isSpace, Bool.or_eq_false_iff, Bool.and_eq_false_iff,
    decide_eq_false_iff_not, UInt8.le_iff_toNat_le, ← UInt8.toNat_inj, hTab, hReturn,
    hBlank]
  omega

/-- Scanning what `sprintf` printed. -/
theorem scanUnsigned_sprintf (n : Nat) :
    scanUnsigned (sprintfUnsigned n) = some (n % 2 ^ 32) := by
  have hLt : n % 2 ^ 32 < 2 ^ 32 := Nat.mod_lt _ (by decide)
  have hDigits : (sprintfUnsigned n).takeWhile isDigit = sprintfUnsigned n := by
    have hTake := takeWhile_isDigit_numeral (n % 2 ^ 32)
      (show ([] : List UInt8).takeWhile isDigit = [] from rfl)
    rwa [List.append_nil] at hTake
  cases hText : sprintfUnsigned n with
  | nil => exact absurd hText (numeral_ne_nil _)
  | cons c rest =>
      have hDigit : isDigit c = true := by
        apply @isDigit_of_mem_numeral (n % 2 ^ 32)
        rw [← sprintfUnsigned, hText]
        exact List.mem_cons_self
      have hSpace := isSpace_of_isDigit hDigit
      have hSign : scanSign (c :: rest) = (false, c :: rest) := by
        unfold scanSign
        split
        · next h =>
          cases h
          exact absurd hDigit (by decide)
        · next h =>
          cases h
          exact absurd hDigit (by decide)
        · rfl
      rw [hText] at hDigits
      unfold scanUnsigned
      rw [List.dropWhile_cons_of_neg (by simp [hSpace]), hSign]
      dsimp only
      rw [hDigits, if_neg (List.cons_ne_nil _ _), ← hText, sprintfUnsigned, strtoul,
        value_numeral, if_pos (by omega), if_neg (by decide),
        Nat.mod_mod]

end Posix
end CubeSatComm
