import CubeSatComm.Lib.CInteger
import CubeSatComm.Loris.Antenna
import CubeSatComm.Posix.Stdio

/-!
# The file notice

`antenna_fwrite_fd` announces a file by an array of `FILE_NOTICE_LEN` bytes into
which `sprintf` has put the letter `F`, the file size and a NUL; the bytes behind
the NUL are whatever the array held before.  `antenna_fread_fd` takes every message
that leaves an `F` in front of its own array for a notice and scans the array with
`sscanf`.

Both sides convert the size with `%u`, so only the low 32 bits of a `size_t` go
through.
-/

namespace CubeSatComm
namespace Loris

open Lib CInteger Decimal Posix

/-- The letter `F` of `FILE_NOTICE_FMT`. -/
def fileNoticeTag : UInt8 := 70

/-- The text that `sprintf` makes of `FILE_NOTICE_FMT`. -/
def fileNoticeText (fileSize : Nat) : List UInt8 :=
  fileNoticeTag :: sprintfUnsigned fileSize

/-- The array `file_notice` after `sprintf`, `stale` before. -/
def fileNotice (stale : List UInt8) (fileSize : Nat) : List UInt8 :=
  store stale 0 (fileNoticeText fileSize ++ [0])

/-- `sscanf(notice, "F%u", &file_size)`: what `file_size` holds afterwards.  Of the
`size_t` only the low 32 bits are stored. -/
def scanFileNotice (notice : List UInt8) (fileSize : Nat) : Nat :=
  match cString notice with
  | [] => fileSize
  | tag :: rest =>
      if tag = fileNoticeTag then
        match scanUnsigned rest with
        | none => fileSize
        | some v => fileSize / 2 ^ 32 * 2 ^ 32 + v
      else
        fileSize

/-- `msg` is a notice for `fileSize`, with anything behind its NUL. -/
def IsFileNotice (fileSize : Nat) (msg : List UInt8) : Prop :=
  ∃ stale : List UInt8, stale.length = fileNoticeLen ∧
    msg = fileNotice stale fileSize

section Text

variable (fileSize : Nat)

theorem fileNoticeText_eq :
    fileNoticeText fileSize = fileNoticeTag :: numeral (fileSize % 2 ^ 32) := rfl

/-- The text and its NUL fit into the array. -/
theorem length_fileNoticeText_lt :
    (fileNoticeText fileSize).length < fileNoticeLen := by
  have hNumeral : (numeral (fileSize % 2 ^ 32)).length ≤ 10 :=
    length_numeral_le (by decide)
      (Nat.lt_trans (Nat.mod_lt _ (by decide)) (by decide))
  rw [fileNoticeText_eq, List.length_cons]
  unfold fileNoticeLen
  omega

theorem fileNotice_eq (stale : List UInt8) :
    fileNotice stale fileSize = fileNoticeText fileSize ++
      0 :: stale.drop ((fileNoticeText fileSize).length + 1) := by
  simp [fileNotice]

/-- The array keeps its length. -/
theorem length_fileNotice {stale : List UInt8}
    (hStale : stale.length = fileNoticeLen) :
    (fileNotice stale fileSize).length = fileNoticeLen := by
  have hText := length_fileNoticeText_lt fileSize
  rw [fileNotice, length_store, hStale]
  rw [List.length_append, List.length_singleton, hStale]
  omega

theorem ne_zero_of_mem_fileNoticeText {c : UInt8}
    (hMem : c ∈ fileNoticeText fileSize) : c ≠ 0 := by
  rw [fileNoticeText_eq] at hMem
  rcases List.mem_cons.mp hMem with rfl | hMem
  · decide
  · rintro rfl
    exact absurd (isDigit_of_mem_numeral hMem) (by decide)

/-- Up to the NUL a notice is its text. -/
theorem cString_fileNotice (stale above : List UInt8) :
    cString (fileNotice stale fileSize ++ above) = fileNoticeText fileSize := by
  have hText : ∀ c ∈ fileNoticeText fileSize, decide (c ≠ 0) = true :=
    fun c hMem => decide_eq_true (ne_zero_of_mem_fileNoticeText fileSize hMem)
  rw [fileNotice_eq, List.append_assoc, cString, List.takeWhile_append_of_pos hText,
    List.cons_append, List.takeWhile_cons_of_neg (by decide), List.append_nil]

/-- What the receiver scans out of a notice: the low 32 bits of the size. -/
theorem scanFileNotice_fileNotice (stale above : List UInt8) :
    scanFileNotice (fileNotice stale fileSize ++ above) 0 = fileSize % 2 ^ 32 := by
  rw [scanFileNotice, cString_fileNotice]
  simp [fileNoticeText, scanUnsigned_sprintf]

end Text

/-- An announced size has at most 32 bits. -/
theorem scanFileNotice_lt (notice : List UInt8) :
    scanFileNotice notice 0 < 2 ^ 32 := by
  unfold scanFileNotice
  split
  · decide
  · next tag rest _ =>
    split
    · split
      · decide
      · next v hScan =>
        have hLow := scanUnsigned_lt hScan
        omega
    · decide

namespace IsFileNotice

variable {fileSize : Nat} {msg : List UInt8} (hNotice : IsFileNotice fileSize msg)

include hNotice

theorem length_eq : msg.length = fileNoticeLen := by
  obtain ⟨stale, hStale, rfl⟩ := hNotice
  exact length_fileNotice fileSize hStale

theorem head_eq : msg.head? = some fileNoticeTag := by
  obtain ⟨stale, -, rfl⟩ := hNotice
  rw [fileNotice_eq]
  rfl

theorem scan_eq (above : List UInt8) :
    scanFileNotice (msg ++ above) 0 = fileSize % 2 ^ 32 := by
  obtain ⟨stale, -, rfl⟩ := hNotice
  exact scanFileNotice_fileNotice fileSize stale above

end IsFileNotice

/-- A line of text that happens to begin with the letter. -/
example : scanFileNotice [70, 105, 110, 101, 46, 0] 0 = 0 := by decide

/-- A sign is part of what `%u` accepts. -/
example : scanFileNotice [70, 45, 49, 0] 0 = 2 ^ 32 - 1 := by decide

end Loris
end CubeSatComm
