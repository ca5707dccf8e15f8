import CubeSatComm.Csp.Sha1
import CubeSatComm.Csp.Trailer

/-!
# `csp_hmac.c`

The authentication code of CSP: the first four bytes of the keyed hash of the data,
behind the data.  The key is kept as sixteen bytes that are derived from the key of the
application.
-/

namespace CubeSatComm
namespace Csp

open Lib

/-- `CSP_ERR_HMAC` -/
def cspErrHmac : Int := -100

/-- `HMAC_KEY_LENGTH` -/
def hmacKeyLength : Nat := 16

/-- `CSP_HMAC_LENGTH` -/
def cspHmacLength : Nat := 4

/-- `hmac_state` -/
structure HmacState where
  md : CspSha1State
  key : List UInt8

/-- `csp_hmac_init`; `none` stands for `CSP_ERR_INVAL`. -/
def cspHmacInit (key : List UInt8) : Option HmacState :=
  if key.length < 1 then
    none
  else
    let key :=
      if key.length > cspSha1Blocksize then
        cspSha1Memory key ++ List.replicate (cspSha1Blocksize - cspSha1Digestsize) 0
      else
        key ++ List.replicate (cspSha1Blocksize - key.length) 0
    some ⟨cspSha1Process cspSha1Fresh (key.map (· ^^^ 0x36)), key⟩

/-- `csp_hmac_process` -/
def cspHmacProcess (hmac : HmacState) (input : List UInt8) : HmacState :=
  { hmac with md := cspSha1Process hmac.md input }

/-- `csp_hmac_done` -/
def cspHmacDone (hmac : HmacState) : List UInt8 :=
  let isha := cspSha1Done hmac.md
  let md := cspSha1Process cspSha1Fresh (hmac.key.map (· ^^^ 0x5C))
  cspSha1Done (cspSha1Process md isha)

/-- `csp_hmac_memory`; `none` stands for `CSP_ERR_INVAL`. -/
def cspHmacMemory (key data : List UInt8) : Option (List UInt8) :=
  match cspHmacInit key with
  | none => none
  | some state => some (cspHmacDone (cspHmacProcess state data))

/-! ## The keyed hash -/

/-- The code is the keyed hash over SHA-1, for every key that is not empty. -/
theorem cspHmacMemory_eq (key data : List UInt8) :
    cspHmacMemory key data =
      if key = [] then none else some (hmac Sha1.hash Sha1.blockSize key data) := by
  cases key with
  | nil => rfl
  | cons byte key =>
      have hKey : ¬ (byte :: key).length < 1 := by simp
      have hDone (xs ys : List UInt8) :
          cspSha1Done (cspSha1Process (cspSha1Process cspSha1Fresh xs) ys) =
            Sha1.hash (xs ++ ys) :=
        (((Absorbed.init _).process xs).process ys).done
      rw [if_neg (List.cons_ne_nil _ _), cspHmacMemory, cspHmacInit, if_neg hKey]
      simp only [cspHmacDone, cspHmacProcess, hDone]
      rw [hmac, blockKey]
      by_cases hLong : (byte :: key).length > cspSha1Blocksize
      · have hLong' : (byte :: key).length > Sha1.blockSize := hLong
        rw [if_pos hLong]
        simp only [if_pos hLong', cspSha1Memory_eq, Sha1.length_hash]
        rfl
      · have hLong' : ¬ (byte :: key).length > Sha1.blockSize := hLong
        rw [if_neg hLong]
        simp only [if_neg hLong']
        rfl

/-! ## The code of a packet -/

/-- `csp_hmac_key` -/
abbrev CspHmacKey := { key : List UInt8 // key.length = hmacKeyLength }

/-- The bytes of a code in the packet. -/
def hmacBytes (key : CspHmacKey) (data : List UInt8) : List UInt8 :=
  ((cspHmacMemory key.1 data).getD []).take cspHmacLength

/-- A key of sixteen bytes is never refused. -/
theorem hmacBytes_eq (key : CspHmacKey) (data : List UInt8) :
    hmacBytes key data =
      (hmac Sha1.hash Sha1.blockSize key.1 data).take cspHmacLength := by
  have hKey : key.1 ≠ [] := by
    intro hNil
    have hLength := key.2
    rw [hNil] at hLength
    cases hLength
  rw [hmacBytes, cspHmacMemory_eq, if_neg hKey, Option.getD_some]

theorem length_hmacBytes (key : CspHmacKey) (data : List UInt8) :
    (hmacBytes key data).length = cspHmacLength := by
  rw [hmacBytes_eq, List.length_take, hmac, Sha1.length_hash]
  rfl

/-- The code as a trailer. -/
def hmacTrailer (key : CspHmacKey) : Trailer where
  size := cspHmacLength
  bytes := hmacBytes key
  length_bytes := length_hmacBytes key
  error := cspErrHmac
  error_ne := by decide

/-- `csp_hmac_append` -/
def cspHmacAppend {size : Nat} (key : CspHmacKey) (packet : AreaPacket size)
    (includeHeader : Bool) : Int × AreaPacket size :=
  (hmacTrailer key).append packet includeHeader

/-- `csp_hmac_verify` -/
def cspHmacVerify {size : Nat} (key : CspHmacKey) (packet : AreaPacket size)
    (includeHeader : Bool) : Int × AreaPacket size :=
  (hmacTrailer key).verify packet includeHeader

end Csp
end CubeSatComm
