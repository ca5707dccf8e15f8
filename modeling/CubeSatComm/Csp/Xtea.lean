import CubeSatComm.Csp.DataPacket
import CubeSatComm.Csp.Sha1
import CubeSatComm.Lib.StreamCipher

/-!
# `csp_xtea.c`

The encryption of CSP: the block cipher XTEA makes a keystream from a counter, and the
keystream is combined with the data.  The random nonce that the counter starts with
follows the data.

The counter is incremented after it has been read for the second block, so the first two
blocks of the data are combined with the same eight bytes.
-/

namespace CubeSatComm
namespace Csp

open Lib

/-- `CSP_ERR_XTEA` -/
def cspErrXtea : Int := -101

/-- `XTEA_BLOCKSIZE` -/
def xteaBlocksize : Nat := 8

/-- `XTEA_ROUNDS` -/
def xteaRounds : Nat := 32

/-- `XTEA_KEY_LENGTH` -/
def xteaKeyLength : Nat := 16

/-- `sizeof(nonce)` -/
def nonceSize : Nat := 4

/-- `csp_xtea_key` -/
abbrev CspXteaKey := { key : List UInt8 // key.length = xteaKeyLength }

/-- `csp_xtea_set_key` -/
def cspXteaSetKey (key : List UInt8) : CspXteaKey :=
  ⟨(cspSha1Memory key).take xteaKeyLength, by
    rw [cspSha1Memory_eq, List.length_take, Sha1.length_hash]
    rfl⟩

/-! ## The block cipher -/

/-- `LOAD32L` -/
def load32L (bytes : List UInt8) (offset : Nat) : BitVec 32 :=
  BitVec.ofNat 32 (ofLittleEndian ((bytes.drop offset).take 4))

/-- The registers of `csp_xtea_encrypt_block`. -/
structure XteaRegisters where
  v0 : BitVec 32
  v1 : BitVec 32
  sum : BitVec 32
  deriving DecidableEq, Repr

/-- The loop body of `csp_xtea_encrypt_block`. -/
def xteaRound (k : Nat → BitVec 32) (r : XteaRegisters) : XteaRegisters :=
  let v0 := r.v0 +
    ((((r.v1 <<< 4) ^^^ (r.v1 >>> 5)) + r.v1) ^^^ (r.sum + k (r.sum &&& 3#32).toNat))
  let sum := r.sum + 0x9E3779B9#32
  let v1 := r.v1 +
    ((((v0 <<< 4) ^^^ (v0 >>> 5)) + v0) ^^^ (sum + k ((sum >>> 11) &&& 3#32).toNat))
  ⟨v0, v1, sum⟩

/-- `csp_xtea_encrypt_block` -/
def cspXteaEncryptBlock (block : List UInt8) (key : CspXteaKey) : List UInt8 :=
  let k := fun i => load32L key.1 (4 * i)
  let r := (xteaRound k)^[xteaRounds] ⟨load32L block 0, load32L block 4, 0#32⟩
  toLittleEndian 4 r.v0.toNat ++ toLittleEndian 4 r.v1.toNat

/-! ## Counter mode -/

/-- `csp_xtea_xor_byte`, from an offset on. -/
def cspXteaXorByte (dst : List UInt8) (offset : Nat) (src : List UInt8) (len : Nat) :
    List UInt8 :=
  dst.mapIdx fun i byte =>
    if offset ≤ i ∧ i < offset + len then byte ^^^ src.getD (i - offset) 0 else byte

/-- The variables of `csp_xtea_encrypt`. -/
structure XteaState where
  plain : List UInt8
  iv : BitVec 32 × BitVec 32
  stream : List UInt8
  deriving DecidableEq, Repr

/-- The two words of the counter, in network byte order. -/
def counterBytes (iv : BitVec 32 × BitVec 32) : List UInt8 :=
  toBigEndian 4 iv.1.toNat ++ toBigEndian 4 iv.2.toNat

/-- The loop body of `csp_xtea_encrypt`.  The counter is read before it is incremented. -/
def xteaPass (key : CspXteaKey) (len : Nat) (s : XteaState) (i : Nat) : XteaState :=
  let stream := cspXteaEncryptBlock s.stream key
  let remain := len - i * xteaBlocksize
  { plain := cspXteaXorByte s.plain (len - remain) stream
      (if remain < xteaBlocksize then remain else xteaBlocksize)
    stream := counterBytes s.iv
    iv := (s.iv.1, s.iv.2 + 1#32) }

/-- `csp_xtea_encrypt`, with what it leaves of `iv`; it returns `CSP_ERR_NONE` always. -/
def cspXteaEncrypt (key : CspXteaKey) (plain : List UInt8) (iv : BitVec 32 × BitVec 32) :
    List UInt8 × (BitVec 32 × BitVec 32) :=
  let len := plain.length
  let blocks := (len + xteaBlocksize - 1) % 2 ^ 32 / xteaBlocksize
  let s := (List.range blocks).foldl (xteaPass key len) ⟨plain, iv, counterBytes iv⟩
  (s.plain, s.iv)

/-- `csp_xtea_decrypt` -/
def cspXteaDecrypt (key : CspXteaKey) (cipher : List UInt8) (iv : BitVec 32 × BitVec 32) :
    List UInt8 × (BitVec 32 × BitVec 32) :=
  cspXteaEncrypt key cipher iv

/-- The byte of the keystream at a position. -/
def xteaKeystream (key : CspXteaKey) (iv : BitVec 32 × BitVec 32) (n : Nat) : UInt8 :=
  (cspXteaEncryptBlock
    (counterBytes (iv.1, iv.2 + BitVec.ofNat 32 (n / xteaBlocksize - 1))) key).getD
      (n % xteaBlocksize) 0

section Encrypt

variable (key : CspXteaKey) (plain : List UInt8) (iv : BitVec 32 × BitVec 32)

/-- What the first passes have done. -/
structure XteaPassed (i : Nat) (s : XteaState) : Prop where
  plain_eq : s.plain = plain.mapIdx fun n byte =>
    if n < xteaBlocksize * i then byte ^^^ xteaKeystream key iv n else byte
  stream_eq : s.stream = counterBytes (iv.1, iv.2 + BitVec.ofNat 32 (i - 1))
  iv_eq : s.iv = (iv.1, iv.2 + BitVec.ofNat 32 i)

variable {key plain iv}

theorem XteaPassed.step {i : Nat} {s : XteaState} (h : XteaPassed key plain iv i s)
    (hBlock : xteaBlocksize * i < plain.length) :
    XteaPassed key plain iv (i + 1) (xteaPass key plain.length s i) := by
  have hSize : xteaBlocksize = 8 := rfl
  have hComm : i * xteaBlocksize = xteaBlocksize * i := Nat.mul_comm _ _
  have hNext : xteaBlocksize * (i + 1) = xteaBlocksize * i + 8 := Nat.mul_succ _ _
  constructor
  · simp only [xteaPass, cspXteaXorByte]
    rw [h.plain_eq, h.stream_eq, List.mapIdx_mapIdx]
    apply List.ext_getElem?
    intro n
    rw [List.getElem?_mapIdx, List.getElem?_mapIdx]
    by_cases hn : n < plain.length
    · rw [List.getElem?_eq_getElem hn]
      simp only [Option.map_some, Function.comp]
      congr 1
      -- the blocks in front of that of this pass, the block itself, and those behind it
      by_cases hOld : n < xteaBlocksize * i
      · rw [if_pos hOld, if_neg (by omega),
          if_pos (by omega)]
      · rw [if_neg hOld]
        by_cases hNew : n < xteaBlocksize * (i + 1)
        · have hQuot : n / xteaBlocksize = i := by
            rw [hSize] at hOld hNew ⊢
            omega
          have hOffset : n - (plain.length - (plain.length - i * xteaBlocksize)) =
              n % xteaBlocksize := by
            rw [hSize] at hOld hNew hBlock ⊢
            omega
          rw [if_pos (by split <;> omega), if_pos hNew, xteaKeystream, hOffset, hQuot]
        · rw [if_neg (by split <;> omega), if_neg hNew]
    · rw [List.getElem?_eq_none (Nat.le_of_not_lt hn)]
      rfl
  · simp only [xteaPass, h.iv_eq, Nat.add_sub_cancel]
  · simp only [xteaPass, h.iv_eq]
    rw [BitVec.ofNat_add, BitVec.add_assoc]

/-- The data are combined with the keystream. -/
theorem cspXteaEncrypt_eq (hLength : plain.length + 7 < 2 ^ 32) :
    (cspXteaEncrypt key plain iv).1 = xorStream (xteaKeystream key iv) plain := by
  have hSize : xteaBlocksize = 8 := rfl
  have hBlocks : (plain.length + xteaBlocksize - 1) % 2 ^ 32 / xteaBlocksize =
      (plain.length + 7) / 8 := by
    rw [hSize, Nat.mod_eq_of_lt (by omega)]
    rfl
  have hPassed : ∀ i ≤ (plain.length + 7) / 8, XteaPassed key plain iv i
      ((List.range i).foldl (xteaPass key plain.length) ⟨plain, iv, counterBytes iv⟩) := by
    intro i
    induction i with
    | zero =>
        intro _
        refine ⟨?_, by simp, by simp⟩
        apply List.ext_getElem?
        intro n
        simp
    | succ i ih =>
        intro hLe
        rw [List.range_succ, List.foldl_append]
        exact (ih (by omega)).step (by rw [hSize]; omega)
  have hPlain := (hPassed _ (Nat.le_refl _)).plain_eq
  simp only [cspXteaEncrypt, hBlocks]
  rw [hPlain, xorStream]
  apply List.ext_getElem?
  intro n
  rw [List.getElem?_mapIdx, List.getElem?_mapIdx]
  by_cases hn : n < plain.length
  · rw [List.getElem?_eq_getElem hn, Option.map_some, Option.map_some, hSize,
      if_pos (by omega)]
  · rw [List.getElem?_eq_none (Nat.le_of_not_lt hn)]
    rfl

theorem length_cspXteaEncrypt : (cspXteaEncrypt key plain iv).1.length = plain.length := by
  have hLength (is : List Nat) (s : XteaState) :
      (is.foldl (xteaPass key plain.length) s).plain.length = s.plain.length := by
    induction is generalizing s with
    | nil => rfl
    | cons i is ih =>
        rw [List.foldl_cons, ih]
        simp [xteaPass, cspXteaXorByte]
  exact hLength _ _

/-- The first two blocks have the same keystream. -/
theorem xteaKeystream_first {n : Nat} (hn : n < xteaBlocksize) :
    xteaKeystream key iv (n + xteaBlocksize) = xteaKeystream key iv n := by
  simp only [xteaBlocksize] at hn
  have hQuot : n / 8 = 0 := Nat.div_eq_of_lt hn
  have hQuot' : (n + 8) / 8 = 1 := by omega
  simp only [xteaKeystream, xteaBlocksize, Nat.add_mod_right, hQuot, hQuot']

end Encrypt

/-! ## Packets -/

section Packet

variable {size : Nat}

/-- `csp_xtea_encrypt_packet`, with what `rand` has returned. -/
def cspXteaEncryptPacket (key : CspXteaKey) (nonce : BitVec 32) (packet : AreaPacket size) :
    Int × AreaPacket size :=
  if hFull : packet.length + nonceSize > size then
    (cspErrNomem, packet)
  else
    let cipher := (cspXteaEncrypt key packet.payload (nonce, 1#32)).1
    have hCipher : 0 + cipher.length ≤ size := by
      rw [Nat.zero_add, length_cspXteaEncrypt]
      exact packet.length_payload_le
    (cspErrNone, (packet.put 0 cipher hCipher).append (toBigEndian nonceSize nonce.toNat) (by
      rw [length_toBigEndian, AreaPacket.length_put]
      omega))

/-- `csp_xtea_decrypt_packet`; the nonce is deciphered with the data in front of it. -/
def cspXteaDecryptPacket (key : CspXteaKey) (packet : AreaPacket size) :
    Int × AreaPacket size :=
  if packet.length < nonceSize then
    (cspErrXtea, packet)
  else
    let nonce := BitVec.ofNat 32
      (ofBigEndian ((packet.data.drop (packet.length - nonceSize)).take nonceSize))
    let plain := (cspXteaDecrypt key packet.payload (nonce, 1#32)).1
    have hPlain : 0 + plain.length ≤ size := by
      show 0 + (cspXteaEncrypt key packet.payload (nonce, 1#32)).1.length ≤ size
      rw [Nat.zero_add, length_cspXteaEncrypt]
      exact packet.length_payload_le
    (cspErrNone, (packet.put 0 plain hPlain).strip nonceSize)

/-- Data as `csp_xtea_encrypt_packet` leaves them. -/
def xteaSealed (key : CspXteaKey) (nonce : BitVec 32) (body : List UInt8) : List UInt8 :=
  xorStream (xteaKeystream key (nonce, 1#32)) body ++ toBigEndian nonceSize nonce.toNat

variable {key : CspXteaKey} {packet packet' : AreaPacket size}

/-- `packet->length` has sixteen bits. -/
theorem length_payload_lt (hSize : size < 2 ^ 16) :
    packet.payload.length + 7 < 2 ^ 32 := by
  have hLe := packet.length_payload_le
  omega

theorem cspXteaEncryptPacket_spec (hSize : size < 2 ^ 16) {nonce : BitVec 32}
    (hEncrypt : cspXteaEncryptPacket key nonce packet = (cspErrNone, packet')) :
    packet'.length = packet.length + nonceSize ∧ packet'.length ≤ size ∧
      packet'.id = packet.id ∧ packet'.payload = xteaSealed key nonce packet.payload := by
  unfold cspXteaEncryptPacket at hEncrypt
  split at hEncrypt
  · have hErr : cspErrNomem = cspErrNone := congrArg Prod.fst hEncrypt
    exact absurd hErr (by decide)
  · next hRoom =>
    obtain rfl := (Prod.mk.inj hEncrypt).2
    have hPayload : packet.payload.length = packet.length :=
      packet.length_payload (by omega)
    refine ⟨by simp, ?_, rfl, ?_⟩
    · simp
      omega
    · rw [AreaPacket.payload_append, AreaPacket.payload_put_zero, xteaSealed,
        cspXteaEncrypt_eq (length_payload_lt hSize)]
      rw [length_cspXteaEncrypt, hPayload]

/-- Data in front of a nonce are deciphered with it. -/
theorem cspXteaDecryptPacket_spec (hSize : size < 2 ^ 16) (hFits : packet.length ≤ size)
    {nonce : BitVec 32} {body : List UInt8}
    (hSealed : packet.payload = xteaSealed key nonce body) :
    ∃ packet', cspXteaDecryptPacket key packet = (cspErrNone, packet') ∧
      packet'.length ≤ size ∧ packet'.id = packet.id ∧ packet'.payload = body := by
  have hLength := packet.length_payload hFits
  rw [hSealed, xteaSealed, List.length_append, length_xorStream, length_toBigEndian] at hLength
  have hNonce : (packet.data.drop (packet.length - nonceSize)).take nonceSize =
      toBigEndian nonceSize nonce.toNat := by
    have hDrop : (packet.data.drop (packet.length - nonceSize)).take nonceSize =
        packet.payload.drop body.length := by
      rw [AreaPacket.payload, List.drop_take]
      congr 2 <;> omega
    rw [hDrop, hSealed, xteaSealed, List.drop_left' (length_xorStream _ _)]
  have hValue : BitVec.ofNat 32 (ofBigEndian (toBigEndian nonceSize nonce.toNat)) = nonce := by
    rw [ofBigEndian_toBigEndian_of_lt nonce.isLt, BitVec.ofNat_toNat, BitVec.setWidth_eq]
  unfold cspXteaDecryptPacket
  rw [if_neg (by omega)]
  dsimp only
  refine ⟨_, rfl, ?_, rfl, ?_⟩
  · rw [AreaPacket.length_strip, AreaPacket.length_put]
    omega
  · have hPayload : packet.payload.length = packet.length := packet.length_payload hFits
    rw [AreaPacket.payload_strip, AreaPacket.payload_put_zero, AreaPacket.length_put, hNonce,
      hValue, cspXteaDecrypt, cspXteaEncrypt_eq (length_payload_lt hSize), hSealed, xteaSealed,
      xorStream_append, xorStream_xorStream]
    · apply List.take_left'
      omega
    · rw [cspXteaDecrypt, length_cspXteaEncrypt, hPayload]

/-- Any data that are long enough are sealed, by the nonce that they end with. -/
theorem exists_xteaSealed (key : CspXteaKey) {data : List UInt8}
    (hLength : nonceSize ≤ data.length) :
    ∃ nonce body, data = xteaSealed key nonce body := by
  let tail := data.drop (data.length - nonceSize)
  have hTail : tail.length = nonceSize := by
    rw [List.length_drop]
    omega
  have hLt : ofBigEndian tail < 2 ^ 32 := by
    have hLt := ofBigEndian_lt tail
    rwa [hTail] at hLt
  refine ⟨BitVec.ofNat 32 (ofBigEndian tail),
    xorStream (xteaKeystream key (BitVec.ofNat 32 (ofBigEndian tail), 1#32))
      (data.take (data.length - nonceSize)), ?_⟩
  rw [xteaSealed, xorStream_xorStream, BitVec.toNat_ofNat, Nat.mod_eq_of_lt hLt, ← hTail,
    toBigEndian_ofBigEndian, hTail, List.take_append_drop]

/-- Whatever the key and the nonce are, the first two blocks of an encrypted packet differ
from each other as those of the data do. -/
theorem cspXteaEncryptPacket_reuse (hSize : size < 2 ^ 16) {nonce : BitVec 32}
    (hEncrypt : cspXteaEncryptPacket key nonce packet = (cspErrNone, packet')) {i : Nat}
    (hFirst : i < xteaBlocksize) (hSecond : i + xteaBlocksize < packet.payload.length) :
    packet'.payload.getD i 0 ^^^ packet'.payload.getD (i + xteaBlocksize) 0 =
      packet.payload.getD i 0 ^^^ packet.payload.getD (i + xteaBlocksize) 0 := by
  obtain ⟨-, -, -, hPayload⟩ := cspXteaEncryptPacket_spec hSize hEncrypt
  have hCipher {n : Nat} (hn : n < packet.payload.length) :
      packet'.payload.getD n 0 =
        (xorStream (xteaKeystream key (nonce, 1#32)) packet.payload).getD n 0 := by
    rw [hPayload, xteaSealed, List.getD_eq_getElem?_getD,
      List.getElem?_append_left (by simpa using hn), List.getD_eq_getElem?_getD]
  rw [hCipher (by omega), hCipher hSecond]
  exact xorStream_reuse (xteaKeystream_first hFirst).symm (by omega) hSecond

/-- Two blocks of zeros. -/
theorem cspXteaEncryptPacket_reuse_zeros :
    let packet : AreaPacket 20 := ⟨16, 0, List.replicate 20 0, rfl⟩
    let sent := (cspXteaEncryptPacket (cspXteaSetKey [1, 2, 3]) 7#32 packet).2
    sent.payload.getD 0 0 ^^^ sent.payload.getD 8 0 = 0 := by
  intro packet sent
  have hEncrypt : cspXteaEncryptPacket (cspXteaSetKey [1, 2, 3]) 7#32 packet =
      (cspErrNone, sent) := rfl
  have hLong : 0 + xteaBlocksize < packet.payload.length := by decide
  have hZero : packet.payload.getD 0 0 ^^^ packet.payload.getD (0 + xteaBlocksize) 0 = 0 := by
    decide
  have hReuse := cspXteaEncryptPacket_reuse (by decide) hEncrypt (by decide) hLong
  rw [hZero] at hReuse
  exact hReuse

theorem cspXteaDecryptPacket_of_lt (hShort : packet.length < nonceSize) :
    cspXteaDecryptPacket key packet = (cspErrXtea, packet) :=
  if_pos hShort

end Packet

end Csp
end CubeSatComm
