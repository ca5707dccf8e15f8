import CubeSatComm.Csp.Trailer
import CubeSatComm.Lib.Crc

/-!
# The checksum of CSP

`csp_crc32.c`: a CRC-32C by a table of 256 words.  `csp_crc32_append` puts it behind the
data of a packet in network byte order, and `csp_crc32_verify` compares it and takes it
off.  Whether the header is covered is up to the caller; all callers in the library leave
it out.
-/

namespace CubeSatComm
namespace Csp

open Lib

/-- `CSP_ERR_CRC32` -/
def cspErrCrc32 : Int := -102

/-- `sizeof(crc)` -/
def crcSize : Nat := 4

/-- `crc_tab` -/
def crcTab : List (BitVec 32) :=
  [0x00000000#32, 0xF26B8303#32, 0xE13B70F7#32, 0x1350F3F4#32, 0xC79A971F#32, 0x35F1141C#32,
   0x26A1E7E8#32, 0xD4CA64EB#32, 0x8AD958CF#32, 0x78B2DBCC#32, 0x6BE22838#32, 0x9989AB3B#32,
   0x4D43CFD0#32, 0xBF284CD3#32, 0xAC78BF27#32, 0x5E133C24#32, 0x105EC76F#32, 0xE235446C#32,
   0xF165B798#32, 0x030E349B#32, 0xD7C45070#32, 0x25AFD373#32, 0x36FF2087#32, 0xC494A384#32,
   0x9A879FA0#32, 0x68EC1CA3#32, 0x7BBCEF57#32, 0x89D76C54#32, 0x5D1D08BF#32, 0xAF768BBC#32,
   0xBC267848#32, 0x4E4DFB4B#32, 0x20BD8EDE#32, 0xD2D60DDD#32, 0xC186FE29#32, 0x33ED7D2A#32,
   0xE72719C1#32, 0x154C9AC2#32, 0x061C6936#32, 0xF477EA35#32, 0xAA64D611#32, 0x580F5512#32,
   0x4B5FA6E6#32, 0xB93425E5#32, 0x6DFE410E#32, 0x9F95C20D#32, 0x8CC531F9#32, 0x7EAEB2FA#32,
   0x30E349B1#32, 0xC288CAB2#32, 0xD1D83946#32, 0x23B3BA45#32, 0xF779DEAE#32, 0x05125DAD#32,
   0x1642AE59#32, 0xE4292D5A#32, 0xBA3A117E#32, 0x4851927D#32, 0x5B016189#32, 0xA96AE28A#32,
   0x7DA08661#32, 0x8FCB0562#32, 0x9C9BF696#32, 0x6EF07595#32, 0x417B1DBC#32, 0xB3109EBF#32,
   0xA0406D4B#32, 0x522BEE48#32, 0x86E18AA3#32, 0x748A09A0#32, 0x67DAFA54#32, 0x95B17957#32,
   0xCBA24573#32, 0x39C9C670#32, 0x2A993584#32, 0xD8F2B687#32, 0x0C38D26C#32, 0xFE53516F#32,
   0xED03A29B#32, 0x1F682198#32, 0x5125DAD3#32, 0xA34E59D0#32, 0xB01EAA24#32, 0x42752927#32,
   0x96BF4DCC#32, 0x64D4CECF#32, 0x77843D3B#32, 0x85EFBE38#32, 0xDBFC821C#32, 0x2997011F#32,
   0x3AC7F2EB#32, 0xC8AC71E8#32, 0x1C661503#32, 0xEE0D9600#32, 0xFD5D65F4#32, 0x0F36E6F7#32,
   0x61C69362#32, 0x93AD1061#32, 0x80FDE395#32, 0x72966096#32, 0xA65C047D#32, 0x5437877E#32,
   0x4767748A#32, 0xB50CF789#32, 0xEB1FCBAD#32, 0x197448AE#32, 0x0A24BB5A#32, 0xF84F3859#32,
   0x2C855CB2#32, 0xDEEEDFB1#32, 0xCDBE2C45#32, 0x3FD5AF46#32, 0x7198540D#32, 0x83F3D70E#32,
   0x90A324FA#32, 0x62C8A7F9#32, 0xB602C312#32, 0x44694011#32, 0x5739B3E5#32, 0xA55230E6#32,
   0xFB410CC2#32, 0x092A8FC1#32, 0x1A7A7C35#32, 0xE811FF36#32, 0x3CDB9BDD#32, 0xCEB018DE#32,
   0xDDE0EB2A#32, 0x2F8B6829#32, 0x82F63B78#32, 0x709DB87B#32, 0x63CD4B8F#32, 0x91A6C88C#32,
   0x456CAC67#32, 0xB7072F64#32, 0xA457DC90#32, 0x563C5F93#32, 0x082F63B7#32, 0xFA44E0B4#32,
   0xE9141340#32, 0x1B7F9043#32, 0xCFB5F4A8#32, 0x3DDE77AB#32, 0x2E8E845F#32, 0xDCE5075C#32,
   0x92A8FC17#32, 0x60C37F14#32, 0x73938CE0#32, 0x81F80FE3#32, 0x55326B08#32, 0xA759E80B#32,
   0xB4091BFF#32, 0x466298FC#32, 0x1871A4D8#32, 0xEA1A27DB#32, 0xF94AD42F#32, 0x0B21572C#32,
   0xDFEB33C7#32, 0x2D80B0C4#32, 0x3ED04330#32, 0xCCBBC033#32, 0xA24BB5A6#32, 0x502036A5#32,
   0x4370C551#32, 0xB11B4652#32, 0x65D122B9#32, 0x97BAA1BA#32, 0x84EA524E#32, 0x7681D14D#32,
   0x2892ED69#32, 0xDAF96E6A#32, 0xC9A99D9E#32, 0x3BC21E9D#32, 0xEF087A76#32, 0x1D63F975#32,
   0x0E330A81#32, 0xFC588982#32, 0xB21572C9#32, 0x407EF1CA#32, 0x532E023E#32, 0xA145813D#32,
   0x758FE5D6#32, 0x87E466D5#32, 0x94B49521#32, 0x66DF1622#32, 0x38CC2A06#32, 0xCAA7A905#32,
   0xD9F75AF1#32, 0x2B9CD9F2#32, 0xFF56BD19#32, 0x0D3D3E1A#32, 0x1E6DCDEE#32, 0xEC064EED#32,
   0xC38D26C4#32, 0x31E6A5C7#32, 0x22B65633#32, 0xD0DDD530#32, 0x0417B1DB#32, 0xF67C32D8#32,
   0xE52CC12C#32, 0x1747422F#32, 0x49547E0B#32, 0xBB3FFD08#32, 0xA86F0EFC#32, 0x5A048DFF#32,
   0x8ECEE914#32, 0x7CA56A17#32, 0x6FF599E3#32, 0x9D9E1AE0#32, 0xD3D3E1AB#32, 0x21B862A8#32,
   0x32E8915C#32, 0xC083125F#32, 0x144976B4#32, 0xE622F5B7#32, 0xF5720643#32, 0x07198540#32,
   0x590AB964#32, 0xAB613A67#32, 0xB831C993#32, 0x4A5A4A90#32, 0x9E902E7B#32, 0x6CFBAD78#32,
   0x7FAB5E8C#32, 0x8DC0DD8F#32, 0xE330A81A#32, 0x115B2B19#32, 0x020BD8ED#32, 0xF0605BEE#32,
   0x24AA3F05#32, 0xD6C1BC06#32, 0xC5914FF2#32, 0x37FACCF1#32, 0x69E9F0D5#32, 0x9B8273D6#32,
   0x88D28022#32, 0x7AB90321#32, 0xAE7367CA#32, 0x5C18E4C9#32, 0x4F48173D#32, 0xBD23943E#32,
   0xF36E6F75#32, 0x0105EC76#32, 0x12551F82#32, 0xE03E9C81#32, 0x34F4F86A#32, 0xC69F7B69#32,
   0xD5CF889D#32, 0x27A40B9E#32, 0x79B737BA#32, 0x8BDCB4B9#32, 0x988C474D#32, 0x6AE7C44E#32,
   0xBE2DA0A5#32, 0x4C4623A6#32, 0x5F16D052#32, 0xAD7D5351#32]

/-- The polynomial of the table. -/
def crcPoly : BitVec 32 := 0x82F63B78#32

/-- `csp_crc32_memory` -/
def cspCrc32Memory (data : List UInt8) : BitVec 32 :=
  data.foldl (Crc.tableStep fun i => crcTab.getD i 0) 0xFFFFFFFF#32 ^^^ 0xFFFFFFFF#32

/-- The bytes of a checksum in the packet. -/
def crcBytes (data : List UInt8) : List UInt8 :=
  toBigEndian crcSize (cspCrc32Memory data).toNat

@[simp] theorem length_crcBytes (data : List UInt8) : (crcBytes data).length = crcSize :=
  length_toBigEndian _ _

/-- The checksum as a trailer. -/
def crcTrailer : Trailer where
  size := crcSize
  bytes := crcBytes
  length_bytes := length_crcBytes
  error := cspErrCrc32
  error_ne := by decide

/-- `csp_crc32_append` -/
def cspCrc32Append {size : Nat} (packet : AreaPacket size) (includeHeader : Bool) :
    Int × AreaPacket size :=
  crcTrailer.append packet includeHeader

/-- `csp_crc32_verify` -/
def cspCrc32Verify {size : Nat} (packet : AreaPacket size) (includeHeader : Bool) :
    Int × AreaPacket size :=
  crcTrailer.verify packet includeHeader

/-! ## The table -/

/-- An entry of the table is what eight shifts make of its index. -/
theorem crcTab_eq : ∀ i < 256, crcTab.getD i 0 =
    Crc.feed crcPoly (BitVec.ofNat 32 i) (List.replicate 8 false) := by
  decide +kernel

/-- The bytes are fed into the register bit by bit. -/
theorem cspCrc32Memory_eq (data : List UInt8) :
    cspCrc32Memory data =
      Crc.feed crcPoly 0xFFFFFFFF#32 (Crc.bytesBits data) ^^^ 0xFFFFFFFF#32 := by
  rw [cspCrc32Memory, Crc.foldl_tableStep (by decide) (by decide) crcTab_eq]

/-- Data of one length that differ within a burst of at most 32 bits, wherever it begins,
have different checksums. -/
theorem cspCrc32Memory_burst {data data' : List UInt8} {before burst burst' after : List Bool}
    (hBits : Crc.bytesBits data = before ++ burst ++ after)
    (hBits' : Crc.bytesBits data' = before ++ burst' ++ after)
    (hLength : burst.length = burst'.length) (hShort : burst.length ≤ 32)
    (hNe : burst ≠ burst') : cspCrc32Memory data ≠ cspCrc32Memory data' := by
  have hTop : crcPoly.msb = true := by decide
  rw [cspCrc32Memory_eq, cspCrc32Memory_eq, hBits, hBits']
  intro hEq
  exact Crc.feed_burst hTop hLength hShort hNe _ before after
    (BitVec.xor_left_inj _ |>.mp hEq)

theorem crcBytes_inj {data data' : List UInt8} :
    crcBytes data = crcBytes data' ↔ cspCrc32Memory data = cspCrc32Memory data' := by
  rw [crcBytes, crcBytes,
    toBigEndian_inj (cspCrc32Memory data).isLt (cspCrc32Memory data').isLt,
    BitVec.toNat_inj]

/-! ## Appending and verifying -/

section Packet

variable {size : Nat} {packet packet' : AreaPacket size} {includeHeader : Bool}

/-- A packet that `csp_crc32_append` has completed, and whose data or header are then hit
by one burst of at most 32 bits, is not accepted. -/
theorem cspCrc32Verify_burst {original : AreaPacket size}
    (hAppend : cspCrc32Append original includeHeader = (cspErrNone, packet))
    (hLength : packet'.length = packet.length)
    (hTag : packet'.payload.drop original.length = packet.payload.drop original.length)
    {before burst burst' after : List Bool}
    (hBits : Crc.bytesBits (packet.covered includeHeader original.length) =
      before ++ burst ++ after)
    (hBits' : Crc.bytesBits (packet'.covered includeHeader original.length) =
      before ++ burst' ++ after)
    (hBurst : burst.length = burst'.length) (hShort : burst.length ≤ 32)
    (hNe : burst ≠ burst') :
    cspCrc32Verify packet' includeHeader = (cspErrCrc32, packet') := by
  obtain ⟨hTotal, hFits, hId, hEnds⟩ := Trailer.append_ends hAppend
  have hFits' : packet'.length ≤ size := by rwa [hLength]
  have hRoom : crcTrailer.size ≤ packet.length := by omega
  have hRoom' : crcTrailer.size ≤ packet'.length := by omega
  have hCount : packet.length - crcTrailer.size = original.length := by omega
  have hCount' : packet'.length - crcTrailer.size = original.length := by omega
  apply Trailer.verify_of_not_ends hFits'
  intro body hEnds'
  obtain ⟨-, hCrc⟩ := (Trailer.ends_iff hFits hRoom _).mp hEnds
  obtain ⟨-, hCrc'⟩ := (Trailer.ends_iff hFits' hRoom' _).mp hEnds'
  have hTake : ∀ p : AreaPacket size, p.length = packet.length →
      (p.data.drop original.length).take crcTrailer.size = p.payload.drop original.length := by
    intro p hEq
    rw [AreaPacket.payload, hEq, hTotal, List.drop_take, Nat.add_sub_cancel_left]
  rw [hCount, hTake packet rfl] at hCrc
  rw [hCount', hTake packet' hLength, hTag, hCrc] at hCrc'
  have hEq := crcBytes_inj.mp hCrc'
  exact cspCrc32Memory_burst hBits hBits' hBurst hShort hNe hEq

end Packet

/-- One byte of data, and two bits of it turned. -/
theorem cspCrc32Verify_burst_byte :
    let original : AreaPacket 5 := ⟨1, 0, [1, 0, 0, 0, 0], rfl⟩
    let sent := (cspCrc32Append original false).2
    let hit : AreaPacket 5 := ⟨5, 0, 2 :: sent.data.drop 1, by
      rw [List.length_cons, List.length_drop, sent.length_data]⟩
    cspCrc32Verify hit false = (cspErrCrc32, hit) := by
  intro original sent hit
  have hTag : hit.payload.drop 1 = sent.payload.drop 1 := by
    have hLength : sent.length = 5 := rfl
    simp [AreaPacket.payload, hit, hLength, List.drop_take]
  have hBits : Crc.bytesBits (sent.covered false 1) = [] ++ Crc.bitsOf 8 1 ++ [] := rfl
  have hBits' : Crc.bytesBits (hit.covered false 1) = [] ++ Crc.bitsOf 8 2 ++ [] := rfl
  have hAppend : cspCrc32Append original false = (cspErrNone, sent) := rfl
  exact cspCrc32Verify_burst hAppend rfl hTag hBits hBits' rfl (by decide) (by decide)

end Csp
end CubeSatComm
