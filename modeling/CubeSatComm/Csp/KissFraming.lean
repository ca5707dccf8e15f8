import CubeSatComm.Csp.Kiss

/-!
# What a KISS receiver makes of a line

A receiver between two frames takes a frame apart into its header and its data, and hands
on a packet exactly if the data end with their checksum and fit into a buffer.  It stores
no byte more than one behind the end of its buffer, but that one it does store, since it
looks for an overflow only at the byte that comes next.

Behind noise the receiver may be anywhere.  One frame brings it back between two frames,
as long as there are buffers.
-/

namespace CubeSatComm
namespace Csp
namespace Kiss

open Lib

/-- The packet that is made of the content of a frame, if it is accepted. -/
def accepted (content : List UInt8) : List Datagram :=
  let data := content.drop cspHeaderLength
  let body := data.take (data.length - crcSize)
  if cspHeaderLength + crcSize ≤ content.length ∧ data = body ++ crcBytes body then
    [⟨ofBigEndian (content.take cspHeaderLength), body⟩]
  else
    []

/-- What a receiver with buffers of `size` bytes hands on of a frame. -/
def delivered (size : Nat) (content : List UInt8) : List Datagram :=
  if content.length ≤ cspHeaderLength + size then accepted content else []

/-- Where the bytes of a frame are stored. -/
def storedAt (size : Nat) (content : List UInt8) : List Nat :=
  List.range (min content.length (cspHeaderLength + size + 1))

variable {size : Nat} {supply : Nat → Option (RxBuffer size)} {s : KissRx size}
  {buffer : RxBuffer size} {content : List UInt8}

theorem cspKissRx_append (bytes bytes' : List UInt8) :
    cspKissRx supply s (bytes ++ bytes') = cspKissRx supply (cspKissRx supply s bytes) bytes' :=
  List.foldl_append

@[simp] theorem cspKissRx_nil : cspKissRx supply s [] = s := rfl

@[simp] theorem cspKissRx_cons (byte : UInt8) (bytes : List UInt8) :
    cspKissRx supply s (byte :: bytes) = cspKissRx supply (s.rxByte supply byte) bytes := rfl

/-- What the driver passes at once makes no difference. -/
theorem foldl_cspKissRx (chunks : List (List UInt8)) :
    chunks.foldl (cspKissRx supply) s = cspKissRx supply s chunks.flatten := by
  induction chunks generalizing s with
  | nil => rfl
  | cons chunk chunks ih =>
      rw [List.foldl_cons, ih, List.flatten_cons, cspKissRx_append]

/-! ## The bytes of a frame -/

theorem fend_not_mem_escape (byte : UInt8) : fend ∉ escape byte := by
  unfold escape
  split
  · decide
  · split
    · decide
    · next hFend _ => simpa using Ne.symm hFend

theorem fend_not_mem_flatMap_escape (content : List UInt8) : fend ∉ content.flatMap escape := by
  rw [List.mem_flatMap]
  rintro ⟨byte, -, hMem⟩
  exact fend_not_mem_escape byte hMem

/-- The buffer with the first bytes of a frame. -/
def RxBuffer.fill (buffer : RxBuffer size) (content : List UInt8) : RxBuffer size where
  cells := content.take (cspHeaderLength + size) ++ buffer.cells.drop content.length
  length_cells := by
    simp [buffer.length_cells]
    omega

@[simp] theorem RxBuffer.fill_nil : buffer.fill [] = buffer := by
  rw [RxBuffer.fill, RxBuffer.mk.injEq]
  simp

theorem RxBuffer.set_fill (byte : UInt8) :
    (buffer.fill content).set content.length byte = buffer.fill (content ++ [byte]) := by
  have hCells := buffer.length_cells
  rw [RxBuffer.set, RxBuffer.mk.injEq]
  show (content.take (cspHeaderLength + size) ++ buffer.cells.drop content.length).set
      content.length byte =
    (content ++ [byte]).take (cspHeaderLength + size) ++
      buffer.cells.drop (content ++ [byte]).length
  by_cases hRoom : content.length < cspHeaderLength + size
  · have hDrop : buffer.cells.drop content.length =
        buffer.cells[content.length] :: buffer.cells.drop (content.length + 1) :=
      List.drop_eq_getElem_cons (by omega)
    rw [List.take_of_length_le (by omega), List.take_of_length_le (by simp; omega),
      List.set_append_right _ _ (le_refl _), Nat.sub_self, hDrop, List.set_cons_zero]
    simp
  · have hEnd : (content.take (cspHeaderLength + size)).length = cspHeaderLength + size := by
      simp
      omega
    rw [List.drop_eq_nil_of_le (by omega), List.drop_eq_nil_of_le (by simp; omega),
      List.append_nil, List.append_nil, List.set_eq_of_length_le (by omega),
      List.take_append_of_le_length (by omega)]

theorem RxBuffer.cells_fill (hFits : content.length ≤ cspHeaderLength + size) :
    (buffer.fill content).cells = content ++ buffer.cells.drop content.length := by
  show content.take (cspHeaderLength + size) ++ _ = _
  rw [List.take_of_length_le hFits]

/-- The receiver that has stored `content` since a frame has begun. -/
def KissRx.filled (s : KissRx size) (buffer : RxBuffer size) (content : List UInt8) :
    KissRx size :=
  { s with
    rxMode := .started
    rxFirst := false
    rxPacket := some (buffer.fill content)
    rxLength := content.length
    stores := s.stores ++ List.range content.length }

theorem KissRx.put_filled (byte : UInt8) :
    (s.filled buffer content).put byte = s.filled buffer (content ++ [byte]) := by
  show { s with
    rxMode := KissMode.started
    rxFirst := false
    rxPacket := some ((buffer.fill content).set content.length byte)
    rxLength := content.length + 1
    stores := s.stores ++ List.range content.length ++ [content.length] } = _
  rw [RxBuffer.set_fill, KissRx.filled, List.append_assoc, ← List.range_succ]
  simp

theorem KissRx.checkOverflow_of_le (hLe : s.rxLength ≤ s.maxRxLength) :
    s.checkOverflow = s :=
  if_neg (Nat.not_lt.mpr hLe)

/-- What is sent for a byte puts this byte into the buffer. -/
theorem cspKissRx_escape (hMode : s.rxMode = .started) (hFirst : s.rxFirst = false)
    (hPacket : s.rxPacket = some buffer) (hMax : s.rxLength ≤ s.maxRxLength) (byte : UInt8) :
    cspKissRx supply s (escape byte) = s.put byte := by
  have hFesc : s.rxByte supply fesc = { s with rxMode := .escaped } := by
    rw [KissRx.rxByte, KissRx.checkOverflow_of_le hMax, KissRx.dispatch, hMode]
    rfl
  -- behind an escape the byte is put, and the mode is the old one again
  have hEscaped : ∀ code plain : UInt8,
      (code = tfend ∧ plain = fend) ∨ (code = tfesc ∧ plain = fesc) →
      KissRx.rxByte supply { s with rxMode := .escaped } code = s.put plain := by
    intro code plain hCode
    let t : KissRx size := { s with rxMode := .escaped }
    have hCheck : t.checkOverflow = t := KissRx.checkOverflow_of_le hMax
    have hDispatch : t.rxByte supply code = { t.put plain with rxMode := .started } := by
      rw [KissRx.rxByte, hCheck]
      rcases hCode with ⟨rfl, rfl⟩ | ⟨rfl, rfl⟩ <;> rfl
    have hPut : t.put plain = { s.put plain with rxMode := .escaped } := by
      simp [KissRx.put, t, hPacket]
    rw [hDispatch, hPut, KissRx.put, hPacket, ← hMode]
  unfold escape
  split
  · next hFend =>
    rw [cspKissRx_cons, hFesc, cspKissRx_cons, hEscaped tfend fend (.inl ⟨rfl, rfl⟩), hFend]
    rfl
  · next hFend =>
    split
    · next hEsc =>
      rw [cspKissRx_cons, hFesc, cspKissRx_cons, hEscaped tfesc fesc (.inr ⟨rfl, rfl⟩), hEsc]
      rfl
    · next hEsc =>
      rw [cspKissRx_cons, cspKissRx_nil, KissRx.rxByte, KissRx.checkOverflow_of_le hMax,
        KissRx.dispatch, hMode]
      show (if byte = fesc then _ else if byte = fend then _ else if s.rxFirst then _ else _) = _
      rw [if_neg hEsc, if_neg hFend, hFirst]
      rfl

theorem cspKissRx_content {rest : List UInt8}
    (hMax : content.length + rest.length ≤ s.maxRxLength + 1) :
    cspKissRx supply (s.filled buffer content) (rest.flatMap escape) =
      s.filled buffer (content ++ rest) := by
  induction rest generalizing content with
  | nil => simp
  | cons byte rest ih =>
      rw [List.length_cons] at hMax
      have hMax' : (s.filled buffer content).rxLength ≤ s.maxRxLength := by
        show content.length ≤ s.maxRxLength
        omega
      rw [List.flatMap_cons, cspKissRx_append, cspKissRx_escape rfl rfl rfl hMax',
        KissRx.put_filled, ih, List.append_assoc]
      · rfl
      · simp
        omega

/-! ## Between two frames -/

/-- The receiver does nothing before it is told that a frame begins. -/
theorem cspKissRx_notStarted (hMode : s.rxMode = .notStarted)
    (hMax : s.rxLength ≤ s.maxRxLength) {bytes : List UInt8} (hFend : fend ∉ bytes) :
    cspKissRx supply s bytes = s := by
  induction bytes with
  | nil => rfl
  | cons byte bytes ih =>
      rw [List.mem_cons, not_or] at hFend
      have hByte : s.rxByte supply byte = s := by
        rw [KissRx.rxByte, KissRx.checkOverflow_of_le hMax, KissRx.dispatch, hMode]
        exact if_pos (Ne.symm hFend.1)
      rw [cspKissRx_cons, hByte, ih hFend.2]

theorem cspKissRx_skipFrame (hMode : s.rxMode = .skipFrame)
    (hMax : s.rxLength ≤ s.maxRxLength) {bytes : List UInt8} (hFend : fend ∉ bytes) :
    cspKissRx supply s bytes = s := by
  induction bytes with
  | nil => rfl
  | cons byte bytes ih =>
      rw [List.mem_cons, not_or] at hFend
      have hByte : s.rxByte supply byte = s := by
        rw [KissRx.rxByte, KissRx.checkOverflow_of_le hMax, KissRx.dispatch, hMode]
        exact if_neg (Ne.symm hFend.1)
      rw [cspKissRx_cons, hByte, ih hFend.2]

/-! ## The end of a frame -/

/-- What the end of a frame makes of a receiver that has stored `content`. -/
structure Finished (s t : KissRx size) (content : List UInt8) : Prop where
  maxRxLength : t.maxRxLength = s.maxRxLength
  rxMode : t.rxMode = .notStarted
  rxLength : t.rxLength = content.length
  rxPacket : accepted content ≠ [] → t.rxPacket = none
  rxError : t.rxError = s.rxError + (1 - (accepted content).length)
  gets : t.gets = s.gets
  injected : t.injected = s.injected ++ accepted content
  stores : t.stores = s.stores ++ List.range content.length

theorem accepted_of_short (hShort : content.length < cspHeaderLength + crcSize) :
    accepted content = [] :=
  if_neg fun hBoth => absurd hBoth.1 (Nat.not_le.mpr hShort)

/-- The packet in the buffer, and what the checksum makes of it. -/
theorem cspCrc32Verify_fill (hFits : content.length ≤ cspHeaderLength + size)
    (hLong : cspHeaderLength + crcSize ≤ content.length) :
    (∃ packet, cspCrc32Verify ((buffer.fill content).packet content.length) false =
        (cspErrNone, packet) ∧ accepted content = [packet.datagram]) ∨
      (cspCrc32Verify ((buffer.fill content).packet content.length) false).1 ≠ cspErrNone ∧
        accepted content = [] := by
  let packet := (buffer.fill content).packet content.length
  have hCells : (buffer.fill content).cells = _ := RxBuffer.cells_fill hFits
  have hId : packet.id = ofBigEndian (content.take cspHeaderLength) := by
    show ofBigEndian ((buffer.fill content).cells.take cspHeaderLength) = _
    rw [hCells, List.take_append_of_le_length (by omega)]
  have hLength : packet.length ≤ size := by
    show content.length - cspHeaderLength ≤ size
    omega
  have hPayload : packet.payload = content.drop cspHeaderLength := by
    show ((buffer.fill content).cells.drop cspHeaderLength).take _ = _
    rw [hCells, List.drop_append_of_le_length (by omega)]
    exact List.take_left' (List.length_drop ..)
  let data := content.drop cspHeaderLength
  let body := data.take (data.length - crcSize)
  by_cases hChecked : data = body ++ crcBytes body
  · have hPacket : crcTrailer.Ends packet false body := hPayload.trans hChecked
    obtain ⟨hVerify, hBody⟩ : cspCrc32Verify packet false = (cspErrNone, packet.strip crcSize) ∧
        (packet.strip crcSize).payload = body := Trailer.verify_of_ends hLength hPacket
    refine .inl ⟨packet.strip crcSize, hVerify, ?_⟩
    rw [accepted, if_pos ⟨hLong, hChecked⟩, AreaPacket.datagram, hBody, AreaPacket.id_strip,
      hId]
  · have hNot : ∀ body', ¬ crcTrailer.Ends packet false body' := by
      intro body' hChecked'
      have hData : data = body' ++ crcBytes body' := hPayload.symm.trans hChecked'
      have hBody : body = body' := by
        show data.take (data.length - crcSize) = body'
        rw [hData, List.length_append, length_crcBytes, Nat.add_sub_cancel, List.take_left']
        rfl
      exact hChecked (by rw [hBody]; exact hData)
    have hVerify : cspCrc32Verify packet false = (cspErrCrc32, packet) :=
      Trailer.verify_of_not_ends hLength hNot
    refine .inr ⟨?_, if_neg fun hBoth => hChecked hBoth.2⟩
    show (cspCrc32Verify packet false).1 ≠ cspErrNone
    rw [hVerify]
    show cspErrCrc32 ≠ cspErrNone
    decide

theorem finish_filled (hFits : content.length ≤ cspHeaderLength + size) :
    Finished s (s.filled buffer content).finish content := by
  unfold KissRx.finish
  split
  · next hShort =>
    have hNone := accepted_of_short hShort
    exact ⟨rfl, rfl, rfl, fun hSome => absurd hNone hSome, by simp [hNone, KissRx.filled],
      rfl, by simp [hNone, KissRx.filled], rfl⟩
  · next hLong =>
    have hLong : cspHeaderLength + crcSize ≤ content.length := Nat.le_of_not_lt hLong
    have hPacket : (s.filled buffer content).rxPacket = some (buffer.fill content) := rfl
    have hLength : (s.filled buffer content).rxLength = content.length := rfl
    simp only [hPacket, hLength]
    rcases cspCrc32Verify_fill hFits hLong with
      ⟨packet, hVerify, hSome⟩ | ⟨hVerify, hNone⟩
    · rw [hVerify, if_neg (not_not_intro rfl)]
      exact ⟨rfl, rfl, rfl, fun _ => rfl, by rw [hSome]; rfl, rfl, by rw [hSome]; rfl, rfl⟩
    · rw [if_pos hVerify]
      exact ⟨rfl, rfl, rfl, fun hSome => absurd hNone hSome, by simp [hNone, KissRx.filled],
        rfl, by simp [hNone, KissRx.filled], rfl⟩

/-- A `FEND` behind a content that fits. -/
theorem cspKissRx_fend (supply : Nat → Option (RxBuffer size)) (buffer : RxBuffer size)
    (hMax : s.maxRxLength = cspHeaderLength + size)
    (hNe : content ≠ []) (hFits : content.length ≤ cspHeaderLength + size) :
    Finished s (cspKissRx supply (s.filled buffer content) [fend]) content := by
  have hCheck : (s.filled buffer content).checkOverflow = s.filled buffer content :=
    KissRx.checkOverflow_of_le (hMax ▸ hFits)
  have hPos : (s.filled buffer content).rxLength > 0 := List.length_pos_iff.mpr hNe
  have hFinish : cspKissRx supply (s.filled buffer content) [fend] =
      (s.filled buffer content).finish := by
    rw [cspKissRx_cons, cspKissRx_nil, KissRx.rxByte, hCheck]
    exact if_pos hPos
  rw [hFinish]
  exact finish_filled hFits

/-! ## A whole frame -/

/-- The receiver between two frames.  Behind a `FEND` that did not end a frame it has
taken this one for the beginning of the next. -/
structure Ready (s : KissRx size) : Prop where
  maxRxLength : s.maxRxLength = cspHeaderLength + size
  rxLength : s.rxLength ≤ s.maxRxLength
  rxMode : s.rxMode = .notStarted ∨
    s.rxMode = .started ∧ s.rxFirst = true ∧ s.rxLength = 0 ∧ s.rxPacket.isSome = true

theorem ready_added : Ready (KissRx.added : KissRx size) :=
  ⟨rfl, Nat.zero_le _, .inl rfl⟩

/-- The state behind a `FEND` at which a packet has begun. -/
def KissRx.begun (s : KissRx size) (buffer : RxBuffer size) : KissRx size :=
  { s with rxMode := .started, rxFirst := true, rxPacket := some buffer, rxLength := 0 }

theorem cspKissRx_begun : cspKissRx supply (s.begun buffer) [tncData] = s.filled buffer [] := by
  rw [cspKissRx_cons, cspKissRx_nil, KissRx.rxByte,
    KissRx.checkOverflow_of_le (Nat.zero_le _), KissRx.filled, RxBuffer.fill_nil]
  simp only [List.length_nil, List.range_zero, List.append_nil]
  rfl

/-- Where a receiver waits for a `FEND`, one begins a packet, if there is a buffer. -/
theorem start_eq (hSupply : ∀ k, (supply k).isSome = true) (s : KissRx size) :
    ∃ buffer gets, s.start supply = { s with gets := gets }.begun buffer := by
  unfold KissRx.start
  split
  · next buffer hPacket =>
    refine ⟨buffer, s.gets, ?_⟩
    rw [KissRx.begun, ← hPacket]
  · obtain ⟨buffer, hBuffer⟩ := Option.isSome_iff_exists.mp (hSupply s.gets)
    exact ⟨buffer, s.gets + 1, by rw [hBuffer]; rfl⟩

theorem rxByte_notStarted (hMode : s.rxMode = .notStarted)
    (hMax : s.rxLength ≤ s.maxRxLength) : s.rxByte supply fend = s.start supply := by
  rw [KissRx.rxByte, KissRx.checkOverflow_of_le hMax, KissRx.dispatch, hMode]
  rfl

theorem ready_begin (hSupply : ∀ k, (supply k).isSome = true) (hReady : Ready s) :
    ∃ buffer gets, s.rxByte supply fend = { s with gets := gets }.begun buffer := by
  rcases hReady.rxMode with hMode | ⟨hMode, hFirst, hZero, hPacket⟩
  · rw [rxByte_notStarted hMode hReady.rxLength]
    exact start_eq hSupply s
  · obtain ⟨buffer, hBuffer⟩ := Option.isSome_iff_exists.mp hPacket
    refine ⟨buffer, s.gets, ?_⟩
    rw [KissRx.rxByte, KissRx.checkOverflow_of_le hReady.rxLength, KissRx.dispatch, hMode]
    have hNot : ¬ s.rxLength > 0 := by omega
    show (if s.rxLength > 0 then s.finish else s) = _
    rw [if_neg hNot, KissRx.begun, ← hMode, ← hFirst, ← hZero, ← hBuffer]

/-- What a receiver between two frames makes of one. -/
structure Received (s t : KissRx size) (content : List UInt8) : Prop where
  ready : Ready t
  rxError : t.rxError = s.rxError + (1 - (delivered size content).length)
  injected : t.injected = s.injected ++ delivered size content
  stores : t.stores = s.stores ++ storedAt size content

/-- The byte behind an overflow is the first of those that are skipped. -/
theorem cspKissRx_overflow (buffer : RxBuffer size) (hMax : s.maxRxLength = cspHeaderLength + size)
    (hSupply : ∀ k, (supply k).isSome = true)
    (hFull : content.length = cspHeaderLength + size + 1) {bytes : List UInt8}
    (hFend : fend ∉ bytes) :
    ∃ buffer' gets, cspKissRx supply (s.filled buffer content) (bytes ++ [fend]) =
      { s.filled buffer content with rxError := s.rxError + 1, gets := gets }.begun buffer' := by
  let t : KissRx size := { s.filled buffer content with
    rxError := s.rxError + 1, rxMode := .notStarted, rxLength := 0 }
  have hCheck : (s.filled buffer content).checkOverflow = t := by
    refine if_pos ?_
    show content.length > s.maxRxLength
    omega
  -- the first byte finds the receiver as if it had given the packet up before
  have hReset : ∀ bytes : List UInt8, bytes ≠ [] →
      cspKissRx supply (s.filled buffer content) bytes = cspKissRx supply t bytes := by
    intro bytes hNe
    obtain ⟨byte, bytes, rfl⟩ := List.exists_cons_of_ne_nil hNe
    rw [cspKissRx_cons, cspKissRx_cons, KissRx.rxByte, hCheck, KissRx.rxByte,
      KissRx.checkOverflow_of_le (Nat.zero_le _)]
  obtain ⟨buffer', gets, hStart⟩ := start_eq hSupply t
  refine ⟨buffer', gets, ?_⟩
  rw [hReset _ (by simp), cspKissRx_append,
    cspKissRx_notStarted (s := t) rfl (Nat.zero_le _) hFend, cspKissRx_cons, cspKissRx_nil,
    rxByte_notStarted (s := t) rfl (Nat.zero_le _), hStart]
  rfl

/-- A receiver between two frames makes of a frame what is expected, whatever the frame
contains. -/
theorem cspKissRx_frame (hSupply : ∀ k, (supply k).isSome = true) (hReady : Ready s)
    (hNe : content ≠ []) : Received s (cspKissRx supply s (frame content)) content := by
  obtain ⟨buffer, gets, hBegin⟩ := ready_begin hSupply hReady
  let t : KissRx size := { s with gets := gets }
  have hBody : cspKissRx supply s (frame content) =
      cspKissRx supply (t.filled buffer []) (content.flatMap escape ++ [fend]) := by
    rw [frame, List.append_assoc, cspKissRx_append, ← cspKissRx_begun, cspKissRx_cons, hBegin]
  rw [hBody]
  have hMax : t.maxRxLength = cspHeaderLength + size := hReady.maxRxLength
  by_cases hFits : content.length ≤ cspHeaderLength + size
  · have hLe : ([] : List UInt8).length + content.length ≤ t.maxRxLength + 1 := by
      rw [hMax, List.length_nil]
      omega
    rw [cspKissRx_append, cspKissRx_content hLe, List.nil_append]
    have hEnd := cspKissRx_fend supply buffer hMax hNe hFits
    have hDelivered : delivered size content = accepted content := if_pos hFits
    have hStored : storedAt size content = List.range content.length := by
      rw [storedAt, Nat.min_eq_left (by omega)]
    refine ⟨⟨hEnd.maxRxLength.trans hMax, ?_, .inl hEnd.rxMode⟩, ?_, ?_, ?_⟩
    · rw [hEnd.rxLength, hEnd.maxRxLength, hMax]
      exact hFits
    · rw [hDelivered]
      exact hEnd.rxError
    · rw [hDelivered]
      exact hEnd.injected
    · rw [hStored]
      exact hEnd.stores
  · let front := content.take (cspHeaderLength + size + 1)
    let rest := content.drop (cspHeaderLength + size + 1)
    have hFront : front.length = cspHeaderLength + size + 1 := by
      rw [List.length_take]
      omega
    have hLe : ([] : List UInt8).length + front.length ≤ t.maxRxLength + 1 := by
      rw [hMax, List.length_nil]
      omega
    obtain ⟨buffer', gets', hOverflow⟩ :=
      cspKissRx_overflow buffer hMax hSupply hFront
        (fend_not_mem_flatMap_escape rest)
    have hSplit : content.flatMap escape ++ [fend] =
        front.flatMap escape ++ (rest.flatMap escape ++ [fend]) := by
      rw [← List.append_assoc, ← List.flatMap_append, List.take_append_drop]
    rw [hSplit, cspKissRx_append, cspKissRx_content hLe, List.nil_append, hOverflow]
    have hDelivered : delivered size content = [] := if_neg hFits
    have hStored : storedAt size content = List.range front.length := by
      rw [storedAt, hFront, Nat.min_eq_right (by omega)]
    refine ⟨⟨hMax, Nat.zero_le _, .inr ⟨rfl, rfl, rfl, rfl⟩⟩, ?_, ?_, ?_⟩
    · rw [hDelivered]
      rfl
    · rw [hDelivered, List.append_nil]
      rfl
    · rw [hStored]
      rfl

/-- A receiver between two frames makes of every frame what is expected. -/
theorem cspKissRx_frames (hSupply : ∀ k, (supply k).isSome = true) (hReady : Ready s)
    {contents : List (List UInt8)} (hNe : ∀ content ∈ contents, content ≠ []) :
    Ready (cspKissRx supply s (contents.flatMap frame)) ∧
      (cspKissRx supply s (contents.flatMap frame)).rxError =
        s.rxError + contents.countP (fun content => delivered size content = []) ∧
      (cspKissRx supply s (contents.flatMap frame)).injected =
        s.injected ++ contents.flatMap (delivered size) ∧
      (cspKissRx supply s (contents.flatMap frame)).stores =
        s.stores ++ contents.flatMap (storedAt size) := by
  induction contents generalizing s with
  | nil => exact ⟨hReady, rfl, (List.append_nil _).symm, (List.append_nil _).symm⟩
  | cons content contents ih =>
      rw [List.forall_mem_cons] at hNe
      have hFrame := cspKissRx_frame hSupply hReady hNe.1
      obtain ⟨hEnd, hError, hInjected, hStores⟩ := ih hFrame.ready hNe.2
      rw [List.flatMap_cons, cspKissRx_append]
      refine ⟨hEnd, ?_, ?_, ?_⟩
      · rw [hError, hFrame.rxError, List.countP_cons]
        by_cases hNone : delivered size content = []
        · simp [hNone]
          omega
        · have hPos := List.length_pos_iff.mpr hNone
          have hZero : 1 - (delivered size content).length = 0 := by omega
          simp [hNone, hZero]
      · rw [hInjected, hFrame.injected, List.flatMap_cons, List.append_assoc]
      · rw [hStores, hFrame.stores, List.flatMap_cons, List.append_assoc]

/-! ## Noise -/

/-- What holds of a receiver whatever it has received. -/
structure Sound (s : KissRx size) : Prop where
  maxRxLength : s.maxRxLength = cspHeaderLength + size
  rxLength : s.rxLength ≤ s.maxRxLength + 1
  waiting : s.rxMode = .notStarted ∨ s.rxMode = .skipFrame → s.rxLength ≤ s.maxRxLength
  rxPacket : s.rxMode = .started ∨ s.rxMode = .escaped → s.rxPacket.isSome = true
  stores : ∀ index ∈ s.stores, index ≤ cspHeaderLength + size
  injected : ∀ datagram ∈ s.injected, datagram.payload.length + crcSize ≤ size

theorem sound_added : Sound (KissRx.added : KissRx size) :=
  ⟨rfl, Nat.zero_le _, fun _ => Nat.zero_le _, by simp [KissRx.added], by simp [KissRx.added],
    by simp [KissRx.added]⟩

theorem Sound.checkOverflow (hSound : Sound s) :
    Sound s.checkOverflow ∧ s.checkOverflow.rxLength ≤ s.checkOverflow.maxRxLength := by
  unfold KissRx.checkOverflow
  split
  · exact ⟨⟨hSound.maxRxLength, Nat.zero_le _, fun _ => Nat.zero_le _, by simp, hSound.stores,
      hSound.injected⟩, Nat.zero_le _⟩
  · next hLe => exact ⟨hSound, Nat.le_of_not_lt hLe⟩

theorem Sound.put (hSound : Sound s) (hMax : s.rxLength ≤ s.maxRxLength)
    (hMode : s.rxMode = .started ∨ s.rxMode = .escaped) (byte : UInt8) :
    Sound { s.put byte with rxMode := .started } := by
  obtain ⟨buffer, hBuffer⟩ := Option.isSome_iff_exists.mp (hSound.rxPacket hMode)
  rw [KissRx.put, hBuffer]
  refine ⟨hSound.maxRxLength, Nat.succ_le_succ hMax, by simp, fun _ => rfl, ?_, hSound.injected⟩
  intro index hMem
  rcases List.mem_append.mp hMem with hOld | hNew
  · exact hSound.stores index hOld
  · rw [List.mem_singleton.mp hNew, ← hSound.maxRxLength]
    exact hMax

theorem Sound.start (hSound : Sound s) (hMax : s.rxLength ≤ s.maxRxLength) :
    Sound (s.start supply) := by
  unfold KissRx.start
  split
  · next hPacket =>
    exact ⟨hSound.maxRxLength, Nat.zero_le _, fun _ => Nat.zero_le _, fun _ => by simp [hPacket],
      hSound.stores, hSound.injected⟩
  · split
    · exact ⟨hSound.maxRxLength, hSound.rxLength, fun _ => hMax, by simp, hSound.stores,
        hSound.injected⟩
    · exact ⟨hSound.maxRxLength, Nat.zero_le _, fun _ => Nat.zero_le _, fun _ => rfl,
        hSound.stores, hSound.injected⟩

theorem Sound.finish (hSound : Sound s) (hMax : s.rxLength ≤ s.maxRxLength) :
    Sound s.finish := by
  unfold KissRx.finish
  split
  · exact ⟨hSound.maxRxLength, hSound.rxLength, fun _ => hMax, by simp, hSound.stores,
      hSound.injected⟩
  · split
    · exact hSound
    · next hLong buffer hPacket =>
      dsimp only
      split
      · exact ⟨hSound.maxRxLength, hSound.rxLength, fun _ => hMax, by simp, hSound.stores,
          hSound.injected⟩
      · next hOk =>
        refine ⟨hSound.maxRxLength, hSound.rxLength, fun _ => hMax, by simp, hSound.stores, ?_⟩
        intro datagram hMem
        rcases List.mem_append.mp hMem with hOld | hNew
        · exact hSound.injected datagram hOld
        · rw [List.mem_singleton.mp hNew]
          obtain ⟨hLong, hStrip⟩ : crcSize ≤ (buffer.packet s.rxLength).length ∧
              cspCrc32Verify (buffer.packet s.rxLength) false =
                (cspErrNone, (buffer.packet s.rxLength).strip crcSize) :=
            Trailer.verify_ok (not_not.mp hOk)
          have hPayload : ((buffer.packet s.rxLength).strip crcSize).datagram.payload.length ≤
              s.rxLength - cspHeaderLength - crcSize := List.length_take_le _ _
          have hLength : crcSize ≤ s.rxLength - cspHeaderLength := hLong
          have hSize := hSound.maxRxLength
          rw [hStrip]
          show ((buffer.packet s.rxLength).strip crcSize).datagram.payload.length + _ ≤ _
          omega

theorem Sound.rxByte (supply : Nat → Option (RxBuffer size)) (hSound : Sound s)
    (byte : UInt8) : Sound (s.rxByte supply byte) := by
  obtain ⟨hSound, hMax⟩ := hSound.checkOverflow
  rw [KissRx.rxByte]
  generalize s.checkOverflow = s at hSound hMax
  unfold KissRx.dispatch
  split
  · split
    · exact hSound
    · exact hSound.start hMax
  · next hMode =>
    have hPacket := hSound.rxPacket (.inl hMode)
    split
    · exact ⟨hSound.maxRxLength, hSound.rxLength, by simp, fun _ => hPacket, hSound.stores,
        hSound.injected⟩
    · split
      · split
        · exact hSound.finish hMax
        · exact hSound
      · split
        · exact ⟨hSound.maxRxLength, hSound.rxLength, by simp [hMode], fun _ => hPacket,
            hSound.stores, hSound.injected⟩
        · have hPut := hSound.put hMax (.inl hMode) byte
          obtain ⟨buffer, hBuffer⟩ := Option.isSome_iff_exists.mp hPacket
          rw [KissRx.put, hBuffer] at hPut ⊢
          rwa [← hMode] at hPut
  · next hMode =>
    have hPacket := hSound.rxPacket (.inr hMode)
    have hSame : Sound { s with rxMode := KissMode.started } :=
      ⟨hSound.maxRxLength, hSound.rxLength, by simp, fun _ => hPacket, hSound.stores,
        hSound.injected⟩
    by_cases hTfesc : byte = tfesc
    · have hTfend : ¬ byte = tfend := by
        rw [hTfesc]
        decide
      simp only [if_pos hTfesc, if_neg hTfend]
      exact hSound.put hMax (.inr hMode) fesc
    · by_cases hTfend : byte = tfend
      · simp only [if_neg hTfesc, if_pos hTfend]
        exact hSound.put hMax (.inr hMode) fend
      · simp only [if_neg hTfesc, if_neg hTfend]
        exact hSame
  · next hMode =>
    split
    · exact ⟨hSound.maxRxLength, hSound.rxLength, fun _ => hMax, by simp, hSound.stores,
        hSound.injected⟩
    · exact hSound

theorem Sound.receive (supply : Nat → Option (RxBuffer size)) (hSound : Sound s)
    (bytes : List UInt8) :
    Sound (cspKissRx supply s bytes) := by
  induction bytes generalizing s with
  | nil => exact hSound
  | cons byte bytes ih => exact ih (hSound.rxByte supply byte)

/-- Inside of a frame, in front of the next byte of the content: the receiver has not taken
notice of the frame, or it stores the bytes. -/
structure Inside (s : KissRx size) : Prop where
  sound : Sound s
  rxMode : s.rxMode = .notStarted ∨ s.rxMode = .skipFrame ∨
    s.rxMode = .started ∧ s.rxFirst = false

theorem Inside.receive_escape (supply : Nat → Option (RxBuffer size)) (hInside : Inside s)
    (byte : UInt8) :
    Inside (cspKissRx supply s (escape byte)) ∧
      ((cspKissRx supply s (escape byte)).rxMode = .started →
        0 < (cspKissRx supply s (escape byte)).rxLength) := by
  have hSound := hInside.sound
  have hAfter := hSound.receive supply (escape byte)
  have hStay : ∀ t : KissRx size, t.rxMode = .notStarted → t.rxLength ≤ t.maxRxLength →
      cspKissRx supply t (escape byte) = t := fun t hMode hMax =>
    cspKissRx_notStarted hMode hMax (fend_not_mem_escape byte)
  by_cases hFull : s.rxLength > s.maxRxLength
  · -- the packet is given up at the first of the bytes
    let t : KissRx size :=
      { s with rxError := s.rxError + 1, rxMode := .notStarted, rxLength := 0 }
    have hReset : cspKissRx supply s (escape byte) = cspKissRx supply t (escape byte) := by
      have hNe : escape byte ≠ [] := by
        unfold escape
        split <;> simp
        split <;> simp
      obtain ⟨head, tail, hEq⟩ := List.exists_cons_of_ne_nil hNe
      have hCheck : s.checkOverflow = t := if_pos hFull
      rw [hEq, cspKissRx_cons, cspKissRx_cons, KissRx.rxByte, hCheck, KissRx.rxByte,
        KissRx.checkOverflow_of_le (Nat.zero_le _)]
    rw [hReset] at hAfter ⊢
    rw [hStay t rfl (Nat.zero_le _)] at hAfter ⊢
    exact ⟨⟨hAfter, .inl rfl⟩, fun hMode => nomatch hMode⟩
  · have hMax : s.rxLength ≤ s.maxRxLength := Nat.le_of_not_lt hFull
    rcases hInside.rxMode with hMode | hMode | ⟨hMode, hFirst⟩
    · rw [hStay s hMode hMax]
      exact ⟨hInside, fun hStarted => nomatch hMode.symm.trans hStarted⟩
    · rw [cspKissRx_skipFrame hMode hMax (fend_not_mem_escape byte)]
      exact ⟨hInside, fun hStarted => nomatch hMode.symm.trans hStarted⟩
    · have hPacket := hSound.rxPacket (.inl hMode)
      obtain ⟨buffer, hBuffer⟩ := Option.isSome_iff_exists.mp hPacket
      rw [cspKissRx_escape hMode hFirst hBuffer hMax] at hAfter ⊢
      rw [KissRx.put, hBuffer] at hAfter ⊢
      exact ⟨⟨hAfter, .inr (.inr ⟨hMode, hFirst⟩)⟩, fun _ => Nat.succ_pos _⟩

theorem Inside.receive_content (supply : Nat → Option (RxBuffer size)) (hInside : Inside s)
    (hNe : content ≠ []) :
    Inside (cspKissRx supply s (content.flatMap escape)) ∧
      ((cspKissRx supply s (content.flatMap escape)).rxMode = .started →
        0 < (cspKissRx supply s (content.flatMap escape)).rxLength) := by
  induction content generalizing s with
  | nil => exact absurd rfl hNe
  | cons byte content ih =>
      have hByte := hInside.receive_escape supply byte
      rw [List.flatMap_cons, cspKissRx_append]
      by_cases hNil : content = []
      · rw [hNil]
        exact hByte
      · exact ih hByte.1 hNil

theorem finish_rxMode (hPacket : s.rxPacket.isSome = true) :
    s.finish.rxMode = .notStarted := by
  obtain ⟨buffer, hBuffer⟩ := Option.isSome_iff_exists.mp hPacket
  unfold KissRx.finish
  split
  · rfl
  · rw [hBuffer]
    dsimp only
    split <;> rfl

/-- A `FEND` ends what was under way, or begins a packet. -/
theorem rxMode_fend (hSupply : ∀ k, (supply k).isSome = true) (hSound : Sound s) :
    (s.rxByte supply fend).rxMode = .notStarted ∨ (s.rxByte supply fend).rxMode = .started := by
  obtain ⟨hCheck, -⟩ := hSound.checkOverflow
  rw [KissRx.rxByte]
  generalize s.checkOverflow = t at hCheck
  unfold KissRx.dispatch
  split
  · obtain ⟨buffer, gets, hStart⟩ := start_eq hSupply t
    rw [if_neg (not_not_intro rfl), hStart]
    exact .inr rfl
  · next hMode =>
    rw [if_neg (by decide), if_pos rfl]
    split
    · exact .inl (finish_rxMode (hCheck.rxPacket (.inl hMode)))
    · exact .inr hMode
  · exact .inr rfl
  · rw [if_pos rfl]
    exact .inl rfl

/-- Behind the first `FEND` and the byte that follows it the content begins. -/
theorem Sound.inside_begin (hSupply : ∀ k, (supply k).isSome = true) (hSound : Sound s) :
    Inside (cspKissRx supply s [fend, tncData]) := by
  have hAfter := hSound.receive supply [fend, tncData]
  refine ⟨hAfter, ?_⟩
  have hFend := rxMode_fend hSupply hSound
  rw [cspKissRx_cons, cspKissRx_cons, cspKissRx_nil]
  have hSound := (hSound.rxByte supply fend).checkOverflow.1
  rw [show (s.rxByte supply fend).rxByte supply tncData =
    (s.rxByte supply fend).checkOverflow.dispatch supply tncData from rfl]
  have hMode : (s.rxByte supply fend).checkOverflow.rxMode = .notStarted ∨
      (s.rxByte supply fend).checkOverflow.rxMode = .started := by
    unfold KissRx.checkOverflow
    split
    · exact .inl rfl
    · exact hFend
  generalize (s.rxByte supply fend).checkOverflow = t at hSound hMode
  rcases hMode with hMode | hMode
  · rw [KissRx.dispatch, hMode]
    exact .inl hMode
  · obtain ⟨buffer, hBuffer⟩ := Option.isSome_iff_exists.mp (hSound.rxPacket (.inl hMode))
    have hByte : t.dispatch supply tncData =
        if t.rxFirst then { t with rxFirst := false } else t.put tncData := by
      simp [KissRx.dispatch, hMode, tncData, fesc, fend]
    refine .inr (.inr ?_)
    rw [hByte]
    split
    · exact ⟨hMode, rfl⟩
    · next hFirst =>
      rw [KissRx.put, hBuffer]
      exact ⟨hMode, by simpa using hFirst⟩

/-- Wherever the receiver is, it is between two frames behind the next one. -/
theorem Sound.ready_frame (hSupply : ∀ k, (supply k).isSome = true) (hSound : Sound s)
    (hNe : content ≠ []) : Ready (cspKissRx supply s (frame content)) := by
  obtain ⟨hInside, hPos⟩ :=
    (hSound.inside_begin hSupply).receive_content supply hNe
  rw [frame, cspKissRx_append, cspKissRx_append]
  generalize cspKissRx supply (cspKissRx supply s [fend, tncData]) (content.flatMap escape) = t
    at hInside hPos
  obtain ⟨hCheck, -⟩ := hInside.sound.checkOverflow
  have hStart : ∀ u : KissRx size, Sound u → Ready (u.start supply) := by
    intro u hSound
    obtain ⟨buffer, gets, hStart⟩ := start_eq hSupply u
    rw [hStart]
    exact ⟨hSound.maxRxLength, Nat.zero_le _, .inr ⟨rfl, rfl, rfl, rfl⟩⟩
  have hCheckMode : t.checkOverflow.rxMode = .notStarted ∨
      t.checkOverflow = t ∧ t.rxLength ≤ t.maxRxLength := by
    unfold KissRx.checkOverflow
    split
    · exact .inl rfl
    · next hLe => exact .inr ⟨rfl, Nat.le_of_not_lt hLe⟩
  rw [cspKissRx_cons, cspKissRx_nil, KissRx.rxByte]
  rcases hCheckMode with hMode | ⟨hSame, hLe⟩
  · rw [KissRx.dispatch, hMode]
    exact hStart _ hCheck
  · rw [hSame] at hCheck ⊢
    have hMax := hCheck.maxRxLength
    rcases hInside.rxMode with hMode | hMode | ⟨hMode, -⟩
    · rw [KissRx.dispatch, hMode]
      exact hStart _ hCheck
    · rw [KissRx.dispatch, hMode]
      exact ⟨hMax, hLe, .inl rfl⟩
    · have hFinish := finish_rxMode (hCheck.rxPacket (.inl hMode))
      have hSound := hCheck.finish hLe
      rw [KissRx.dispatch, hMode]
      show Ready (if t.rxLength > 0 then t.finish else t)
      rw [if_pos (hPos hMode)]
      exact ⟨hSound.maxRxLength, hSound.waiting (.inl hFinish), .inl hFinish⟩

end Kiss
end Csp
end CubeSatComm
