import CubeSatComm.Serial.Chat

/-!
# The chat senders

The loop that the four senders share, on a standard input that ends.  `fgets` hands it
the input in the pieces of its lines, and the loop compares pieces, not lines, with
`"quit\n"`.  At the end of the input `fgets` leaves the last piece in the buffer, and the
loop sends it over and over.

So the loop ends exactly if some piece is `"quit\n"`, and it has sent the text up to the
first such piece.
-/

namespace CubeSatComm
namespace Serial

open Lib CInteger Posix

/-- A sender with its arguments, as a function of the fuel: it ends, and what it has
written to the port is the text up to and including its first line `"quit\n"`, or all of
it. -/
def SendsTextOnce (send : Nat → Option SendReturn) (text sent : List UInt8) : Prop :=
  ∃ fuel r, send fuel = some r ∧
    r.last.port.sent = sent ++ (upto (· = quitLine) (lines newlineChar text)).flatten

/-- The last piece of the line is `"quit\n"`. -/
def EndsInQuit (first : List UInt8) : Prop :=
  first.length % (buffLen - 1) = quitLine.length ∧ quitLine <:+ first

instance (first : List UInt8) : Decidable (EndsInQuit first) :=
  inferInstanceAs (Decidable (_ ∧ _))

/-- A line of the text ends in the piece `"quit\n"`, and the first such line is `"quit\n"`
itself or the last line of the text. -/
def QuitIsLine (text : List UInt8) : Prop :=
  ∃ before first after, lines newlineChar text = before ++ first :: after ∧
    (∀ earlier ∈ before, ¬ EndsInQuit earlier) ∧ EndsInQuit first ∧
    (first = quitLine ∨ after = [])

/-- The four senders. -/
def chatSenders (listenTid : Int) :
    List (Nat → ChatDevice → List UInt8 → List UInt8 → Port → Option SendReturn) :=
  [masterSend listenTid, masterSendCpp, slaveSend listenTid, slaveSendCpp]

/-- The pieces in which `fgets` reads a text. -/
def fgetsPieces (text : List UInt8) : List (List UInt8) :=
  linePieces newlineChar (buffLen - 1) text

/-! ## Lines and their pieces -/

theorem endsInQuit_iff (first : List UInt8) :
    EndsInQuit first ↔ quitLine ∈ blocks (buffLen - 1) first :=
  (mem_blocks_iff (List.cons_ne_nil _ _) (by decide) first).symm

theorem endsInQuit_quitLine : EndsInQuit quitLine := by decide

theorem quitLine_mem_fgetsPieces {text : List UInt8} :
    quitLine ∈ fgetsPieces text ↔ ∃ first ∈ lines newlineChar text, EndsInQuit first := by
  rw [fgetsPieces, linePieces, List.mem_flatMap]
  simp only [endsInQuit_iff]

section Lines

variable {text : List UInt8} {before after : List (List UInt8)} {first : List UInt8}
  (hLines : lines newlineChar text = before ++ first :: after)
  (hBefore : ∀ earlier ∈ before, ¬ EndsInQuit earlier) (hFirst : EndsInQuit first)

include hLines hBefore hFirst

/-- The pieces up to `"quit\n"` are those of the lines up to the first that ends in it. -/
theorem flatten_upto_fgetsPieces :
    (upto (· = quitLine) (fgetsPieces text)).flatten = before.flatten ++ first := by
  have hPos : 0 < buffLen - 1 := by decide
  have hPieces : ∀ piece ∈ before.flatMap (blocks (buffLen - 1)), ¬ piece = quitLine := by
    rintro piece hMem rfl
    obtain ⟨earlier, hEarlier, hIn⟩ := List.mem_flatMap.mp hMem
    exact hBefore earlier hEarlier ((endsInQuit_iff earlier).mpr hIn)
  rw [fgetsPieces, linePieces, hLines, List.flatMap_append, List.flatMap_cons,
    upto_append_of_neg (p := (· = quitLine)) hPieces,
    upto_blocks_append (by decide) ((endsInQuit_iff first).mp hFirst),
    List.flatten_append, flatten_flatMap_blocks hPos, flatten_blocks hPos]

/-- They hold what they should exactly if that line is `"quit\n"`, or the last one. -/
theorem flatten_upto_eq_iff :
    (upto (· = quitLine) (fgetsPieces text)).flatten =
        (upto (· = quitLine) (lines newlineChar text)).flatten ↔
      first = quitLine ∨ after = [] := by
  have hEarlier : ∀ earlier ∈ before, ¬ earlier = quitLine := by
    rintro earlier hMem rfl
    exact hBefore _ hMem endsInQuit_quitLine
  rw [flatten_upto_fgetsPieces hLines hBefore hFirst, hLines,
    upto_append_of_neg (p := (· = quitLine)) hEarlier, List.flatten_append, List.append_right_inj]
  by_cases hQuit : first = quitLine
  · rw [upto_cons_of_pos (p := (· = quitLine)) hQuit, List.flatten_singleton]
    exact iff_of_true rfl (Or.inl hQuit)
  · rw [upto_cons_of_neg (p := (· = quitLine)) hQuit, List.flatten_cons,
      List.self_eq_append_right, or_iff_right hQuit]
    constructor
    · intro hFlatten
      by_contra hNe
      obtain ⟨line, hMem⟩ := List.exists_mem_of_ne_nil _
        (upto_ne_nil (p := (· = quitLine)) hNe)
      have hLine : line ∈ lines newlineChar text := by
        rw [hLines]
        exact List.mem_append_right _ (List.mem_cons_of_mem _ (mem_of_mem_upto hMem))
      exact ne_nil_of_mem_lines hLine (List.flatten_eq_nil_iff.mp hFlatten line hMem)
    · rintro rfl
      rfl

end Lines

theorem quitIsLine_iff {text : List UInt8} :
    QuitIsLine text ↔ quitLine ∈ fgetsPieces text ∧
      (upto (· = quitLine) (fgetsPieces text)).flatten =
        (upto (· = quitLine) (lines newlineChar text)).flatten := by
  constructor
  · rintro ⟨before, first, after, hLines, hBefore, hFirst, hLast⟩
    refine ⟨quitLine_mem_fgetsPieces.mpr ⟨first, ?_, hFirst⟩,
      (flatten_upto_eq_iff hLines hBefore hFirst).mpr hLast⟩
    rw [hLines]
    exact List.mem_append_right _ List.mem_cons_self
  · rintro ⟨hMem, hEq⟩
    obtain ⟨before, first, after, hLines, hBefore, hFirst⟩ :=
      exists_first (quitLine_mem_fgetsPieces.mp hMem)
    exact ⟨before, first, after, hLines, hBefore, hFirst,
      (flatten_upto_eq_iff hLines hBefore hFirst).mp hEq⟩

/-! ## The loop -/

section Loop

variable {texts : SendTexts} {done : SendState → SendReturn} {fd : Int} (hFd : 0 ≤ fd)
  {s : SendState}

/-- The invariant of the loop on a sender whose writes are complete. -/
structure SendReady (s : SendState) : Prop where
  writes : s.port.CompleteWrites
  length : s.buffer.length = buffLen
  no_nul : ∀ c ∈ s.stdin, c ≠ 0

/-- The piece that the next `fgets` finds. -/
def nextPiece (stdin : List UInt8) : List UInt8 :=
  (line newlineChar stdin).take (buffLen - 1)

theorem fgetsPieces_of_ne_nil {stdin : List UInt8} (hNe : stdin ≠ []) :
    fgetsPieces stdin =
      nextPiece stdin :: fgetsPieces (stdin.drop (nextPiece stdin).length) :=
  linePieces_of_ne_nil (by decide) hNe

/-- The state behind a pass that has sent a piece of the input. -/
def SendState.sendPiece (s : SendState) : SendState where
  buffer := store s.buffer 0 (nextPiece s.stdin ++ [0])
  stdin := s.stdin.drop (nextPiece s.stdin).length
  port := { s.port with
    tx := s.port.tx.tail
    written := s.port.written ++ [WriteRecord.whole (nextPiece s.stdin)] }
  screen := s.screen ++ [⟨"\n>> ", []⟩]

theorem nextPiece_no_nul (hReady : SendReady s) : ∀ c ∈ nextPiece s.stdin, c ≠ 0 := by
  intro c hMem
  exact hReady.no_nul c (mem_of_mem_upto (List.mem_of_mem_take hMem))

theorem length_nextPiece_lt (stdin : List UInt8) : (nextPiece stdin).length < buffLen := by
  have hPos := buffLen_pos
  rw [nextPiece, List.length_take]
  omega

theorem SendReady.sendPiece (hReady : SendReady s) : SendReady s.sendPiece where
  writes := Port.completeWrites_tail hReady.writes rfl
  length := by
    have hLt := length_nextPiece_lt s.stdin
    have hLength := hReady.length
    rw [SendState.sendPiece, length_store, hLength]
    rw [List.length_append, List.length_singleton]
    omega
  no_nul := fun c hMem => hReady.no_nul c (List.mem_of_mem_drop hMem)

/-- The test in front of the next pass compares the piece that has been sent. -/
theorem strcmp_sendPiece_iff (hReady : SendReady s) :
    strcmp s.sendPiece.buffer quitLine = 0 ↔ nextPiece s.stdin = quitLine := by
  have hQuit : cString quitLine = quitLine := rfl
  rw [strcmp_eq_zero_iff, SendState.sendPiece, cString_store (nextPiece_no_nul hReady),
    hQuit]

theorem sent_sendPiece (s : SendState) :
    s.sendPiece.port.sent = s.port.sent ++ nextPiece s.stdin := by
  simp [SendState.sendPiece, Port.sent]

include hFd

/-- A complete write of the string in the buffer. -/
theorem SendState.send_complete (hWrites : s.port.CompleteWrites) :
    s.send fd = ((strlen s.buffer : Int),
      { s with port := { s.port with
          tx := s.port.tx.tail
          written := s.port.written ++ [WriteRecord.whole (cString s.buffer)] } }) := by
  rw [SendState.send, Port.write_complete hFd hWrites]
  rfl

omit hFd in
/-- The length of what has been sent is not less than that of the string. -/
theorem not_sizeT_strlen_lt {buffer : List UInt8} (hLength : buffer.length = buffLen) :
    ¬ sizeT (strlen buffer : Int) < strlen buffer := by
  have hLe : strlen buffer ≤ buffer.length := (List.takeWhile_sublist _).length_le
  have hLt : strlen buffer < sizeRange := by
    have hBuff : buffLen < sizeRange := by decide
    omega
  rw [sizeT_natCast hLt]
  exact Nat.lt_irrefl _

/-- With complete writes every pass sends the string in the buffer and goes on. -/
theorem sendPass_again (hRunning : strcmp s.buffer quitLine ≠ 0)
    (hWrites : s.port.CompleteWrites) (hLength : s.prompt.buffer.length = buffLen) :
    sendPass texts done fd s = .again (s.prompt.send fd).2 := by
  have hSend := @SendState.send_complete _ hFd s.prompt hWrites
  rw [sendPass, if_pos hRunning, hSend]
  dsimp only
  rw [if_neg (not_sizeT_strlen_lt hLength)]

/-- A pass that finds input sends its next piece. -/
theorem sendPass_piece (hRunning : strcmp s.buffer quitLine ≠ 0) (hReady : SendReady s)
    (hNe : s.stdin ≠ []) : sendPass texts done fd s = .again s.sendPiece := by
  have hFgets : fgets s.buffer buffLen s.stdin =
      (s.sendPiece.buffer, s.sendPiece.stdin) := by
    rw [fgets, if_neg hNe]
    rfl
  have hText : cString s.sendPiece.buffer = nextPiece s.stdin :=
    cString_store (nextPiece_no_nul hReady) s.buffer
  have hPrompt : s.prompt =
      ⟨s.sendPiece.buffer, s.sendPiece.stdin, s.port, s.sendPiece.screen⟩ := by
    rw [SendState.prompt, hFgets]
    rfl
  have hWrites : s.prompt.port.CompleteWrites := hReady.writes
  have hLength : s.prompt.buffer.length = buffLen := by
    rw [hPrompt]
    exact hReady.sendPiece.length
  rw [sendPass_again hFd hRunning hWrites hLength, SendState.send_complete hFd hWrites,
    hPrompt]
  dsimp only
  rw [hText]
  rfl

/-- A pass at the end of the input sends the last piece once more. -/
theorem sendPass_end (hRunning : strcmp s.buffer quitLine ≠ 0) (hReady : SendReady s)
    (hNil : s.stdin = []) :
    ∃ s', sendPass texts done fd s = .again s' ∧ SendReady s' ∧ s'.buffer = s.buffer ∧
      s'.stdin = [] := by
  have hFgets : fgets s.buffer buffLen s.stdin = (s.buffer, s.stdin) := by
    rw [fgets, if_pos hNil]
  have hBuffer : s.prompt.buffer = s.buffer := by rw [SendState.prompt, hFgets]
  have hStdin : s.prompt.stdin = s.stdin := by rw [SendState.prompt, hFgets]
  have hWrites : s.prompt.port.CompleteWrites := hReady.writes
  have hPass := @sendPass_again texts done fd hFd s hRunning hWrites
    (hBuffer ▸ hReady.length)
  rw [SendState.send_complete hFd hWrites] at hPass
  refine ⟨_, hPass, ⟨Port.completeWrites_tail hReady.writes rfl, hBuffer ▸ hReady.length,
    ?_⟩, hBuffer, hStdin.trans hNil⟩
  intro c hMem
  exact hReady.no_nul c (hStdin ▸ hMem)

/-- The loop ends once it has sent a piece `"quit\n"`, and has then sent the pieces up
to that one. -/
theorem sendLoop_ends (hDone : ∀ s, (done s).last = s)
    (hRunning : strcmp s.buffer quitLine ≠ 0) (hReady : SendReady s)
    (hQuit : quitLine ∈ fgetsPieces s.stdin) :
    ∃ fuel r, Loop.runFor (sendPass texts done fd) fuel s = some r ∧
      r.last.port.sent =
        s.port.sent ++ (upto (· = quitLine) (fgetsPieces s.stdin)).flatten := by
  induction hPieces : fgetsPieces s.stdin generalizing s with
  | nil =>
      rw [hPieces] at hQuit
      cases hQuit
  | cons piece pieces ih =>
      have hNe : s.stdin ≠ [] := by
        intro hNil
        rw [hNil] at hPieces
        cases hPieces
      have hNext := fgetsPieces_of_ne_nil hNe
      obtain ⟨rfl, hRest⟩ := List.cons.inj (hPieces.symm.trans hNext)
      have hPass := @sendPass_piece texts done fd hFd s hRunning hReady hNe
      have hCompare := strcmp_sendPiece_iff hReady
      by_cases hFirst : nextPiece s.stdin = quitLine
      · have hLast : sendPass texts done fd s.sendPiece = .leave (done s.sendPiece) := by
          rw [sendPass, if_neg (not_not_intro (hCompare.mpr hFirst))]
        refine ⟨2, done s.sendPiece, ?_, ?_⟩
        · rw [Loop.runFor_again hPass, Loop.runFor_leave hLast]
        · rw [hDone, sent_sendPiece, upto_cons_of_pos (p := (· = quitLine)) hFirst,
            List.flatten_singleton]
      · rw [hNext, List.mem_cons, or_iff_right (Ne.symm hFirst)] at hQuit
        obtain ⟨fuel, r, hRun, hSent⟩ :=
          @ih s.sendPiece (fun hZero => hFirst (hCompare.mp hZero)) hReady.sendPiece hQuit
            hRest.symm
        refine ⟨fuel + 1, r, ?_, ?_⟩
        · rw [Loop.runFor_again hPass, hRun]
        · rw [hSent, sent_sendPiece, upto_cons_of_neg (p := (· = quitLine)) hFirst,
            List.flatten_cons, List.append_assoc]

/-- Without such a piece it never ends. -/
theorem sendLoop_never_ends (hRunning : strcmp s.buffer quitLine ≠ 0)
    (hReady : SendReady s) (hQuit : quitLine ∉ fgetsPieces s.stdin) (fuel : Nat) :
    Loop.runFor (sendPass texts done fd) fuel s = none := by
  refine Loop.runFor_eq_none (motive := fun s => strcmp s.buffer quitLine ≠ 0 ∧
    SendReady s ∧ quitLine ∉ fgetsPieces s.stdin) ?_ ⟨hRunning, hReady, hQuit⟩ fuel
  rintro s ⟨hRunning, hReady, hQuit⟩
  by_cases hNil : s.stdin = []
  · obtain ⟨s', hPass, hReady', hBuffer, hStdin⟩ :=
      @sendPass_end texts done fd hFd s hRunning hReady hNil
    refine ⟨s', hPass, ?_, hReady', ?_⟩
    · rwa [hBuffer]
    · rwa [hStdin, ← hNil]
  · rw [fgetsPieces_of_ne_nil hNil, List.mem_cons, not_or] at hQuit
    refine ⟨s.sendPiece, sendPass_piece hFd hRunning hReady hNil, ?_, hReady.sendPiece,
      hQuit.2⟩
    intro hZero
    exact hQuit.1 ((strcmp_sendPiece_iff hReady).mp hZero).symm

/-- The loop does what it should exactly if its input has a line that ends it. -/
theorem sendLoop_once_iff (hDone : ∀ s, (done s).last = s)
    (hRunning : strcmp s.buffer quitLine ≠ 0) (hReady : SendReady s) :
    SendsTextOnce (fun fuel => Loop.runFor (sendPass texts done fd) fuel s) s.stdin
      s.port.sent ↔ QuitIsLine s.stdin := by
  rw [quitIsLine_iff]
  constructor
  · rintro ⟨fuel, r, hRun, hSent⟩
    have hQuit : quitLine ∈ fgetsPieces s.stdin := by
      by_contra hNone
      have hNever := @sendLoop_never_ends texts done fd hFd s hRunning hReady hNone fuel
      cases hNever.symm.trans hRun
    obtain ⟨fuel', r', hRun', hSent'⟩ :=
      @sendLoop_ends texts done fd hFd s hDone hRunning hReady hQuit
    obtain rfl := Loop.runFor_unique hRun hRun'
    exact ⟨hQuit, List.append_cancel_left (hSent'.symm.trans hSent)⟩
  · rintro ⟨hQuit, hEq⟩
    obtain ⟨fuel, r, hRun, hSent⟩ :=
      @sendLoop_ends texts done fd hFd s hDone hRunning hReady hQuit
    exact ⟨fuel, r, hRun, by rw [hSent, hEq]⟩

end Loop

/-! ## The four functions -/

theorem sendFunction_of_created {device : ChatDevice} (hStatus : device.status = 1)
    (texts : SendTexts) (done : SendState → SendReturn) (fuel : Nat)
    (buffer stdin : List UInt8) (port : Port) :
    sendFunction texts done fuel device buffer stdin port =
      Loop.runFor (sendPass texts done device.port) fuel ⟨buffer, stdin, port, []⟩ := by
  rw [sendFunction, if_neg (not_not_intro hStatus)]

/-- Each of the four senders sends the text once and stops, exactly if the first line
whose last piece is `"quit\n"` is that line itself or the last one, and there is one. -/
theorem chatSenders_send_once_iff {listenTid : Int}
    {send : Nat → ChatDevice → List UInt8 → List UInt8 → Port → Option SendReturn}
    (hSend : send ∈ chatSenders listenTid) {device : ChatDevice}
    (hStatus : device.status = 1) {buffer stdin : List UInt8}
    (hLength : buffer.length = buffLen) (hRunning : strcmp buffer quitLine ≠ 0)
    (hText : ∀ c ∈ stdin, c ≠ 0) {port : Port} (hPort : port.CompleteWrites) :
    SendsTextOnce (fun fuel => send fuel device buffer stdin port) stdin port.sent ↔
      QuitIsLine stdin := by
  have hFd : 0 ≤ device.port := device.created hStatus
  have hReady : SendReady ⟨buffer, stdin, port, []⟩ := ⟨hPort, hLength, hText⟩
  have hFunction : ∀ texts done, (∀ s, (done s).last = s) →
      (SendsTextOnce (fun fuel => sendFunction texts done fuel device buffer stdin port)
        stdin port.sent ↔ QuitIsLine stdin) := by
    intro texts done hDone
    simp only [sendFunction_of_created hStatus]
    exact sendLoop_once_iff hFd hDone hRunning hReady
  simp only [chatSenders, List.mem_cons, List.not_mem_nil, or_false] at hSend
  rcases hSend with rfl | rfl | rfl | rfl
  · exact hFunction masterSendTexts _ fun _ => rfl
  · exact hFunction masterSendTexts _ fun _ => rfl
  · exact hFunction slaveSendTexts _ fun _ => rfl
  · exact hFunction slaveSendTexts _ fun _ => rfl

/-- `"hi\n"` and `"quit\n"`, and a line that is left alone. -/
theorem chatSenders_send_once_hi :
    SendsTextOnce
      (fun fuel => masterSend 7 fuel createdMaster (filledBuffer 0)
        [104, 105, 10, 113, 117, 105, 116, 10, 120] (Port.fresh [] []))
      [104, 105, 10, 113, 117, 105, 116, 10, 120] [] := by
  refine (chatSenders_send_once_iff List.mem_cons_self rfl (length_filledBuffer 0)
    (by decide) (no_nul_of_not_mem (by decide)) (Port.completeWrites_fresh [])).mpr ?_
  exact ⟨[[104, 105, 10]], quitLine, [[120]], by decide, by decide, by decide, Or.inl rfl⟩

/-- On an input that ends without `"quit\n"` the loop never ends. -/
theorem not_chatSenders_send_once :
    ¬ SendsTextOnce
      (fun fuel => masterSend 7 fuel createdMaster (filledBuffer 0) [104, 105, 10]
        (Port.fresh [] [])) [104, 105, 10] [] := by
  have hReady : SendReady ⟨filledBuffer 0, [104, 105, 10], Port.fresh [] [], []⟩ :=
    ⟨Port.completeWrites_fresh [], length_filledBuffer 0, no_nul_of_not_mem (by decide)⟩
  have hQuit : quitLine ∉ fgetsPieces [104, 105, 10] := by
    rw [quitLine_mem_fgetsPieces]
    decide
  rintro ⟨fuel, r, hRun, -⟩
  have hNever := @sendLoop_never_ends masterSendTexts
    (fun s => ⟨s, some 7, .pthreadExit⟩) 3 (by decide) _ (by decide) hReady hQuit fuel
  cases hNever.symm.trans hRun

end Serial
end CubeSatComm
