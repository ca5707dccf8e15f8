import CubeSatComm.Serial.Chat

/-!
# The two listeners of the master

`master_listen` and `master_listen_cpp` on the same messages.  The first compares the
string in its buffer when it is terminated, and so stops at the message `"quit\n"` and at
no other.  The second compares it before, when behind the message there still is what
earlier messages have left: it misses the end of the chat where there is no NUL behind
`"quit\n"`, and stops too early where a shorter message is completed to it.
-/

namespace CubeSatComm
namespace Serial

open Lib Posix

/-- A message that one `read` returns and that leaves room for its NUL. -/
structure IsMessage (message : List UInt8) : Prop where
  ne_nil : message ≠ []
  fits : message.length < buffLen
  no_nul : ∀ c ∈ message, c ≠ 0

/-- What a listener does on the messages: it ends exactly if the message `"quit\n"` is
among them, and has read no message behind the first such. -/
structure StopsAtQuit (messages : List (List UInt8)) (reads : Nat)
    (last : ListenState) : Prop where
  reads_eq : last.port.reads = reads + (upto (· = quitLine) messages).length
  ended_iff : last.ended ≠ none ↔ quitLine ∈ messages

/-- Both listeners stop at the first `"quit\n"`, and show the same messages but for that
last one, which only the first of them shows. -/
structure ListenersAgree (messages : List (List UInt8)) (reads : Nat)
    (listen cpp : ListenState) : Prop where
  listen_stops : StopsAtQuit messages reads listen
  cpp_stops : StopsAtQuit messages reads cpp
  shown : listen.screen = cpp.screen ++
    if quitLine ∈ messages then [⟨masterListenTexts.display, quitLine⟩] else []

/-- What messages leave in the buffer when each of them is terminated. -/
def leftBehind (buffer : List UInt8) (messages : List (List UInt8)) : List UInt8 :=
  messages.foldl (fun buffer message => store buffer 0 (message ++ [0])) buffer

/-- The message is the front of `"quit\n"`, and the buffer holds the rest of it, with a
NUL, in the cells behind the message. -/
def CompletesQuit (buffer message : List UInt8) : Prop :=
  ∃ rest, quitLine = message ++ rest ∧ rest ++ [0] <+: buffer.drop message.length

/-- When `"quit\n"` arrives, it finds a NUL in the cell behind it, and no message before
that is completed to it by what the earlier ones have left. -/
structure QuitTerminated (buffer : List UInt8) (messages : List (List UInt8)) :
    Prop where
  quit : ∀ earlier later, messages = earlier ++ quitLine :: later →
    quitLine ∉ earlier → (leftBehind buffer earlier)[quitLine.length]? = some 0
  other : ∀ earlier message later, messages = earlier ++ message :: later →
    quitLine ∉ earlier → message ≠ quitLine →
      ¬ CompletesQuit (leftBehind buffer earlier) message

theorem quitLine_no_nul : ∀ c ∈ quitLine, c ≠ 0 := no_nul_of_not_mem (by decide)

/-! ## One message -/

section Message

variable {buffer message : List UInt8}

theorem length_store_message (hMessage : IsMessage message)
    (hLength : buffer.length = buffLen) :
    (store buffer 0 (message ++ [0])).length = buffLen := by
  have hFits := hMessage.fits
  rw [length_store (by rw [List.length_append, List.length_singleton]; omega), hLength]

/-- The terminated string in the buffer is the message. -/
theorem strcmp_terminated_iff (hMessage : IsMessage message) :
    strcmp (store buffer 0 (message ++ [0])) quitLine = 0 ↔ message = quitLine := by
  have hQuit : cString quitLine = quitLine := rfl
  rw [strcmp_eq_zero_iff, cString_store hMessage.no_nul, hQuit]

/-- The string that is not terminated is `"quit\n"` exactly if it is completed to it. -/
theorem strcmp_unterminated_iff (hMessage : IsMessage message)
    (hLength : buffer.length = buffLen) :
    strcmp (store buffer 0 message) quitLine = 0 ↔ CompletesQuit buffer message := by
  have hQuit : cString quitLine = quitLine := rfl
  rw [strcmp_eq_zero_iff, store_zero, cString_append hMessage.no_nul, hQuit]
  have hRest : ∀ rest, quitLine = message ++ rest →
      (cString (buffer.drop message.length) = rest ↔
        rest ++ [0] <+: buffer.drop message.length) := by
    intro rest hSplit
    have hTotal := congrArg List.length hSplit
    rw [List.length_append] at hTotal
    apply cString_eq_iff
    · intro c hMem
      apply quitLine_no_nul
      rw [hSplit]
      exact List.mem_append_right _ hMem
    · have hFive : quitLine.length = 5 := rfl
      have hBuff : buffLen = 1024 := rfl
      rw [List.length_drop]
      omega
  constructor
  · intro hEq
    exact ⟨_, hEq.symm, (hRest _ hEq.symm).mp rfl⟩
  · rintro ⟨rest, hSplit, hPrefix⟩
    rw [(hRest rest hSplit).mpr hPrefix, ← hSplit]

/-- `"quit\n"` itself needs the NUL only. -/
theorem completesQuit_quitLine_iff :
    CompletesQuit buffer quitLine ↔ buffer[quitLine.length]? = some 0 := by
  have hHead : [0] <+: buffer.drop quitLine.length ↔
      buffer[quitLine.length]? = some 0 := by
    rw [← List.head?_drop]
    cases buffer.drop quitLine.length with
    | nil => simp
    | cons c rest => simp [eq_comm]
  constructor
  · rintro ⟨rest, hSplit, hPrefix⟩
    obtain rfl : rest = [] := List.self_eq_append_right.mp hSplit
    exact hHead.mp hPrefix
  · intro hNul
    exact ⟨[], rfl, hHead.mpr hNul⟩

end Message

/-! ## A message and those behind it -/

section Cons

variable {buffer message : List UInt8} {messages : List (List UInt8)} {reads : Nat}
  {last listen cpp : ListenState}

theorem stopsAtQuit_quit_iff :
    StopsAtQuit (quitLine :: messages) reads last ↔
      last.port.reads = reads + 1 ∧ last.ended ≠ none := by
  have hUpto : upto (· = quitLine) (quitLine :: messages) = [quitLine] :=
    upto_cons_of_pos rfl
  constructor
  · rintro ⟨hReads, hEnded⟩
    rw [hUpto] at hReads
    exact ⟨hReads, hEnded.mpr List.mem_cons_self⟩
  · rintro ⟨hReads, hEnded⟩
    refine ⟨?_, iff_of_true hEnded List.mem_cons_self⟩
    rw [hUpto]
    exact hReads

theorem stopsAtQuit_cons_iff (hOther : message ≠ quitLine) :
    StopsAtQuit (message :: messages) reads last ↔
      StopsAtQuit messages (reads + 1) last := by
  have hUpto : (upto (· = quitLine) (message :: messages)).length =
      1 + (upto (· = quitLine) messages).length := by
    rw [upto_cons_of_neg (p := (· = quitLine)) hOther, List.length_cons, Nat.add_comm]
  have hMem : quitLine ∈ message :: messages ↔ quitLine ∈ messages := by
    rw [List.mem_cons, or_iff_right (Ne.symm hOther)]
  constructor
  · rintro ⟨hReads, hEnded⟩
    rw [hUpto, ← Nat.add_assoc] at hReads
    exact ⟨hReads, hEnded.trans hMem⟩
  · rintro ⟨hReads, hEnded⟩
    refine ⟨?_, hEnded.trans hMem.symm⟩
    rw [hUpto, ← Nat.add_assoc]
    exact hReads

/-- A listener that ends before it has read a message does not stop at `"quit\n"`. -/
theorem not_stopsAtQuit_early (hReads : last.port.reads = reads)
    (hEnded : last.ended ≠ none) : ¬ StopsAtQuit messages reads last := by
  rintro ⟨hUpto, hIff⟩
  have hMem := hIff.mp hEnded
  have hNe : upto (· = quitLine) messages ≠ [] :=
    upto_ne_nil (List.ne_nil_of_mem hMem)
  have hPos := List.length_pos_iff.mpr hNe
  omega

theorem listenersAgree_cons_iff (hOther : message ≠ quitLine) :
    ListenersAgree (message :: messages) reads listen cpp ↔
      ListenersAgree messages (reads + 1) listen cpp := by
  have hMem : quitLine ∈ message :: messages ↔ quitLine ∈ messages := by
    rw [List.mem_cons, or_iff_right (Ne.symm hOther)]
  constructor
  · rintro ⟨hListen, hCpp, hShown⟩
    refine ⟨(stopsAtQuit_cons_iff hOther).mp hListen, (stopsAtQuit_cons_iff hOther).mp hCpp,
      ?_⟩
    simpa only [hMem] using hShown
  · rintro ⟨hListen, hCpp, hShown⟩
    refine ⟨(stopsAtQuit_cons_iff hOther).mpr hListen,
      (stopsAtQuit_cons_iff hOther).mpr hCpp, ?_⟩
    simpa only [hMem] using hShown

theorem quitTerminated_nil : QuitTerminated buffer [] := by
  constructor
  · intro earlier later hSplit
    exact absurd hSplit (List.append_ne_nil_of_right_ne_nil _ (List.cons_ne_nil _ _)).symm
  · intro earlier message later hSplit
    exact absurd hSplit (List.append_ne_nil_of_right_ne_nil _ (List.cons_ne_nil _ _)).symm

theorem quitTerminated_quit_iff :
    QuitTerminated buffer (quitLine :: messages) ↔ buffer[quitLine.length]? = some 0 := by
  constructor
  · intro hTerminated
    exact hTerminated.quit [] messages rfl List.not_mem_nil
  · intro hNul
    constructor
    · intro earlier later hSplit hEarlier
      cases earlier with
      | nil => exact hNul
      | cons first earlier =>
          obtain ⟨rfl, -⟩ := List.cons.inj hSplit
          exact absurd List.mem_cons_self hEarlier
    · intro earlier message later hSplit hEarlier hOther
      cases earlier with
      | nil =>
          obtain ⟨rfl, -⟩ := List.cons.inj hSplit
          exact absurd rfl hOther
      | cons first earlier =>
          obtain ⟨rfl, -⟩ := List.cons.inj hSplit
          exact absurd List.mem_cons_self hEarlier

theorem quitTerminated_cons_iff (hOther : message ≠ quitLine) :
    QuitTerminated buffer (message :: messages) ↔
      ¬ CompletesQuit buffer message ∧
        QuitTerminated (store buffer 0 (message ++ [0])) messages := by
  constructor
  · rintro ⟨hQuit, hRest⟩
    refine ⟨hRest [] message messages rfl List.not_mem_nil hOther, ?_, ?_⟩
    · intro earlier later hSplit hEarlier
      refine hQuit (message :: earlier) later (by rw [hSplit, List.cons_append]) ?_
      rw [List.mem_cons, not_or]
      exact ⟨Ne.symm hOther, hEarlier⟩
    · intro earlier other later hSplit hEarlier
      refine hRest (message :: earlier) other later (by rw [hSplit, List.cons_append]) ?_
      rw [List.mem_cons, not_or]
      exact ⟨Ne.symm hOther, hEarlier⟩
  · rintro ⟨hFirst, hQuit, hRest⟩
    constructor
    · intro earlier later hSplit hEarlier
      cases earlier with
      | nil => exact absurd (List.cons.inj hSplit).1 hOther
      | cons first earlier =>
          obtain ⟨rfl, hTail⟩ := List.cons.inj hSplit
          exact hQuit earlier later hTail fun hMem =>
            hEarlier (List.mem_cons_of_mem _ hMem)
    · intro earlier other later hSplit hEarlier hNe
      cases earlier with
      | nil =>
          obtain ⟨rfl, -⟩ := List.cons.inj hSplit
          exact hFirst
      | cons first earlier =>
          obtain ⟨rfl, hTail⟩ := List.cons.inj hSplit
          exact hRest earlier other later hTail
            (fun hMem => hEarlier (List.mem_cons_of_mem _ hMem)) hNe

end Cons

/-! ## The loops -/

/-- The state behind a message that has been terminated and printed. -/
def ListenState.receive (texts : ListenTexts) (message : List UInt8)
    (rx : Feed UInt8 Errno) (s : ListenState) : ListenState where
  buffer := store s.buffer 0 (message ++ [0])
  port := { s.port with rx := rx, reads := s.port.reads + 1 }
  screen := s.screen ++ [⟨texts.display, message⟩]
  ended := s.ended

section Loops

variable {texts : ListenTexts} {last : ThreadEnd} {fd : Int} (hFd : 0 ≤ fd)
  {s : ListenState} {message : List UInt8} {messages : List (List UInt8)}

/-- What is printed is the message. -/
theorem terminate_display (hMessage : IsMessage message) (rx : Feed UInt8 Errno) :
    (s.terminate message
        { s.port with rx := rx, reads := s.port.reads + 1 }).display texts =
      s.receive texts message rx := by
  have hStore : store (store s.buffer 0 message) message.length [0] =
      store s.buffer 0 (message ++ [0]) := by
    have hAdjacent := @store_store_adjacent _ s.buffer message [0] 0 (Nat.zero_le _)
    rwa [Nat.zero_add] at hAdjacent
  simp only [ListenState.terminate, ListenState.display, ListenState.receive, hStore,
    cString_store hMessage.no_nul]

include hFd

/-- The `read` of a message. -/
theorem read_message (hMessage : IsMessage message)
    (hRx : s.port.rx = Feed.ofPieces (message :: messages)) :
    s.port.read fd buffLen = some (.ok message,
      { s.port with rx := Feed.ofPieces messages, reads := s.port.reads + 1 }) := by
  apply Port.read_open hFd
  rw [hRx, Feed.ofPieces_cons, Feed.read, if_pos (Nat.le_of_lt hMessage.fits)]

omit hFd in
theorem listenPass_quit (hQuit : strcmp s.buffer quitLine = 0) :
    listenPass texts last fd s = .leave { s with ended := some last } := by
  rw [listenPass, if_neg (not_not_intro hQuit)]

theorem listenPass_message (hRunning : strcmp s.buffer quitLine ≠ 0)
    (hMessage : IsMessage message)
    (hRx : s.port.rx = Feed.ofPieces (message :: messages)) :
    listenPass texts last fd s =
      .again (s.receive texts message (Feed.ofPieces messages)) := by
  rw [listenPass, if_pos hRunning, read_message hFd hMessage hRx]
  dsimp only
  rw [terminate_display hMessage]

theorem listenPass_waits (hRunning : strcmp s.buffer quitLine ≠ 0)
    (hRx : s.port.rx = []) : listenPass texts last fd s = .blocked := by
  have hRead : s.port.read fd buffLen = none :=
    Port.read_waits hFd (by rw [hRx, Feed.read])
  rw [listenPass, if_pos hRunning, hRead]

/-- The shared loop shows the messages up to the first `"quit\n"`, and ends there. -/
theorem listenLoop_settle (hRunning : strcmp s.buffer quitLine ≠ 0)
    (hMessages : ∀ message ∈ messages, IsMessage message)
    (hRx : s.port.rx = Feed.ofPieces messages) (hStart : s.ended = none) :
    ∃ l, Loop.settle (listenPass texts last fd) _ (listenPass_decreases texts last fd) s =
        l ∧
      StopsAtQuit messages s.port.reads l ∧
      l.screen = s.screen ++
        (upto (· = quitLine) messages).map fun message => ⟨texts.display, message⟩ := by
  refine ⟨_, rfl, ?_⟩
  induction messages generalizing s with
  | nil =>
      rw [Loop.settle_blocked (listenPass_waits hFd hRunning hRx)]
      refine ⟨⟨rfl, ?_⟩, ?_⟩
      · simp [hStart]
      · simp [upto]
  | cons message messages ih =>
      rw [List.forall_mem_cons] at hMessages
      rw [Loop.settle_again (listenPass_message hFd hRunning hMessages.1 hRx)]
      let s' := s.receive texts message (Feed.ofPieces messages)
      have hCompare : strcmp s'.buffer quitLine = 0 ↔ message = quitLine :=
        strcmp_terminated_iff hMessages.1
      by_cases hQuit : message = quitLine
      · rw [Loop.settle_leave (listenPass_quit (hCompare.mpr hQuit))]
        subst hQuit
        constructor
        · rw [stopsAtQuit_quit_iff]
          exact ⟨rfl, Option.some_ne_none _⟩
        · rw [upto_cons_of_pos (p := (· = quitLine)) rfl]
          rfl
      · obtain ⟨hStops, hScreen⟩ :=
          @ih s' (fun hZero => hQuit (hCompare.mp hZero)) hMessages.2 rfl hStart
        rw [stopsAtQuit_cons_iff hQuit, upto_cons_of_neg (p := (· = quitLine)) hQuit]
        refine ⟨hStops, hScreen.trans ?_⟩
        rw [List.map_cons, ← List.singleton_append, ← List.append_assoc]
        rfl

omit hFd in
theorem masterListenCppPass_quit (hQuit : strcmp s.buffer quitLine = 0) :
    masterListenCppPass fd s = .leave { s with ended := some .return } := by
  rw [masterListenCppPass, if_neg (not_not_intro hQuit)]

theorem masterListenCppPass_waits (hRunning : strcmp s.buffer quitLine ≠ 0)
    (hRx : s.port.rx = []) : masterListenCppPass fd s = .blocked := by
  have hRead : s.port.read fd buffLen = none :=
    Port.read_waits hFd (by rw [hRx, Feed.read])
  rw [masterListenCppPass, if_pos hRunning, hRead]

/-- What the loop of `master_listen_cpp` does with a message. -/
theorem masterListenCppPass_message (hRunning : strcmp s.buffer quitLine ≠ 0)
    (hLength : s.buffer.length = buffLen) (hMessage : IsMessage message)
    (hRx : s.port.rx = Feed.ofPieces (message :: messages)) :
    (CompletesQuit s.buffer message → ∃ c, masterListenCppPass fd s = .leave c ∧
      c.port.reads = s.port.reads + 1 ∧ c.screen = s.screen ∧ c.ended = some .return) ∧
    (¬ CompletesQuit s.buffer message → masterListenCppPass fd s =
      .again (s.receive masterListenTexts message (Feed.ofPieces messages))) := by
  rw [← strcmp_unterminated_iff hMessage hLength, masterListenCppPass, if_pos hRunning,
    read_message hFd hMessage hRx]
  dsimp only
  constructor
  · intro hZero
    rw [if_pos hZero]
    exact ⟨_, rfl, rfl, rfl, rfl⟩
  · intro hNonzero
    rw [if_neg hNonzero, terminate_display hMessage]

/-- The two loops, started in the same state, agree exactly if `"quit\n"` is terminated
when it arrives and no other message is taken for it. -/
theorem listenLoops_agree_iff (hRunning : strcmp s.buffer quitLine ≠ 0)
    (hLength : s.buffer.length = buffLen)
    (hMessages : ∀ message ∈ messages, IsMessage message)
    (hRx : s.port.rx = Feed.ofPieces messages) (hStart : s.ended = none)
    {l c : ListenState}
    (hListen : Loop.settle (listenPass masterListenTexts last fd) _
      (listenPass_decreases masterListenTexts last fd) s = l)
    (hCpp : Loop.settle (masterListenCppPass fd) _ (masterListenCppPass_decreases fd) s =
      c) :
    ListenersAgree messages s.port.reads l c ↔ QuitTerminated s.buffer messages := by
  induction messages generalizing s with
  | nil =>
      rw [Loop.settle_blocked (listenPass_waits hFd hRunning hRx)] at hListen
      rw [Loop.settle_blocked (masterListenCppPass_waits hFd hRunning hRx)] at hCpp
      subst hListen hCpp
      have hStops : StopsAtQuit [] s.port.reads s := ⟨rfl, by simp [hStart]⟩
      exact iff_of_true ⟨hStops, hStops, by simp⟩ quitTerminated_nil
  | cons message messages ih =>
      rw [List.forall_mem_cons] at hMessages
      obtain ⟨hEnds, hGoesOn⟩ :=
        masterListenCppPass_message hFd hRunning hLength hMessages.1 hRx
      by_cases hQuit : message = quitLine
      · subst hQuit
        obtain ⟨l', hSettle, hStops, hScreen⟩ :=
          @listenLoop_settle masterListenTexts last fd hFd s (quitLine :: messages) hRunning
            (List.forall_mem_cons.mpr hMessages) hRx hStart
        obtain rfl : l' = l := hSettle.symm.trans hListen
        rw [upto_cons_of_pos (p := (· = quitLine)) rfl, List.map_singleton] at hScreen
        rw [quitTerminated_quit_iff, ← completesQuit_quitLine_iff]
        by_cases hNul : CompletesQuit s.buffer quitLine
        · obtain ⟨c', hPass, hReads, hShown, hEnded⟩ := hEnds hNul
          rw [Loop.settle_leave hPass] at hCpp
          subst hCpp
          refine iff_of_true ⟨hStops, ?_, ?_⟩ hNul
          · rw [stopsAtQuit_quit_iff, hEnded]
            exact ⟨hReads, nofun⟩
          · rw [hScreen, hShown, if_pos List.mem_cons_self]
        · -- the message is shown, and the test of the loop finds it
          have hStops' : strcmp (s.receive masterListenTexts quitLine
              (Feed.ofPieces messages)).buffer quitLine = 0 :=
            (strcmp_terminated_iff hMessages.1).mpr rfl
          rw [Loop.settle_again (hGoesOn hNul),
            Loop.settle_leave (masterListenCppPass_quit hStops')] at hCpp
          subst hCpp
          refine iff_of_false ?_ hNul
          rintro ⟨-, -, hShown⟩
          rw [hScreen, if_pos List.mem_cons_self] at hShown
          have hLengths := congrArg List.length hShown
          simp [ListenState.receive] at hLengths
      · rw [listenersAgree_cons_iff hQuit, quitTerminated_cons_iff hQuit]
        by_cases hCompletes : CompletesQuit s.buffer message
        · obtain ⟨c', hPass, hReads, -, hEnded⟩ := hEnds hCompletes
          rw [Loop.settle_leave hPass] at hCpp
          subst hCpp
          refine iff_of_false ?_ fun hTerminated => hTerminated.1 hCompletes
          rintro ⟨-, hStops, -⟩
          refine not_stopsAtQuit_early hReads ?_ hStops
          rw [hEnded]
          exact nofun
        · have hCompare : strcmp (s.receive masterListenTexts message
              (Feed.ofPieces messages)).buffer quitLine ≠ 0 :=
            fun hZero => hQuit ((strcmp_terminated_iff hMessages.1).mp hZero)
          rw [Loop.settle_again (listenPass_message hFd hRunning hMessages.1 hRx)] at hListen
          rw [Loop.settle_again (hGoesOn hCompletes)] at hCpp
          rw [and_iff_right hCompletes]
          exact ih hCompare (length_store_message hMessages.1 hLength) hMessages.2 rfl hStart
            hListen hCpp

end Loops

/-! ## The functions -/

/-- On a created device a function that receives is its loop. -/
theorem listenFunction_created {device : ChatDevice} (hCreated : device.status = 1)
    (texts : ListenTexts) (loop : ListenState → ListenState) (buffer : List UInt8)
    (port : Port) :
    listenFunction texts loop device buffer port = loop ⟨buffer, port, [], none⟩ := by
  rw [listenFunction, if_neg (not_not_intro hCreated)]

/-- The listeners that terminate the string before they compare it stop at `"quit\n"` and
nowhere else. -/
theorem terminatingListeners_stop
    {listen : ChatDevice → List UInt8 → Port → ListenState}
    (hListen : listen ∈ [masterListen, slaveListen, slaveListenCpp]) {device : ChatDevice}
    (hCreated : device.status = 1) {buffer : List UInt8}
    (hBuffer : strcmp buffer quitLine ≠ 0) {messages : List (List UInt8)}
    (hMessages : ∀ message ∈ messages, IsMessage message) {port : Port}
    (hRx : port.rx = Feed.ofPieces messages) :
    StopsAtQuit messages port.reads (listen device buffer port) := by
  have hLoop : ∀ texts last, StopsAtQuit messages port.reads
      (listenFunction texts (Loop.settle (listenPass texts last device.port) _
        (listenPass_decreases texts last device.port)) device buffer port) := by
    intro texts last
    obtain ⟨l, hSettle, hStops, -⟩ := @listenLoop_settle texts last device.port
      (device.created hCreated) ⟨buffer, port, [], none⟩ messages hBuffer hMessages hRx rfl
    rwa [listenFunction_created hCreated, hSettle]
  simp only [List.mem_cons, List.not_mem_nil, or_false] at hListen
  rcases hListen with rfl | rfl | rfl
  · exact hLoop masterListenTexts .pthreadExit
  · exact hLoop slaveListenTexts .pthreadExit
  · exact hLoop slaveListenTexts .return

/-- `master_listen_cpp` agrees with `master_listen` exactly if the first `"quit\n"` finds a
NUL in the cell behind it, and no message before it is completed to `"quit\n"` by what is
left in the buffer. -/
theorem listeners_agree_iff {device : ChatDevice} (hCreated : device.status = 1)
    {buffer : List UInt8} (hLength : buffer.length = buffLen)
    (hBuffer : strcmp buffer quitLine ≠ 0) {messages : List (List UInt8)}
    (hMessages : ∀ message ∈ messages, IsMessage message) {port : Port}
    (hRx : port.rx = Feed.ofPieces messages) :
    ListenersAgree messages port.reads (masterListen device buffer port)
        (masterListenCpp device buffer port) ↔
      QuitTerminated buffer messages := by
  rw [masterListen, masterListenCpp, listenFunction_created hCreated,
    listenFunction_created hCreated]
  exact @listenLoops_agree_iff .pthreadExit device.port (device.created hCreated)
    ⟨buffer, port, [], none⟩ messages hBuffer hLength hMessages hRx rfl _ _ rfl rfl

theorem isMessage_quitLine : IsMessage quitLine := ⟨by decide, by decide, quitLine_no_nul⟩

/-- With NULs in the buffer, `"hi\n"` and `"quit\n"` end both listeners alike. -/
theorem listeners_agree_hi :
    ListenersAgree [[104, 105, 10], quitLine] 0
      (masterListen createdMaster (filledBuffer 0)
        (Port.fresh (Feed.ofPieces [[104, 105, 10], quitLine]) []))
      (masterListenCpp createdMaster (filledBuffer 0)
        (Port.fresh (Feed.ofPieces [[104, 105, 10], quitLine]) [])) := by
  have hMessages : ∀ message ∈ [[104, 105, 10], quitLine], IsMessage message := by
    simp only [List.mem_cons, List.not_mem_nil, or_false, forall_eq_or_imp, forall_eq]
    exact ⟨⟨by decide, by decide, no_nul_of_not_mem (by decide)⟩, isMessage_quitLine⟩
  refine (@listeners_agree_iff createdMaster rfl _ (length_filledBuffer 0) (by decide) _
    hMessages (Port.fresh (Feed.ofPieces [[104, 105, 10], quitLine]) []) rfl).mpr ?_
  rw [quitTerminated_cons_iff (by decide), quitTerminated_quit_iff]
  constructor
  · rintro ⟨rest, hSplit, -⟩
    exact absurd (List.cons.inj hSplit).1 (by decide)
  · decide

/-- In a buffer without NULs, `"quit\n"` is shown as a message.  Behind `"xxxt\n"`, the
message `"qui"` ends `master_listen_cpp`. -/
theorem not_listeners_agree :
    ¬ ListenersAgree [quitLine] 0
      (masterListen createdMaster (filledBuffer 120)
        (Port.fresh (Feed.ofPieces [quitLine]) []))
      (masterListenCpp createdMaster (filledBuffer 120)
        (Port.fresh (Feed.ofPieces [quitLine]) [])) ∧
    ¬ ListenersAgree [[120, 120, 120, 116, 10], [113, 117, 105]] 0
      (masterListen createdMaster (filledBuffer 0)
        (Port.fresh (Feed.ofPieces [[120, 120, 120, 116, 10], [113, 117, 105]]) []))
      (masterListenCpp createdMaster (filledBuffer 0)
        (Port.fresh (Feed.ofPieces [[120, 120, 120, 116, 10], [113, 117, 105]]) [])) := by
  constructor
  · have hMessages : ∀ message ∈ [quitLine], IsMessage message := by
      simp only [List.mem_singleton, forall_eq]
      exact isMessage_quitLine
    intro hAgree
    rw [masterListen, masterListenCpp, listenFunction_created rfl,
      listenFunction_created rfl] at hAgree
    have hTerminated := (@listenLoops_agree_iff .pthreadExit createdMaster.port (by decide)
      ⟨filledBuffer 120, Port.fresh (Feed.ofPieces [quitLine]) [], [], none⟩ _ (by decide)
      (length_filledBuffer 120) hMessages rfl rfl _ _ rfl rfl).mp hAgree
    exact absurd (quitTerminated_quit_iff.mp hTerminated) (by decide)
  · have hMessages :
        ∀ message ∈ [[120, 120, 120, 116, 10], [113, 117, 105]], IsMessage message := by
      simp only [List.mem_cons, List.not_mem_nil, or_false, forall_eq_or_imp, forall_eq]
      exact ⟨⟨by decide, by decide, no_nul_of_not_mem (by decide)⟩,
        ⟨by decide, by decide, no_nul_of_not_mem (by decide)⟩⟩
    intro hAgree
    rw [masterListen, masterListenCpp, listenFunction_created rfl,
      listenFunction_created rfl] at hAgree
    have hTerminated := (@listenLoops_agree_iff .pthreadExit createdMaster.port (by decide)
      ⟨filledBuffer 0,
        Port.fresh (Feed.ofPieces [[120, 120, 120, 116, 10], [113, 117, 105]]) [], [], none⟩
      _ (by decide) (length_filledBuffer 0) hMessages rfl rfl _ _ rfl rfl).mp hAgree
    rw [quitTerminated_cons_iff (by decide), quitTerminated_cons_iff (by decide)]
      at hTerminated
    refine hTerminated.2.1 ⟨[116, 10], rfl, ?_⟩
    decide

end Serial
end CubeSatComm
