import CubeSatComm.Lib.Loop
import CubeSatComm.Posix.Port
import CubeSatComm.Posix.Text

/-!
# `MasterPort::ReadLine`

The reader of `libserial_ext.cpp`, which appends the pieces that arrive to a string until
one of them has a newline.  It appends its buffer as a C string, so what it appends ends
at the first NUL, wherever that comes from.

What successive calls return is the lines of the stream exactly if the stream is cut
behind its newlines, and the buffer happens to hold a NUL behind every other piece.
-/

namespace CubeSatComm
namespace Serial

open Lib Posix

/-- The size of `buffer`. -/
def lineBuffLen : Nat := 1024

theorem lineBuffLen_pos : 0 < lineBuffLen := by decide

/-- How a call of `ReadLine` ends. -/
inductive LineEnd where
  /-- It returns with this string in `str`. -/
  | returned (str : List UInt8)
  /-- It leaves the bounds of the buffer. -/
  | outOfBounds
  deriving DecidableEq, Repr

/-- The local variables of `ReadLine`. -/
structure LineState where
  buffer : List UInt8
  str : List UInt8
  port : Port

/-- `str += buffer`, where the buffer holds a NUL. -/
def appendBuffer (str buffer : List UInt8) : Option (List UInt8) :=
  if 0 ∈ buffer then some (str ++ cString buffer) else none

/-- The two statements behind the loop. -/
def finishLine (str buffer : List UInt8) : LineEnd :=
  match appendBuffer str buffer with
  | none => .outOfBounds
  | some str => .returned (str ++ [0])

/-- What is returned when the first newline of the buffer is in its cell `x`. -/
def newlineFound (str buffer : List UInt8) (x : Nat) : LineEnd :=
  if x + 1 < lineBuffLen then
    .returned (str ++ cString (store buffer (x + 1) [0]))
  else
    .outOfBounds

/-- One pass through the loop. -/
def readLinePass (fd : Int) (s : LineState) : Pass LineState (LineEnd × Port) :=
  match s.port.read fd lineBuffLen with
  | none => .blocked
  | some (.error _, port) => .leave (finishLine s.str s.buffer, port)
  | some (.ok bytes, port) =>
      if bytes = [] then
        .leave (finishLine s.str s.buffer, port)
      else
        let buffer := store s.buffer 0 bytes
        -- the loop over `x`
        match bytes.idxOf? newlineChar with
        | some x => .leave (newlineFound s.str buffer x, port)
        | none =>
            match appendBuffer s.str buffer with
            | some str => .again ⟨buffer, str, port⟩
            | none => .leave (.outOfBounds, port)

theorem readLinePass_decreases (fd : Int) :
    Loop.Decreases (readLinePass fd) fun s => s.port.rx.size := by
  intro s s' hPass
  unfold readLinePass at hPass
  split at hPass
  · cases hPass
  · cases hPass
  · next bytes port hRead =>
    split at hPass
    · cases hPass
    · dsimp only at hPass
      split at hPass
      · cases hPass
      · split at hPass
        · obtain rfl := Pass.again.inj hPass
          exact Port.size_lt_of_read lineBuffLen_pos hRead
        · cases hPass

/-- `MasterPort::ReadLine` on an empty string; `stale` is what the uninitialised buffer
holds.  `none` means that the call waits for ever. -/
def readLine (fd : Int) (stale : List UInt8) (port : Port) : Option (LineEnd × Port) :=
  Loop.run (readLinePass fd) _ (readLinePass_decreases fd) ⟨stale, [], port⟩

/-- The strings that successive calls of `ReadLine` return, one for each of the given
buffers; `none` if a call waits for ever or leaves the bounds of its buffer. -/
def readLines (fd : Int) : List (List UInt8) → Port → Option (List (List UInt8) × Port)
  | [], port => some ([], port)
  | stale :: stales, port =>
      match readLine fd stale port with
      | some (.returned str, port) =>
          match readLines fd stales port with
          | some (strs, port) => some (str :: strs, port)
          | none => none
      | _ => none

/-! ## Splitting a stream into lines -/

/-- The calls return the first lines of the stream, one each, and the rest of the stream
is still unread. -/
def ReadsFirstLines (fd : Int) (stales : List (List UInt8)) (port : Port)
    (stream : List UInt8) : Prop :=
  ∃ port', readLines fd stales port =
      some ((lines newlineChar stream).take stales.length, port') ∧
    ((lines newlineChar stream).take stales.length).flatten ++ port'.rx.arriving = stream

/-- So does every number of calls up to that of the buffers. -/
def SplitsIntoLines (fd : Int) (stales : List (List UInt8)) (port : Port)
    (stream : List UInt8) : Prop :=
  ∀ j ≤ stales.length, ReadsFirstLines fd (stales.take j) port stream

/-- Pieces that a call with this buffer turns into their line: only the last one has a
newline, at its end and not in the last cell of the buffer; each of the others finds a
NUL in the cell behind it, and is not shorter than those before it. -/
def IsLinePieces (stale : List UInt8) (pieces : List (List UInt8)) : Prop :=
  ∃ init last, pieces = init ++ [last ++ [newlineChar]] ∧
    (∀ piece ∈ init, newlineChar ∉ piece ∧ stale[piece.length]? = some 0) ∧
    init.Pairwise (fun earlier later => earlier.length ≤ later.length) ∧
    newlineChar ∉ last ∧ last.length + 1 < lineBuffLen

/-- The stream is cut into such pieces, as far as the lines go that are read. -/
def IsCutAtLines (stales cut : List (List UInt8)) : Prop :=
  ∃ groups rest, cut = groups.flatten ++ rest ∧
    List.Forall₂ IsLinePieces stales groups

/-! ## What is in the buffer -/

/-- Each of the pieces, stored one after another, finds a NUL in the cell behind it. -/
def Terminated : List UInt8 → List (List UInt8) → Prop
  | _, [] => True
  | buffer, piece :: pieces =>
      buffer[piece.length]? = some 0 ∧ Terminated (store buffer 0 piece) pieces

section Buffer

variable {buffer piece : List UInt8} {pieces : List (List UInt8)}

/-- Behind a piece there is what was there before. -/
theorem getElem?_store_eq_zero_iff (hNul : ∀ c ∈ piece, c ≠ 0) (k : Nat) :
    (store buffer 0 piece)[k]? = some 0 ↔ piece.length ≤ k ∧ buffer[k]? = some 0 := by
  rw [store_zero, List.getElem?_append]
  by_cases hLt : k < piece.length
  · rw [if_pos hLt]
    refine iff_of_false ?_ fun h => Nat.not_le_of_lt hLt h.1
    intro hZero
    exact hNul 0 (List.mem_of_getElem? hZero) rfl
  · have hLe : piece.length ≤ k := Nat.le_of_not_lt hLt
    rw [if_neg hLt, List.getElem?_drop, Nat.add_sub_cancel' hLe]
    exact (and_iff_right hLe).symm

/-- The pieces find their NULs in what the buffer held at first, as none of them is
stored over the cell behind a later one. -/
theorem terminated_iff (hNul : ∀ piece ∈ pieces, ∀ c ∈ piece, c ≠ 0) :
    Terminated buffer pieces ↔
      (∀ piece ∈ pieces, buffer[piece.length]? = some 0) ∧
        pieces.Pairwise fun earlier later => earlier.length ≤ later.length := by
  induction pieces generalizing buffer with
  | nil => simp [Terminated]
  | cons piece pieces ih =>
      rw [List.forall_mem_cons] at hNul
      have hStore : (∀ later ∈ pieces, (store buffer 0 piece)[later.length]? = some 0) ↔
          (∀ later ∈ pieces, piece.length ≤ later.length) ∧
            ∀ later ∈ pieces, buffer[later.length]? = some 0 := by
        simp only [getElem?_store_eq_zero_iff hNul.1, forall_and]
      rw [Terminated, ih hNul.2, hStore, List.forall_mem_cons, List.pairwise_cons]
      constructor
      · rintro ⟨hFirst, ⟨hLe, hRest⟩, hPairwise⟩
        exact ⟨⟨hFirst, hRest⟩, hLe, hPairwise⟩
      · rintro ⟨⟨hFirst, hRest⟩, hLe, hPairwise⟩
        exact ⟨hFirst, ⟨hLe, hRest⟩, hPairwise⟩

/-- A piece is appended with what follows it in the buffer. -/
theorem appendBuffer_store (hNul : ∀ c ∈ piece, c ≠ 0) (str : List UInt8) :
    appendBuffer str (store buffer 0 piece) =
      if 0 ∈ buffer.drop piece.length then
        some (str ++ piece ++ cString (buffer.drop piece.length))
      else
        none := by
  have hMem : 0 ∈ store buffer 0 piece ↔ 0 ∈ buffer.drop piece.length := by
    rw [store_zero, List.mem_append, or_iff_right fun hIn => hNul 0 hIn rfl]
  rw [appendBuffer]
  simp only [hMem]
  rw [store_zero, cString_append hNul, List.append_assoc]

/-- Nothing follows it if there is a NUL in the cell behind it. -/
theorem cString_drop_eq_nil (hZero : buffer[piece.length]? = some 0) :
    0 ∈ buffer.drop piece.length ∧ cString (buffer.drop piece.length) = [] := by
  rw [← List.head?_drop] at hZero
  obtain ⟨rest, hRest⟩ := List.head?_eq_some_iff.mp hZero
  rw [hRest]
  exact ⟨List.mem_cons_self, rfl⟩

/-- Otherwise something does. -/
theorem cString_drop_ne_nil (hZero : buffer[piece.length]? ≠ some 0)
    (hMem : 0 ∈ buffer.drop piece.length) : cString (buffer.drop piece.length) ≠ [] := by
  rw [← List.head?_drop] at hZero
  cases hDrop : buffer.drop piece.length with
  | nil =>
      rw [hDrop] at hMem
      cases hMem
  | cons c rest =>
      have hNe : c ≠ 0 := by
        rintro rfl
        rw [hDrop] at hZero
        exact hZero rfl
      simp [cString, hNe]

/-- A newline that has room for its NUL ends the string. -/
theorem newlineFound_store {last tail : List UInt8} (hNul : ∀ c ∈ last, c ≠ 0)
    (str : List UInt8) :
    newlineFound str (store buffer 0 (last ++ newlineChar :: tail)) last.length =
      if last.length + 1 < lineBuffLen then
        .returned (str ++ (last ++ [newlineChar]))
      else
        .outOfBounds := by
  have hText : ∀ c ∈ last ++ [newlineChar], c ≠ 0 := by
    rw [List.forall_mem_append, List.forall_mem_singleton]
    exact ⟨hNul, by decide⟩
  have hTake : (store buffer 0 (last ++ newlineChar :: tail)).take (last.length + 1) =
      last ++ [newlineChar] := by
    have hSplit : last ++ newlineChar :: tail = (last ++ [newlineChar]) ++ tail := by
      rw [List.append_assoc, List.singleton_append]
    have hLength : last.length + 1 = (last ++ [newlineChar]).length := by
      rw [List.length_append, List.length_singleton]
    rw [store_zero, hSplit, hLength, List.append_assoc, List.take_left]
  rw [newlineFound, store, hTake, List.append_assoc, List.singleton_append,
    (cString_append_eq_iff hText _ _).mpr rfl]

theorem idxOf?_newline {last : List UInt8} (hLast : newlineChar ∉ last)
    (tail : List UInt8) :
    (last ++ newlineChar :: tail).idxOf? newlineChar = some last.length := by
  induction last with
  | nil => simp [List.idxOf?_cons]
  | cons c last ih =>
      rw [List.mem_cons, not_or] at hLast
      rw [List.cons_append, List.idxOf?_cons, ih hLast.2]
      simp [Ne.symm hLast.1]

end Buffer

/-! ## One call -/

/-- A piece of text that one `read` returns. -/
structure IsPiece (piece : List UInt8) : Prop where
  ne_nil : piece ≠ []
  fits : piece.length ≤ lineBuffLen
  no_nul : ∀ c ∈ piece, c ≠ 0

/-- What a call does with pieces, of which only the last has a newline, behind its part
`last`.  It returns the line exactly if the others are terminated and the newline is not
in the last cell; it never returns less than the line, and has then read no more than
these pieces. -/
structure CallSpec (s : LineState) (init : List (List UInt8)) (last : List UInt8)
    (rest : List (List UInt8)) (result : LineEnd) (port : Port) : Prop where
  exact_iff :
    result = .returned (s.str ++ (init.flatten ++ (last ++ [newlineChar]))) ↔
      Terminated s.buffer init ∧ last.length + 1 < lineBuffLen
  length_le : ∀ str, result = .returned str →
    s.str.length + (init.flatten ++ (last ++ [newlineChar])).length ≤ str.length
  unread : ∀ str, result = .returned str → port.rx = Feed.ofPieces rest

section Call

variable {fd : Int} (hFd : 0 ≤ fd) {s : LineState}

include hFd

/-- The `read` of a piece. -/
theorem LineState.read_piece {piece : List UInt8} {pieces : List (List UInt8)}
    (hFits : piece.length ≤ lineBuffLen)
    (hRx : s.port.rx = Feed.ofPieces (piece :: pieces)) :
    s.port.read fd lineBuffLen = some (.ok piece,
      { s.port with rx := Feed.ofPieces pieces, reads := s.port.reads + 1 }) := by
  apply Port.read_open hFd
  rw [hRx, Feed.ofPieces_cons, Feed.read, if_pos hFits]

/-- A pass that reads a piece without a newline. -/
theorem readLinePass_inner {piece : List UInt8} {pieces : List (List UInt8)}
    (hPiece : IsPiece piece) (hInner : newlineChar ∉ piece)
    (hRx : s.port.rx = Feed.ofPieces (piece :: pieces)) :
    readLinePass fd s =
      if 0 ∈ s.buffer.drop piece.length then
        .again
          { buffer := store s.buffer 0 piece
            str := s.str ++ piece ++ cString (s.buffer.drop piece.length)
            port := { s.port with rx := Feed.ofPieces pieces, reads := s.port.reads + 1 } }
      else
        .leave (.outOfBounds,
          { s.port with rx := Feed.ofPieces pieces, reads := s.port.reads + 1 }) := by
  rw [readLinePass, s.read_piece hFd hPiece.fits hRx]
  dsimp only
  rw [if_neg hPiece.ne_nil, List.idxOf?_eq_none_iff.mpr hInner]
  dsimp only
  rw [appendBuffer_store hPiece.no_nul]
  by_cases hMem : 0 ∈ s.buffer.drop piece.length
  · rw [if_pos hMem, if_pos hMem]
  · rw [if_neg hMem, if_neg hMem]

/-- A pass that reads a piece with a newline. -/
theorem readLinePass_newline {last tail : List UInt8} {pieces : List (List UInt8)}
    (hPiece : IsPiece (last ++ newlineChar :: tail)) (hLast : newlineChar ∉ last)
    (hRx : s.port.rx = Feed.ofPieces ((last ++ newlineChar :: tail) :: pieces)) :
    readLinePass fd s = .leave
      (if last.length + 1 < lineBuffLen then
          .returned (s.str ++ (last ++ [newlineChar]))
        else
          .outOfBounds,
        { s.port with rx := Feed.ofPieces pieces, reads := s.port.reads + 1 }) := by
  rw [readLinePass, s.read_piece hFd hPiece.fits hRx]
  dsimp only
  rw [if_neg hPiece.ne_nil, idxOf?_newline hLast]
  dsimp only
  rw [newlineFound_store fun c hMem => hPiece.no_nul c (List.mem_append_left _ hMem)]

/-- By induction on the pieces in front of the newline. -/
theorem readLine_call {init : List (List UInt8)} {last tail : List UInt8}
    {rest : List (List UInt8)} (hInit : ∀ piece ∈ init, IsPiece piece)
    (hInner : ∀ piece ∈ init, newlineChar ∉ piece)
    (hPiece : IsPiece (last ++ newlineChar :: tail)) (hLast : newlineChar ∉ last)
    (hRx : s.port.rx =
      Feed.ofPieces (init ++ (last ++ newlineChar :: tail) :: rest)) :
    ∃ result port,
      Loop.run (readLinePass fd) _ (readLinePass_decreases fd) s = some (result, port) ∧
        CallSpec s init last rest result port := by
  induction init generalizing s with
  | nil =>
      refine ⟨_, _, Loop.run_leave (readLinePass_newline hFd hPiece hLast hRx), ?_⟩
      by_cases hRoom : last.length + 1 < lineBuffLen
      · rw [if_pos hRoom]
        refine ⟨iff_of_true rfl ⟨trivial, hRoom⟩, ?_, fun _ _ => rfl⟩
        intro str hStr
        simp [← LineEnd.returned.inj hStr]
      · rw [if_neg hRoom]
        exact ⟨iff_of_false nofun fun h => hRoom h.2, nofun, nofun⟩
  | cons piece init ih =>
      rw [List.forall_mem_cons] at hInit hInner
      have hPass := readLinePass_inner hFd hInit.1 hInner.1 hRx
      by_cases hMem : 0 ∈ s.buffer.drop piece.length
      · rw [if_pos hMem] at hPass
        rw [Loop.run_again hPass]
        obtain ⟨result, port, hRun, hExact, hLength, hUnread⟩ := @ih
          { buffer := store s.buffer 0 piece
            str := s.str ++ piece ++ cString (s.buffer.drop piece.length)
            port := { s.port with
              rx := Feed.ofPieces (init ++ (last ++ newlineChar :: tail) :: rest)
              reads := s.port.reads + 1 } } hInit.2 hInner.2 rfl
        refine ⟨result, port, hRun, ?_, ?_, hUnread⟩
        · rw [List.flatten_cons, Terminated]
          by_cases hZero : s.buffer[piece.length]? = some 0
          · rw [(cString_drop_eq_nil hZero).2, List.append_nil, List.append_assoc] at hExact
            rw [List.append_assoc, hExact, and_iff_right hZero]
          · -- what follows the piece makes the string too long
            have hPos := List.length_pos_iff.mpr (cString_drop_ne_nil hZero hMem)
            refine iff_of_false ?_ fun h => hZero h.1.1
            intro hResult
            have hLe := hLength _ hResult
            simp only [List.length_append] at hLe
            omega
        · intro str hStr
          have hLe := hLength str hStr
          simp only [List.flatten_cons, List.length_append] at hLe ⊢
          omega
      · rw [if_neg hMem] at hPass
        refine ⟨_, _, Loop.run_leave hPass, ?_, nofun, nofun⟩
        refine iff_of_false nofun ?_
        rintro ⟨⟨hZero, -⟩, -⟩
        exact hMem (cString_drop_eq_nil hZero).1

end Call

/-! ## Several calls -/

section Calls

variable {fd : Int} {stale : List UInt8} {stales : List (List UInt8)} {port : Port}
  {first stream : List UInt8}

theorem readLines_cons_eq_some_iff {strs : List (List UInt8)} {last : Port} :
    readLines fd (stale :: stales) port = some (strs, last) ↔
      ∃ str port' later, readLine fd stale port = some (.returned str, port') ∧
        readLines fd stales port' = some (later, last) ∧ strs = str :: later := by
  rw [readLines]
  constructor
  · intro hCalls
    split at hCalls
    · next str port' hCall =>
      split at hCalls
      · next later last' hLater =>
        obtain ⟨rfl, rfl⟩ := Prod.mk.inj (Option.some.inj hCalls)
        exact ⟨str, port', later, hCall, hLater, rfl⟩
      · cases hCalls
    · cases hCalls
  · rintro ⟨str, port', later, hCall, hLater, rfl⟩
    rw [hCall]
    dsimp only
    rw [hLater]

theorem readsFirstLines_nil_iff :
    ReadsFirstLines fd [] port stream ↔ port.rx.arriving = stream := by
  constructor
  · rintro ⟨port', hCalls, hUnread⟩
    obtain ⟨-, rfl⟩ := Prod.mk.inj (Option.some.inj hCalls)
    exact hUnread
  · intro hUnread
    exact ⟨port, rfl, hUnread⟩

variable (hStream : lines newlineChar (first ++ stream) = first :: lines newlineChar stream)

include hStream

theorem readsFirstLines_cons_iff :
    ReadsFirstLines fd (stale :: stales) port (first ++ stream) ↔
      ∃ port', readLine fd stale port = some (.returned first, port') ∧
        ReadsFirstLines fd stales port' stream := by
  rw [ReadsFirstLines, hStream, List.length_cons, List.take_succ_cons, List.flatten_cons]
  constructor
  · rintro ⟨last, hCalls, hUnread⟩
    obtain ⟨str, port', later, hCall, hLater, hStrs⟩ := readLines_cons_eq_some_iff.mp hCalls
    obtain ⟨rfl, rfl⟩ := List.cons.inj hStrs
    rw [List.append_assoc, List.append_right_inj] at hUnread
    exact ⟨port', hCall, last, hLater, hUnread⟩
  · rintro ⟨port', hCall, last, hLater, hUnread⟩
    refine ⟨last, readLines_cons_eq_some_iff.mpr ⟨_, port', _, hCall, hLater, rfl⟩, ?_⟩
    rw [List.append_assoc, hUnread]

/-- The first call reads the first line, and the others split the rest. -/
theorem splitsIntoLines_cons_iff :
    SplitsIntoLines fd (stale :: stales) port (first ++ stream) ↔
      port.rx.arriving = first ++ stream ∧
        ∃ port', readLine fd stale port = some (.returned first, port') ∧
          SplitsIntoLines fd stales port' stream := by
  constructor
  · intro hSplits
    refine ⟨readsFirstLines_nil_iff.mp (hSplits 0 (Nat.zero_le _)), ?_⟩
    obtain ⟨port', hCall, -⟩ :=
      (readsFirstLines_cons_iff hStream).mp (hSplits 1 (Nat.succ_le_succ (Nat.zero_le _)))
    refine ⟨port', hCall, fun j hLe => ?_⟩
    obtain ⟨port'', hCall', hLater⟩ :=
      (readsFirstLines_cons_iff hStream).mp (hSplits (j + 1) (Nat.succ_le_succ hLe))
    obtain ⟨-, rfl⟩ := Prod.mk.inj (Option.some.inj (hCall.symm.trans hCall'))
    exact hLater
  · rintro ⟨hUnread, port', hCall, hSplits⟩ j hLe
    cases j with
    | zero => exact readsFirstLines_nil_iff.mpr hUnread
    | succ j =>
        exact (readsFirstLines_cons_iff hStream).mpr
          ⟨port', hCall, hSplits j (Nat.le_of_succ_le_succ hLe)⟩

end Calls

/-- The pieces up to the first newline, and those behind it. -/
theorem exists_line_pieces {cut : List (List UInt8)} (hMem : newlineChar ∈ cut.flatten) :
    ∃ init last tail rest, cut = init ++ (last ++ newlineChar :: tail) :: rest ∧
      (∀ piece ∈ init, newlineChar ∉ piece) ∧ newlineChar ∉ last := by
  obtain ⟨piece, hPiece, hIn⟩ := List.mem_flatten.mp hMem
  obtain ⟨init, found, rest, rfl, hInit, hFound⟩ :=
    @exists_first _ (fun piece => newlineChar ∈ piece) _ cut ⟨piece, hPiece, hIn⟩
  obtain ⟨last, tail, rfl, hLast⟩ := List.eq_append_cons_of_mem hFound
  exact ⟨init, last, tail, rest, rfl, hInit, hLast⟩

section Pieces

variable {fd : Int} (hFd : 0 ≤ fd) {stale : List UInt8} {stales : List (List UInt8)}
  {port : Port} {init : List (List UInt8)} {last tail : List UInt8}
  {rest : List (List UInt8)}

/-- The first line of the pieces, and what comes behind it. -/
theorem lines_pieces (hInner : ∀ piece ∈ init, newlineChar ∉ piece)
    (hLast : newlineChar ∉ last) (stream : List UInt8) :
    lines newlineChar ((init.flatten ++ (last ++ [newlineChar])) ++ stream) =
      (init.flatten ++ (last ++ [newlineChar])) :: lines newlineChar stream := by
  have hFront : newlineChar ∉ init.flatten ++ last := by
    rw [List.mem_append, not_or]
    refine ⟨fun hMem => ?_, hLast⟩
    obtain ⟨piece, hPiece, hIn⟩ := List.mem_flatten.mp hMem
    exact hInner piece hPiece hIn
  have hLine := @lines_append _ _ newlineChar (init.flatten ++ last) stream hFront
  simpa only [List.append_assoc, List.singleton_append] using hLine

/-- The first line has one newline. -/
theorem count_line_pieces (hInner : ∀ piece ∈ init, newlineChar ∉ piece)
    (hLast : newlineChar ∉ last) :
    (init.flatten ++ (last ++ [newlineChar])).count newlineChar = 1 := by
  have hInit : newlineChar ∉ init.flatten := by
    intro hMem
    obtain ⟨piece, hPiece, hIn⟩ := List.mem_flatten.mp hMem
    exact hInner piece hPiece hIn
  rw [List.count_append, List.count_append, List.count_eq_zero_of_not_mem hInit,
    List.count_eq_zero_of_not_mem hLast, List.count_singleton_self]

theorem flatten_pieces : (init ++ (last ++ newlineChar :: tail) :: rest).flatten =
    (init.flatten ++ (last ++ [newlineChar])) ++ (tail ++ rest.flatten) := by
  simp only [List.flatten_append, List.flatten_cons, List.append_assoc,
    List.cons_append, List.nil_append]

include hFd

/-- The call for the first line. -/
theorem readLine_pieces
    (hPieces : ∀ piece ∈ init ++ (last ++ newlineChar :: tail) :: rest, IsPiece piece)
    (hInner : ∀ piece ∈ init, newlineChar ∉ piece) (hLast : newlineChar ∉ last)
    (hRx : port.rx = Feed.ofPieces (init ++ (last ++ newlineChar :: tail) :: rest)) :
    ∃ result port', readLine fd stale port = some (result, port') ∧
      CallSpec ⟨stale, [], port⟩ init last rest result port' := by
  rw [List.forall_mem_append, List.forall_mem_cons] at hPieces
  exact @readLine_call fd hFd ⟨stale, [], port⟩ init last tail rest hPieces.1 hInner
    hPieces.2.1 hLast hRx

/-- Pieces of the lines are read as the lines. -/
theorem splitsIntoLines_of_isCutAtLines {cut : List (List UInt8)}
    (hPieces : ∀ piece ∈ cut, IsPiece piece) (hRx : port.rx = Feed.ofPieces cut)
    (hCut : IsCutAtLines stales cut) : SplitsIntoLines fd stales port cut.flatten := by
  have hUnread : port.rx.arriving = cut.flatten := by rw [hRx, Feed.arriving_ofPieces]
  induction stales generalizing cut port with
  | nil =>
      intro j _
      rw [List.take_nil]
      exact readsFirstLines_nil_iff.mpr hUnread
  | cons stale stales ih =>
      obtain ⟨groups, later, hGroups, hLines⟩ := hCut
      cases hLines with
      | @cons _ pieces _ groups hFirst hLater =>
          obtain ⟨init, last, rfl, hInit, hPairwise, hLast, hRoom⟩ := hFirst
          have hCut : cut =
              init ++ (last ++ newlineChar :: []) :: (groups.flatten ++ later) := by
            rw [hGroups, List.flatten_cons, List.append_assoc, List.append_assoc,
              List.singleton_append]
          subst hCut
          have hInner : ∀ piece ∈ init, newlineChar ∉ piece := fun piece hMem =>
            (hInit piece hMem).1
          have hNul : ∀ piece ∈ init, ∀ c ∈ piece, c ≠ 0 := fun piece hMem =>
            (hPieces piece (List.mem_append_left _ hMem)).no_nul
          obtain ⟨result, port', hCall, hSpec⟩ :=
            @readLine_pieces fd hFd stale port init last [] _ hPieces hInner hLast hRx
          have hTerminated : Terminated stale init :=
            (terminated_iff hNul).mpr ⟨fun piece hMem => (hInit piece hMem).2, hPairwise⟩
          obtain rfl := hSpec.exact_iff.mpr ⟨hTerminated, hRoom⟩
          rw [flatten_pieces, List.nil_append] at hUnread ⊢
          refine (splitsIntoLines_cons_iff (lines_pieces hInner hLast _)).mpr
            ⟨hUnread, port', hCall, ?_⟩
          have hRx' := hSpec.unread _ rfl
          refine ih (fun piece hMem => ?_) hRx' ⟨groups, later, rfl, hLater⟩ ?_
          · exact hPieces piece (List.mem_append_right _ (List.mem_cons_of_mem _ hMem))
          · rw [hRx', Feed.arriving_ofPieces]

/-- If they are read as the lines, they are pieces of the lines. -/
theorem isCutAtLines_of_splitsIntoLines {cut : List (List UInt8)}
    (hPieces : ∀ piece ∈ cut, IsPiece piece) (hRx : port.rx = Feed.ofPieces cut)
    (hCount : stales.length ≤ cut.flatten.count newlineChar)
    (hSplits : SplitsIntoLines fd stales port cut.flatten) : IsCutAtLines stales cut := by
  induction stales generalizing cut port with
  | nil => exact ⟨[], cut, rfl, .nil⟩
  | cons stale stales ih =>
      rw [List.length_cons] at hCount
      obtain ⟨init, last, tail, rest, rfl, hInner, hLast⟩ :=
        exists_line_pieces (List.count_pos_iff.mp (Nat.lt_of_lt_of_le (Nat.succ_pos _) hCount))
      obtain ⟨result, port', hCall, hSpec⟩ :=
        @readLine_pieces fd hFd stale port init last tail rest hPieces hInner hLast hRx
      rw [flatten_pieces] at hSplits hCount
      obtain ⟨-, port'', hCall', hLater⟩ :=
        (splitsIntoLines_cons_iff (lines_pieces hInner hLast _)).mp hSplits
      obtain ⟨rfl, rfl⟩ := Prod.mk.inj (Option.some.inj (hCall.symm.trans hCall'))
      obtain ⟨hTerminated, hRoom⟩ := hSpec.exact_iff.mp rfl
      have hRx' := hSpec.unread _ rfl
      -- nothing behind the newline has been lost
      have hUnread := readsFirstLines_nil_iff.mp (hLater 0 (Nat.zero_le _))
      rw [hRx', Feed.arriving_ofPieces, List.self_eq_append_left] at hUnread
      subst hUnread
      rw [List.nil_append] at hLater hCount
      have hNul : ∀ piece ∈ init, ∀ c ∈ piece, c ≠ 0 := fun piece hMem =>
        (hPieces piece (List.mem_append_left _ hMem)).no_nul
      obtain ⟨hZero, hPairwise⟩ := (terminated_iff hNul).mp hTerminated
      rw [List.count_append, count_line_pieces hInner hLast] at hCount
      obtain ⟨groups, later, rfl, hGroups⟩ := ih (fun piece hMem => hPieces piece
        (List.mem_append_right _ (List.mem_cons_of_mem _ hMem))) hRx' (by omega) hLater
      refine ⟨(init ++ [last ++ [newlineChar]]) :: groups, later, ?_, .cons ?_ hGroups⟩
      · rw [List.flatten_cons, List.append_assoc, List.append_assoc, List.singleton_append]
      · exact ⟨init, last, rfl, fun piece hMem => ⟨hInner piece hMem, hZero piece hMem⟩,
          hPairwise, hLast, hRoom⟩

end Pieces

/-- Successive calls split a stream into its lines exactly if it is cut behind the
newlines, none of which is in the last cell of the buffer, and every other piece finds a
NUL behind it that no earlier piece of the line has been stored over. -/
theorem readLines_split_iff {fd : Int} (hFd : 0 ≤ fd) {stales cut : List (List UInt8)}
    {stream : List UInt8} {port : Port} (hRx : port.rx = Feed.ofPieces cut)
    (hCut : IsCut cut stream) (hFits : ∀ piece ∈ cut, piece.length ≤ lineBuffLen)
    (hNul : ∀ c ∈ stream, c ≠ 0) (hCount : stales.length ≤ stream.count newlineChar) :
    SplitsIntoLines fd stales port stream ↔ IsCutAtLines stales cut := by
  obtain ⟨rfl, hNe⟩ := hCut
  have hPieces : ∀ piece ∈ cut, IsPiece piece := fun piece hMem =>
    ⟨hNe piece hMem, hFits piece hMem, fun c hIn =>
      hNul c (List.mem_flatten.mpr ⟨piece, hMem, hIn⟩)⟩
  exact ⟨isCutAtLines_of_splitsIntoLines hFd hPieces hRx hCount,
    splitsIntoLines_of_isCutAtLines hFd hPieces hRx⟩

/-- `"hi\n"` in two pieces, in a buffer of zeros, and `"yo\n"` in one, in a buffer that
has no NUL. -/
theorem readLines_split_hi_yo :
    SplitsIntoLines 3 [List.replicate lineBuffLen 0, List.replicate lineBuffLen 120]
      (Port.fresh (Feed.ofPieces [[104], [105, 10], [121, 111, 10]]) [])
      [104, 105, 10, 121, 111, 10] := by
  have hFd : (0 : Int) ≤ 3 := by decide
  have hNe : ∀ piece ∈ [[104], [105, 10], [121, 111, 10]], piece ≠ ([] : List UInt8) := by
    decide
  have hFits : ∀ piece ∈ [[104], [105, 10], [121, 111, (10 : UInt8)]],
      piece.length ≤ lineBuffLen := by decide
  have hNul : ∀ c ∈ [104, 105, 10, 121, 111, 10], c ≠ (0 : UInt8) :=
    no_nul_of_not_mem (by decide)
  have hCut : IsCut [[104], [105, 10], [121, 111, 10]]
      ([104, 105, 10, 121, 111, 10] : List UInt8) := ⟨rfl, hNe⟩
  refine (readLines_split_iff hFd rfl hCut hFits hNul (by decide)).mpr ?_
  refine ⟨[[[104], [105, 10]], [[121, 111, 10]]], [], rfl, .cons ?_ (.cons ?_ .nil)⟩
  · exact ⟨[[104]], [105], rfl, by decide, List.pairwise_singleton _ _, by decide,
      by decide⟩
  · exact ⟨[], [121, 111], rfl, by decide, .nil, by decide, by decide⟩

/-- Of two lines that arrive in one piece the second is lost. -/
theorem not_readLines_split :
    ¬ SplitsIntoLines 3 [List.replicate lineBuffLen 0, List.replicate lineBuffLen 0]
      (Port.fresh (Feed.ofPieces [[97, 10, 98, 10]]) []) [97, 10, 98, 10] := by
  intro hSplits
  have hPiece : IsPiece [97, 10, 98, 10] :=
    ⟨by decide, by decide, no_nul_of_not_mem (by decide)⟩
  obtain ⟨groups, rest, hGroups, hLines⟩ := @isCutAtLines_of_splitsIntoLines 3 (by decide)
    _ _ [[97, 10, 98, 10]] (List.forall_mem_singleton.mpr hPiece) rfl (by decide) hSplits
  -- each of the two lines would need a piece of its own
  cases hLines with
  | cons hFirst hLater =>
      cases hLater with
      | cons hSecond hNil =>
          obtain ⟨init, last, rfl, -⟩ := hFirst
          obtain ⟨init', last', rfl, -⟩ := hSecond
          have hLength := congrArg List.length hGroups
          simp only [List.flatten_cons, List.length_append, List.length_singleton] at hLength
          omega

end Serial
end CubeSatComm
