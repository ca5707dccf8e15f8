import CubeSatComm.Loris.ReedSolomon
import Mathlib.Data.List.Induction

/-!
# The antenna module: initialisation

`antenna_init` and the four transfer operations that work on the descriptor it has
stored in the global `uartfd`.  A run is a sequence of such calls from the start of
the program, where `uartfd` is `-1`.

`antenna_write` and `antenna_read` look at `uartfd` before they use it.
`antenna_write_rs` and `antenna_read_rs` do not, and rely on `write` and `read` to
fail on the descriptor `-1`.  A call of `antenna_init` that fails behind its `open`
leaves the open descriptor in `uartfd`.
-/

namespace CubeSatComm
namespace Loris

open Lib CInteger Posix

/-- What the system calls of `antenna_init` return: a descriptor, or `-1` of `open`,
and the results of `tcgetattr` and `tcsetattr`. -/
structure InitOutcome where
  opened : Option Nat
  tcgetattr : Int
  tcsetattr : Int

/-- `antenna_init`: what it returns, and `uartfd`. -/
def antennaInit (outcome : InitOutcome) : Int × Int :=
  match outcome.opened with
  | none => (-1, -1)
  | some fd =>
      if outcome.tcgetattr < 0 then
        (-1, fd)
      else if outcome.tcsetattr ≠ 0 then
        (-1, fd)
      else
        -- the function has no `return` here
        (0, fd)

/-- `antenna_write` -/
def antennaWrite (uartfd : Int) (data : List UInt8) (port : Port) : Int × Port :=
  if uartfd = -1 then (-1, port) else antennaWriteFd uartfd data port

/-- `antenna_write_rs` -/
def antennaWriteRs (fuel : Nat) (codec : ReedSolomon) (uartfd : Int)
    (data : List UInt8) (port : Port) : Option (Int × Port) :=
  antennaWriteRsFd fuel codec uartfd data port

/-- `antenna_read` -/
def antennaRead (uartfd : Int) (buffer : List UInt8) (readLen : Nat)
    (readMode : Int) (port : Port) : Option ReadReturn :=
  if uartfd = -1 then
    some ⟨-1, buffer, port⟩
  else
    antennaReadFd uartfd buffer readLen readMode port

/-- `antenna_read_rs` -/
def antennaReadRs (codec : ReedSolomon) (uartfd : Int) (buffer : List UInt8)
    (readLen : Nat) (readMode : Int) (port : Port) : Option ReadReturn :=
  antennaReadRsFd codec uartfd buffer readLen readMode port

/-- A transfer operation with its arguments. -/
inductive Transfer where
  | write (data : List UInt8)
  | writeRs (data : List UInt8)
  | read (buffer : List UInt8) (readLen : Nat) (readMode : Int)
  | readRs (buffer : List UInt8) (readLen : Nat) (readMode : Int)

/-- The arguments have a length that is not zero and that a `size_t` holds. -/
def Transfer.NonzeroLength : Transfer → Prop
  | write data => 0 < data.length ∧ data.length < sizeRange
  | writeRs data => 0 < data.length ∧ data.length < sizeRange
  | read _ readLen _ => 0 < readLen ∧ readLen < sizeRange
  | readRs _ readLen _ => 0 < readLen ∧ readLen < sizeRange

/-- `op.Returns codec uartfd port ret port'`: the operation returns `ret` and leaves
`port'`. -/
def Transfer.Returns (codec : ReedSolomon) (uartfd : Int) (port : Port)
    (ret : Int) (port' : Port) : Transfer → Prop
  | write data => antennaWrite uartfd data port = (ret, port')
  | writeRs data =>
      ∃ fuel, antennaWriteRs fuel codec uartfd data port = some (ret, port')
  | read buffer readLen readMode =>
      ∃ memory, antennaRead uartfd buffer readLen readMode port =
        some ⟨ret, memory, port'⟩
  | readRs buffer readLen readMode =>
      ∃ memory, antennaReadRs codec uartfd buffer readLen readMode port =
        some ⟨ret, memory, port'⟩

/-- A call of a run. -/
inductive AntennaCall where
  | init (outcome : InitOutcome)
  | transfer (op : Transfer)

/-- The state of the module and of the descriptors behind it. -/
structure AntennaState where
  uartfd : Int
  port : Port

/-- One call. -/
inductive AntennaStep (codec : ReedSolomon) :
    AntennaCall → AntennaState → AntennaState → Prop where
  | init (outcome : InitOutcome) (s : AntennaState) :
      AntennaStep codec (.init outcome) s ⟨(antennaInit outcome).2, s.port⟩
  | transfer {op : Transfer} {s : AntennaState} {ret : Int} {port : Port} :
      op.NonzeroLength → op.Returns codec s.uartfd s.port ret port →
      AntennaStep codec (.transfer op) s ⟨s.uartfd, port⟩

/-- `AntennaRun codec port calls s`: the calls `calls`, made from the start of the
program, lead to `s`. -/
inductive AntennaRun (codec : ReedSolomon) (port : Port) :
    List AntennaCall → AntennaState → Prop where
  | start : AntennaRun codec port [] ⟨-1, port⟩
  | call {calls : List AntennaCall} {call : AntennaCall} {s s' : AntennaState} :
      AntennaRun codec port calls s → AntennaStep codec call s s' →
      AntennaRun codec port (calls ++ [call]) s'

/-- The outcome of the most recent `antenna_init`. -/
def lastInit (calls : List AntennaCall) : Option InitOutcome :=
  calls.foldl
    (fun last call =>
      match call with
      | .init outcome => some outcome
      | .transfer _ => last)
    none

/-- Some `antenna_init` has been called and the most recent one has succeeded. -/
def Initialized (calls : List AntennaCall) : Prop :=
  ∃ outcome, lastInit calls = some outcome ∧ (antennaInit outcome).1 = 0

/-- The most recent `antenna_init`, if any has been called, has failed to open the
device. -/
def OpenFailed (calls : List AntennaCall) : Prop :=
  ∀ outcome, lastInit calls = some outcome → outcome.opened = none

/-- The operation returns a negative value and performs no `read` or `write` on a
descriptor. -/
def Guarded (codec : ReedSolomon) (s : AntennaState) (op : Transfer) : Prop :=
  ∃ ret, op.Returns codec s.uartfd s.port ret s.port ∧ ret < 0

/-- An operation that `antenna_read_fd` refuses because of its mode. -/
def Transfer.RefusedMode : Transfer → Prop
  | write _ => False
  | writeRs _ => False
  | read _ _ readMode => ¬ ValidMode readMode
  | readRs _ _ readMode => ¬ ValidMode readMode

/-- The operation is `antenna_write_rs`. -/
def Transfer.IsWriteRs : Transfer → Prop
  | writeRs _ => True
  | _ => False

/-! ## What `uartfd` holds -/

theorem lastInit_append (calls : List AntennaCall) (call : AntennaCall) :
    lastInit (calls ++ [call]) =
      match call with
      | .init outcome => some outcome
      | .transfer _ => lastInit calls := by
  rw [lastInit, List.foldl_append]
  rfl

/-- The most recent `antenna_init` is one of the calls. -/
theorem mem_of_lastInit {calls : List AntennaCall} {outcome : InitOutcome}
    (hLast : lastInit calls = some outcome) : AntennaCall.init outcome ∈ calls := by
  induction calls using List.reverseRecOn with
  | nil => cases hLast
  | append_singleton calls call ih =>
      rw [lastInit_append] at hLast
      rw [List.mem_append, List.mem_singleton]
      cases call with
      | init outcome' =>
          right
          rw [Option.some.inj hLast]
      | transfer op => exact .inl (ih hLast)

/-- `uartfd` is what the most recent `antenna_init` has stored there. -/
theorem AntennaRun.uartfd_eq {codec : ReedSolomon} {port : Port}
    {calls : List AntennaCall} {s : AntennaState}
    (hRun : AntennaRun codec port calls s) :
    s.uartfd = match lastInit calls with
      | none => -1
      | some outcome => (antennaInit outcome).2 := by
  induction hRun with
  | start => rfl
  | call hRun hStep ih =>
      cases hStep with
      | init outcome s => rw [lastInit_append]
      | transfer hLength hReturns =>
          rw [lastInit_append]
          exact ih

/-- While the module is not initialised, `uartfd` is `-1` if the most recent
`antenna_init` failed to open the device, and otherwise an open descriptor. -/
theorem AntennaRun.uartfd_cases {codec : ReedSolomon} {port : Port}
    {calls : List AntennaCall} {s : AntennaState}
    (hRun : AntennaRun codec port calls s) :
    (OpenFailed calls ∧ s.uartfd = -1) ∨ (¬ OpenFailed calls ∧ 0 ≤ s.uartfd) := by
  have hFd := hRun.uartfd_eq
  unfold OpenFailed
  cases hLast : lastInit calls with
  | none =>
      left
      rw [hLast] at hFd
      refine ⟨?_, hFd⟩
      intro outcome hSome
      cases hSome
  | some outcome =>
      rw [hLast] at hFd
      dsimp only at hFd
      unfold antennaInit at hFd
      cases hOpened : outcome.opened with
      | none =>
          left
          rw [hOpened] at hFd
          refine ⟨?_, hFd⟩
          intro outcome' hSome
          obtain rfl := Option.some.inj hSome
          exact hOpened
      | some fd =>
          right
          rw [hOpened] at hFd
          constructor
          · intro hFailed
            rw [hFailed outcome rfl] at hOpened
            cases hOpened
          · dsimp only at hFd
            split at hFd
            · rw [hFd]
              exact Int.natCast_nonneg fd
            · split at hFd
              · rw [hFd]
                exact Int.natCast_nonneg fd
              · rw [hFd]
                exact Int.natCast_nonneg fd

/-! ## What the operations do with it -/

section Bad

variable {codec : ReedSolomon} {fd : Int}

/-- On the descriptor `-1` a sequence of writes reports no error. -/
theorem sendAll_bad (hFd : fd < 0) {requests : List (List UInt8)}
    (hLengths : ∀ request ∈ requests, request.length < sizeRange) (port : Port) :
    sendAll fd requests port = (0, port) := by
  induction requests with
  | nil => rfl
  | cons request requests ih =>
      rw [List.forall_mem_cons] at hLengths
      rw [sendAll, antennaWriteFd_bad hFd hLengths.1]
      dsimp only
      rw [if_neg (by decide), ih hLengths.2]

/-- A sequence of writes on an open descriptor leaves its trace. -/
theorem written_lt_of_sendAll (hFd : 0 ≤ fd) {requests : List (List UInt8)}
    (hLengths : ∀ request ∈ requests, request.length < sizeRange) (port : Port) :
    port.written.length ≤ (sendAll fd requests port).2.written.length ∧
      (requests ≠ [] →
        port.written.length < (sendAll fd requests port).2.written.length) := by
  induction requests generalizing port with
  | nil => exact ⟨Nat.le_refl _, fun h => absurd rfl h⟩
  | cons request requests ih =>
      rw [List.forall_mem_cons] at hLengths
      rw [sendAll, antennaWriteFd_open hFd hLengths.1]
      by_cases hShort : port.nextOutcome.Short request.length
      · simp [hShort]
      · have hRest := (ih hLengths.2 { port with
          tx := port.tx.tail
          written := port.written ++ [port.nextOutcome.record request] }).1
        simp only [List.length_append, List.length_singleton] at hRest
        simp only [hShort, if_false]
        rw [if_neg (by decide)]
        omega

/-- The decoding loop on an open descriptor reads from it. -/
theorem rsReadLoop_reads (hFd : 0 ≤ fd) {readLen : Nat} {readMode : Int}
    (hMode : ValidMode readMode) {s : RsReadState} {r : ReadReturn}
    (hRun : Loop.run (rsReadPass codec fd readLen readMode) _
      (rsReadPass_decreases codec fd readLen readMode) s = some r) :
    s.port.reads < r.port.reads := by
  have hBlock : ∀ {port : Port} {r : ReadReturn},
      rsReadBlock fd readMode port = some r → port.reads < r.port.reads :=
    fun hRead => antennaReadFd_reads hFd hMode (by decide) hRead
  refine Loop.run_relates (motive := fun (s : RsReadState) (r : ReadReturn) =>
    s.port.reads < r.port.reads) ?_ ?_ hRun
  · intro s r hPass
    unfold rsReadPass at hPass
    split at hPass
    · cases hPass
    · next hRead =>
      have hReads := hBlock hRead
      split at hPass
      · obtain rfl := Pass.leave.inj hPass
        exact hReads
      · split at hPass
        · obtain rfl := Pass.leave.inj hPass
          exact hReads
        · dsimp only at hPass
          split at hPass
          · cases hPass
          · obtain rfl := Pass.leave.inj hPass
            exact hReads
  · intro s s' r hPass ih
    unfold rsReadPass at hPass
    split at hPass
    · cases hPass
    · next hRead =>
      have hReads := hBlock hRead
      split at hPass
      · cases hPass
      · split at hPass
        · cases hPass
        · dsimp only at hPass
          split at hPass
          · obtain rfl := Pass.again.inj hPass
            exact Nat.lt_trans hReads ih
          · cases hPass

end Bad

section Guard

variable {codec : ReedSolomon} {s : AntennaState}
  (hFd : s.uartfd = -1 ∨ 0 ≤ s.uartfd)

include hFd

theorem guarded_write_iff {data : List UInt8} (hLength : data.length < sizeRange) :
    Guarded codec s (.write data) ↔ s.uartfd = -1 := by
  constructor
  · rintro ⟨ret, hReturns, -⟩
    rcases hFd with hBad | hOpen
    · exact hBad
    · -- the `write` would be in the log
      have hWrite : antennaWriteFd s.uartfd data s.port = (ret, s.port) := by
        have hCall : antennaWrite s.uartfd data s.port = (ret, s.port) := hReturns
        rwa [antennaWrite, if_neg (by omega)] at hCall
      rw [antennaWriteFd_open hOpen hLength] at hWrite
      have hLog := congrArg (fun result => result.2.written.length) hWrite
      simp at hLog
  · intro hBad
    refine ⟨-1, ?_, by decide⟩
    show antennaWrite s.uartfd data s.port = (-1, s.port)
    rw [antennaWrite, if_pos hBad]

/-- `antenna_write_rs` is never guarded: on the descriptor `-1` it returns `0`. -/
theorem not_guarded_writeRs (hCreated : codec.created = true)
    (hEncodes : ∀ msg, ∃ block, codec.encode msg = some block)
    (data : List UInt8) : ¬ Guarded codec s (.writeRs data) := by
  rintro ⟨ret, ⟨fuel, hReturns⟩, hNegative⟩
  rw [antennaWriteRs, antennaWriteRsFd, if_pos hCreated] at hReturns
  obtain ⟨encoded, offset', hBlocks, hEnds⟩ := rsWriteLoop_cases hReturns
  rcases hEnds with ⟨hSend, -⟩ | ⟨-, -, -, hRefused⟩ | ⟨-, rfl, -⟩
  · rcases hFd with hBad | hOpen
    · rw [sendAll_bad (by omega) hBlocks.length_lt] at hSend
      have hRet : (0 : Int) = -1 := congrArg Prod.fst hSend
      exact absurd hRet (by decide)
    · have hLog := written_lt_of_sendAll hOpen hBlocks.length_lt s.port
      rw [hSend] at hLog
      have hNil : encoded = [] := by
        by_contra hNe
        exact absurd (hLog.2 hNe) (Nat.lt_irrefl _)
      rw [hNil] at hSend
      have hRet : (0 : Int) = -1 := congrArg Prod.fst hSend
      exact absurd hRet (by decide)
  · obtain ⟨block, hBlock⟩ := hEncodes (rsMessage data offset')
    rw [hRefused] at hBlock
    cases hBlock
  · exact absurd hNegative (by decide)

theorem guarded_read_iff {buffer : List UInt8} {readLen : Nat} {readMode : Int}
    (hLength : 0 < readLen) :
    Guarded codec s (.read buffer readLen readMode) ↔
      s.uartfd = -1 ∨ ¬ ValidMode readMode := by
  constructor
  · rintro ⟨ret, ⟨memory, hReturns⟩, -⟩
    by_contra hNot
    rw [not_or, not_not] at hNot
    have hOpen := hFd.resolve_left hNot.1
    rw [antennaRead, if_neg hNot.1] at hReturns
    exact absurd (antennaReadFd_reads hOpen hNot.2 hLength hReturns)
      (Nat.lt_irrefl _)
  · intro hIdle
    refine ⟨-1, ⟨buffer, ?_⟩, by decide⟩
    by_cases hBad : s.uartfd = -1
    · rw [antennaRead, if_pos hBad]
    · rw [antennaRead, if_neg hBad]
      exact antennaReadFd_idle (.inr (hIdle.resolve_left hBad)) hLength buffer s.port

theorem guarded_readRs_iff (hCreated : codec.created = true) {buffer : List UInt8}
    {readLen : Nat} {readMode : Int} :
    Guarded codec s (.readRs buffer readLen readMode) ↔
      s.uartfd = -1 ∨ ¬ ValidMode readMode := by
  constructor
  · rintro ⟨ret, ⟨memory, hReturns⟩, -⟩
    by_contra hNot
    rw [not_or, not_not] at hNot
    have hOpen := hFd.resolve_left hNot.1
    rw [antennaReadRs, antennaReadRsFd, if_pos hCreated] at hReturns
    exact absurd (rsReadLoop_reads hOpen hNot.2 hReturns) (Nat.lt_irrefl _)
  · intro hIdle
    have hIdle' : s.uartfd < 0 ∨ ¬ ValidMode readMode := by
      rcases hIdle with hBad | hMode
      · left
        omega
      · exact .inr hMode
    have hBlock : rsReadBlock s.uartfd readMode s.port =
        some ⟨-1, List.replicate rsBlockLen 0, s.port⟩ :=
      antennaReadFd_idle hIdle' (by decide) _ _
    have hPass : rsReadPass codec s.uartfd readLen readMode ⟨buffer, 0, s.port⟩ =
        .leave ⟨-1, buffer, s.port⟩ := by
      unfold rsReadPass
      rw [hBlock]
      dsimp only
      rw [if_pos (by decide)]
    refine ⟨-1, ⟨buffer, ?_⟩, by decide⟩
    rw [antennaReadRs, antennaReadRsFd, if_pos hCreated, Loop.run_leave hPass]

end Guard

/-- Which operations are guarded while the module is not initialised, in every run:
if the most recent `antenna_init` failed to open the device, or none has been called,
all but `antenna_write_rs`; otherwise only reads with a mode that is refused.  So in
every run whose failing `antenna_init` calls all fail to open the device, all but
`antenna_write_rs` are guarded. -/
theorem guarded_iff {codec : ReedSolomon} (hCreated : codec.created = true)
    (hEncodes : ∀ msg, ∃ block, codec.encode msg = some block) (port : Port)
    (calls : List AntennaCall) (s : AntennaState)
    (hRun : AntennaRun codec port calls s) (hNot : ¬ Initialized calls) :
    (∀ op : Transfer, op.NonzeroLength →
      (Guarded codec s op ↔
        (OpenFailed calls ∧ ¬ op.IsWriteRs) ∨ op.RefusedMode)) ∧
    ((∀ outcome, AntennaCall.init outcome ∈ calls → (antennaInit outcome).1 ≠ 0 →
        outcome.opened = none) →
      ∀ op : Transfer, op.NonzeroLength → ¬ op.IsWriteRs →
        Guarded codec s op) := by
  have hCases := hRun.uartfd_cases
  have hFd : s.uartfd = -1 ∨ 0 ≤ s.uartfd := by
    rcases hCases with ⟨-, hBad⟩ | ⟨-, hOpen⟩
    · exact .inl hBad
    · exact .inr hOpen
  have hFailed : OpenFailed calls ↔ s.uartfd = -1 := by
    rcases hCases with ⟨hFailed, hBad⟩ | ⟨hOpened, hOpen⟩
    · exact ⟨fun _ => hBad, fun _ => hFailed⟩
    · constructor
      · intro hFailed
        exact absurd hFailed hOpened
      · intro hBad
        omega
  have hIff : ∀ op : Transfer, op.NonzeroLength →
      (Guarded codec s op ↔
        (OpenFailed calls ∧ ¬ op.IsWriteRs) ∨ op.RefusedMode) := by
    intro op hLength
    rw [hFailed]
    cases op with
    | write data =>
        rw [guarded_write_iff hFd hLength.2]
        simp [Transfer.IsWriteRs, Transfer.RefusedMode]
    | writeRs data =>
        have hNever := not_guarded_writeRs hFd hCreated hEncodes data
        simp [hNever, Transfer.IsWriteRs, Transfer.RefusedMode]
    | read buffer readLen readMode =>
        rw [guarded_read_iff hFd hLength.1]
        simp [Transfer.IsWriteRs, Transfer.RefusedMode]
    | readRs buffer readLen readMode =>
        rw [guarded_readRs_iff hFd hCreated]
        simp [Transfer.IsWriteRs, Transfer.RefusedMode]
  refine ⟨hIff, ?_⟩
  intro hSteps op hLength hOther
  refine (hIff op hLength).mpr (.inl ⟨?_, hOther⟩)
  -- the most recent call has failed, and so has its `open`
  intro outcome hLast
  apply hSteps outcome (mem_of_lastInit hLast)
  intro hZero
  exact hNot ⟨outcome, hLast, hZero⟩

/-- A codec that refuses nothing: what does not fit into a block is cut off. -/
def lenientCodec : ReedSolomon where
  created := true
  encode msg :=
    some (msg.take (rsBlockLen - rsNumRoots) ++ List.replicate rsNumRoots 0)
  decode block := some ((block.take rsBlockLen).take (block.length - rsNumRoots))
  encode_length_le := by
    intro msg block hEncode
    obtain rfl := Option.some.inj hEncode
    simp only [List.length_append, List.length_take, List.length_replicate,
      rsBlockLen, rsNumRoots]
    omega
  decode_length_le := by
    intro block msg hDecode
    obtain rfl := Option.some.inj hDecode
    simp only [List.length_take, rsBlockLen]
    omega

/-- A device that is opened once, and cannot be opened the second time. -/
theorem guarded_open_fails :
    let port : Port := Port.fresh [] []
    let calls : List AntennaCall := [.init ⟨some 3, 0, 0⟩, .init ⟨none, 0, 0⟩]
    let s : AntennaState := ⟨-1, port⟩
    AntennaRun lenientCodec port calls s ∧
      Guarded lenientCodec s (.write [65]) ∧
      Guarded lenientCodec s (.read [] 1 readModeUntil) ∧
      Guarded lenientCodec s (.readRs [] 1 readModeUntil) := by
  intro port calls s
  have hRun : AntennaRun lenientCodec port calls s :=
    .call (.call .start (.init ⟨some 3, 0, 0⟩ _)) (.init ⟨none, 0, 0⟩ _)
  have hNot : ¬ Initialized calls := by
    rintro ⟨outcome, hLast, hZero⟩
    cases hLast
    exact absurd hZero (by decide)
  have hOpen : ∀ outcome, AntennaCall.init outcome ∈ calls → (antennaInit outcome).1 ≠ 0 →
      outcome.opened = none := by
    intro outcome hMem hFails
    simp only [calls, List.mem_cons, AntennaCall.init.injEq, List.not_mem_nil,
      or_false] at hMem
    rcases hMem with rfl | rfl
    · exact absurd rfl hFails
    · rfl
  have hGuarded := (guarded_iff rfl (fun msg => ⟨_, rfl⟩) port calls s hRun hNot).2 hOpen
  refine ⟨hRun, ?_, ?_, ?_⟩
  · exact hGuarded (.write [65]) ⟨by decide, by decide⟩ (fun h => h)
  · exact hGuarded (.read [] 1 readModeUntil) ⟨by decide, by decide⟩ (fun h => h)
  · exact hGuarded (.readRs [] 1 readModeUntil) ⟨by decide, by decide⟩ (fun h => h)

/-- `antenna_write_rs` before the first `antenna_init`, and `antenna_write` after one
that fails in `tcgetattr`. -/
theorem not_guarded_runs :
    (AntennaRun lenientCodec (Port.fresh [] []) [] ⟨-1, Port.fresh [] []⟩ ∧
      ¬ Initialized [] ∧
      ¬ Guarded lenientCodec ⟨-1, Port.fresh [] []⟩ (.writeRs [65])) ∧
    (AntennaRun lenientCodec (Port.fresh [] []) [.init ⟨some 3, -1, 0⟩]
        ⟨3, Port.fresh [] []⟩ ∧
      ¬ Initialized [.init ⟨some 3, -1, 0⟩] ∧
      ¬ Guarded lenientCodec ⟨3, Port.fresh [] []⟩ (.write [65])) := by
  refine ⟨⟨.start, ?_, ?_⟩, ⟨?_, ?_, ?_⟩⟩
  · rintro ⟨outcome, hLast, -⟩
    cases hLast
  · exact not_guarded_writeRs (.inl rfl) rfl (fun msg => ⟨_, rfl⟩) [65]
  · exact .call .start (.init ⟨some 3, -1, 0⟩ _)
  · rintro ⟨outcome, hLast, hZero⟩
    obtain rfl := Option.some.inj hLast
    exact absurd hZero (by decide)
  · rw [guarded_write_iff (.inr (by decide)) (by decide)]
    decide

end Loris
end CubeSatComm
