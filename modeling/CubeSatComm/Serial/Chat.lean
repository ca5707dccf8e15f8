import CubeSatComm.Lib.CInteger
import CubeSatComm.Lib.Loop
import CubeSatComm.Posix.Port
import CubeSatComm.Posix.Text

/-!
# The serial chat

`master.c` and `slave.c`: the creation of the two pseudo-terminal devices, and the
loops in which messages are received and sent, four of each kind.  They differ in the
texts that they print and in how their thread ends; only `master_listen_cpp` has a loop
of its own, which compares the buffer with `"quit\n"` before it terminates the string.

Every loop tests its buffer before it puts anything there, so what an uninitialised
buffer holds is an argument of the functions.
-/

namespace CubeSatComm
namespace Serial

open Lib CInteger Posix

/-- `buff_len` -/
def buffLen : Nat := 1024

theorem buffLen_pos : 0 < buffLen := by decide

/-- `"quit\n"` -/
def quitLine : List UInt8 := [113, 117, 105, 116, 10]

/-- A call of `printf`: its format, and the argument of its `%s`, if it has one. -/
structure Printed where
  format : String
  argument : List UInt8
  deriving DecidableEq, Repr

/-- How a thread ends. -/
inductive ThreadEnd where
  | exit (code : Int)
  | pthreadExit
  | return
  deriving DecidableEq, Repr

/-! ## The devices -/

/-- The file static variables `status` and `port` of `master.c` or `slave.c`. -/
structure ChatDevice where
  status : Int
  port : Int
  created : status = 1 → 0 ≤ port

/-- The device of a program that has just been started. -/
def ChatDevice.closed : ChatDevice where
  status := 0
  port := -1
  created := nofun

/-- What the system calls of `master_create` return: a descriptor, or `-1` of `getpt`,
and the results of `grantpt` and `unlockpt`. -/
structure MasterOutcome where
  getpt : Option Nat
  grantpt : Int
  unlockpt : Int

/-- `master_create` in a program that has just been started. -/
def masterCreate (outcome : MasterOutcome) : Int × ChatDevice :=
  match outcome.getpt with
  | none => (-1, ChatDevice.closed)
  | some fd =>
      if outcome.grantpt = -1 then
        (-1, ⟨0, fd, nofun⟩)
      else if outcome.unlockpt = -1 then
        (-1, ⟨0, fd, nofun⟩)
      else
        (0, ⟨1, fd, fun _ => Int.natCast_nonneg fd⟩)

/-- `slave_create` in a program that has just been started: whether `device` is given,
and what `open` returns. -/
def slaveCreate (device : Bool) (opened : Option Nat) : Int × ChatDevice :=
  if device then
    match opened with
    | none => (-1, ChatDevice.closed)
    | some fd => (0, ⟨1, fd, fun _ => Int.natCast_nonneg fd⟩)
  else
    (-1, ChatDevice.closed)

/-- A master device that has been created. -/
def createdMaster : ChatDevice := (masterCreate ⟨some 3, 0, 0⟩).2

/-- An array of `buff_len` times the same byte. -/
def filledBuffer (byte : UInt8) : List UInt8 := List.replicate buffLen byte

theorem length_filledBuffer (byte : UInt8) : (filledBuffer byte).length = buffLen :=
  List.length_replicate

/-! ## Receiving -/

/-- The texts of a loop that receives. -/
structure ListenTexts where
  notCreated : String
  failed : String
  display : String

/-- The texts of `master_listen` and `master_listen_cpp`. -/
def masterListenTexts : ListenTexts where
  notCreated := "[!] Cannot receive messages before master device is created.\n"
  failed := "[(!)] Failed to read message from slave.\n"
  display := "\r[Slave]>> %s\n\n>> "

/-- The texts of `slave_listen` and `slave_listen_cpp`. -/
def slaveListenTexts : ListenTexts where
  notCreated := "[!] Cannot receive messages before slave device is created.\n"
  failed := "[(!)] Failed to read message from master.\n"
  display := "\r[Master]>> %s\n\n>> "

/-- State of a loop that receives. -/
structure ListenState where
  buffer : List UInt8
  port : Port
  /-- What has been printed so far. -/
  screen : List Printed
  ended : Option ThreadEnd

namespace ListenState

/-- A `read` that fails. -/
def fail (texts : ListenTexts) (s : ListenState) (port : Port) : ListenState :=
  { s with
    port := port
    screen := s.screen ++ [⟨texts.failed, []⟩]
    ended := some (.exit 1) }

/-- Bytes that have been read, behind the store of their NUL. -/
def terminate (s : ListenState) (bytes : List UInt8) (port : Port) : ListenState :=
  -- a `read` that fills the array is terminated behind its end
  { s with buffer := store (store s.buffer 0 bytes) bytes.length [0], port := port }

/-- The message in the buffer is printed. -/
def display (texts : ListenTexts) (s : ListenState) : ListenState :=
  { s with screen := s.screen ++ [⟨texts.display, cString s.buffer⟩] }

end ListenState

/-- One pass through the loop that `master_listen`, `slave_listen` and
`slave_listen_cpp` share. -/
def listenPass (texts : ListenTexts) (last : ThreadEnd) (fd : Int) (s : ListenState) :
    Pass ListenState ListenState :=
  if strcmp s.buffer quitLine ≠ 0 then
    match s.port.read fd buffLen with
    | none => .blocked
    | some (.error _, port) => .leave (s.fail texts port)
    | some (.ok bytes, port) => .again ((s.terminate bytes port).display texts)
  else
    .leave { s with ended := some last }

/-- One pass through the loop of `master_listen_cpp`. -/
def masterListenCppPass (fd : Int) (s : ListenState) : Pass ListenState ListenState :=
  if strcmp s.buffer quitLine ≠ 0 then
    match s.port.read fd buffLen with
    | none => .blocked
    | some (.error _, port) => .leave (s.fail masterListenTexts port)
    | some (.ok bytes, port) =>
        -- the string in the buffer is not terminated yet
        if strcmp (store s.buffer 0 bytes) quitLine = 0 then
          .leave
            { s with
              buffer := store s.buffer 0 bytes
              port := port
              ended := some .return }
        else
          .again ((s.terminate bytes port).display masterListenTexts)
  else
    .leave { s with ended := some .return }

theorem listenPass_decreases (texts : ListenTexts) (last : ThreadEnd) (fd : Int) :
    Loop.Decreases (listenPass texts last fd) fun s => s.port.rx.size := by
  intro s s' hPass
  unfold listenPass at hPass
  split at hPass
  · split at hPass
    · cases hPass
    · cases hPass
    · next bytes port hRead =>
      obtain rfl := Pass.again.inj hPass
      exact Port.size_lt_of_read buffLen_pos hRead
  · cases hPass

theorem masterListenCppPass_decreases (fd : Int) :
    Loop.Decreases (masterListenCppPass fd) fun s => s.port.rx.size := by
  intro s s' hPass
  unfold masterListenCppPass at hPass
  split at hPass
  · split at hPass
    · cases hPass
    · cases hPass
    · next bytes port hRead =>
      split at hPass
      · cases hPass
      · obtain rfl := Pass.again.inj hPass
        exact Port.size_lt_of_read buffLen_pos hRead
  · cases hPass

/-- A function that receives messages, run until it ends or waits for ever: `loop` runs
its loop, and `buffer` is what the uninitialised array holds. -/
def listenFunction (texts : ListenTexts) (loop : ListenState → ListenState)
    (device : ChatDevice) (buffer : List UInt8) (port : Port) : ListenState :=
  if device.status ≠ 1 then
    ⟨buffer, port, [⟨texts.notCreated, []⟩], some (.exit 1)⟩
  else
    loop ⟨buffer, port, [], none⟩

/-- `master_listen` -/
def masterListen (device : ChatDevice) : List UInt8 → Port → ListenState :=
  listenFunction masterListenTexts
    (Loop.settle (listenPass masterListenTexts .pthreadExit device.port) _
      (listenPass_decreases _ _ _)) device

/-- `slave_listen` -/
def slaveListen (device : ChatDevice) : List UInt8 → Port → ListenState :=
  listenFunction slaveListenTexts
    (Loop.settle (listenPass slaveListenTexts .pthreadExit device.port) _
      (listenPass_decreases _ _ _)) device

/-- `slave_listen_cpp` -/
def slaveListenCpp (device : ChatDevice) : List UInt8 → Port → ListenState :=
  listenFunction slaveListenTexts
    (Loop.settle (listenPass slaveListenTexts .return device.port) _
      (listenPass_decreases _ _ _)) device

/-- `master_listen_cpp` -/
def masterListenCpp (device : ChatDevice) : List UInt8 → Port → ListenState :=
  listenFunction masterListenTexts
    (Loop.settle (masterListenCppPass device.port) _ (masterListenCppPass_decreases _))
    device

/-! ## Sending -/

/-- The texts of a loop that sends. -/
structure SendTexts where
  notCreated : String
  failed : String

/-- The texts of `master_send` and `master_send_cpp`. -/
def masterSendTexts : SendTexts where
  notCreated := "[!] Cannot send messages before master device is created.\n"
  failed := "[(!)] Failed to send message to slave.\n"

/-- The texts of `slave_send` and `slave_send_cpp`. -/
def slaveSendTexts : SendTexts where
  notCreated := "[!] Cannot send messages before slave device is created.\n"
  failed := "[(!)] Failed to send message to master.\n"

/-- State of a loop that sends. -/
structure SendState where
  buffer : List UInt8
  stdin : List UInt8
  port : Port
  /-- What has been printed so far. -/
  screen : List Printed

/-- What a function that sends leaves behind: its last state, the listening thread that
it has cancelled, if any, and how its own thread ends. -/
structure SendReturn where
  last : SendState
  cancelled : Option Int
  ended : ThreadEnd

/-- `printf("\n>> ")` and `fgets`. -/
def SendState.prompt (s : SendState) : SendState :=
  { s with
    buffer := (fgets s.buffer buffLen s.stdin).1
    stdin := (fgets s.buffer buffLen s.stdin).2
    screen := s.screen ++ [⟨"\n>> ", []⟩] }

/-- `write(port, buffer, strlen(buffer))` -/
def SendState.send (fd : Int) (s : SendState) : Int × SendState :=
  let (written, port) := s.port.write fd (cString s.buffer)
  (written, { s with port := port })

/-- One pass through the loop that all four functions share. -/
def sendPass (texts : SendTexts) (done : SendState → SendReturn) (fd : Int)
    (s : SendState) : Pass SendState SendReturn :=
  if strcmp s.buffer quitLine ≠ 0 then
    let (written, s) := s.prompt.send fd
    -- `ssize_t < size_t`: the left operand is converted to `size_t`
    if sizeT written < strlen s.buffer then
      .leave ⟨{ s with screen := s.screen ++ [⟨texts.failed, []⟩] }, none, .exit 1⟩
    else
      .again s
  else
    .leave (done s)

/-- A function that sends messages, run for at most `fuel` passes of its loop; `none`
means that it has not ended by then. -/
def sendFunction (texts : SendTexts) (done : SendState → SendReturn) (fuel : Nat)
    (device : ChatDevice) (buffer stdin : List UInt8) (port : Port) :
    Option SendReturn :=
  if device.status ≠ 1 then
    some ⟨⟨buffer, stdin, port, [⟨texts.notCreated, []⟩]⟩, none, .exit 1⟩
  else
    Loop.runFor (sendPass texts done device.port) fuel ⟨buffer, stdin, port, []⟩

/-- `master_send`; `listenTid` is the thread that `listen_tid` points to. -/
def masterSend (listenTid : Int) :
    Nat → ChatDevice → List UInt8 → List UInt8 → Port → Option SendReturn :=
  sendFunction masterSendTexts fun s => ⟨s, some listenTid, .pthreadExit⟩

/-- `master_send_cpp` -/
def masterSendCpp :
    Nat → ChatDevice → List UInt8 → List UInt8 → Port → Option SendReturn :=
  sendFunction masterSendTexts fun s => ⟨s, none, .return⟩

/-- `slave_send` -/
def slaveSend (listenTid : Int) :
    Nat → ChatDevice → List UInt8 → List UInt8 → Port → Option SendReturn :=
  sendFunction slaveSendTexts fun s => ⟨s, some listenTid, .pthreadExit⟩

/-- `slave_send_cpp` -/
def slaveSendCpp :
    Nat → ChatDevice → List UInt8 → List UInt8 → Port → Option SendReturn :=
  sendFunction slaveSendTexts fun s => ⟨s, none, .return⟩

end Serial
end CubeSatComm
