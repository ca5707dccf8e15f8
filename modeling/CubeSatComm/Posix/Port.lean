import CubeSatComm.Lib.Feed

/-!
# Descriptors: `read` and `write` as the programs see them

A `Port` is what stands behind an open descriptor: the arrivals that the coming
`read` calls find, the outcomes of the coming `write` calls, and a log of what the
program has done with it.  The environment chooses arrivals and outcomes freely,
so a statement about every port is one about every behaviour of the link.

Every negative descriptor is a bad one: `read` and `write` return `-1` on it and
touch nothing.
-/

namespace CubeSatComm
namespace Posix

open Lib

/-- The values of `errno` that the programs tell apart. -/
inductive Errno where
  | eagain
  | ewouldblock
  | ebadf
  | other (code : Nat)
  deriving DecidableEq, Repr

/-- What a `write` call does with its request. -/
inductive WriteOutcome where
  /-- The whole request is accepted. -/
  | complete
  /-- At most `count` bytes of the request are accepted. -/
  | accept (count : Nat)
  /-- The call returns `-1` and accepts nothing. -/
  | fail
  deriving DecidableEq, Repr

/-- One `write` call: the bytes it was given and how many it accepted. -/
structure WriteRecord where
  request : List UInt8
  accepted : Nat
  accepted_le : accepted ≤ request.length

namespace WriteRecord

/-- The bytes that went out on the link. -/
def bytes (record : WriteRecord) : List UInt8 :=
  record.request.take record.accepted

/-- Every byte of the request was accepted. -/
def Complete (record : WriteRecord) : Prop :=
  record.accepted = record.request.length

instance (record : WriteRecord) : Decidable record.Complete :=
  inferInstanceAs (Decidable (record.accepted = record.request.length))

/-- The record of a call that accepted its whole request. -/
def whole (request : List UInt8) : WriteRecord :=
  ⟨request, request.length, Nat.le_refl _⟩

@[simp] theorem request_whole (request : List UInt8) :
    (whole request).request = request := rfl

@[simp] theorem bytes_whole (request : List UInt8) :
    (whole request).bytes = request := by
  simp [bytes, whole]

@[simp] theorem complete_whole (request : List UInt8) :
    (whole request).Complete := rfl

/-- A complete record is determined by its request. -/
theorem Complete.eq_whole {record : WriteRecord} (h : record.Complete) :
    record = whole record.request := by
  cases record with
  | mk request accepted hLe =>
      obtain rfl : accepted = request.length := h
      rfl

theorem length_bytes (record : WriteRecord) :
    record.bytes.length = record.accepted := by
  rw [bytes, List.length_take, Nat.min_eq_left record.accepted_le]

theorem bytes_eq_iff {record : WriteRecord} :
    record.bytes = record.request ↔ record.Complete := by
  constructor
  · intro hBytes
    rw [Complete, ← length_bytes, hBytes]
  · intro hComplete
    rw [hComplete.eq_whole]
    simp

/-- Never more goes out than was requested. -/
theorem length_flatMap_bytes_le (records : List WriteRecord) :
    (records.flatMap bytes).length ≤ (records.map request).flatten.length := by
  induction records with
  | nil => simp
  | cons record records ih =>
      have hLe := record.accepted_le
      simp only [List.flatMap_cons, List.map_cons, List.flatten_cons,
        List.length_append, length_bytes]
      omega

/-- What goes out is what was requested exactly when every call was complete. -/
theorem flatMap_bytes_eq_iff (records : List WriteRecord) :
    records.flatMap bytes = (records.map request).flatten ↔
      ∀ record ∈ records, record.Complete := by
  induction records with
  | nil => simp
  | cons record records ih =>
      rw [List.forall_mem_cons, ← ih, ← bytes_eq_iff]
      simp only [List.flatMap_cons, List.map_cons, List.flatten_cons]
      constructor
      · -- neither part is longer than requested, so both have their full length
        intro hEq
        have hFirst := record.accepted_le
        have hRest := length_flatMap_bytes_le records
        have hLength := congrArg List.length hEq
        simp only [List.length_append, length_bytes] at hLength
        apply List.append_inj hEq
        rw [length_bytes]
        omega
      · rintro ⟨hFirst, hRest⟩
        rw [hFirst, hRest]

end WriteRecord

namespace WriteOutcome

/-- Number of bytes of a request of `len` bytes that are accepted. -/
def accepted (outcome : WriteOutcome) (len : Nat) : Nat :=
  match outcome with
  | complete => len
  | accept count => min count len
  | fail => 0

/-- What `write` returns for a request of `len` bytes. -/
def ret (outcome : WriteOutcome) (len : Nat) : Int :=
  match outcome with
  | complete => len
  | accept count => (min count len : Nat)
  | fail => -1

@[simp] theorem ret_complete (len : Nat) : complete.ret len = len := rfl

@[simp] theorem ret_accept (count len : Nat) :
    (accept count).ret len = (min count len : Nat) := rfl

@[simp] theorem ret_fail (len : Nat) : fail.ret len = -1 := rfl

theorem accepted_le (outcome : WriteOutcome) (len : Nat) :
    outcome.accepted len ≤ len := by
  cases outcome with
  | complete => exact Nat.le_refl len
  | accept count => exact Nat.min_le_right count len
  | fail => exact Nat.zero_le len

/-- The log entry of a call with this outcome. -/
def record (outcome : WriteOutcome) (request : List UInt8) : WriteRecord :=
  ⟨request, outcome.accepted request.length, outcome.accepted_le _⟩

@[simp] theorem request_record (outcome : WriteOutcome)
    (request : List UInt8) : (outcome.record request).request = request := rfl

@[simp] theorem record_complete (request : List UInt8) :
    complete.record request = WriteRecord.whole request := rfl

/-- The call accepts some bytes of the request, or none, but not all of them, and
says so. -/
def Short (outcome : WriteOutcome) (len : Nat) : Prop :=
  ∃ count, outcome = accept count ∧ count < len

theorem not_short_complete (len : Nat) : ¬ complete.Short len := by
  rintro ⟨_, h, -⟩
  cases h

theorem not_short_fail (len : Nat) : ¬ fail.Short len := by
  rintro ⟨_, h, -⟩
  cases h

theorem short_accept_iff {count len : Nat} :
    (accept count).Short len ↔ count < len := by
  simp [Short]

instance (outcome : WriteOutcome) (len : Nat) : Decidable (outcome.Short len) :=
  match outcome with
  | complete => .isFalse (not_short_complete len)
  | accept _ => decidable_of_iff _ short_accept_iff.symm
  | fail => .isFalse (not_short_fail len)

/-- A call that neither fails nor is short is complete. -/
theorem complete_record_iff (outcome : WriteOutcome) (request : List UInt8) :
    (outcome.record request).Complete ↔
      ¬ outcome.Short request.length ∧ (outcome = fail → request = []) := by
  cases outcome with
  | complete => simp [WriteRecord.Complete, record, accepted, Short]
  | accept count =>
      simp only [WriteRecord.Complete, record, accepted, Short,
        WriteOutcome.accept.injEq, exists_eq_left', reduceCtorEq, false_imp_iff,
        and_true]
      omega
  | fail =>
      constructor
      · intro h
        exact ⟨by simp [Short], fun _ => List.eq_nil_of_length_eq_zero h.symm⟩
      · rintro ⟨-, hNil⟩
        rw [hNil rfl]
        rfl

end WriteOutcome

/-- The `i`-th outcome of a list; the calls behind the list are complete. -/
def outcomeAt (tx : List WriteOutcome) (i : Nat) : WriteOutcome :=
  tx.getD i .complete

theorem outcomeAt_zero (tx : List WriteOutcome) :
    outcomeAt tx 0 = tx.headD .complete := by
  cases tx with
  | nil => rfl
  | cons outcome rest => rfl

theorem outcomeAt_tail (tx : List WriteOutcome) (i : Nat) :
    outcomeAt tx.tail i = outcomeAt tx (i + 1) := by
  cases tx with
  | nil => rfl
  | cons outcome rest => rfl

/-- The environment of an open descriptor and the log of its use. -/
structure Port where
  /-- What the coming `read` calls find. -/
  rx : Feed UInt8 Errno
  /-- Outcomes of the coming `write` calls; the calls after them are complete. -/
  tx : List WriteOutcome
  /-- Number of `read` calls made so far. -/
  reads : Nat
  /-- The `write` calls made so far, oldest first. -/
  written : List WriteRecord

namespace Port

/-- A port on which nothing has been done yet. -/
def fresh (rx : Feed UInt8 Errno) (tx : List WriteOutcome) : Port :=
  { rx := rx, tx := tx, reads := 0, written := [] }

/-- The bytes that have gone out on the link. -/
def sent (port : Port) : List UInt8 :=
  port.written.flatMap WriteRecord.bytes

/-- Every coming `write` call accepts its whole request. -/
def CompleteWrites (port : Port) : Prop :=
  ∀ outcome ∈ port.tx, outcome = .complete

/-- `read(fd, buf, count)`: the bytes stored at `buf`, or the error.  `none`
means that the call waits. -/
def read (port : Port) (fd : Int) (count : Nat) :
    Option (Except Errno (List UInt8) × Port) :=
  if fd < 0 then
    some (.error .ebadf, port)
  else
    match port.rx.read count with
    | none => none
    | some (out, rx) => some (out, { port with rx := rx, reads := port.reads + 1 })

/-- The outcome of the next `write` call. -/
def nextOutcome (port : Port) : WriteOutcome :=
  port.tx.headD .complete

/-- `write(fd, data, data.length)`. -/
def write (port : Port) (fd : Int) (data : List UInt8) : Int × Port :=
  if fd < 0 then
    (-1, port)
  else
    (port.nextOutcome.ret data.length,
      { port with
        tx := port.tx.tail
        written := port.written ++ [port.nextOutcome.record data] })

/-- Without outcomes for them, all coming calls are complete. -/
theorem completeWrites_fresh (rx : Feed UInt8 Errno) :
    (fresh rx []).CompleteWrites := by
  intro outcome hMem
  cases hMem

theorem CompleteWrites.nextOutcome_eq {port : Port} (h : port.CompleteWrites) :
    port.nextOutcome = .complete := by
  unfold nextOutcome
  cases hTx : port.tx with
  | nil => rfl
  | cons outcome rest => exact h outcome (by rw [hTx]; exact List.mem_cons_self)

/-- A complete write on an open descriptor. -/
theorem write_complete {fd : Int} (hFd : 0 ≤ fd) {port : Port}
    (hPort : port.CompleteWrites) (data : List UInt8) :
    port.write fd data =
      ((data.length : Int),
        { port with
          tx := port.tx.tail
          written := port.written ++ [WriteRecord.whole data] }) := by
  rw [write, if_neg (by omega), hPort.nextOutcome_eq]
  rfl

theorem completeWrites_tail {port port' : Port} (h : port.CompleteWrites)
    (hTx : port'.tx = port.tx.tail) : port'.CompleteWrites := by
  intro outcome hMem
  rw [hTx] at hMem
  exact h outcome (List.mem_of_mem_tail hMem)

theorem read_bad {fd : Int} (hFd : fd < 0) (port : Port) (count : Nat) :
    port.read fd count = some (.error .ebadf, port) := by
  simp [read, hFd]

theorem write_bad {fd : Int} (hFd : fd < 0) (port : Port) (data : List UInt8) :
    port.write fd data = (-1, port) := by
  simp [write, hFd]

theorem write_open {fd : Int} (hFd : 0 ≤ fd) (port : Port)
    (data : List UInt8) :
    port.write fd data =
      (port.nextOutcome.ret data.length,
        { port with
          tx := port.tx.tail
          written := port.written ++ [port.nextOutcome.record data] }) := by
  rw [write, if_neg (by omega)]

/-- A read from an open descriptor is a read from its feed. -/
theorem read_eq_some_iff {fd : Int} (hFd : 0 ≤ fd) {port port' : Port}
    {count : Nat} {out : Except Errno (List UInt8)} :
    port.read fd count = some (out, port') ↔
      ∃ rx, port.rx.read count = some (out, rx) ∧
        port' = { port with rx := rx, reads := port.reads + 1 } := by
  unfold read
  rw [if_neg (by omega)]
  cases hRead : port.rx.read count with
  | none => simp
  | some result =>
      obtain ⟨out', rx⟩ := result
      simp only [Option.some.injEq, Prod.mk.injEq]
      constructor
      · rintro ⟨rfl, rfl⟩
        exact ⟨rx, ⟨rfl, rfl⟩, rfl⟩
      · rintro ⟨rx', ⟨rfl, rfl⟩, rfl⟩
        exact ⟨rfl, rfl⟩

theorem read_open {fd : Int} (hFd : 0 ≤ fd) {port : Port} {count : Nat}
    {out : Except Errno (List UInt8)} {rx : Feed UInt8 Errno}
    (hRead : port.rx.read count = some (out, rx)) :
    port.read fd count =
      some (out, { port with rx := rx, reads := port.reads + 1 }) :=
  (read_eq_some_iff hFd).mpr ⟨rx, hRead, rfl⟩

theorem read_waits {fd : Int} (hFd : 0 ≤ fd) {port : Port} {count : Nat}
    (hRead : port.rx.read count = none) : port.read fd count = none := by
  rw [read, if_neg (by omega), hRead]

/-- A successful read of a positive count makes the feed smaller. -/
theorem size_lt_of_read {fd : Int} {port port' : Port} {count : Nat}
    {bytes : List UInt8} (hCount : 0 < count)
    (hRead : port.read fd count = some (.ok bytes, port')) :
    port'.rx.size < port.rx.size := by
  by_cases hFd : fd < 0
  · rw [read_bad hFd] at hRead
    cases hRead
  · obtain ⟨rx, hFeed, rfl⟩ := (read_eq_some_iff (by omega)).mp hRead
    exact Feed.size_lt_of_read hCount hFeed

/-- A read never stores more than it was asked for. -/
theorem length_le_of_read {fd : Int} {port port' : Port} {count : Nat}
    {bytes : List UInt8} (hRead : port.read fd count = some (.ok bytes, port')) :
    bytes.length ≤ count := by
  by_cases hFd : fd < 0
  · rw [read_bad hFd] at hRead
    cases hRead
  · obtain ⟨rx, hFeed, -⟩ := (read_eq_some_iff (by omega)).mp hRead
    exact Feed.length_le_of_read hFeed

/-- A read that returns from an open descriptor has been counted. -/
theorem reads_of_read {fd : Int} (hFd : 0 ≤ fd) {port port' : Port} {count : Nat}
    {out : Except Errno (List UInt8)}
    (hRead : port.read fd count = some (out, port')) :
    port'.reads = port.reads + 1 := by
  obtain ⟨rx, -, rfl⟩ := (read_eq_some_iff hFd).mp hRead
  rfl

section Cut

variable {fd : Int} {port : Port} {count : Nat} {cut : List (List UInt8)}
  {stream : List UInt8}

/-- A read from a stream that arrives in pieces. -/
theorem read_cut (hFd : 0 ≤ fd) (hPos : 0 < count)
    (hRx : port.rx = Feed.ofPieces cut) (hCut : IsCut cut stream)
    (hNe : stream ≠ []) :
    ∃ xs, port.read fd count = some (.ok xs,
        { port with
          rx := Feed.ofPieces (afterRead count cut), reads := port.reads + 1 }) ∧
      xs ≠ [] ∧ xs.length ≤ count ∧
      Lib.reads count cut = xs :: Lib.reads count (afterRead count cut) ∧
      IsCut (afterRead count cut) (stream.drop xs.length) ∧
      xs ++ stream.drop xs.length = stream := by
  obtain ⟨xs, hRead, hRest⟩ := Feed.read_ofPieces hPos hCut hNe
  exact ⟨xs, read_open hFd (by rw [hRx]; exact hRead), hRest⟩

/-- At the end of the stream a read waits. -/
theorem read_cut_end (hFd : 0 ≤ fd) (hRx : port.rx = Feed.ofPieces cut)
    (hCut : IsCut cut []) : port.read fd count = none := by
  apply read_waits hFd
  rw [hRx, Feed.read_ofPieces_nil hCut]

end Cut

end Port

/-- What `read` returns: a count or `-1`. -/
def readRet : Except Errno (List UInt8) → Int
  | .ok bytes => bytes.length
  | .error _ => -1

/-- The bytes that `read` stores. -/
def readBytes : Except Errno (List UInt8) → List UInt8
  | .ok bytes => bytes
  | .error _ => []

@[simp] theorem readRet_ok (bytes : List UInt8) :
    readRet (.ok bytes) = bytes.length := rfl

@[simp] theorem readRet_error (e : Errno) : readRet (.error e) = -1 := rfl

@[simp] theorem readBytes_ok (bytes : List UInt8) :
    readBytes (.ok bytes) = bytes := rfl

@[simp] theorem readBytes_error (e : Errno) : readBytes (.error e) = [] := rfl

end Posix
end CubeSatComm
