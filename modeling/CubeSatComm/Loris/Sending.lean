import CubeSatComm.Loris.Antenna

/-!
# Sequences of writes

Every sender of the antenna module hands its requests to `antenna_write_fd` one
after the other and stops at the first that reports an error.  `sendAll` is that
sequence by itself; the senders are shown to be runs of it.

`antenna_write_fd` reports a `write` that accepts part of its request, and does not
report one that returns `-1`.  So a sequence that ends without error has sent
everything exactly when none of its `write` calls failed.
-/

namespace CubeSatComm
namespace Loris

open Lib CInteger Posix

/-- `antenna_write_fd` for one request after the other, until one reports an
error. -/
def sendAll (fd : Int) : List (List UInt8) → Port → Int × Port
  | [], port => (0, port)
  | request :: requests, port =>
      let (sent, port) := antennaWriteFd fd request port
      if sent < 0 then (-1, port) else sendAll fd requests port

/-- The log entries of a sequence of requests that is carried through. -/
def attempts (tx : List WriteOutcome) : List (List UInt8) → List WriteRecord
  | [] => []
  | request :: requests =>
      (tx.headD .complete).record request :: attempts tx.tail requests

/-- One of the coming `write` calls accepts only part of its request. -/
def SomeShort (tx : List WriteOutcome) (requests : List (List UInt8)) : Prop :=
  ∃ i request, requests[i]? = some request ∧
    (outcomeAt tx i).Short request.length

/-- None of the coming `write` calls fails on a request that has bytes. -/
def NoneFails (tx : List WriteOutcome) (requests : List (List UInt8)) : Prop :=
  ∀ i request, requests[i]? = some request → outcomeAt tx i = .fail →
    request = []

@[simp] theorem map_request_attempts (tx : List WriteOutcome)
    (requests : List (List UInt8)) :
    (attempts tx requests).map WriteRecord.request = requests := by
  induction requests generalizing tx with
  | nil => rfl
  | cons request requests ih =>
      rw [attempts, List.map_cons, WriteOutcome.request_record, ih]

section Step

variable (tx : List WriteOutcome) (request : List UInt8)
  (requests : List (List UInt8))

theorem not_someShort_nil : ¬ SomeShort tx [] := by
  rintro ⟨i, request, hAt, -⟩
  cases hAt

theorem noneFails_nil : NoneFails tx [] := by
  intro i request hAt
  cases hAt

theorem someShort_cons_iff :
    SomeShort tx (request :: requests) ↔
      (tx.headD .complete).Short request.length ∨ SomeShort tx.tail requests := by
  constructor
  · rintro ⟨i, r, hAt, hShort⟩
    cases i with
    | zero =>
        left
        obtain rfl : request = r := by simpa using hAt
        rwa [← outcomeAt_zero]
    | succ i =>
        right
        refine ⟨i, r, by simpa using hAt, ?_⟩
        rwa [outcomeAt_tail]
  · rintro (hShort | ⟨i, r, hAt, hShort⟩)
    · refine ⟨0, request, rfl, ?_⟩
      rwa [outcomeAt_zero]
    · refine ⟨i + 1, r, by simpa using hAt, ?_⟩
      rwa [← outcomeAt_tail]

theorem noneFails_cons_iff :
    NoneFails tx (request :: requests) ↔
      (tx.headD .complete = .fail → request = []) ∧
        NoneFails tx.tail requests := by
  constructor
  · intro hNone
    constructor
    · intro hFail
      apply hNone 0 request rfl
      rwa [outcomeAt_zero]
    · intro i r hAt hFail
      rw [outcomeAt_tail] at hFail
      exact hNone (i + 1) r (by simpa using hAt) hFail
  · rintro ⟨hFirst, hRest⟩ i r hAt hFail
    cases i with
    | zero =>
        obtain rfl : request = r := by simpa using hAt
        apply hFirst
        rwa [← outcomeAt_zero]
    | succ i =>
        refine hRest i r (by simpa using hAt) ?_
        rwa [outcomeAt_tail]

/-- Every request is accepted whole exactly when no `write` call is short and none
fails. -/
theorem attempts_complete_iff :
    (∀ record ∈ attempts tx requests, record.Complete) ↔
      ¬ SomeShort tx requests ∧ NoneFails tx requests := by
  induction requests generalizing tx with
  | nil => simp [attempts, not_someShort_nil, noneFails_nil]
  | cons request requests ih =>
      rw [attempts, List.forall_mem_cons, WriteOutcome.complete_record_iff,
        someShort_cons_iff, noneFails_cons_iff, ih]
      tauto

end Step

section Send

variable {fd : Int} (hFd : 0 ≤ fd) {requests : List (List UInt8)}
  (hLengths : ∀ request ∈ requests, request.length < sizeRange) {port : Port}

include hFd hLengths

/-- A sequence with a short `write` ends with an error. -/
theorem sendAll_short (hShort : SomeShort port.tx requests) :
    (sendAll fd requests port).1 = -1 := by
  induction requests generalizing port with
  | nil => exact absurd hShort (not_someShort_nil port.tx)
  | cons request requests ih =>
      rw [List.forall_mem_cons] at hLengths
      rw [someShort_cons_iff] at hShort
      rw [sendAll, antennaWriteFd_open hFd hLengths.1]
      by_cases hFirst : port.nextOutcome.Short request.length
      · simp [hFirst]
      · simp only [hFirst, if_false]
        exact ih hLengths.2 (hShort.resolve_left hFirst)

/-- Any other sequence is carried through. -/
theorem sendAll_carried (hNone : ¬ SomeShort port.tx requests) :
    sendAll fd requests port =
      (0,
        { port with
          tx := port.tx.drop requests.length
          written := port.written ++ attempts port.tx requests }) := by
  induction requests generalizing port with
  | nil => simp [sendAll, attempts]
  | cons request requests ih =>
      rw [List.forall_mem_cons] at hLengths
      rw [someShort_cons_iff, not_or] at hNone
      have hFirst : ¬ port.nextOutcome.Short request.length := hNone.1
      rw [sendAll, antennaWriteFd_open hFd hLengths.1]
      simp only [hFirst, if_false]
      rw [if_neg (by decide), ih hLengths.2 hNone.2]
      simp [attempts, Port.nextOutcome]

/-- A sequence returns `0` when no `write` is short, and otherwise `-1`. -/
theorem sendAll_ret_iff :
    (sendAll fd requests port).1 = 0 ↔ ¬ SomeShort port.tx requests := by
  constructor
  · intro hRet hShort
    rw [sendAll_short hFd hLengths hShort] at hRet
    exact absurd hRet (by decide)
  · intro hNone
    rw [sendAll_carried hFd hLengths hNone]

/-- A sequence that is carried through has sent everything exactly when none of its
`write` calls failed. -/
theorem sendAll_sent_iff (hNone : ¬ SomeShort port.tx requests) :
    (sendAll fd requests port).2.sent = port.sent ++ requests.flatten ↔
      NoneFails port.tx requests := by
  have hAll := WriteRecord.flatMap_bytes_eq_iff (attempts port.tx requests)
  rw [map_request_attempts] at hAll
  rw [sendAll_carried hFd hLengths hNone, Port.sent, Port.sent, List.flatMap_append,
    List.append_cancel_left_eq, hAll, attempts_complete_iff]
  tauto

/-- With complete writes every request goes out whole. -/
theorem sendAll_complete (hPort : port.CompleteWrites) :
    sendAll fd requests port =
      (0,
        { port with
          tx := port.tx.drop requests.length
          written := port.written ++ requests.map WriteRecord.whole }) := by
  have hOutcome : ∀ i, outcomeAt port.tx i = .complete := by
    intro i
    unfold outcomeAt
    rw [List.getD_eq_getElem?_getD]
    cases hAt : port.tx[i]? with
    | none => rfl
    | some outcome => exact hPort outcome (List.mem_of_getElem? hAt)
  have hNone : ¬ SomeShort port.tx requests := by
    rintro ⟨i, request, -, hShort⟩
    rw [hOutcome] at hShort
    exact WriteOutcome.not_short_complete _ hShort
  have hFails : NoneFails port.tx requests := by
    intro i request _ hFail
    rw [hOutcome] at hFail
    cases hFail
  have hAll := (attempts_complete_iff port.tx requests).mpr ⟨hNone, hFails⟩
  have hWhole : attempts port.tx requests = requests.map WriteRecord.whole := by
    calc attempts port.tx requests
        = (attempts port.tx requests).map
            (fun record => WriteRecord.whole record.request) := by
          conv_lhs => rw [← List.map_id (attempts port.tx requests)]
          exact List.map_congr_left fun record hMem => (hAll record hMem).eq_whole
      _ = requests.map WriteRecord.whole := by
          conv_rhs => rw [← map_request_attempts port.tx requests]
          rw [List.map_map]
          rfl
  rw [sendAll_carried hFd hLengths hNone, hWhole]

end Send

/-- One request by itself. -/
theorem sendAll_singleton {fd : Int} (hFd : 0 ≤ fd) {data : List UInt8}
    (hLength : data.length < sizeRange) (port : Port) :
    sendAll fd [data] port = antennaWriteFd fd data port := by
  rw [antennaWriteFd_open hFd hLength, sendAll, antennaWriteFd_open hFd hLength]
  by_cases hShort : port.nextOutcome.Short data.length
  · simp [hShort]
  · simp [hShort, sendAll]

end Loris
end CubeSatComm
