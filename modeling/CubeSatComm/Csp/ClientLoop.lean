import CubeSatComm.Csp.Send
import CubeSatComm.Posix.Stdio

/-!
# The main loop of the client

The client connects, and then sends one packet for each line of the user until
`csp_send` fails; it then closes the connection and connects again.  A run is a
sequence of the things that the environment decides: the results of `csp_connect`,
the lines, and the states of the connection that `csp_send` meets.

The loop takes a buffer for each line.  `fifo_tx` frees it when the packet is sent;
when `csp_send` fails, nobody does.
-/

namespace CubeSatComm
namespace Csp

open Posix

/-! ## The loop -/

/-- What `fgets` has read into `msg`. -/
structure UserLine where
  bytes : List UInt8
  length_lt : bytes.length < bufSize

/-- The string in `msg`. -/
def UserLine.text (line : UserLine) : List UInt8 :=
  cString line.bytes

theorem UserLine.length_text_lt (line : UserLine) :
    line.text.length < bufSize := by
  have hLe : line.text.length ≤ line.bytes.length :=
    (List.takeWhile_prefix _).length_le
  have hLt := line.length_lt
  omega

variable {n : Nat}

/-- One iteration of the message loop, and whether another one follows. -/
def clientMessage (device : Device) (line : UserLine) (conn : CspConn)
    (node : CspNode n) : Bool × CspNode n :=
  match cspBufferGet line.text.length node.pool with
  -- the line is skipped
  | (none, pool) => (true, { node with pool := pool })
  | (some packet, pool) =>
      let node := { node with pool := pool }
      let node := node.modify packet (·.strcpyData line.text line.length_text_lt)
      let node := node.modify packet (·.setLength line.text.length)
      let (ret, node) :=
        cspSend (some conn) (some packet) (some (cspIoDev device)) node
      (ret ≠ 0, node)

/-- The heads of the two loops. -/
inductive ClientLoc where
  | connecting
  | messaging
  deriving DecidableEq, Repr

/-- The state of the client at the head of a loop. -/
structure ClientState (n : Nat) where
  loc : ClientLoc
  node : CspNode n

/-- Another iteration of the message loop, or `csp_close` and the outer loop.
`csp_close` has nothing to free, because no packet has come in. -/
def ClientState.afterMessage (result : Bool × CspNode n) : ClientState n :=
  ⟨if result.1 then .messaging else .connecting, result.2⟩

/-- What the environment decides in one iteration. -/
inductive ClientEvent where
  /-- Whether `csp_connect` returns a connection. -/
  | connect (success : Bool)
  /-- The line, and the connection as `csp_send` finds it. -/
  | message (line : UserLine) (conn : CspConn)

/-- One iteration of the loop that the client is at the head of. -/
def clientStep (device : Device) (event : ClientEvent) (s : ClientState n) :
    Option (ClientState n) :=
  match event, s.loc with
  | .connect success, .connecting =>
      some { s with loc := if success then .messaging else .connecting }
  | .message line conn, .messaging =>
      some (.afterMessage (clientMessage device line conn s.node))
  | _, _ => none

/-- The iterations of a run, one after the other. -/
def clientRun (device : Device) :
    List ClientEvent → ClientState n → Option (ClientState n)
  | [], s => some s
  | event :: events, s =>
      (clientStep device event s).bind (clientRun device events)

/-! ## What one iteration does with the pool -/

/-- `csp_send` lets the packet through: the connection is open, and the text of the
line is no longer than the MTU. -/
def ClientEvent.Accepted : ClientEvent → Prop
  | connect _ => True
  | message line conn =>
      conn.state = .connOpen ∧ line.text.length ≤ cspPacketSize

instance (event : ClientEvent) : Decidable event.Accepted :=
  match event with
  | .connect _ => .isTrue trivial
  | .message line conn =>
      inferInstanceAs
        (Decidable (conn.state = .connOpen ∧ line.text.length ≤ cspPacketSize))

section Message

variable {device : Device} {line : UserLine} {conn : CspConn} {node : CspNode n}

/-- Without a free buffer the line is skipped. -/
theorem clientMessage_empty (hQueue : node.pool.cspBuffers = []) :
    clientMessage device line conn node = (true, node) := by
  have hGet : cspBufferGet line.text.length node.pool = (none, node.pool) := by
    unfold cspBufferGet cspBufferGetSized
    rw [hQueue]
    split <;> rfl
  rw [clientMessage, hGet]

/-- With one, it is taken; a packet that is sent is freed again, one that is refused
is not. -/
theorem clientMessage_get {packet : Fin n} {pool : BufferPool n}
    (hGet : cspBufferGet line.text.length node.pool = (some packet, pool)) :
    (ClientEvent.Accepted (.message line conn) →
      (clientMessage device line conn node).2.pool =
        cspBufferFree (some packet) pool) ∧
    (¬ ClientEvent.Accepted (.message line conn) →
      (clientMessage device line conn node).2.pool = pool) := by
  let filled : CspNode n :=
    (CspNode.modify packet (·.strcpyData line.text line.length_text_lt)
      { node with pool := pool }).modify packet (·.setLength line.text.length)
  have hLength : (filled.memory packet).length = line.text.length := by
    have hLt := line.length_text_lt
    rw [CspNode.memory_modify, PacketBuffer.length_setLength]
    exact Nat.mod_eq_of_lt (Nat.lt_trans hLt (by decide))
  have hMessage : (clientMessage device line conn node).2 =
      (cspSend (some conn) (some packet) (some (cspIoDev device)) filled).2 := by
    rw [clientMessage, hGet]
  rw [hMessage]
  constructor
  · rintro ⟨hOpen, hMtu⟩
    rw [← hLength] at hMtu
    exact (cspSend_consumed hOpen hMtu).2
  · intro hRefused
    refine (cspSend_refused ?_).2
    rw [hLength]
    exact hRefused

end Message

section Step

variable {device : Device} {event : ClientEvent} {s s' : ClientState n}

/-- What an iteration does with the pool: nothing, or it takes the oldest free buffer,
and frees it exactly if `csp_send` has let the packet through. -/
theorem clientStep_cases (hStep : clientStep device event s = some s') :
    (s'.node.pool = s.node.pool ∧
      (event.Accepted ∨ s.node.pool.cspBuffers = [])) ∨
    (∃ dataSize packet pool,
      cspBufferGet dataSize s.node.pool = (some packet, pool) ∧
      (event.Accepted → s'.node.pool = cspBufferFree (some packet) pool) ∧
      (¬ event.Accepted → s'.node.pool = pool)) := by
  unfold clientStep at hStep
  split at hStep
  · -- `csp_connect` does not touch the pool
    obtain rfl := Option.some.inj hStep
    exact .inl ⟨rfl, .inl trivial⟩
  · next line conn _ =>
    obtain rfl := Option.some.inj hStep
    cases hQueue : s.node.pool.cspBuffers with
    | nil =>
        rw [clientMessage_empty hQueue]
        exact .inl ⟨rfl, .inr rfl⟩
    | cons packet rest =>
        cases hGet : cspBufferGet line.text.length s.node.pool with
        | mk out pool =>
            cases out with
            | some packet =>
                exact .inr ⟨_, packet, pool, hGet, clientMessage_get hGet⟩
            | none =>
                -- a line always fits into a buffer
                have hLt := line.length_text_lt
                obtain ⟨hTooLarge | hEmpty, -⟩ := cspBufferGet_eq_none hGet
                · omega
                · rw [hQueue] at hEmpty
                  cases hEmpty
  · cases hStep

/-- An iteration keeps the pool well formed, and loses a free buffer, if there is one,
exactly when `csp_send` does not let the packet through. -/
theorem clientStep_remaining (hPool : s.node.pool.WellFormed)
    (hStep : clientStep device event s = some s') :
    s'.node.pool.WellFormed ∧
      cspBufferRemaining s'.node.pool =
        cspBufferRemaining s.node.pool - if event.Accepted then 0 else 1 := by
  rcases clientStep_cases hStep with ⟨hSame, hCase⟩ |
    ⟨dataSize, packet, pool, hGet, hFreed, hKept⟩
  · rw [hSame]
    refine ⟨hPool, ?_⟩
    rcases hCase with hAccepted | hEmpty
    · simp [hAccepted]
    · simp [cspBufferRemaining, hEmpty]
  · obtain ⟨hTaken, hUsed⟩ := hPool.get hGet
    obtain ⟨-, hQueue, -, -⟩ := cspBufferGet_eq_some hGet
    by_cases hAccepted : event.Accepted
    · rw [hFreed hAccepted]
      refine ⟨hTaken.free hUsed, ?_⟩
      rw [cspBufferFree_used hTaken hUsed]
      simp [cspBufferRemaining, hQueue, hAccepted]
    · rw [hKept hAccepted]
      refine ⟨hTaken, ?_⟩
      simp [cspBufferRemaining, hQueue, hAccepted]

end Step

/-! ## Runs -/

/-- Number of iterations in which `csp_send` does not let a packet through. -/
def refusals (events : List ClientEvent) : Nat :=
  events.countP fun event => ¬ event.Accepted

/-- A run of the loop loses one free buffer for each refusal, until there is none. -/
theorem clientRun_remaining {device : Device} {events : List ClientEvent}
    {s₀ s : ClientState n} (hPool : s₀.node.pool.WellFormed)
    (hRun : clientRun device events s₀ = some s) :
    cspBufferRemaining s.node.pool =
      cspBufferRemaining s₀.node.pool - refusals events := by
  induction events generalizing s₀ with
  | nil =>
      obtain rfl := Option.some.inj hRun
      rfl
  | cons event events ih =>
      obtain ⟨s₁, hStep, hRest⟩ := Option.bind_eq_some_iff.mp hRun
      obtain ⟨hPool₁, hOne⟩ := clientStep_remaining hPool hStep
      rw [ih hPool₁ hRest, hOne, refusals, refusals, List.countP_cons]
      by_cases hAccepted : event.Accepted
      · simp [hAccepted]
      · simp only [hAccepted, if_false, not_false_eq_true, decide_true, if_true]
        omega

/-- The start of the main loop: `rx` is the buffer of the idle `fifo_rx`, and all
others are free. -/
structure ClientStart (rx : Fin n) (s : ClientState n) : Prop where
  loc : s.loc = .connecting
  nodup : s.node.pool.cspBuffers.Nodup
  free_iff : ∀ buffer, buffer ∈ s.node.pool.cspBuffers ↔ buffer ≠ rx
  refcount : s.node.pool.refcount rx = 1

/-- Every buffer that the calls after `calls₀` give away is freed, once, before the
next one is given away. -/
def ReleasedOnce (calls₀ calls : List (BufferCall n)) : Prop :=
  ∃ buffers : List (Fin n),
    calls = calls₀ ++ buffers.flatMap fun buffer => [.get buffer, .free buffer]

/-- The main loop has given back what it has taken from the pool. -/
structure Conserved (rx : Fin n) (s₀ s : ClientState n) : Prop where
  released_once : ReleasedOnce s₀.node.pool.calls s.node.pool.calls
  /-- Only `fifo_rx` has a buffer. -/
  owns_none : ∀ buffer, buffer ∉ s.node.pool.cspBuffers → buffer = rx
  same_remaining :
    cspBufferRemaining s.node.pool = cspBufferRemaining s₀.node.pool
  can_allocate :
    ∀ dataSize ≤ bufSize, (cspBufferGet dataSize s.node.pool).1 ≠ none

section Conserved

variable {device : Device} {rx : Fin n} {events : List ClientEvent}
  {s₀ s s' : ClientState n}

theorem ClientStart.wellFormed (hStart : ClientStart rx s₀) :
    s₀.node.pool.WellFormed := by
  refine ⟨hStart.nodup, ?_⟩
  intro buffer hUsed
  rw [hStart.free_iff, not_not] at hUsed
  rw [hUsed]
  exact hStart.refcount

/-- Of two buffers or more one is free. -/
theorem ClientStart.remaining_pos (hStart : ClientStart rx s₀) (hSize : 2 ≤ n) :
    0 < cspBufferRemaining s₀.node.pool := by
  obtain ⟨other, hOther⟩ : ∃ other : Fin n, other ≠ rx := by
    have : Nontrivial (Fin n) := Fin.nontrivial_iff_two_le.mpr hSize
    exact exists_ne rx
  exact List.length_pos_of_mem ((hStart.free_iff other).mpr hOther)

/-- What every iteration without a refusal keeps. -/
structure Intact (rx : Fin n) (s₀ s : ClientState n) : Prop where
  wellFormed : s.node.pool.WellFormed
  free_iff : ∀ buffer, buffer ∈ s.node.pool.cspBuffers ↔ buffer ≠ rx
  released_once : ReleasedOnce s₀.node.pool.calls s.node.pool.calls

theorem ClientStart.intact (hStart : ClientStart rx s₀) : Intact rx s₀ s₀ :=
  ⟨hStart.wellFormed, hStart.free_iff, [], by simp⟩

theorem Intact.step {event : ClientEvent} (hIntact : Intact rx s₀ s)
    (hAccepted : event.Accepted) (hStep : clientStep device event s = some s') :
    Intact rx s₀ s' := by
  have hPool := (clientStep_remaining hIntact.wellFormed hStep).1
  rcases clientStep_cases hStep with ⟨hSame, -⟩ |
    ⟨dataSize, packet, pool, hGet, hFreed, -⟩
  · refine ⟨hPool, ?_, ?_⟩
    · rw [hSame]
      exact hIntact.free_iff
    · rw [hSame]
      exact hIntact.released_once
  · obtain ⟨hTaken, hUsed⟩ := hIntact.wellFormed.get hGet
    obtain ⟨-, hQueue, -, hCalls⟩ := cspBufferGet_eq_some hGet
    have hEq := (hFreed hAccepted).trans (cspBufferFree_used hTaken hUsed)
    refine ⟨hPool, ?_, ?_⟩
    · -- the buffer moves from the front of the queue to its end
      intro buffer
      have hFree := hIntact.free_iff buffer
      rw [hQueue, List.mem_cons] at hFree
      rw [hEq, List.mem_append, List.mem_singleton, or_comm]
      exact hFree
    · obtain ⟨buffers, hReleased⟩ := hIntact.released_once
      refine ⟨buffers ++ [packet], ?_⟩
      rw [hEq, hCalls, hReleased]
      simp

theorem Intact.run (hIntact : Intact rx s₀ s)
    (hAccepted : ∀ event ∈ events, event.Accepted)
    (hRun : clientRun device events s = some s') : Intact rx s₀ s' := by
  induction events generalizing s with
  | nil =>
      obtain rfl := Option.some.inj hRun
      exact hIntact
  | cons event events ih =>
      rw [List.forall_mem_cons] at hAccepted
      obtain ⟨s₁, hStep, hRest⟩ := Option.bind_eq_some_iff.mp hRun
      exact ih (hIntact.step hAccepted.1 hStep) hAccepted.2 hRest

theorem refusals_eq_zero_iff :
    refusals events = 0 ↔ ∀ event ∈ events, event.Accepted := by
  simp [refusals, List.countP_eq_zero]

/-- In every run of the client, the main loop has given back what it has taken from
the pool exactly when the connection was open and the line no longer than the MTU at
every `csp_send`. -/
theorem clientRun_conserved_iff (hSize : 2 ≤ n) (hStart : ClientStart rx s₀)
    (hRun : clientRun device events s₀ = some s) :
    Conserved rx s₀ s ↔ ∀ event ∈ events, event.Accepted := by
  have hRemaining := clientRun_remaining hStart.wellFormed hRun
  have hPos := hStart.remaining_pos hSize
  constructor
  · -- a buffer that is lost is missing ever after
    intro hConserved
    rw [← refusals_eq_zero_iff]
    rw [hConserved.same_remaining] at hRemaining
    omega
  · intro hAccepted
    have hIntact := hStart.intact.run hAccepted hRun
    rw [refusals_eq_zero_iff.mpr hAccepted, Nat.sub_zero] at hRemaining
    refine ⟨hIntact.released_once, ?_, hRemaining, ?_⟩
    · intro buffer hUsed
      rw [hIntact.free_iff, not_not] at hUsed
      exact hUsed
    · intro dataSize hFits
      apply cspBufferGet_ne_none hFits
      rw [← hRemaining] at hPos
      exact List.length_pos_iff.mp hPos

end Conserved

/-- A line of `count` letters. -/
def letterLine (count : Nat) (hFits : count < bufSize) : UserLine :=
  ⟨List.replicate count 65, length_letters_lt hFits⟩

/-- A client with two buffers, of which `fifo_rx` has the second. -/
def startedClient : ClientState 2 where
  loc := .connecting
  node :=
    { pool := ⟨[0], fun _ => 1, [.get 1]⟩
      memory := fun _ => .zero
      port := Port.fresh [] [] }

theorem startedClient_start : ClientStart 1 startedClient where
  loc := rfl
  nodup := List.nodup_singleton 0
  free_iff := by decide
  refcount := rfl

/-- A line of sixteen bytes is sent, and its buffer is free again. -/
theorem conserved_sixteen_bytes :
    ∃ s, clientRun fifoDevice
        [.connect false, .connect true,
          .message (letterLine 16 (by decide)) ⟨.connOpen, 0⟩] startedClient =
      some s ∧ Conserved 1 startedClient s := by
  refine ⟨_, rfl, ?_⟩
  refine (@clientRun_conserved_iff 2 fifoDevice 1
    [.connect false, .connect true,
      .message (letterLine 16 (by decide)) ⟨.connOpen, 0⟩] startedClient _ (by decide)
    startedClient_start rfl).mpr ?_
  decide

/-- After a line of seventeen bytes, which `csp_send` refuses, the client connects
again and finds no buffer for the next line, and for no line after it. -/
theorem not_conserved_seventeen_bytes :
    ClientStart 1 startedClient ∧
    ∃ s, clientRun fifoDevice
        [.connect true, .message (letterLine 17 (by decide)) ⟨.connOpen, 0⟩,
          .connect true] startedClient = some s ∧
      s.loc = .messaging ∧
      (cspBufferGet 1 s.node.pool).1 = none ∧
      ¬ Conserved 1 startedClient s := by
  refine ⟨startedClient_start, _, rfl, by decide +kernel, by decide +kernel, ?_⟩
  intro hConserved
  have hSome := hConserved.can_allocate 1 (by decide)
  exact hSome (by decide +kernel)

end Csp
end CubeSatComm
