import CubeSatComm.Lib.Feed
import CubeSatComm.Lib.Loop

/-!
# Receivers that own one buffer at a time

A receiver reads into a buffer, hands the buffer on, and asks for the next one.  It
ends when a read fails or finds the end, and also when it has no buffer for what
arrives.  A supply answers the requests; it may refuse any of them.

The same memory may be given out again after it has come back.  So a buffer is known
by the number of the request it answers, and the receiver keeps a log of the buffers
it is given and of those it hands on.  What it owns can be read off this log.

`ownsWell_iff` says when a receiver deals with its buffers as it should throughout a
run, and `Owns.run_handed` which buffers it hands on.
-/

namespace CubeSatComm
namespace Lib

/-- A device and the call that reads from it: each result is a read of at most `count`
elements of what is to arrive. -/
structure Reader (δ α ε : Type) where
  read : δ → Option (Except ε (List α) × δ)
  arrivals : δ → Feed α ε
  count : Nat
  count_pos : 0 < count
  read_arrivals : ∀ device,
    (read device).map (Prod.map id arrivals) = (arrivals device).read count

namespace Reader

variable {δ α ε : Type} (reader : Reader δ α ε) {device device' : δ}
  {out : Except ε (List α)} {rest : Feed α ε}

theorem arrivals_of_read (hRead : reader.read device = some (out, device')) :
    (reader.arrivals device).read reader.count =
      some (out, reader.arrivals device') := by
  rw [← reader.read_arrivals, hRead]
  rfl

theorem arrivals_of_read_none (hRead : reader.read device = none) :
    reader.arrivals device = [] := by
  have hFeed := reader.read_arrivals device
  rw [hRead] at hFeed
  exact Feed.eq_nil_of_read_none hFeed.symm

end Reader

namespace Receiver

/-- What happens to a buffer. -/
inductive Event (β : Type) where
  /-- It is given to the receiver, as the answer to request `k`. -/
  | got (k : Nat)
  /-- The receiver hands it on, with this content. -/
  | handed (k : Nat) (buffer : β)

variable {δ α ε β : Type}

/-- The buffers that are owned after an event. -/
def Event.effect (held : List Nat) : Event β → List Nat
  | got k => held ++ [k]
  | handed k _ => held.erase k

/-- The buffers that are owned after the events of a log. -/
def owned (log : List (Event β)) : List Nat :=
  log.foldl Event.effect []

/-- The buffers that are handed on, with their contents. -/
def handed (log : List (Event β)) : List (Nat × β) :=
  log.filterMap fun event =>
    match event with
    | .got _ => none
    | .handed k buffer => some (k, buffer)

/-- The answer to request `k`. -/
def request (supply : Nat → Option β) (k : Nat) : Option (Nat × β) :=
  (supply k).map fun buffer => (k, buffer)

/-- What the log says about it. -/
def answer (supply : Nat → Option β) (k : Nat) : List (Event β) :=
  (supply k).toList.map fun _ => .got k

/-- State of a receiver. -/
structure State (δ β : Type) where
  /-- The buffer that the next read stores into, if there is one. -/
  current : Option (Nat × β)
  /-- Number of requests so far. -/
  asked : Nat
  device : δ
  log : List (Event β)

/-- The state behind the first request. -/
def start (supply : Nat → Option β) (device : δ) : State δ β :=
  ⟨request supply 0, 1, device, answer supply 0⟩

/-- Hand a buffer on and ask for the next one. -/
def State.handOn (supply : Nat → Option β) (k : Nat) (buffer : β) (device : δ)
    (s : State δ β) : State δ β where
  current := request supply s.asked
  asked := s.asked + 1
  device := device
  log := s.log ++ .handed k buffer :: answer supply s.asked

/-- One pass of a receiver. -/
def pass (reader : Reader δ α ε) (fill : β → List α → β) (supply : Nat → Option β)
    (s : State δ β) : Pass (State δ β) (State δ β) :=
  match reader.read s.device with
  | none => .blocked
  | some (.error _, device) => .leave { s with device := device }
  | some (.ok xs, device) =>
      match s.current with
      -- there is nothing to store into, and the read fails
      | none => .leave s
      | some (k, buffer) =>
          if xs = [] then
            .leave { s with device := device }
          else
            .again (s.handOn supply k (fill buffer xs) device)

section Pass

variable {reader : Reader δ α ε} {fill : β → List α → β} {supply : Nat → Option β}
  {s s' : State δ β} {device : δ} {xs : List α} {k : Nat} {buffer : β}

theorem pass_blocked (hRead : reader.read s.device = none) :
    pass reader fill supply s = .blocked := by
  rw [pass, hRead]

theorem pass_error {e : ε} (hRead : reader.read s.device = some (.error e, device)) :
    pass reader fill supply s = .leave { s with device := device } := by
  rw [pass, hRead]

theorem pass_refused (hRead : reader.read s.device = some (.ok xs, device))
    (hNone : s.current = none) : pass reader fill supply s = .leave s := by
  rw [pass, hRead]
  dsimp only
  rw [hNone]

theorem pass_end (hRead : reader.read s.device = some (.ok [], device))
    (hCurrent : s.current = some (k, buffer)) :
    pass reader fill supply s = .leave { s with device := device } := by
  rw [pass, hRead]
  dsimp only
  rw [hCurrent]
  rfl

theorem pass_data (hRead : reader.read s.device = some (.ok xs, device))
    (hCurrent : s.current = some (k, buffer)) (hNe : xs ≠ []) :
    pass reader fill supply s =
      .again (s.handOn supply k (fill buffer xs) device) := by
  rw [pass, hRead]
  dsimp only
  rw [hCurrent]
  exact if_neg hNe

/-- What a pass that goes on does. -/
theorem pass_again (hPass : pass reader fill supply s = .again s') :
    ∃ xs device k buffer, reader.read s.device = some (.ok xs, device) ∧ xs ≠ [] ∧
      s.current = some (k, buffer) ∧
      s' = s.handOn supply k (fill buffer xs) device := by
  unfold pass at hPass
  split at hPass
  · cases hPass
  · cases hPass
  · next xs device hRead =>
    split at hPass
    · cases hPass
    · next k buffer hCurrent =>
      split at hPass
      · cases hPass
      · next hNe =>
        obtain rfl := Pass.again.inj hPass
        exact ⟨xs, device, k, buffer, hRead, hNe, hCurrent, rfl⟩

/-- A receiver waits only when nothing is to arrive. -/
theorem pass_waits (hPass : pass reader fill supply s = .blocked) :
    reader.arrivals s.device = [] := by
  unfold pass at hPass
  split at hPass
  · next hRead => exact reader.arrivals_of_read_none hRead
  · cases hPass
  · split at hPass
    · cases hPass
    · split at hPass <;> cases hPass

/-- It ends when a read fails or finds the end, or has no buffer. -/
theorem pass_leave {last : State δ β} (hPass : pass reader fill supply s = .leave last) :
    last.log = s.log ∧
      ((∃ e device, reader.read s.device = some (.error e, device)) ∨
        ∃ xs device, reader.read s.device = some (.ok xs, device) ∧
          (s.current = none ∨ xs = [])) := by
  unfold pass at hPass
  split at hPass
  · cases hPass
  · next e device hRead =>
    obtain rfl := Pass.leave.inj hPass
    exact ⟨rfl, .inl ⟨e, device, hRead⟩⟩
  · next xs device hRead =>
    split at hPass
    · next hNone =>
      obtain rfl := Pass.leave.inj hPass
      exact ⟨rfl, .inr ⟨xs, device, hRead, .inl hNone⟩⟩
    · split at hPass
      · next hNil =>
        obtain rfl := Pass.leave.inj hPass
        exact ⟨rfl, .inr ⟨xs, device, hRead, .inr hNil⟩⟩
      · cases hPass

theorem pass_decreases (reader : Reader δ α ε) (fill : β → List α → β)
    (supply : Nat → Option β) :
    Loop.Decreases (pass reader fill supply)
      fun s => (reader.arrivals s.device).size := by
  intro s s' hPass
  obtain ⟨xs, device, k, buffer, hRead, -, -, rfl⟩ := pass_again hPass
  exact Feed.size_lt_of_read reader.count_pos (reader.arrivals_of_read hRead)

end Pass

/-- A receiver, until it ends or waits for ever. -/
def run (reader : Reader δ α ε) (fill : β → List α → β) (supply : Nat → Option β)
    (s : State δ β) : State δ β :=
  Loop.settle (pass reader fill supply)
    (fun s => (reader.arrivals s.device).size)
    (pass_decreases reader fill supply) s

/-! ## Ownership -/

/-- What has to hold whenever the receiver reads. -/
structure Disciplined (s : State δ β) : Prop where
  /-- The read stores into a buffer that the receiver owns. -/
  into_owned : ∃ k buffer, s.current = some (k, buffer) ∧ k ∈ owned s.log
  /-- No buffer has been handed on twice. -/
  handed_once : ((handed s.log).map Prod.fst).Nodup

/-- What has to hold when the receiver ends, after a last read in `s`. -/
structure EndsClean (reader : Reader δ α ε) (s last : State δ β) : Prop where
  /-- That read has failed or found the end. -/
  device_ended : ∃ out device, reader.read s.device = some (out, device) ∧
    ∀ xs, out = .ok xs → xs = []
  owns_nothing : owned last.log = []

/-- The receiver deals with its buffers as it should. -/
def OwnsWell (reader : Reader δ α ε) (fill : β → List α → β)
    (supply : Nat → Option β) (s : State δ β) : Prop :=
  Loop.Keeps (pass reader fill supply) Disciplined (EndsClean reader) s

/-- From request `k` on there is neither a failure, nor an end, nor a refusal. -/
structure Sustained (count : Nat) (supply : Nat → Option β) (k : Nat)
    (feed : Feed α ε) : Prop where
  no_failure : ¬ feed.Fails
  no_end : ∀ xs ∈ feed.chunks count, xs ≠ []
  supplied : ∀ i ≤ (feed.chunks count).length, supply (k + i) ≠ none

theorem sustained_nil {count k : Nat} {supply : Nat → Option β} :
    Sustained count supply k ([] : Feed α ε) ↔ supply k ≠ none := by
  constructor
  · intro hAll
    exact hAll.supplied 0 (Nat.zero_le _)
  · intro hSome
    refine ⟨Feed.not_fails_nil, nofun, ?_⟩
    intro i hLe
    rw [Nat.le_zero.mp hLe]
    exact hSome

theorem sustained_of_read {count k : Nat} (hPos : 0 < count)
    {supply : Nat → Option β} {feed rest : Feed α ε} {xs : List α}
    (hRead : feed.read count = some (.ok xs, rest)) :
    Sustained count supply k feed ↔
      supply k ≠ none ∧ xs ≠ [] ∧ Sustained count supply (k + 1) rest := by
  have hChunks := Feed.chunks_of_read hPos hRead
  constructor
  · intro hAll
    refine ⟨hAll.supplied 0 (Nat.zero_le _),
      hAll.no_end xs (by rw [hChunks]; exact List.mem_cons_self), ?_⟩
    refine ⟨fun hFails => hAll.no_failure ((Feed.fails_iff_of_read hRead).mpr hFails),
      fun ys hMem => hAll.no_end ys (by rw [hChunks]; exact List.mem_cons_of_mem _ hMem),
      ?_⟩
    intro i hLe
    rw [Nat.add_right_comm, Nat.add_assoc]
    apply hAll.supplied
    rw [hChunks, List.length_cons]
    omega
  · rintro ⟨hFirst, hNe, hRest⟩
    refine ⟨fun hFails => hRest.no_failure ((Feed.fails_iff_of_read hRead).mp hFails),
      ?_, ?_⟩
    · intro ys hMem
      rw [hChunks] at hMem
      rcases List.mem_cons.mp hMem with rfl | hMem
      · exact hNe
      · exact hRest.no_end ys hMem
    · intro i hLe
      rw [hChunks, List.length_cons] at hLe
      cases i with
      | zero => exact hFirst
      | succ i =>
          rw [← Nat.add_assoc, Nat.add_right_comm]
          exact hRest.supplied i (by omega)

/-- The receiver has handed on the answers to the first `k` requests, and owns the
answer to request `k`, unless that is refused. -/
structure Owns (supply : Nat → Option β) (k : Nat) (s : State δ β) : Prop where
  asked : s.asked = k + 1
  current : s.current = request supply k
  owned_eq : owned s.log = (supply k).toList.map fun _ => k
  handed_eq : (handed s.log).map Prod.fst = List.range k

theorem owned_append_handed (log : List (Event β)) (k : Nat) (buffer : β)
    (events : List (Event β)) :
    owned (log ++ .handed k buffer :: events) =
      events.foldl Event.effect ((owned log).erase k) := by
  rw [owned, List.foldl_append]
  rfl

theorem handed_append (log events : List (Event β)) :
    handed (log ++ events) = handed log ++ handed events := by
  rw [handed, List.filterMap_append]
  rfl

theorem foldl_answer (supply : Nat → Option β) (k : Nat) :
    (answer supply k).foldl Event.effect [] = (supply k).toList.map fun _ => k := by
  unfold answer
  cases supply k <;> rfl

theorem handed_answer (supply : Nat → Option β) (k : Nat) :
    handed (answer supply k) = [] := by
  unfold answer
  cases supply k <;> rfl

@[simp] theorem handed_handOn (supply : Nat → Option β) (k : Nat) (buffer : β)
    (device : δ) (s : State δ β) :
    handed (s.handOn supply k buffer device).log = handed s.log ++ [(k, buffer)] := by
  rw [State.handOn, ← List.singleton_append, handed_append, handed_append, handed_answer,
    List.append_nil]
  rfl

theorem owns_start (supply : Nat → Option β) (device : δ) :
    Owns supply 0 (start supply device) where
  asked := rfl
  current := rfl
  owned_eq := foldl_answer supply 0
  handed_eq := by
    rw [start, handed_answer]
    rfl

section Owns

variable {reader : Reader δ α ε} {fill : β → List α → β} {supply : Nat → Option β}
  {s : State δ β} {k : Nat}

/-- A pass that goes on hands the buffer on and owns the answer to the next request. -/
theorem Owns.handOn {stored : β} (hOwns : Owns supply k s) (hStored : supply k = some stored)
    (buffer : β) (device : δ) :
    Owns supply (k + 1) (s.handOn supply k buffer device) where
  asked := by rw [State.handOn, hOwns.asked]
  current := by rw [State.handOn, hOwns.asked]
  owned_eq := by
    rw [State.handOn, owned_append_handed, hOwns.owned_eq, hStored, hOwns.asked,
      Option.toList_some, List.map_singleton, List.erase_cons_head, foldl_answer]
  handed_eq := by
    rw [handed_handOn, List.map_append, hOwns.handed_eq, List.range_succ]
    rfl

/-- What such a pass does, in terms of the supply. -/
theorem Owns.again {s' : State δ β} (hOwns : Owns supply k s)
    (hPass : pass reader fill supply s = .again s') :
    ∃ xs device buffer, reader.read s.device = some (.ok xs, device) ∧ xs ≠ [] ∧
      supply k = some buffer ∧ s' = s.handOn supply k (fill buffer xs) device := by
  obtain ⟨xs, device, j, buffer, hRead, hNe, hCurrent, rfl⟩ := pass_again hPass
  rw [hOwns.current, request, Option.map_eq_some_iff] at hCurrent
  obtain ⟨stored, hStored, hEq⟩ := hCurrent
  obtain ⟨rfl, rfl⟩ := Prod.mk.inj hEq
  exact ⟨xs, device, stored, hRead, hNe, hStored, rfl⟩

/-- So the receiver owns at most one buffer at a time, and hands on each of them at
most once, whatever is read and whatever is refused. -/
theorem passes_owns {device : δ}
    (hPasses : Loop.Passes (pass reader fill supply) k (start supply device) s) :
    Owns supply k s := by
  refine Loop.Passes.invariant (motive := Owns supply) (owns_start supply device) ?_
    hPasses
  intro k s s' hOwns hPass
  obtain ⟨xs, device, buffer, -, -, hSome, rfl⟩ := hOwns.again hPass
  exact hOwns.handOn hSome _ device

theorem Owns.disciplined_iff (hOwns : Owns supply k s) :
    Disciplined s ↔ supply k ≠ none := by
  constructor
  · rintro ⟨⟨j, buffer, hCurrent, -⟩, -⟩ hNone
    rw [hOwns.current, request, hNone] at hCurrent
    cases hCurrent
  · intro hSome
    obtain ⟨buffer, hBuffer⟩ := Option.ne_none_iff_exists'.mp hSome
    refine ⟨⟨k, buffer, ?_, ?_⟩, ?_⟩
    · rw [hOwns.current, request, hBuffer]
      rfl
    · rw [hOwns.owned_eq, hBuffer]
      exact List.mem_singleton_self k
    · rw [hOwns.handed_eq]
      exact List.nodup_range

/-- A receiver that ends owns the buffer that it has not read into. -/
theorem Disciplined.not_endsClean (hDisciplined : Disciplined s) {last : State δ β}
    (hLog : last.log = s.log) : ¬ EndsClean reader s last := by
  rintro ⟨-, hNothing⟩
  obtain ⟨k, buffer, -, hOwned⟩ := hDisciplined.into_owned
  rw [hLog] at hNothing
  rw [hNothing] at hOwned
  cases hOwned

/-- What ends a receiver is a failure, an end or a refusal. -/
theorem Owns.not_sustained (hOwns : Owns supply k s) {last : State δ β}
    (hPass : pass reader fill supply s = .leave last) :
    ¬ Sustained reader.count supply k (reader.arrivals s.device) := by
  obtain ⟨-, ⟨e, device, hRead⟩ | ⟨xs, device, hRead, hCause⟩⟩ := pass_leave hPass
  · rw [Feed.eq_of_read_error (reader.arrivals_of_read hRead)]
    intro hAll
    exact hAll.no_failure (Feed.fails_failure e _)
  · rw [sustained_of_read reader.count_pos (reader.arrivals_of_read hRead)]
    rintro ⟨hSome, hNe, -⟩
    rcases hCause with hNone | hNil
    · rw [hOwns.current, request, Option.map_eq_none_iff] at hNone
      exact hSome hNone
    · exact hNe hNil

/-- Exactly if nothing ever fails, ends or is refused does the receiver deal with its
buffers as it should: every end of the loop leaves a buffer behind. -/
theorem ownsWell_iff (hOwns : Owns supply k s) :
    OwnsWell reader fill supply s ↔
      Sustained reader.count supply k (reader.arrivals s.device) := by
  -- induction along the passes; each of them is for the next request
  induction hSize : (reader.arrivals s.device).size using Nat.strongRecOn
    generalizing s k with
  | _ size ih =>
      rw [OwnsWell]
      cases hPass : pass reader fill supply s with
      | blocked =>
          rw [Loop.keeps_blocked_iff hPass, hOwns.disciplined_iff, pass_waits hPass,
            sustained_nil]
      | leave last =>
          rw [Loop.keeps_leave_iff hPass]
          constructor
          · rintro ⟨hDisciplined, hEnds⟩
            exact absurd hEnds (hDisciplined.not_endsClean (pass_leave hPass).1)
          · intro hAll
            exact absurd hAll (hOwns.not_sustained hPass)
      | again s' =>
          have hSmaller : (reader.arrivals s'.device).size < size :=
            hSize ▸ pass_decreases reader fill supply s s' hPass
          obtain ⟨xs, device, buffer, hRead, hNe, hSome, rfl⟩ := hOwns.again hPass
          have hRest := ih _ hSmaller (hOwns.handOn hSome (fill buffer xs) device) rfl
          rw [OwnsWell] at hRest
          rw [Loop.keeps_again_iff hPass, hOwns.disciplined_iff, hRest,
            sustained_of_read reader.count_pos (reader.arrivals_of_read hRead)]
          exact ⟨fun hBoth => ⟨hBoth.1, hNe, hBoth.2⟩, fun hAll => ⟨hAll.1, hAll.2.2⟩⟩

end Owns

/-! ## What is handed on -/

/-- A buffer that `xs` has been read into. -/
def Filled (fill : β → List α → β) (xs : List α) (buffer : β) : Prop :=
  ∃ stale, buffer = fill stale xs

/-- The reads that find data and a buffer to store it, up to the first that does
not. -/
def served (supply : Nat → Option β) : Nat → List (List α) → List (List α)
  | _, [] => []
  | k, xs :: rest =>
      if supply k = none ∨ xs = [] then [] else xs :: served supply (k + 1) rest

theorem served_refused {supply : Nat → Option β} {k : Nat} (hNone : supply k = none)
    (reads : List (List α)) : served supply k reads = [] := by
  cases reads with
  | nil => rfl
  | cons xs rest => exact if_pos (.inl hNone)

theorem served_prefix (supply : Nat → Option β) (k : Nat) (reads : List (List α)) :
    served supply k reads <+: reads := by
  induction reads generalizing k with
  | nil => exact List.prefix_rfl
  | cons xs rest ih =>
      rw [served]
      split
      · exact List.nil_prefix
      · exact (List.prefix_cons_inj xs).mpr (ih (k + 1))

section Handed

variable {reader : Reader δ α ε} {fill : β → List α → β} {supply : Nat → Option β}
  {s : State δ β} {k : Nat}

/-- No read is served any more when a receiver ends. -/
theorem Owns.served_eq_nil (hOwns : Owns supply k s) {last : State δ β}
    (hPass : pass reader fill supply s = .leave last) :
    served supply k ((reader.arrivals s.device).chunks reader.count) = [] := by
  obtain ⟨-, ⟨e, device, hRead⟩ | ⟨xs, device, hRead, hCause⟩⟩ := pass_leave hPass
  · rw [Feed.eq_of_read_error (reader.arrivals_of_read hRead)]
    rfl
  · rw [Feed.chunks_of_read reader.count_pos (reader.arrivals_of_read hRead)]
    rw [hOwns.current, request, Option.map_eq_none_iff] at hCause
    exact if_pos hCause

/-- One buffer is handed on for each of these reads, filled by it. -/
theorem Owns.run_handed (hOwns : Owns supply k s) :
    ∃ buffers, (handed (run reader fill supply s).log).map Prod.snd =
        (handed s.log).map Prod.snd ++ buffers ∧
      List.Forall₂ (Filled fill)
        (served supply k ((reader.arrivals s.device).chunks reader.count)) buffers := by
  refine Loop.settle_induction (motive := fun s last => ∀ k, Owns supply k s →
    ∃ buffers, (handed last.log).map Prod.snd = (handed s.log).map Prod.snd ++ buffers ∧
      List.Forall₂ (Filled fill)
        (served supply k ((reader.arrivals s.device).chunks reader.count)) buffers)
    ?_ ?_ ?_ s k hOwns
  · intro s last hPass k hOwns
    rw [hOwns.served_eq_nil hPass, (pass_leave hPass).1]
    exact ⟨[], (List.append_nil _).symm, .nil⟩
  · intro s hPass k _
    rw [pass_waits hPass]
    exact ⟨[], (List.append_nil _).symm, .nil⟩
  · intro s s' hPass ih k hOwns
    obtain ⟨xs, device, buffer, hRead, hNe, hSome, rfl⟩ := hOwns.again hPass
    obtain ⟨buffers, hHanded, hFilled⟩ :=
      ih (k + 1) (hOwns.handOn hSome (fill buffer xs) device)
    have hServed : ¬ (supply k = none ∨ xs = []) := by
      simp [hSome, hNe]
    rw [Feed.chunks_of_read reader.count_pos (reader.arrivals_of_read hRead), served,
      if_neg hServed]
    refine ⟨fill buffer xs :: buffers, ?_, .cons ⟨buffer, rfl⟩ hFilled⟩
    rw [hHanded, handed_handOn, List.map_append, List.append_assoc]
    rfl

end Handed

end Receiver
end Lib
end CubeSatComm
