import CubeSatComm.Csp.PerformanceTest
import CubeSatComm.Lib.Transition

/-!
# Who has the buffers in the local performance test

The client gets a buffer, sends it, and frees it.  `csp_send` gives the packet to the
router, so the client frees what it no longer owns: the buffer goes back to the pool while
the router, the connection or the server may still have it.

The router and the server only pass buffers on and give them back (`Carries`).  So all
places are exclusive as long as the client frees no packet in transit, and the first such
call puts a buffer into the pool that is somewhere else too.
-/

namespace CubeSatComm
namespace Csp
namespace Loopback

open Lib

variable {n m : Nat}

/-- The pool is in order, and no buffer is in two places. -/
structure Sound (s : TestState n m) : Prop where
  pool : s.node.pool.WellFormed
  exclusive : s.OwnsExclusively

/-- Buffers have been passed on, given back to the pool or forgotten, without the
client. -/
structure Carries (s s' : TestState n m) : Prop where
  sound : Sound s'
  returned : s.node.pool.Returned s'.node.pool
  nowhere : ∀ packet, Nowhere s.buffersIn packet → Nowhere s'.buffersIn packet
  memory : s'.node.memory = s.node.memory

section Carries

variable {s s' s'' : TestState n m}

theorem Carries.trans (hFirst : Carries s s') (hLater : Carries s' s'') : Carries s s'' where
  sound := hLater.sound
  returned := hFirst.returned.trans hLater.returned
  nowhere := fun packet hNowhere => hLater.nowhere packet (hFirst.nowhere packet hNowhere)
  memory := hLater.memory.trans hFirst.memory

/-- Nothing has been taken from the pool or put into it, and no place has got anything. -/
theorem Sound.carries_of_sublist (hSound : Sound s) (hPool : s'.node.pool = s.node.pool)
    (hMemory : s'.node.memory = s.node.memory)
    (hSub : ∀ place, (s'.buffersIn place).Sublist (s.buffersIn place)) : Carries s s' where
  sound := ⟨hPool ▸ hSound.pool, hSound.exclusive.mono hSub⟩
  returned := hPool ▸ .refl _
  nowhere := fun _ hNowhere => hNowhere.mono hSub
  memory := hMemory

theorem Sound.carries_of_eq (hSound : Sound s) (hPool : s'.node.pool = s.node.pool)
    (hMemory : s'.node.memory = s.node.memory) (hEq : s'.buffersIn = s.buffersIn) :
    Carries s s' :=
  hSound.carries_of_sublist hPool hMemory fun _ => hEq ▸ List.Sublist.refl _

/-- The place `q` has got the packets `xs` from the place `p`, and all others are as they
were. -/
theorem Sound.carries_of_move (hSound : Sound s) {p q : Place m} (xs ys : List (Fin n))
    (hNe : p ≠ q) (hWellFormed : s'.node.pool.WellFormed)
    (hReturned : s.node.pool.Returned s'.node.pool)
    (hMemory : s'.node.memory = s.node.memory) (hPlace : s'.buffersIn q = ys ++ xs)
    (hKept : ys.Sublist (s.buffersIn q))
    (hOthers : ∀ place, place ≠ p → place ≠ q → s'.buffersIn place = s.buffersIn place)
    (hLeft : (s'.buffersIn p).Sublist (s.buffersIn p))
    (hFrom : xs.Sublist (s.buffersIn p)) (hGone : ∀ x ∈ xs, x ∉ s'.buffersIn p) :
    Carries s s' := by
  have hSub : ∀ place ≠ q, (s'.buffersIn place).Sublist (s.buffersIn place) := by
    intro place hPlaceNe
    by_cases hSame : place = p
    · exact hSame ▸ hLeft
    · exact hOthers place hSame hPlaceNe ▸ List.Sublist.refl _
  have hFresh : ∀ x ∈ xs, x ∉ ys ∧ ∀ place ≠ q, x ∉ s'.buffersIn place := by
    intro x hMem
    have hIn : x ∈ s.buffersIn p := hFrom.subset hMem
    constructor
    · intro hOld
      exact hSound.exclusive.not_mem hIn (Ne.symm hNe) (hKept.subset hOld)
    · intro place hPlaceNe hAt
      by_cases hSame : place = p
      · exact hGone x hMem (hSame ▸ hAt)
      · exact hSound.exclusive.not_mem hIn hSame ((hSub place hPlaceNe).subset hAt)
  constructor
  · exact ⟨hWellFormed, hSound.exclusive.receive hPlace hKept hSub
      ((hSound.exclusive.nodup p).sublist hFrom) hFresh⟩
  · exact hReturned
  · intro packet hNowhere place
    by_cases hSame : place = q
    · rw [hSame, hPlace, List.mem_append, not_or]
      exact ⟨fun hMem => hNowhere q (hKept.subset hMem),
        fun hMem => hNowhere p (hFrom.subset hMem)⟩
    · exact fun hMem => hNowhere place ((hSub place hSame).subset hMem)
  · exact hMemory

/-- The place `q` has got a packet that was nowhere. -/
theorem Sound.exclusive_of_insert (hSound : Sound s) {q : Place m} {packet : Fin n}
    (hNowhere : Nowhere s.buffersIn packet)
    (hPlace : s'.buffersIn q = s.buffersIn q ++ [packet])
    (hOthers : ∀ place ≠ q, s'.buffersIn place = s.buffersIn place) :
    s'.OwnsExclusively := by
  refine hSound.exclusive.receive hPlace (List.Sublist.refl _) ?_
    (List.nodup_singleton packet) ?_
  · exact fun place hNe => hOthers place hNe ▸ List.Sublist.refl _
  · rw [List.forall_mem_singleton]
    exact ⟨hNowhere q, fun place hNe => hOthers place hNe ▸ hNowhere place⟩

end Carries

/-! ## The functions of the library -/

section Library

variable {s : TestState n m}

/-- A change of a connection that leaves its queue alone. -/
theorem buffersIn_modifyConn {node : Node n m} {conn : Fin m} {change : Conn n → Conn n}
    (hQueue : ∀ c, (change c).rxQueue = c.rxQueue) (router server : Option (Fin n)) :
    (node.modifyConn conn change).buffersIn router server =
      node.buffersIn router server := by
  funext place
  cases place with
  | rxQueue other =>
      simp only [Node.buffersIn, Node.modifyConn]
      by_cases hSame : other = conn
      · rw [hSame, Function.update_self, hQueue]
      · rw [Function.update_of_ne hSame]
  | pool => rfl
  | qfifo => rfl
  | router => rfl
  | server => rfl

theorem Sound.modifyConn (hSound : Sound s) (conn : Fin m) (change : Conn n → Conn n)
    (hQueue : ∀ c, (change c).rxQueue = c.rxQueue) :
    Carries s { s with node := s.node.modifyConn conn change } :=
  hSound.carries_of_eq rfl rfl (buffersIn_modifyConn hQueue _ _)

/-- The packets of a queue go back to the pool. -/
theorem Sound.flush (hSound : Sound s) (conn : Fin m) :
    Carries s { s with node := cspConnFlushRxQueue conn s.node } := by
  have hNodup : (s.buffersIn (.rxQueue conn)).Nodup := hSound.exclusive.nodup _
  have hUsed : ∀ packet ∈ s.buffersIn (.rxQueue conn), packet ∉ s.node.pool.cspBuffers :=
    fun packet hMem => hSound.exclusive.not_mem (q := Place.pool) hMem nofun
  obtain ⟨hQueue, hWellFormed, hReturned⟩ := hSound.pool.free_all hNodup hUsed
  have hEmpty : TestState.buffersIn
      { s with node := cspConnFlushRxQueue conn s.node } (.rxQueue conn) = [] := by
    simp [TestState.buffersIn, Node.buffersIn, cspConnFlushRxQueue]
  refine hSound.carries_of_move (p := .rxQueue conn) (q := .pool) _ _ nofun hWellFormed
    hReturned rfl hQueue (List.Sublist.refl _) ?_ ?_ (List.Sublist.refl _) ?_
  · intro place hConn hPool
    cases place with
    | pool => exact absurd rfl hPool
    | rxQueue other =>
        have hOther : other ≠ conn := fun hSame => hConn (hSame ▸ rfl)
        simp only [TestState.buffersIn, Node.buffersIn, cspConnFlushRxQueue]
        rw [Function.update_of_ne hOther]
    | qfifo => rfl
    | router => rfl
    | server => rfl
  · rw [hEmpty]
    exact List.nil_sublist _
  · rw [hEmpty]
    exact fun _ _ => List.not_mem_nil

theorem Sound.connAllocate (hSound : Sound s) (type : ConnType) :
    Carries s { s with node := (cspConnAllocate type s.node).2 } := by
  unfold cspConnAllocate
  dsimp only
  split
  · exact hSound.carries_of_eq rfl rfl rfl
  · next conn _ =>
    have hOpened := hSound.modifyConn conn
      (fun c => { c with
        type := type
        state := .connOpen
        idin := ⟨0, 0, 0, 0⟩
        idout := ⟨0, 0, 0, 0⟩
        socket := false }) fun _ => rfl
    exact hOpened.trans (hOpened.sound.carries_of_eq rfl rfl rfl)

theorem Sound.connNew (hSound : Sound s) (idin idout : CspId) :
    Carries s { s with node := (cspConnNew idin idout s.node).2 } := by
  have hAllocate := hSound.connAllocate .connClient
  unfold cspConnNew
  split
  · next node hNone =>
    rwa [hNone] at hAllocate
  · next conn node hSome =>
    rw [hSome] at hAllocate
    have hIds := hAllocate.sound.modifyConn conn
      (fun c => { c with idin := idin, idout := idout }) fun _ => rfl
    exact (hAllocate.trans hIds).trans (hIds.sound.flush conn)

theorem Sound.close (hSound : Sound s) (conn : Fin m) :
    Carries s { s with node := cspClose conn s.node } := by
  unfold cspClose
  split
  · exact hSound.carries_of_eq rfl rfl rfl
  · have hState := hSound.modifyConn conn
      (fun c => { c with state := .connClosed }) fun _ => rfl
    have hFlush := hState.trans (hState.sound.flush conn)
    dsimp only
    split
    · have hSocket := hFlush.sound.modifyConn conn
        (fun c => { c with socket := false }) fun _ => rfl
      exact hFlush.trans (hSocket.trans (hSocket.sound.carries_of_eq rfl rfl rfl))
    · exact hFlush

end Library

/-! ## The router -/

section Router

variable {s : TestState n m} {packet : Fin n} {conn : Fin m} {node : Node n m}
  {conf : CspConf}

/-- The router takes the oldest packet of the FIFO. -/
theorem Sound.take (hSound : Sound s) {rest : List (Fin n)}
    (hFifo : s.node.qfifo = packet :: rest) :
    Carries s { s with router := .routing packet, node := { s.node with qfifo := rest } } := by
  have hNodup : (packet :: rest).Nodup := hFifo ▸ hSound.exclusive.nodup .qfifo
  refine hSound.carries_of_move (p := .qfifo) (q := .router) [packet] [] nofun
    hSound.pool (.refl _) rfl rfl (List.nil_sublist _) ?_ ?_ ?_ ?_
  · intro place hFifo' hRouter
    cases place with
    | qfifo => exact absurd rfl hFifo'
    | router => exact absurd rfl hRouter
    | pool => rfl
    | rxQueue => rfl
    | server => rfl
  · simp only [TestState.buffersIn, Node.buffersIn]
    rw [hFifo]
    exact List.sublist_cons_self _ _
  · simp only [TestState.buffersIn, Node.buffersIn]
    rw [hFifo]
    exact List.cons_sublist_cons.mpr (List.nil_sublist _)
  · intro other hMem
    rw [List.mem_singleton.mp hMem]
    exact (List.nodup_cons.mp hNodup).1

/-- The router frees its packet. -/
theorem Sound.drop (hSound : Sound s) (hRouter : s.router.packet = some packet) :
    Carries s { s with router := .idle, node := s.node.free (some packet) } := by
  have hMem : packet ∈ s.buffersIn .router := by
    simp [TestState.buffersIn, Node.buffersIn, hRouter]
  have hUsed : packet ∉ s.node.pool.cspBuffers :=
    hSound.exclusive.not_mem (q := Place.pool) hMem nofun
  refine hSound.carries_of_move (p := .router) (q := .pool) [packet] _ nofun
    (hSound.pool.free hUsed) (hSound.pool.returned_free hUsed) rfl ?_
    (List.Sublist.refl _) ?_ (List.nil_sublist _) (List.singleton_sublist.mpr hMem) ?_
  · simp only [TestState.buffersIn, Node.buffersIn, Node.free]
    rw [cspBufferFree_used hSound.pool hUsed]
  · intro place hRouter' hPool
    cases place with
    | router => exact absurd rfl hRouter'
    | pool => exact absurd rfl hPool
    | qfifo => rfl
    | rxQueue => rfl
    | server => rfl
  · intro other _
    exact List.not_mem_nil

/-- The router puts its packet into the queue of a connection. -/
theorem Sound.deliver (hSound : Sound s) (hRouter : s.router.packet = some packet)
    (conn : Fin m) :
    Carries s { s with
      router := .idle
      node := s.node.modifyConn conn fun c =>
        { c with rxQueue := c.rxQueue ++ [packet] } } := by
  have hMem : packet ∈ s.buffersIn .router := by
    simp [TestState.buffersIn, Node.buffersIn, hRouter]
  refine hSound.carries_of_move (p := .router) (q := .rxQueue conn) [packet]
    (s.buffersIn (.rxQueue conn)) nofun hSound.pool (.refl _) rfl ?_
    (List.Sublist.refl _) ?_ (List.nil_sublist _) (List.singleton_sublist.mpr hMem) ?_
  · simp [TestState.buffersIn, Node.buffersIn, Node.modifyConn]
  · intro place hRouter' hConn
    cases place with
    | router => exact absurd rfl hRouter'
    | rxQueue other =>
        have hOther : other ≠ conn := fun hSame => hConn (hSame ▸ rfl)
        simp only [TestState.buffersIn, Node.buffersIn, Node.modifyConn]
        rw [Function.update_of_ne hOther]
    | pool => rfl
    | qfifo => rfl
    | server => rfl
  · intro other _
    exact List.not_mem_nil

theorem Sound.udpNewPacket (hSound : Sound s) (hRouter : s.router.packet = some packet)
    (conf : CspConf) (conn : Fin m) :
    Carries s { s with
      router := .idle
      node := cspUdpNewPacket conf conn packet s.node } := by
  unfold cspUdpNewPacket
  split
  · have hDelivered := hSound.deliver hRouter conn
    dsimp only
    split
    · split
      · have hPosted := hDelivered.sound.modifyConn conn
          (fun c => { c with socket := false }) fun _ => rfl
        exact (hDelivered.trans hPosted).trans (hPosted.sound.carries_of_eq rfl rfl rfl)
      · exact hDelivered.trans (hDelivered.sound.close conn)
    · exact hDelivered
  · exact hSound.drop hRouter

theorem Sound.routeConn_none (hSound : Sound s) (hRouter : s.router = .routing packet)
    (hRoute : cspRouteConn conf packet s.node = (none, node)) :
    Carries s { s with router := .idle, node := node } := by
  have hPacket : s.router.packet = some packet := by rw [hRouter, RouterLoc.packet]
  unfold cspRouteConn at hRoute
  dsimp only at hRoute
  split at hRoute
  · obtain ⟨-, rfl⟩ := Prod.mk.inj hRoute
    exact hSound.drop hPacket
  · split at hRoute
    · cases hRoute
    · split at hRoute
      · obtain ⟨-, rfl⟩ := Prod.mk.inj hRoute
        exact hSound.drop hPacket
      · split at hRoute
        · next node' hNew =>
          obtain ⟨-, rfl⟩ := Prod.mk.inj hRoute
          have hNode := hSound.connNew (s.node.memory packet).id
            ⟨cspAddress, (s.node.memory packet).id.src, (s.node.memory packet).id.sport,
              (s.node.memory packet).id.dport⟩
          rw [hNew] at hNode
          exact hNode.trans (hNode.sound.drop hPacket)
        · cases hRoute

theorem Sound.routeConn_some (hSound : Sound s) (hRouter : s.router = .routing packet)
    (hRoute : cspRouteConn conf packet s.node = (some conn, node)) :
    Carries s { s with router := .delivering packet conn, node := node } := by
  have hKeep : ∀ s' : TestState n m, Sound s' → s'.router = .routing packet →
      Carries s' { s' with router := .delivering packet conn } := by
    intro s' hSound' hRouter'
    refine hSound'.carries_of_eq rfl rfl ?_
    simp only [TestState.buffersIn, hRouter', RouterLoc.packet]
  unfold cspRouteConn at hRoute
  dsimp only at hRoute
  split at hRoute
  · cases hRoute
  · split at hRoute
    · obtain ⟨-, rfl⟩ := Prod.mk.inj hRoute
      exact hKeep s hSound hRouter
    · split at hRoute
      · cases hRoute
      · next socket _ =>
        split at hRoute
        · cases hRoute
        · next conn' node' hNew =>
          obtain ⟨hConn, rfl⟩ := Prod.mk.inj hRoute
          obtain rfl := Option.some.inj hConn
          have hNode := hSound.connNew (s.node.memory packet).id
            ⟨cspAddress, (s.node.memory packet).id.src, (s.node.memory packet).id.sport,
              (s.node.memory packet).id.dport⟩
          rw [hNew] at hNode
          have hSocket := hNode.sound.modifyConn conn'
            (fun c => { c with socket := (node'.arrConn socket).socket }) fun _ => rfl
          exact (hNode.trans hSocket).trans (hKeep _ hSocket.sound hRouter)

/-- A step of the router. -/
theorem Sound.routerStep (hSound : Sound s) (conf : CspConf) :
    Carries s { s with
      router := (routerStep conf s.router s.node).1
      node := (routerStep conf s.router s.node).2 } := by
  cases hRouter : s.router with
  | idle =>
      cases hFifo : s.node.qfifo with
      | nil =>
          simp only [Loopback.routerStep, hFifo]
          refine hSound.carries_of_eq rfl rfl ?_
          simp only [TestState.buffersIn, hRouter]
      | cons packet rest =>
          simp only [Loopback.routerStep, hFifo]
          exact hSound.take hFifo
  | routing packet =>
      simp only [Loopback.routerStep]
      split
      · next node hRoute => exact hSound.routeConn_none hRouter hRoute
      · next conn node hRoute => exact hSound.routeConn_some hRouter hRoute
  | delivering packet conn =>
      have hPacket : s.router.packet = some packet := by rw [hRouter, RouterLoc.packet]
      exact hSound.udpNewPacket hPacket conf conn

end Router

/-! ## The server -/

section Server

variable {s : TestState n m} {conn : Fin m} {node : Node n m}

/-- Without a packet the server lets go of the last one. -/
theorem Sound.read_none (hSound : Sound s) (hRead : cspRead conn s.node = (none, node))
    (loc : ServerLoc m) :
    Carries s { s with
      server := { s.server with loc := loc, packet := none }
      node := node } := by
  have hNode : node = s.node := by
    unfold cspRead at hRead
    split at hRead
    · exact (Prod.mk.inj hRead).2.symm
    · split at hRead
      · exact (Prod.mk.inj hRead).2.symm
      · cases hRead
  rw [hNode]
  refine hSound.carries_of_sublist rfl rfl ?_
  intro place
  cases place with
  | server => exact List.nil_sublist _
  | pool => exact List.Sublist.refl _
  | qfifo => exact List.Sublist.refl _
  | router => exact List.Sublist.refl _
  | rxQueue => exact List.Sublist.refl _

/-- The server takes the oldest packet of the connection, and lets go of the last one. -/
theorem Sound.read_some (hSound : Sound s) {packet : Fin n}
    (hRead : cspRead conn s.node = (some packet, node)) (loc : ServerLoc m) :
    Carries s { s with
      server := { s.server with loc := loc, packet := some packet }
      node := node } := by
  unfold cspRead at hRead
  split at hRead
  · cases hRead
  · split at hRead
    · cases hRead
    · next first rest hQueue =>
      obtain ⟨hFirst, rfl⟩ := Prod.mk.inj hRead
      obtain rfl := Option.some.inj hFirst
      have hNodup : (first :: rest).Nodup := hQueue ▸ hSound.exclusive.nodup (.rxQueue conn)
      refine hSound.carries_of_move (p := .rxQueue conn) (q := .server) [first] []
        nofun hSound.pool (.refl _) rfl rfl (List.nil_sublist _) ?_ ?_ ?_ ?_
      · intro place hConn hServer
        cases place with
        | server => exact absurd rfl hServer
        | rxQueue other =>
            have hOther : other ≠ conn := fun hSame => hConn (hSame ▸ rfl)
            simp only [TestState.buffersIn, Node.buffersIn, Node.modifyConn]
            rw [Function.update_of_ne hOther]
        | pool => rfl
        | qfifo => rfl
        | router => rfl
      · simp only [TestState.buffersIn, Node.buffersIn, Node.modifyConn, Function.update_self]
        rw [hQueue]
        exact List.sublist_cons_self _ _
      · simp only [TestState.buffersIn, Node.buffersIn]
        rw [hQueue]
        exact List.cons_sublist_cons.mpr (List.nil_sublist _)
      · intro other hMem
        rw [List.mem_singleton.mp hMem]
        simp only [TestState.buffersIn, Node.buffersIn, Node.modifyConn, Function.update_self]
        exact (List.nodup_cons.mp hNodup).1

/-- A change of the server's location and socket. -/
theorem Sound.moveServer (hSound : Sound s) {server : Server n m}
    (hPacket : server.packet = s.server.packet) : Carries s { s with server := server } := by
  refine hSound.carries_of_eq rfl rfl ?_
  simp only [TestState.buffersIn, hPacket]

theorem Sound.bind (hSound : Sound s) (socket : Option (Fin m)) :
    Carries s { s with node := cspBind socket s.node } := by
  unfold cspBind
  split
  · exact hSound.carries_of_eq rfl rfl rfl
  · exact hSound.carries_of_eq rfl rfl rfl

theorem Sound.listen (hSound : Sound s) (socket : Option (Fin m)) :
    Carries s { s with node := cspListen socket s.node } := by
  unfold cspListen
  split
  · exact hSound.carries_of_eq rfl rfl rfl
  · next socket =>
    have hSocket := hSound.modifyConn socket (fun c => { c with socket := true }) fun _ => rfl
    exact hSocket.trans (hSocket.sound.carries_of_eq rfl rfl rfl)

theorem Sound.accept (hSound : Sound s) (socket : Option (Fin m)) :
    Carries s { s with node := (cspAccept socket s.node).2 } := by
  unfold cspAccept
  split
  · exact hSound.carries_of_eq rfl rfl rfl
  · split
    · split
      · exact hSound.carries_of_eq rfl rfl rfl
      · exact hSound.carries_of_eq rfl rfl rfl
    · exact hSound.carries_of_eq rfl rfl rfl

/-- A step of the server. -/
theorem Sound.serverStep (hSound : Sound s) :
    Carries s { s with
      server := (serverStep s.server s.node).1
      node := (serverStep s.server s.node).2 } := by
  cases hLoc : s.server.loc with
  | socket =>
      have hNode := hSound.connAllocate .connServer
      simp only [Loopback.serverStep, hLoc]
      exact hNode.trans (hNode.sound.moveServer rfl)
  | bind =>
      have hNode := hSound.bind s.server.sock
      simp only [Loopback.serverStep, hLoc]
      exact hNode.trans (hNode.sound.moveServer rfl)
  | listen =>
      have hNode := hSound.listen s.server.sock
      simp only [Loopback.serverStep, hLoc]
      exact hNode.trans (hNode.sound.moveServer rfl)
  | accept =>
      have hNode := hSound.accept s.server.sock
      simp only [Loopback.serverStep, hLoc]
      split
      · next node hAccept =>
        rw [hAccept] at hNode
        exact hNode
      · next conn node hAccept =>
        rw [hAccept] at hNode
        exact hNode.trans (hNode.sound.moveServer rfl)
  | read conn =>
      simp only [Loopback.serverStep, hLoc]
      split
      · next node hRead => exact hSound.read_none hRead _
      · next packet node hRead => exact hSound.read_some hRead _
  | close conn =>
      have hNode := hSound.close conn
      simp only [Loopback.serverStep, hLoc]
      exact hNode.trans (hNode.sound.moveServer rfl)

end Server

/-! ## The client -/

/-- What the client knows of its packet.  Between `csp_buffer_get` and `csp_send` it is
the only one who has it; in front of the next `csp_buffer_get` it is back in the pool; and
a packet that is in the pool cannot be put there once more. -/
structure ClientKnows (s : TestState n m) : Prop where
  own : s.client.loc = .fill ∨ s.client.loc = .send →
    ∀ packet, s.client.packet = some packet → Nowhere s.buffersIn packet
  back : s.client.loc = .connect ∨ s.client.loc = .get ∨ s.client.loc = .close →
    ∀ packet, s.client.packet = some packet → packet ∈ s.node.pool.cspBuffers
  harmless : ∀ packet, s.client.packet = some packet →
    packet ∈ s.node.pool.cspBuffers →
      s.node.pool.refcount packet = 0 ∨ s.node.pool.cspBuffers.length = n

/-- The invariant of the test. -/
structure TestInv (s : TestState n m) : Prop where
  sound : Sound s
  client : ClientKnows s

section Client

variable {s s' : TestState n m} {packet : Fin n}

/-- A pool that is full stays full. -/
theorem length_eq_of_returned {pool pool' : BufferPool n} (hWellFormed : pool'.WellFormed)
    (hReturned : pool.Returned pool') (hFull : pool.cspBuffers.length = n) :
    pool'.cspBuffers.length = n := by
  have hLe := hReturned.queue.length_le
  have hCard := hWellFormed.nodup.length_le_card
  rw [Fintype.card_fin] at hCard
  omega

theorem harmless_of_returned {pool pool' : BufferPool n} (hWellFormed : pool'.WellFormed)
    (hReturned : pool.Returned pool')
    (hHarmless : packet ∈ pool.cspBuffers →
      pool.refcount packet = 0 ∨ pool.cspBuffers.length = n)
    (hMem : packet ∈ pool'.cspBuffers) :
    pool'.refcount packet = 0 ∨ pool'.cspBuffers.length = n := by
  by_cases hBefore : packet ∈ pool.cspBuffers
  · rcases hHarmless hBefore with hZero | hFull
    · exact .inl (hReturned.zero packet hZero)
    · exact .inr (length_eq_of_returned hWellFormed hReturned hFull)
  · exact .inl (hReturned.fresh packet hMem hBefore)

/-- A packet that is not in transit may be freed, as long as that does not put it into
the pool once more. -/
theorem Sound.free (hSound : Sound s) (hTransit : ¬ s.InTransit packet)
    (hHarmless : packet ∈ s.node.pool.cspBuffers →
      s.node.pool.refcount packet = 0 ∨ s.node.pool.cspBuffers.length = n) :
    Sound { s with node := s.node.free (some packet) } ∧
      s.node.pool.Returned (s.node.free (some packet)).pool ∧
      packet ∈ (s.node.free (some packet)).pool.cspBuffers := by
  have hOthers : ∀ place ≠ .pool, TestState.buffersIn
      { s with node := s.node.free (some packet) } place = s.buffersIn place := by
    intro place hPool
    cases place with
    | pool => exact absurd rfl hPool
    | qfifo => rfl
    | router => rfl
    | rxQueue => rfl
    | server => rfl
  by_cases hMem : packet ∈ s.node.pool.cspBuffers
  · obtain ⟨hQueue, hWellFormed, hReturned⟩ :=
      hSound.pool.free_again hMem (hHarmless hMem)
    have hSame : TestState.buffersIn { s with node := s.node.free (some packet) } =
        s.buffersIn := by
      funext place
      by_cases hPool : place = .pool
      · rw [hPool]
        exact hQueue
      · exact hOthers place hPool
    refine ⟨⟨hWellFormed, ?_⟩, hReturned, hQueue.symm ▸ hMem⟩
    rw [TestState.OwnsExclusively, hSame]
    exact hSound.exclusive
  · have hNowhere : Nowhere s.buffersIn packet := by
      intro place hIn
      by_cases hPool : place = .pool
      · rw [hPool] at hIn
        exact hMem hIn
      · exact hTransit ⟨place, hPool, hIn⟩
    have hQueue : (s.node.free (some packet)).pool.cspBuffers =
        s.node.pool.cspBuffers ++ [packet] := by
      rw [Node.free, cspBufferFree_used hSound.pool hMem]
    refine ⟨⟨hSound.pool.free hMem, ?_⟩, hSound.pool.returned_free hMem, ?_⟩
    · exact hSound.exclusive_of_insert (q := .pool) hNowhere hQueue hOthers
    · rw [hQueue]
      exact List.mem_append_right _ (List.mem_singleton_self _)

/-- A packet that nobody else has may be put into the FIFO. -/
theorem Sound.enqueue (hSound : Sound s) (hNowhere : Nowhere s.buffersIn packet) :
    Sound { s with node := { s.node with qfifo := s.node.qfifo ++ [packet] } } where
  pool := hSound.pool
  exclusive := by
    refine hSound.exclusive_of_insert (q := .qfifo) hNowhere rfl fun place hFifo => ?_
    cases place with
    | qfifo => exact absurd rfl hFifo
    | pool => rfl
    | router => rfl
    | rxQueue => rfl
    | server => rfl

/-- The steps of the others do not concern the client. -/
theorem TestInv.carries (hInv : TestInv s) (hCarries : Carries s s')
    (hClient : s'.client = s.client) : TestInv s' where
  sound := hCarries.sound
  client := by
    constructor
    · rw [hClient]
      exact fun hLoc packet hPacket =>
        hCarries.nowhere packet (hInv.client.own hLoc packet hPacket)
    · rw [hClient]
      exact fun hLoc packet hPacket =>
        hCarries.returned.queue.subset (hInv.client.back hLoc packet hPacket)
    · rw [hClient]
      exact fun packet hPacket => harmless_of_returned hCarries.sound.pool
        hCarries.returned (hInv.client.harmless packet hPacket)

/-- A step behind which the client has nothing of its own: its packet has been sent or
freed, or is where it was. -/
theorem TestInv.give_back (hInv : TestInv s) {client : Client n m} {node : Node n m}
    (hSound : Sound { s with node := node }) (hReturned : s.node.pool.Returned node.pool)
    (hPacket : client.packet = s.client.packet)
    (hLoc : client.loc ≠ .fill ∧ client.loc ≠ .send)
    (hBack : client.loc = .connect ∨ client.loc = .get ∨ client.loc = .close →
      ∀ packet, s.client.packet = some packet → packet ∈ node.pool.cspBuffers) :
    TestInv { s with client := client, node := node } where
  sound := ⟨hSound.pool, hSound.exclusive⟩
  client := by
    constructor
    · rintro (hFill | hSend)
      · exact absurd hFill hLoc.1
      · exact absurd hSend hLoc.2
    · dsimp only
      rw [hPacket]
      exact hBack
    · dsimp only
      rw [hPacket]
      exact fun packet hSome => harmless_of_returned hSound.pool hReturned
        (hInv.client.harmless packet hSome)

/-- In these places the client's packet need not be back in the pool. -/
theorem ClientLoc.not_back {loc : ClientLoc}
    (hLoc : loc = .fill ∨ loc = .send ∨ loc = .free ∨ loc = .returned) :
    ¬ (loc = .connect ∨ loc = .get ∨ loc = .close) := by
  rcases hLoc with rfl | rfl | rfl | rfl
  · decide
  · decide
  · decide
  · decide

theorem Client.loc_nextPacket (client : Client n m) :
    client.nextPacket.loc ≠ .fill ∧ client.nextPacket.loc ≠ .send := by
  unfold Client.nextPacket
  dsimp only
  split
  · decide
  · decide

theorem Client.loc_nextTest (client : Client n m) :
    client.nextTest.loc ≠ .fill ∧ client.nextTest.loc ≠ .send := by
  unfold Client.nextTest
  dsimp only
  split
  · decide
  · decide

variable {conf : CspConf} {sport : Nat} {client : Client n m} {node : Node n m}

/-- `csp_connect`, and `csp_buffer_free` if there is no connection. -/
theorem TestInv.connect (hInv : TestInv s) (hLoc : s.client.loc = .connect)
    (hStep : clientStep conf sport s.client s.node = some (client, node)) :
    TestInv { s with client := client, node := node } ∧
      node.memory = s.node.memory := by
  have hBack := hInv.client.back (.inl hLoc)
  have hNew := hInv.sound.connNew ⟨serverAddress, cspAddress, sport, serverPort⟩
    ⟨cspAddress, serverAddress, serverPort, sport⟩
  have hKept : ∀ packet, s.client.packet = some packet →
      packet ∈ (cspConnect serverAddress serverPort sport s.node).2.pool.cspBuffers :=
    fun packet hPacket => hNew.returned.queue.subset (hBack packet hPacket)
  unfold clientStep at hStep
  rw [hLoc] at hStep
  dsimp only at hStep
  split at hStep
  · split at hStep
    · next node' hConnect =>
      obtain ⟨rfl, rfl⟩ := Prod.mk.inj (Option.some.inj hStep)
      rw [cspConnect] at hConnect hKept
      rw [hConnect] at hNew hKept
      cases hPacket : s.client.packet with
      | none =>
          refine ⟨hInv.give_back hNew.sound hNew.returned hPacket.symm ⟨nofun, nofun⟩ ?_,
            hNew.memory⟩
          intro _ other hOther
          cases hPacket.symm.trans hOther
      | some packet =>
          have hMem := hKept packet hPacket
          have hTransit : ¬ TestState.InTransit { s with node := node' } packet := by
            rintro ⟨place, hNe, hIn⟩
            exact hNe (hNew.sound.exclusive.unique (q := .pool) hIn hMem)
          obtain ⟨hSound, hReturned, hIn⟩ := hNew.sound.free hTransit
            (harmless_of_returned hNew.sound.pool hNew.returned
              (hInv.client.harmless packet hPacket))
          refine ⟨hInv.give_back hSound (hNew.returned.trans hReturned) hPacket.symm
            ⟨nofun, nofun⟩ ?_, hNew.memory⟩
          intro _ other hOther
          rwa [← Option.some.inj (hPacket.symm.trans hOther)]
    · next conn node' hConnect =>
      obtain ⟨rfl, rfl⟩ := Prod.mk.inj (Option.some.inj hStep)
      rw [cspConnect] at hConnect hKept
      rw [hConnect] at hNew hKept
      refine ⟨hInv.give_back hNew.sound hNew.returned rfl ?_ fun _ => hKept, hNew.memory⟩
      exact Client.loc_nextPacket _
  · cases hStep

/-- `csp_buffer_get` -/
theorem TestInv.get (hInv : TestInv s) (hLoc : s.client.loc = .get)
    (hStep : clientStep conf sport s.client s.node = some (client, node)) :
    TestInv { s with client := client, node := node } ∧
      node.memory = s.node.memory := by
  unfold clientStep at hStep
  rw [hLoc, cspBufferGetSized_of_le (by decide)] at hStep
  dsimp only at hStep
  split at hStep
  · next pool hGet =>
    obtain ⟨rfl, rfl⟩ := Prod.mk.inj (Option.some.inj hStep)
    obtain ⟨-, rfl⟩ := cspBufferGet_eq_none hGet
    exact ⟨⟨⟨hInv.sound.pool, hInv.sound.exclusive⟩, nofun, nofun, nofun⟩, rfl⟩
  · next packet pool hGet =>
    obtain ⟨rfl, rfl⟩ := Prod.mk.inj (Option.some.inj hStep)
    obtain ⟨-, hQueue, -⟩ := cspBufferGet_eq_some hGet
    obtain ⟨hWellFormed, hTaken⟩ := hInv.sound.pool.get hGet
    have hIn : packet ∈ s.buffersIn .pool := by
      simp only [TestState.buffersIn, Node.buffersIn]
      rw [hQueue]
      exact List.mem_cons_self
    have hSub : ∀ place, (TestState.buffersIn
        { s with node := { s.node with pool := pool } } place).Sublist
          (s.buffersIn place) := by
      intro place
      cases place with
      | pool =>
          simp only [TestState.buffersIn, Node.buffersIn]
          rw [hQueue]
          exact List.sublist_cons_self _ _
      | qfifo => exact List.Sublist.refl _
      | router => exact List.Sublist.refl _
      | rxQueue => exact List.Sublist.refl _
      | server => exact List.Sublist.refl _
    refine ⟨⟨⟨hWellFormed, hInv.sound.exclusive.mono hSub⟩, ?_,
      fun hBack => absurd hBack (ClientLoc.not_back (.inl rfl)), ?_⟩, rfl⟩
    · intro _ other hOther place hAt
      rw [← Option.some.inj hOther] at hAt
      obtain rfl := hInv.sound.exclusive.unique ((hSub place).subset hAt) hIn
      exact hTaken hAt
    · intro other hOther hAt
      rw [← Option.some.inj hOther] at hAt
      exact absurd hAt hTaken

/-- A store into a packet that nobody else has leaves the packets in transit alone. -/
theorem memory_modifyPacket (hNowhere : Nowhere s.buffersIn packet)
    (change : Packet → Packet) {other : Fin n} (hTransit : s.InTransit other) :
    (s.node.modifyPacket packet change).memory other = s.node.memory other := by
  obtain ⟨place, -, hIn⟩ := hTransit
  have hOther : other ≠ packet := by
    rintro rfl
    exact hNowhere place hIn
  exact Function.update_of_ne hOther ..

/-- `strcpy` and the store of the length -/
theorem TestInv.fill (hInv : TestInv s) (hLoc : s.client.loc = .fill)
    (hStep : clientStep conf sport s.client s.node = some (client, node)) :
    TestInv { s with client := client, node := node } ∧
      ∀ packet, s.InTransit packet → node.memory packet = s.node.memory packet := by
  have hOwn := hInv.client.own (.inl hLoc)
  unfold clientStep at hStep
  rw [hLoc] at hStep
  dsimp only at hStep
  split at hStep
  · cases hStep
  · next packet hPacket =>
    obtain ⟨rfl, rfl⟩ := Prod.mk.inj (Option.some.inj hStep)
    exact ⟨⟨⟨hInv.sound.pool, hInv.sound.exclusive⟩, fun _ => hOwn,
      fun hBack => absurd hBack (ClientLoc.not_back (.inr (.inl rfl))),
      hInv.client.harmless⟩,
      fun other => memory_modifyPacket (hOwn packet hPacket) _⟩

/-- `csp_send` refuses a packet and does nothing, or puts it into the FIFO, or frees it. -/
theorem cspSend_cases (conf : CspConf) (conn : Option (Fin m)) (packet : Option (Fin n))
    (node : Node n m) :
    cspSend conf conn packet node = (0, node) ∨
    ∃ b id, packet = some b ∧
      (cspSend conf conn packet node =
          (1, (node.modifyPacket b fun p => { p with id := id }).free (some b)) ∨
        cspSend conf conn packet node =
          (1, { node.modifyPacket b fun p => { p with id := id } with
            qfifo := node.qfifo ++ [b] })) := by
  unfold cspSend
  split
  · exact .inl rfl
  · exact .inl rfl
  · next conn b =>
    split
    · exact .inl rfl
    · refine .inr ⟨b, (node.arrConn conn).idout, rfl, ?_⟩
      unfold cspSendDirect cspLoTx cspQfifoWrite
      dsimp only
      split
      · exact .inl rfl
      · split
        · exact .inr rfl
        · exact .inl rfl

/-- `csp_send` -/
theorem TestInv.send (hInv : TestInv s) (hLoc : s.client.loc = .send)
    (hStep : clientStep conf sport s.client s.node = some (client, node)) :
    TestInv { s with client := client, node := node } ∧
      ∀ packet, s.InTransit packet → node.memory packet = s.node.memory packet := by
  have hOwn := hInv.client.own (.inr hLoc)
  unfold clientStep at hStep
  rw [hLoc] at hStep
  dsimp only at hStep
  obtain hSend | ⟨packet, id, hPacket, hSend⟩ :=
    cspSend_cases conf s.client.conn s.client.packet s.node
  · rw [hSend] at hStep
    obtain ⟨rfl, rfl⟩ := Prod.mk.inj (Option.some.inj hStep)
    exact ⟨hInv.give_back hInv.sound (.refl _) rfl ⟨nofun, nofun⟩
      fun hBack => absurd hBack (ClientLoc.not_back (.inr (.inr (.inr rfl)))),
      fun _ _ => rfl⟩
  · have hNowhere := hOwn packet hPacket
    -- the store of the identifier
    have hSound : Sound { s with
        node := s.node.modifyPacket packet fun p => { p with id := id } } :=
      ⟨hInv.sound.pool, hInv.sound.exclusive⟩
    have hMemory : ∀ other, s.InTransit other →
        (s.node.modifyPacket packet fun p => { p with id := id }).memory other =
          s.node.memory other := fun other => memory_modifyPacket hNowhere _
    rcases hSend with hSend | hSend
    · rw [hSend] at hStep
      obtain ⟨rfl, rfl⟩ := Prod.mk.inj (Option.some.inj hStep)
      have hTransit : ¬ TestState.InTransit { s with
          node := s.node.modifyPacket packet fun p => { p with id := id } } packet := by
        rintro ⟨place, -, hIn⟩
        exact hNowhere place hIn
      obtain ⟨hFreed, hReturned, -⟩ := hSound.free hTransit fun hMem =>
        absurd hMem (hNowhere .pool)
      exact ⟨hInv.give_back hFreed hReturned rfl ⟨nofun, nofun⟩
        fun hBack => absurd hBack (ClientLoc.not_back (.inr (.inr (.inl rfl)))), hMemory⟩
    · rw [hSend] at hStep
      obtain ⟨rfl, rfl⟩ := Prod.mk.inj (Option.some.inj hStep)
      exact ⟨hInv.give_back (hSound.enqueue hNowhere) (.refl _) rfl ⟨nofun, nofun⟩
        fun hBack => absurd hBack (ClientLoc.not_back (.inr (.inr (.inl rfl)))), hMemory⟩

/-- `csp_buffer_free`, on a packet that is not in transit -/
theorem TestInv.free (hInv : TestInv s) (hLoc : s.client.loc = .free)
    (hTransit : ∀ packet, s.client.packet = some packet → ¬ s.InTransit packet)
    (hStep : clientStep conf sport s.client s.node = some (client, node)) :
    TestInv { s with client := client, node := node } ∧
      node.memory = s.node.memory := by
  unfold clientStep at hStep
  rw [hLoc] at hStep
  obtain ⟨rfl, rfl⟩ := Prod.mk.inj (Option.some.inj hStep)
  cases hPacket : s.client.packet with
  | none =>
      refine ⟨hInv.give_back hInv.sound (.refl _) hPacket.symm (Client.loc_nextPacket _) ?_,
        rfl⟩
      intro _ other hOther
      cases hPacket.symm.trans hOther
  | some packet =>
      obtain ⟨hSound, hReturned, hIn⟩ := hInv.sound.free (hTransit packet hPacket)
        (hInv.client.harmless packet hPacket)
      refine ⟨hInv.give_back hSound hReturned hPacket.symm (Client.loc_nextPacket _) ?_, rfl⟩
      intro _ other hOther
      rwa [← Option.some.inj (hPacket.symm.trans hOther)]

/-- `csp_close` -/
theorem TestInv.close (hInv : TestInv s) (hLoc : s.client.loc = .close)
    (hStep : clientStep conf sport s.client s.node = some (client, node)) :
    TestInv { s with client := client, node := node } ∧
      node.memory = s.node.memory := by
  have hBack := hInv.client.back (.inr (.inr hLoc))
  have hClosed : ∀ node', Carries s { s with node := node' } →
      TestInv { s with
        client := Client.nextTest { s.client with tests := s.client.tests + 1 }
        node := node' } ∧ node'.memory = s.node.memory := by
    intro node' hCarries
    exact ⟨hInv.give_back hCarries.sound hCarries.returned rfl (Client.loc_nextTest _)
      fun _ packet hPacket => hCarries.returned.queue.subset (hBack packet hPacket),
      hCarries.memory⟩
  unfold clientStep at hStep
  rw [hLoc] at hStep
  obtain ⟨rfl, rfl⟩ := Prod.mk.inj (Option.some.inj hStep)
  apply hClosed
  split
  · exact hInv.sound.carries_of_eq rfl rfl rfl
  · exact hInv.sound.close _

end Client

/-! ## The test -/

section Test

variable {s s' : TestState n m} {conf : CspConf}

/-- A step of the client that frees no packet in transit keeps the invariant, and the
contents of the packets in transit. -/
theorem TestInv.clientStep (hInv : TestInv s) {sport : Nat} {client : Client n m}
    {node : Node n m} (hStep : clientStep conf sport s.client s.node = some (client, node))
    (hTransit : s.client.loc = .free →
      ∀ packet, s.client.packet = some packet → ¬ s.InTransit packet) :
    TestInv { s with client := client, node := node } ∧
      ∀ packet, s.InTransit packet → node.memory packet = s.node.memory packet := by
  have hSame : node.memory = s.node.memory →
      ∀ packet, s.InTransit packet → node.memory packet = s.node.memory packet :=
    fun hMemory packet _ => congrFun hMemory packet
  cases hLoc : s.client.loc with
  | connect => exact (hInv.connect hLoc hStep).imp_right hSame
  | get => exact (hInv.get hLoc hStep).imp_right hSame
  | fill => exact hInv.fill hLoc hStep
  | send => exact hInv.send hLoc hStep
  | free => exact (hInv.free hLoc (hTransit hLoc) hStep).imp_right hSame
  | close => exact (hInv.close hLoc hStep).imp_right hSame
  | returned =>
      unfold Loopback.clientStep at hStep
      rw [hLoc] at hStep
      cases hStep

/-- So does a step of any thread. -/
theorem TestInv.step (hInv : TestInv s) {event : TestEvent}
    (hStep : testStep conf event s = some s') (hGuard : FreesNoneInTransit event s s') :
    TestInv s' ∧ KeepsPackets event s s' := by
  cases event with
  | client sport =>
      unfold testStep at hStep
      dsimp only at hStep
      split at hStep
      · cases hStep
      · next client node hClient =>
        obtain rfl := Option.some.inj hStep
        exact hInv.clientStep hClient (hGuard sport rfl)
  | router =>
      obtain rfl := Option.some.inj hStep
      have hCarries := hInv.sound.routerStep conf
      exact ⟨hInv.carries hCarries rfl, fun packet _ => congrFun hCarries.memory packet⟩
  | server =>
      obtain rfl := Option.some.inj hStep
      have hCarries := hInv.sound.serverStep
      exact ⟨hInv.carries hCarries rfl, fun packet _ => congrFun hCarries.memory packet⟩

/-- A packet in transit that the client frees is in the pool too. -/
theorem TestInv.not_exclusive (hInv : TestInv s) {event : TestEvent}
    (hStep : testStep conf event s = some s')
    (hBreak : ¬ FreesNoneInTransit event s s') : ¬ s'.OwnsExclusively := by
  simp only [FreesNoneInTransit, not_forall, not_not] at hBreak
  obtain ⟨sport, rfl, hLoc, packet, hPacket, place, hNe, hIn⟩ := hBreak
  have hUsed : packet ∉ s.node.pool.cspBuffers :=
    hInv.sound.exclusive.not_mem (q := Place.pool) hIn (Ne.symm hNe)
  unfold testStep Loopback.clientStep at hStep
  rw [hLoc] at hStep
  obtain rfl := Option.some.inj hStep
  intro hExclusive
  have hPool : packet ∈ (s.node.free s.client.packet).pool.cspBuffers := by
    rw [Node.free, hPacket, cspBufferFree_used hInv.sound.pool hUsed]
    exact List.mem_append_right _ (List.mem_singleton_self _)
  apply hNe
  refine hExclusive.unique (q := .pool) (x := packet) ?_ hPool
  cases place with
  | pool => exact absurd rfl hNe
  | qfifo => exact hIn
  | router => exact hIn
  | rxQueue => exact hIn
  | server => exact hIn

/-- At the start all buffers are in the pool. -/
theorem testInv_start (refcount : Fin n → Nat) (memory : Fin n → Packet)
    (packet : Option (Fin n)) :
    TestInv (TestState.start refcount memory packet : TestState n m) := by
  have hEmpty : ∀ place ≠ .pool,
      (TestState.start refcount memory packet : TestState n m).buffersIn place = [] := by
    intro place hNe
    cases place with
    | pool => exact absurd rfl hNe
    | qfifo => rfl
    | router => rfl
    | rxQueue => rfl
    | server => rfl
  refine ⟨⟨⟨List.nodup_finRange n, ?_⟩, ?_, ?_⟩, ?_, ?_, ?_⟩
  · exact fun buffer hNot => absurd (List.mem_finRange buffer) hNot
  · intro place
    by_cases hPool : place = .pool
    · rw [hPool]
      exact List.nodup_finRange n
    · rw [hEmpty place hPool]
      exact List.nodup_nil
  · intro place place' buffer hIn hIn'
    by_cases hPool : place = .pool
    · by_cases hPool' : place' = .pool
      · rw [hPool, hPool']
      · rw [hEmpty place' hPool'] at hIn'
        cases hIn'
    · rw [hEmpty place hPool] at hIn
      cases hIn
  · rintro (h | h)
    · cases h
    · cases h
  · exact fun _ buffer _ => List.mem_finRange buffer
  · exact fun _ _ _ => .inr (List.length_finRange)

/-- Along every interleaving no buffer is ever in two places exactly if the client frees
no packet in transit, and then the packets in transit keep their contents. -/
theorem performanceTest_exclusive_iff (conf : CspConf) (refcount : Fin n → Nat)
    (memory : Fin n → Packet) (packet : Option (Fin n)) (events : List TestEvent) :
    (Always (testStep conf) TestState.OwnsExclusively events
        (TestState.start refcount memory packet : TestState n m) ↔
      EachStep (testStep conf) FreesNoneInTransit events
        (TestState.start refcount memory packet : TestState n m)) ∧
    (Always (testStep conf) TestState.OwnsExclusively events
        (TestState.start refcount memory packet : TestState n m) →
      EachStep (testStep conf) KeepsPackets events
        (TestState.start refcount memory packet : TestState n m)) := by
  have hStart := testInv_start (m := m) refcount memory packet
  have hIff := @always_iff_eachStep _ _ (testStep conf) TestState.OwnsExclusively TestInv
    FreesNoneInTransit
    (fun _ _ _ hInv hStep hGuard => (TestInv.step hInv hStep hGuard).1)
    (fun _ hInv => hInv.sound.exclusive)
    (fun _ _ _ hInv hStep hBreak => hInv.not_exclusive hStep hBreak) _ hStart events
  refine ⟨hIff, fun hAlways => ?_⟩
  exact EachStep.of_invariant
    (fun _ _ _ hInv hStep hGuard => (TestInv.step hInv hStep hGuard).1)
    (fun _ _ _ hInv hStep hGuard => (TestInv.step hInv hStep hGuard).2) hStart
    (hIff.mp hAlways)

/-- The client alone: it connects, gets a buffer, sends it, and frees it.  The buffer is
then in the pool and in the FIFO. -/
theorem not_performanceTest_exclusive :
    ¬ Always (testStep ⟨10, 25, 24⟩) TestState.OwnsExclusively
      (List.replicate 5 (.client 25))
      (TestState.start (fun _ => 0) (fun _ => ⟨⟨0, 0, 0, 0⟩, 0, []⟩) none :
        TestState 1 1) := by
  intro hAlways
  have hConnected := hAlways.2 _ rfl
  have hGot := hConnected.2 _ rfl
  have hFilled := hGot.2 _ rfl
  have hSent := hFilled.2 _ rfl
  have hFreed := (hSent.2 _ rfl).start
  have hMem : (0 : Fin 1) ∈ [(0 : Fin 1)] := List.mem_singleton_self 0
  exact absurd (hFreed.unique (p := .pool) (q := .qfifo) hMem hMem) nofun

end Test

end Loopback
end Csp
end CubeSatComm
