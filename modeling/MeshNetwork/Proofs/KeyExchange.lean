import MeshNetwork.Proofs.NodeSteps
import MeshNetwork.Proofs.TrustedKeys

/-!
# Packets behind a key exchange

A packet for a peer without a key is buffered, and the call that installs the key empties the
buffer. The check for the key and the buffering are two steps of the identity manager: a packet that
is buffered after the buffer has been emptied stays there.
-/

namespace MeshNetwork.Proofs

open TaskPool

/-! ## Buffers -/

inductive Direction where
  | incoming
  | outgoing
  deriving DecidableEq

/-- The packets that wait for the key of `p`. -/
def waiting (im : IdentityManager) (p : PeerId) : Direction → List RoutedPacket
  | .incoming => (im.pendingIncomingPackets.lookup p).getD []
  | .outgoing => (im.pendingOutgoingPackets.lookup p).getD []

/-- The step that takes the packets of `p` out of the buffer. -/
def drain (p : PeerId) : Direction → NodeTask
  | .incoming => .handlePendingIncomingPackets p
  | .outgoing => .handlePendingOutgoingPackets p

/-- The buffer that a step puts a packet into. -/
def buffersFor : NodeTask → Option (Direction × PeerId)
  | .bufferIncomingPacket pkt => some (.incoming, pkt.fromPeerId)
  | .bufferOutgoingPacket destId _ => some (.outgoing, destId)
  | _ => none

/-- What a step can do to the key and a buffer of `p`. -/
inductive BufferMove (p : PeerId) (dir : Direction) (im im' : IdentityManager) (t : NodeTask)
    (called : List NodeTask) :
    Prop
  | kept : t ≠ drain p dir → im'.hasKey p = im.hasKey p → waiting im' p dir = waiting im p dir →
      BufferMove ..
  | drained : waiting im' p dir = [] → BufferMove ..
  | learnt : drain p dir ∈ called → BufferMove ..
  | buffered : t ≠ drain p dir → buffersFor t = some (dir, p) → im'.hasKey p = im.hasKey p →
      BufferMove ..

section Moves

variable {im : IdentityManager} {p : PeerId} {dir : Direction}

lemma bufferIncoming_move (pkt : RoutedPacket) {called : List NodeTask} :
    BufferMove p dir im (im.bufferIncomingPacket pkt.fromPeerId pkt) (.bufferIncomingPacket pkt)
      called := by
  cases dir with
  | outgoing => exact .kept (by simp [drain]) rfl rfl
  | incoming =>
    by_cases hp : p = pkt.fromPeerId
    · subst hp
      exact .buffered (by simp [drain]) rfl rfl
    · exact .kept (by simp [drain]) rfl
        (by simp [waiting, IdentityManager.bufferIncomingPacket, hp])

lemma bufferOutgoing_move (destId : PeerId) (pkt : RoutedPacket) {called : List NodeTask} :
    BufferMove p dir im (im.bufferOutgoingPacket destId pkt) (.bufferOutgoingPacket destId pkt)
      called := by
  cases dir with
  | incoming => exact .kept (by simp [drain]) rfl rfl
  | outgoing =>
    by_cases hp : p = destId
    · subst hp
      exact .buffered (by simp [drain]) rfl rfl
    · exact .kept (by simp [drain]) rfl
        (by simp [waiting, IdentityManager.bufferOutgoingPacket, hp])

lemma addTrustedPeer_move (peer : PeerId) (certificatePem pubKey : Bytes) :
    BufferMove p dir im (im.addTrustedPeer peer pubKey) (.addTrustedPeer peer certificatePem)
      [.handlePendingIncomingPackets peer, .handlePendingOutgoingPackets peer] := by
  by_cases hp : p = peer
  · subst hp
    exact .learnt (by cases dir <;> simp [drain])
  · refine .kept (by cases dir <;> simp [drain]) ?_ (by cases dir <;> rfl)
    simp [IdentityManager.addTrustedPeer, IdentityManager.hasKey, hp]

lemma popIncoming_move (src : PeerId) {called : List NodeTask} :
    BufferMove p dir im (im.popIncomingPendingPackets src).2 (.handlePendingIncomingPackets src)
      called := by
  rw [popIncoming_eq]
  cases dir with
  | outgoing => exact .kept (by simp [drain]) rfl rfl
  | incoming =>
    by_cases hp : p = src
    · subst hp
      exact .drained (by simp [waiting])
    · exact .kept (by simp [drain, Ne.symm hp]) rfl (by simp [waiting, hp])

lemma popOutgoing_move (dest : PeerId) {called : List NodeTask} :
    BufferMove p dir im (im.popOutgoingPendingPackets dest).2 (.handlePendingOutgoingPackets dest)
      called := by
  rw [popOutgoing_eq]
  cases dir with
  | incoming => exact .kept (by simp [drain]) rfl rfl
  | outgoing =>
    by_cases hp : p = dest
    · subst hp
      exact .drained (by simp [waiting])
    · exact .kept (by simp [drain, Ne.symm hp]) rfl (by simp [waiting, hp])

end Moves

lemma StepMove.buffer {lib : Libraries} {call call' : NodeCall} {t : NodeTask}
    {called : List NodeTask} (h : StepMove lib call t call' called) (p : PeerId) (dir : Direction) :
    BufferMove p dir call.node.identity call'.node.identity t called := by
  cases h with
  | silent ht hsilent =>
    rw [hsilent.identity]
    refine .kept ?_ rfl rfl
    cases dir with
    | incoming => exact (ht p).1
    | outgoing => exact (ht p).2
  | receive pkt => exact .kept (by cases dir <;> simp [drain]) rfl rfl
  | opened hopened => exact .kept (by cases dir <;> simp [drain]) rfl rfl
  | delivered hidentity hcontent =>
    rw [hidentity]
    exact .kept (by cases dir <;> simp [drain]) rfl rfl
  | bufferIncoming pkt => exact bufferIncoming_move pkt
  | bufferOutgoing destId pkt => exact bufferOutgoing_move destId pkt
  | learn peer certificatePem pubKey => exact addTrustedPeer_move peer certificatePem pubKey
  | popIncoming src => exact popIncoming_move src
  | popOutgoing dest => exact popOutgoing_move dest

/-! ## Runs -/

/-- If the key of `p` is there, no packet waits for it. -/
def NothingStranded (p : PeerId) (node : NodeState) : Prop :=
  node.identity.hasKey p = true →
    (node.identity.pendingOutgoingPackets.lookup p).getD [] = [] ∧
      (node.identity.pendingIncomingPackets.lookup p).getD [] = []

instance (p : PeerId) (node : NodeState) : Decidable (NothingStranded p node) :=
  inferInstanceAs (Decidable (_ → _))

/-- A packet is put into a buffer of `p` only while there is no key of `p`, or while a call in
progress has yet to empty that buffer. -/
def BuffersInTime (p : PeerId) (pool : NodePool) : PoolEvent → Prop
  | .start _ => True
  | .advance thread _ => ∀ dir, (pool.next thread).bind buffersFor = some (dir, p) →
    pool.shared.node.identity.hasKey p = false ∨ pool.Pending (drain p dir)

/-- A buffer of a peer with a key is empty, or a call in progress has yet to empty it. -/
def WillDrain (p : PeerId) (pool : NodePool) : Prop :=
  ∀ dir, pool.shared.node.identity.hasKey p = true →
    waiting pool.shared.node.identity p dir = [] ∨ pool.Pending (drain p dir)

lemma step_willDrain (lib : Libraries) {p : PeerId} (pool : NodePool) (event : PoolEvent)
    (h : WillDrain p pool) (hguard : BuffersInTime p pool event) :
    WillDrain p (pool.step lib event) := by
  intro dir hkey
  unfold NodePool.step at hkey ⊢
  generalize hlater : TaskPool.step (nodeThreads lib) pool event = later at hkey ⊢
  cases hlater ▸ TaskPool.step_move (nodeThreads lib) pool event with
  | start input => exact (h dir hkey).imp id fun hpending => pending_start.mpr (.inl hpending)
  | idle env hidle => exact h dir hkey
  | @exec thread env t rest hnext hstack =>
    cases (exec_move lib env.1 env.2 pool.shared t).buffer p dir with
    | kept ht hsame hwaiting =>
      rcases h dir (hsame ▸ hkey) with hempty | hpending
      · exact .inl (hwaiting.trans hempty)
      · exact .inr (hpending.exec hstack (Ne.symm ht))
    | drained hwaiting => exact .inl hwaiting
    | learnt hcalled => exact .inr (pending_called hstack hcalled)
    | buffered ht hbuffers hsame =>
      have htime := hguard dir (by rw [hnext]; exact hbuffers)
      rcases htime with hnone | hpending
      · have hkey' : pool.shared.node.identity.hasKey p = true := hsame ▸ hkey
        rw [hnone] at hkey'
        cases hkey'
      · exact .inr (hpending.exec hstack (Ne.symm ht))

/-- In every run whose steps all buffer in time, no packet is stranded in a state without a call in
progress. -/
theorem nothing_stranded (lib : Libraries) (node : NodeState) (p : PeerId)
    (hnode : NothingStranded p node) (events : List PoolEvent)
    (hguard : EventRun.Guarded (NodePool.step lib) (BuffersInTime p)
      (NodePool.create node) events) :
    EventRun.Always (NodePool.step lib) (fun pool => pool.Idle → NothingStranded p pool.shared.node)
      (NodePool.create node) events := by
  have hinit : WillDrain p (NodePool.create node) := by
    intro dir hkey
    obtain ⟨houtgoing, hincoming⟩ := hnode hkey
    cases dir with
    | incoming => exact .inl hincoming
    | outgoing => exact .inl houtgoing
  intro pre hpre hidle hkey
  have hdrain := EventRun.always_of_guarded (step_willDrain lib) hinit hguard pre hpre
  constructor
  · exact (hdrain .outgoing hkey).resolve_right (hidle.not_pending _)
  · exact (hdrain .incoming hkey).resolve_right (hidle.not_pending _)

/-! ## Two messages to a peer -/

def noteToB (payload : Bytes) : PoolEvent := .start (.sendMessage "b" "Note" payload .tcp)

/-- The answer of "b" to an identity request of "a". -/
def identityResponseOfB : PoolEvent :=
  .start (.incoming (RouterState.create "a" 0)
    (makeBinaryRoutedPacket [] "b" "a" 15 identityResponseSubtype .tcp [9, 2]))

/-- Steps of one thread at time zero. -/
def steps (n thread : Nat) : List PoolEvent :=
  List.replicate n (.advance thread (plainEnv 0, RouterState.create "a" 0))

/-- Node "a" after `events`. -/
def poolA (events : List PoolEvent) : NodePool :=
  EventRun.run (NodePool.step openLibraries) (NodePool.create loadedA) events

/-- A message is postponed, and then the key arrives. -/
def keyExchange : List PoolEvent := [noteToB [1]] ++ steps 6 0 ++ [identityResponseOfB] ++ steps 8 1

/-- No buffer of a peer with a key gets a packet. -/
def buffersKeyless (pool : NodePool) : PoolEvent → Bool
  | .start _ => true
  | .advance thread _ =>
    ((pool.next thread).bind buffersFor).all fun buffer =>
      !pool.shared.node.identity.hasKey buffer.2

lemma buffersInTime_of_keyless {p : PeerId} {pool : NodePool} {event : PoolEvent}
    (h : buffersKeyless pool event = true) : BuffersInTime p pool event := by
  cases event with
  | start input => trivial
  | advance thread env =>
    intro dir hbuffers
    simp only [buffersKeyless, hbuffers, Option.all_some, Bool.not_eq_true'] at h
    exact .inl h

theorem nothing_stranded_exchange :
    (poolA keyExchange).shared.node.identity.hasKey "b" = true ∧
      (poolA keyExchange).shared.sent.length = 2 ∧
      ((poolA keyExchange).shared.node.identity.pendingOutgoingPackets.lookup "b").getD
        [] = [] := by
  have hguard : EventRun.Guarded (NodePool.step openLibraries)
      (fun pool event => buffersKeyless pool event = true)
      (NodePool.create loadedA) keyExchange := by decide
  have hidle : (poolA keyExchange).Idle := by decide
  have hkey : (poolA keyExchange).shared.node.identity.hasKey "b" = true := by decide
  refine ⟨hkey, by decide, ?_⟩
  exact (nothing_stranded openLibraries loadedA "b" (by decide) keyExchange
    (hguard.mono fun _ _ => buffersInTime_of_keyless) keyExchange (List.prefix_refl _) hidle hkey).1

/-- A second message finds no key, and is buffered when the key is there and the buffer has been
emptied. No identity request is left whose answer would empty it again. -/
theorem late_buffering_strands :
    IdentityManager.loadIdentities openLibraries.toOpenSsl {} [9, 1] [1] [9] =
      .ok loadedA.identity ∧
      ∃ events, (poolA events).Idle ∧ ¬NothingStranded "b" (poolA events).shared.node ∧
        (poolA events).shared.node.requestTracker.pendingRequests.keys = [] := by
  refine ⟨rfl, [noteToB [1]] ++ steps 6 0 ++ [noteToB [2]] ++ steps 1 1 ++ [identityResponseOfB] ++
    steps 8 2 ++ steps 2 1, by decide, by decide, by decide⟩

end MeshNetwork.Proofs
