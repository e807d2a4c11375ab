import MeshNetwork.Model.RpcManager

/-!
# The steps of the connection manager

Most events change a part of the manager only: a connect attempt its own records until it registers
a connection, and a round of heartbeats the peers it has still to ask and to wait for.
-/

namespace MeshNetwork.Proofs

/-! ## Connect attempts -/

/-- The events of a connect attempt, but for the registration. -/
def inAttempt : RpcEvent → Bool
  | .connectAsync .. | .timerExpired .. | .resolved .. | .tcpConnected .. | .completionRun
      .. | .maintenance => true
  | _ => false

lemma connectAsync_frame (s : RpcManager) (host : String) (port : Nat) :
    ∃ pendingConnections attempts nextAttempt,
      s.connectAsync host port = { s with pendingConnections, attempts, nextAttempt } := by
  unfold RpcManager.connectAsync
  dsimp only
  split_ifs <;> exact ⟨_, _, _, rfl⟩

lemma foldl_connectAsync_frame (targets : List PeerIp) (s : RpcManager) :
    ∃ pendingConnections attempts nextAttempt,
      targets.foldl (fun s target => s.connectAsync target.ip target.tcpPort) s =
        { s with pendingConnections, attempts, nextAttempt } := by
  induction targets generalizing s with
  | nil => exact ⟨_, _, _, rfl⟩
  | cons target targets ih =>
    obtain ⟨pendingConnections, attempts, nextAttempt, hfirst⟩ :=
      connectAsync_frame s target.ip target.tcpPort
    obtain ⟨_, _, _, hrest⟩ := ih { s with pendingConnections, attempts, nextAttempt }
    rw [List.foldl_cons, hfirst, hrest]
    exact ⟨_, _, _, rfl⟩

lemma attempt_frame (s : RpcManager) {e : RpcEvent} (h : inAttempt e = true) :
    ∃ pendingConnections attempts nextAttempt nextConnection,
      s.step e = { s with pendingConnections, attempts, nextAttempt, nextConnection } := by
  cases e with
  | connectAsync host port =>
    obtain ⟨_, _, _, hframe⟩ := connectAsync_frame s host port
    exact ⟨_, _, _, _, hframe⟩
  | timerExpired i =>
    unfold RpcManager.step RpcManager.timerExpired
    dsimp only
    split <;> exact ⟨_, _, _, _, rfl⟩
  | resolved i ec =>
    unfold RpcManager.step RpcManager.resolved
    dsimp only
    split
    · exact ⟨_, _, _, _, rfl⟩
    · split
      · split_ifs
        · exact ⟨_, _, _, _, rfl⟩
        · split <;> exact ⟨_, _, _, _, rfl⟩
      · exact ⟨_, _, _, _, rfl⟩
  | tcpConnected i result =>
    unfold RpcManager.step RpcManager.tcpConnected
    dsimp only
    split
    · exact ⟨_, _, _, _, rfl⟩
    · split
      · split_ifs
        · exact ⟨_, _, _, _, rfl⟩
        · split <;> exact ⟨_, _, _, _, rfl⟩
      · exact ⟨_, _, _, _, rfl⟩
  | completionRun i =>
    unfold RpcManager.step RpcManager.completionRun
    dsimp only
    split
    · exact ⟨_, _, _, _, rfl⟩
    · split <;> exact ⟨_, _, _, _, rfl⟩
  | maintenance =>
    unfold RpcManager.step RpcManager.checkForAutoConnections
    dsimp only
    split_ifs
    · exact ⟨_, _, _, _, rfl⟩
    · obtain ⟨_, _, _, hframe⟩ := foldl_connectAsync_frame s.missingTargets s
      exact ⟨_, _, _, _, hframe⟩
  | _ => cases h

/-- What does not depend on the records of the attempts. -/
lemma attempt_preserves {β : Type*} (f : RpcManager → β)
    (hf : ∀ s pendingConnections attempts nextAttempt nextConnection,
      f { s with pendingConnections, attempts, nextAttempt, nextConnection } = f s)
    (s : RpcManager) {e : RpcEvent} (h : inAttempt e = true) : f (s.step e) = f s := by
  obtain ⟨_, _, _, _, hframe⟩ := attempt_frame s h
  rw [hframe]
  exact hf ..

/-! ## Rounds of heartbeats -/

/-- The events of a round before the result of a heartbeat. -/
def inRound : RpcEvent → Bool
  | .beginHeartbeats | .sendHeartbeat | .awaitHeartbeat .. => true
  | _ => false

lemma round_frame (s : RpcManager) {e : RpcEvent} (h : inRound e = true) :
    ∃ roundPeers roundFutures roundWaits, s.step e =
      { s with roundPeers, roundFutures, roundWaits } := by
  cases e with
  | beginHeartbeats =>
    unfold RpcManager.step RpcManager.beginHeartbeats
    dsimp only
    split_ifs <;> exact ⟨_, _, _, rfl⟩
  | sendHeartbeat =>
    unfold RpcManager.step RpcManager.sendHeartbeat
    dsimp only
    split
    · exact ⟨_, _, _, rfl⟩
    · split_ifs <;> exact ⟨_, _, _, rfl⟩
  | awaitHeartbeat peer =>
    unfold RpcManager.step RpcManager.awaitHeartbeat
    dsimp only
    split_ifs <;> exact ⟨_, _, _, rfl⟩
  | _ => cases h

/-- What does not depend on the peers of the round. -/
lemma round_preserves {β : Type*} (f : RpcManager → β)
    (hf : ∀ s roundPeers roundFutures roundWaits,
      f { s with roundPeers, roundFutures, roundWaits } = f s) (s : RpcManager) {e : RpcEvent} (h :
      inRound e = true) : f (s.step e) = f s := by
  obtain ⟨_, _, _, hframe⟩ := round_frame s h
  rw [hframe]
  exact hf ..

/-! ## Automatic connections -/

lemma addAutoConnection_frame (s : RpcManager) (record : PeerIp) :
    ∃ autoConnections, s.addAutoConnection record = { s with autoConnections } := by
  unfold RpcManager.addAutoConnection
  split_ifs <;> exact ⟨_, rfl⟩

end MeshNetwork.Proofs
