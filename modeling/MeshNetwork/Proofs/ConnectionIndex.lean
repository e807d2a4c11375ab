import MeshNetwork.Library.EventRuns
import MeshNetwork.Proofs.ManagerSteps

/-!
# The registered connections

The manager's events reduced to what they do to the two indexes and to the sink, when the indexes
agree, and when the sink knows the registered peers.
-/

namespace MeshNetwork.Proofs

/-! ## The registry -/

/-- The part of the manager that registers connections. -/
structure Registry where
  byPeer : UMap PeerId RpcConnection
  byIp : UMap String RpcConnection
  removing : List PeerId
  sinkCalls : List SinkCall
  shuttingDown : Bool

inductive RegistryEffect where
  | keep
  | register (conn : RpcConnection)
  | remove (peerId : PeerId)
  | notify (peerId : PeerId)
  | evict (peerId : PeerId)
  | clear

def Registry.apply (r : Registry) : RegistryEffect → Registry
  | .keep => r
  | .register conn =>
    { r with
      byPeer := r.byPeer.insertNew conn.remotePeerId conn
      byIp := r.byIp.insertNew conn.remoteIp conn
      sinkCalls := r.sinkCalls ++ [.onPeerConnected conn.remotePeerId] }
  | .remove peerId =>
    match r.byPeer.lookup peerId with
    | none => r
    | some conn =>
      { r with
        byPeer := r.byPeer.erase peerId
        byIp := r.byIp.erase conn.remoteIp
        removing := r.removing ++ [peerId] }
  | .notify peerId =>
    if peerId ∈ r.removing then
      { r with
        removing := r.removing.erase peerId
        sinkCalls := r.sinkCalls ++ [.onPeerDisconnected peerId] }
    else r
  | .evict peerId => { r with byPeer := r.byPeer.erase peerId }
  | .clear => { r with byPeer := ∅, byIp := ∅, shuttingDown := true }

def registryOf (s : RpcManager) : Registry :=
  ⟨s.connectionsByPeer, s.connectionsByIp, s.removing, s.sinkCalls, s.shuttingDown⟩

/-- The connection that the startup thread of an attempt is working on. -/
def startingConnection (s : RpcManager) (i : Nat) : Option RpcConnection :=
  (s.attempts.lookup i).bind fun a =>
    match a.stage with
    | .starting => a.conn
    | _ => none

/-- The effect of an event on the registry. -/
def effectOf (s : RpcManager) : RpcEvent → RegistryEffect
  | .incoming remoteIp remotePeerId => .register ⟨s.nextConnection, remotePeerId, remoteIp⟩
  | .startupFinished i (.ok remotePeerId) =>
    (startingConnection s i).elim .keep fun conn =>
      .register { conn with remotePeerId := remotePeerId }
  | .removeConnection peerId => .remove peerId
  | .notifyRemoved peerId => .notify peerId
  | .heartbeatResult false =>
    s.roundWaits.elim .keep fun peer => if s.heartbeatFailures peer ≥ maxHeartbeatFailures then
      .evict peer else .keep
  | .shutdown => if s.shuttingDown then .keep else .clear
  | _ => .keep

lemma registryOf_startupFinished (s : RpcManager) (i : Nat) (res : Except String PeerId) :
    registryOf (s.startupFinished i res) = (registryOf s).apply
      (effectOf s (.startupFinished i res)) := by
  unfold RpcManager.startupFinished
  cases hl : s.attempts.lookup i with
  | none => cases res <;> simp [effectOf, startingConnection, hl, Registry.apply]
  | some a =>
    cases hstage : a.stage with
    | starting =>
      cases hconn : a.conn with
      | none => cases res <;> simp [effectOf, startingConnection, hl, hstage, hconn, Registry.apply]
      | some conn =>
        cases res with
        | error message => simp [effectOf, hstage, hconn, Registry.apply, registryOf]
        | ok peerId =>
          simp [effectOf, startingConnection, hl, hstage, hconn, Registry.apply, registryOf,
            RpcManager.handleConnectionStartup, RpcManager.addConnectionInternal]
    | _ => cases res <;> simp [effectOf, startingConnection, hl, hstage, Registry.apply]

/-- The manager refines the registry. -/
theorem registryOf_step (s : RpcManager) (e : RpcEvent) :
    registryOf (s.step e) = (registryOf s).apply (effectOf s e) := by
  cases e with
  | incoming remoteIp remotePeerId => rfl
  | connectAsync | timerExpired | resolved | tcpConnected | completionRun | maintenance =>
    exact attempt_preserves registryOf (fun _ _ _ _ _ => rfl) s rfl
  | beginHeartbeats | sendHeartbeat | awaitHeartbeat =>
    exact round_preserves registryOf (fun _ _ _ _ => rfl) s rfl
  | startupFinished i res => exact registryOf_startupFinished s i res
  | removeConnection peerId =>
    change registryOf (s.removeConnection peerId).2 = (registryOf s).apply (.remove peerId)
    unfold RpcManager.removeConnection
    cases hl : s.connectionsByPeer.lookup peerId <;> simp [Registry.apply, registryOf, hl]
  | notifyRemoved peerId =>
    change registryOf (s.notifyRemoved peerId) = (registryOf s).apply (.notify peerId)
    unfold RpcManager.notifyRemoved
    by_cases hmem : peerId ∈ s.removing <;> simp [Registry.apply, registryOf, hmem]
  | heartbeatResult success =>
    change registryOf (s.heartbeatResult success) = _
    unfold RpcManager.heartbeatResult
    cases hwaits : s.roundWaits with
    | none =>
      cases success with
      | true => rfl
      | false => simp [effectOf, hwaits, Registry.apply]
    | some peer =>
      cases success with
      | true => rfl
      | false =>
        simp only [effectOf, hwaits, Option.elim_some]
        change registryOf (if s.heartbeatFailures peer ≥ maxHeartbeatFailures then _ else _) = _
        split_ifs <;> rfl
  | addAutoConnection record =>
    obtain ⟨_, hframe⟩ := addAutoConnection_frame s record
    change registryOf (s.addAutoConnection record) = registryOf s
    rw [hframe]
    rfl
  | removeAutoConnection record => rfl
  | shutdown =>
    change registryOf s.shutdown = _
    unfold RpcManager.shutdown
    cases hs : s.shuttingDown <;> simp [effectOf, hs, Registry.apply, registryOf]

/-! ## Agreement of the indexes -/

/-- The connections are stored under their own peer and address. -/
structure Registry.Keyed (r : Registry) : Prop where
  byPeer : ∀ p c, r.byPeer.lookup p = some c → c.remotePeerId = p
  byIp : ∀ ip c, r.byIp.lookup ip = some c → c.remoteIp = ip

structure Registry.Agrees (r : Registry) : Prop where
  byIp : ∀ ip c, r.byIp.lookup ip = some c → r.byPeer.lookup c.remotePeerId = some c
  byPeer : ∀ p c, r.byPeer.lookup p = some c → c.remoteIp ∈ r.byIp

/-- The effects that keep the agreement. A second connection of a registered peer must not bring a
new address, an address is not removed while another peer is registered under it, and the connection
of an evicted peer is not the one in the index of addresses. -/
def Registry.Safe (r : Registry) : RegistryEffect → Prop
  | .register conn => conn.remotePeerId ∉ r.byPeer ∨ conn.remoteIp ∈ r.byIp
  | .remove p => ∀ c, r.byPeer.lookup p = some c → ∀ q c', r.byPeer.lookup q = some c' →
      c'.remoteIp = c.remoteIp → q = p
  | .evict p => ∀ ip c, r.byIp.lookup ip = some c → c.remotePeerId ≠ p
  | _ => True

variable {r : Registry}

lemma Registry.Keyed.register (h : r.Keyed) (conn : RpcConnection) :
    (r.apply (.register conn)).Keyed := by
  constructor
  · intro p c hc
    rcases UMap.lookup_insertNew_eq_some.mp hc with hold | ⟨-, rfl, rfl⟩
    · exact h.byPeer p c hold
    · rfl
  · intro ip c hc
    rcases UMap.lookup_insertNew_eq_some.mp hc with hold | ⟨-, rfl, rfl⟩
    · exact h.byIp ip c hold
    · rfl

lemma Registry.Keyed.apply (h : r.Keyed) (f : RegistryEffect) : (r.apply f).Keyed := by
  cases f with
  | keep => exact h
  | register conn => exact h.register conn
  | remove p =>
    cases hl : r.byPeer.lookup p with
    | none => simpa [Registry.apply, hl] using h
    | some conn =>
      simp only [Registry.apply, hl]
      exact ⟨fun q c hc => h.byPeer q c (UMap.lookup_erase_eq_some.mp hc).2,
        fun ip c hc => h.byIp ip c (UMap.lookup_erase_eq_some.mp hc).2⟩
  | notify p =>
    by_cases hp : p ∈ r.removing
    · simp only [Registry.apply, if_pos hp]
      exact ⟨h.byPeer, h.byIp⟩
    · simpa [Registry.apply, hp] using h
  | evict p => exact ⟨fun q c hc => h.byPeer q c (UMap.lookup_erase_eq_some.mp hc).2, h.byIp⟩
  | clear => exact ⟨nofun, nofun⟩

lemma Registry.agrees_register (h : r.Agrees) (conn : RpcConnection) :
    (r.apply (.register conn)).Agrees ↔ r.Safe (.register conn) := by
  constructor
  · intro h'
    by_contra hunsafe
    obtain ⟨hpeer, hip⟩ := not_or.mp hunsafe
    -- the new address points to the new connection, and the peer still to the old one
    have hnew :=
      h'.byIp conn.remoteIp conn (UMap.lookup_insertNew_eq_some.mpr (.inr ⟨hip, rfl, rfl⟩))
    rcases UMap.lookup_insertNew_eq_some.mp hnew with hold | ⟨habsent, -⟩
    · exact hip (h.byPeer _ _ hold)
    · exact hpeer habsent
  · intro hsafe
    constructor
    · intro ip c hc
      rcases UMap.lookup_insertNew_eq_some.mp hc with hold | ⟨hip, rfl, rfl⟩
      · exact UMap.lookup_insertNew_eq_some.mpr (.inl (h.byIp ip c hold))
      · exact UMap.lookup_insertNew_eq_some.mpr (.inr ⟨hsafe.resolve_right hip, rfl, rfl⟩)
    · intro p c hc
      rcases UMap.lookup_insertNew_eq_some.mp hc with hold | ⟨-, rfl, rfl⟩
      · exact UMap.mem_insertNew.mpr (.inr (h.byPeer p c hold))
      · exact UMap.mem_insertNew.mpr (.inl rfl)

lemma Registry.agrees_remove (hk : r.Keyed) (h : r.Agrees) (p : PeerId) :
    (r.apply (.remove p)).Agrees ↔ r.Safe (.remove p) := by
  simp only [Registry.Safe]
  cases hl : r.byPeer.lookup p with
  | none => simpa [Registry.apply, hl] using h
  | some conn =>
    simp only [Registry.apply, hl, Option.some.injEq, forall_eq']
    constructor
    · intro h' q c hc hip
      by_contra hq
      have hmem := h'.byPeer q c (UMap.lookup_erase_eq_some.mpr ⟨hq, hc⟩)
      exact (AList.mem_erase.mp hmem).1 hip
    · intro hsafe
      constructor
      · intro ip c hc
        obtain ⟨hip, hc⟩ := UMap.lookup_erase_eq_some.mp hc
        have hpeer := h.byIp ip c hc
        refine UMap.lookup_erase_eq_some.mpr ⟨fun hp => ?_, hpeer⟩
        rw [hp, hl] at hpeer
        cases hpeer
        exact hip (hk.byIp ip _ hc).symm
      · intro q c hc
        obtain ⟨hq, hc⟩ := UMap.lookup_erase_eq_some.mp hc
        exact AList.mem_erase.mpr ⟨fun hip => hq (hsafe q c hc hip), h.byPeer q c hc⟩

lemma Registry.agrees_evict (h : r.Agrees) (p : PeerId) :
    (r.apply (.evict p)).Agrees ↔ r.Safe (.evict p) := by
  simp only [Registry.Safe, Registry.apply]
  constructor
  · intro h' ip c hc hp
    exact (UMap.lookup_erase_eq_some.mp (h'.byIp ip c hc)).1 hp
  · intro hsafe
    refine ⟨fun ip c hc => ?_, fun q c hc => h.byPeer q c (UMap.lookup_erase_eq_some.mp hc).2⟩
    exact UMap.lookup_erase_eq_some.mpr ⟨hsafe ip c hc, h.byIp ip c hc⟩

/-- An effect keeps the agreement exactly if it is safe. -/
theorem Registry.agrees_apply (hk : r.Keyed) (h : r.Agrees) (f : RegistryEffect) :
    (r.apply f).Agrees ↔ r.Safe f := by
  cases f with
  | keep => exact iff_of_true h trivial
  | register conn => exact Registry.agrees_register h conn
  | remove p => exact Registry.agrees_remove hk h p
  | notify p =>
    refine iff_of_true ?_ trivial
    by_cases hp : p ∈ r.removing
    · simp only [Registry.apply, if_pos hp]
      exact ⟨h.byIp, h.byPeer⟩
    · simpa [Registry.apply, hp] using h
  | evict p => exact Registry.agrees_evict h p
  | clear => exact iff_of_true ⟨nofun, nofun⟩ trivial

/-- A connection to `ip` is registered. -/
def HasConnection (s : RpcManager) (ip : String) : Prop :=
  ∃ p c, s.connectionsByPeer.lookup p = some c ∧ c.remoteIp = ip

/-- The two indexes agree, so that an address that has no attempt pending blocks `connect_async` and
the automatic connections only if a connection to it is registered. -/
structure IndexesAgree (s : RpcManager) : Prop where
  byIp : ∀ ip c, s.connectionsByIp.lookup ip = some c →
    s.connectionsByPeer.lookup c.remotePeerId = some c
  byPeer : ∀ p c, s.connectionsByPeer.lookup p = some c → c.remoteIp ∈ s.connectionsByIp
  connectAsync : ∀ host port, RpcManager.connectKey host port ∉ s.pendingConnections →
    (s.connectAsync host port).attempts.lookup s.nextAttempt =
      some (RpcManager.refusedAttempt (RpcManager.connectKey host port)) → HasConnection s host
  autoConnections : ∀ target ∈ s.autoConnections,
    RpcManager.connectKey target.ip target.tcpPort ∉ s.pendingConnections →
    target ∉ s.missingTargets → HasConnection s target.ip

lemma indexesAgree_iff {s : RpcManager} (hk : (registryOf s).Keyed) :
    IndexesAgree s ↔ (registryOf s).Agrees := by
  refine ⟨fun h => ⟨h.byIp, h.byPeer⟩, fun h => ?_⟩
  have hconn : ∀ ip, ip ∈ s.connectionsByIp → HasConnection s ip := by
    intro ip hip
    obtain ⟨c, hc⟩ := (UMap.mem_iff_lookup _ _).mp hip
    exact ⟨_, c, h.byIp ip c hc, hk.byIp ip c hc⟩
  refine ⟨h.byIp, h.byPeer, fun host port hpending hrefused => ?_,
    fun target htarget hpending hmissing => ?_⟩
  · by_contra hnone
    have hip : host ∉ s.connectionsByIp := fun hip => hnone (hconn host hip)
    simp [RpcManager.connectAsync, hpending, hip, RpcManager.refusedAttempt] at hrefused
  · by_contra hnone
    have hip : target.ip ∉ s.connectionsByIp := fun hip => hnone (hconn _ hip)
    exact hmissing (List.mem_filter.mpr ⟨htarget, by simp [hip, hpending]⟩)

/-- In every state of a run the indexes agree, exactly if every event of the run is safe for
them. -/
theorem indexes_agree_iff (events : List RpcEvent) :
    EventRun.Always RpcManager.step IndexesAgree {} events ↔
      EventRun.Guarded RpcManager.step (fun s e => (registryOf s).Safe (effectOf s e)) {}
        events := by
  have hkeyed : ∀ s e, (registryOf s).Keyed → (registryOf (RpcManager.step s e)).Keyed := by
    intro s e hk
    rw [registryOf_step]
    exact hk.apply _
  have hstep : ∀ s e, (registryOf s).Keyed → IndexesAgree s →
      (IndexesAgree (RpcManager.step s e) ↔ (registryOf s).Safe (effectOf s e)) := by
    intro s e hk h
    rw [indexesAgree_iff (hkeyed s e hk), registryOf_step]
    exact Registry.agrees_apply hk ((indexesAgree_iff hk).mp h) _
  have hempty : (registryOf {}).Keyed := by constructor <;> simp [registryOf]
  have hinit : IndexesAgree {} := by
    rw [indexesAgree_iff hempty]
    constructor <;> simp [registryOf]
  exact EventRun.always_iff_guarded hkeyed hstep hempty hinit events

/-- The peer `"b"` connects from outside and fails five heartbeats. -/
def evictedPeer : List RpcEvent :=
  .incoming "10.0.0.2" "b" ::
    (List.replicate 5 [.beginHeartbeats, .sendHeartbeat, .awaitHeartbeat "b",
      .heartbeatResult false]).flatten

/-- The eviction leaves the connection in the index of addresses. -/
theorem eviction_keeps_address :
    ¬∀ events, EventRun.Always RpcManager.step IndexesAgree {} events := by
  intro h
  have hpeer :=
    (h evictedPeer _ (List.prefix_refl _)).byIp "10.0.0.2" ⟨0, "b", "10.0.0.2"⟩ (by decide)
  exact absurd hpeer (by decide)

/-! ## What the sink knows -/

def noteSinkCall (p : PeerId) (connected : Bool) : SinkCall → Bool
  | .onPeerConnected q => if q = p then true else connected
  | .onPeerDisconnected q => if q = p then false else connected

/-- The sink has been told that `p` is connected and not since that it is disconnected. -/
def sinkConnected (calls : List SinkCall) (p : PeerId) : Bool := calls.foldl (noteSinkCall p) false

lemma sinkConnected_concat (calls : List SinkCall) (call : SinkCall) (p : PeerId) :
    sinkConnected (calls ++ [call]) p = noteSinkCall p (sinkConnected calls p) call :=
  List.foldl_concat ..

/-- The sink knows the registered peers, apart from those whose removal it is about to be told. -/
structure Registry.Known (r : Registry) : Prop where
  nodup : r.removing.Nodup
  removed : ∀ p ∈ r.removing, p ∉ r.byPeer
  connected : ∀ p, sinkConnected r.sinkCalls p = true ↔ p ∈ r.byPeer ∨ p ∈ r.removing

/-- No registered peer is evicted, and no peer connects again between its removal and the call that
tells the sink. -/
def Registry.Notifies (r : Registry) : RegistryEffect → Prop
  | .register conn => conn.remotePeerId ∉ r.removing
  | .evict p => p ∉ r.byPeer
  | _ => True

lemma Registry.Known.register (h : r.Known) {conn : RpcConnection}
    (hsafe : r.Notifies (.register conn)) :
    (r.apply (.register conn)).Known := by
  refine ⟨h.nodup, fun p hp => ?_, fun p => ?_⟩
  · change p ∉ r.byPeer.insertNew conn.remotePeerId conn
    rw [UMap.mem_insertNew, not_or]
    exact ⟨fun heq => hsafe (heq ▸ hp), h.removed p hp⟩
  · change sinkConnected (r.sinkCalls ++ [_]) p = true ↔
      p ∈ r.byPeer.insertNew conn.remotePeerId conn ∨ p ∈ r.removing
    rw [sinkConnected_concat, UMap.mem_insertNew]
    by_cases hp : conn.remotePeerId = p
    · simp [noteSinkCall, hp]
    · simp [noteSinkCall, hp, Ne.symm hp, h.connected p]

lemma Registry.Known.remove (h : r.Known) (p : PeerId) : (r.apply (.remove p)).Known := by
  cases hl : r.byPeer.lookup p with
  | none => simpa [Registry.apply, hl] using h
  | some conn =>
    have hmem : p ∈ r.byPeer := (UMap.mem_iff_lookup _ _).mpr ⟨conn, hl⟩
    have hnew : p ∉ r.removing := fun hp => h.removed p hp hmem
    simp only [Registry.apply, hl]
    refine ⟨List.nodup_append.mpr ⟨h.nodup, List.nodup_singleton p, ?_⟩, fun q hq => ?_,
      fun q => ?_⟩
    · rintro a ha b hb rfl
      exact hnew (List.mem_singleton.mp hb ▸ ha)
    · dsimp only at hq ⊢
      rw [AList.mem_erase]
      rintro ⟨hqp, hq'⟩
      rcases List.mem_append.mp hq with hq | hq
      · exact h.removed q hq hq'
      · exact hqp (List.mem_singleton.mp hq)
    · dsimp only
      rw [h.connected q, AList.mem_erase, List.mem_append, List.mem_singleton]
      by_cases hqp : q = p
      · simp [hqp, hmem]
      · simp [hqp]

lemma Registry.Known.notify (h : r.Known) (p : PeerId) : (r.apply (.notify p)).Known := by
  by_cases hp : p ∈ r.removing
  · simp only [Registry.apply, if_pos hp]
    refine ⟨h.nodup.erase p, fun q hq => h.removed q (List.mem_of_mem_erase hq), fun q => ?_⟩
    dsimp only
    rw [sinkConnected_concat, h.nodup.mem_erase_iff]
    by_cases hqp : p = q
    · subst hqp
      simp [noteSinkCall, h.removed p hp]
    · simp [noteSinkCall, hqp, Ne.symm hqp, h.connected q]
  · simpa [Registry.apply, hp] using h

lemma Registry.Known.apply (h : r.Known) {f : RegistryEffect} (hsafe : r.Notifies f)
    (hopen : (r.apply f).shuttingDown = false) : (r.apply f).Known := by
  cases f with
  | keep => exact h
  | register conn => exact h.register hsafe
  | remove p => exact h.remove p
  | notify p => exact h.notify p
  | evict p =>
    have hkeys : ∀ q, q ∈ r.byPeer.erase p ↔ q ∈ r.byPeer := by
      intro q
      rw [AList.mem_erase, and_iff_right_iff_imp]
      rintro hq rfl
      exact hsafe hq
    exact ⟨h.nodup, fun q hq hmem => h.removed q hq ((hkeys q).mp hmem),
      fun q => (h.connected q).trans (or_congr_left (hkeys q).symm)⟩
  | clear => cases hopen

lemma shuttingDown_of_apply {f : RegistryEffect} (h : (r.apply f).shuttingDown = false) :
    r.shuttingDown = false := by
  cases f with
  | remove p => cases hl : r.byPeer.lookup p <;> simpa [Registry.apply, hl] using h
  | notify p => by_cases hp : p ∈ r.removing <;> simpa [Registry.apply, hp] using h
  | clear => cases h
  | _ => exact h

/-- Between operations and before shutdown, the peers that the sink takes to be connected are those
that are registered. -/
def SinkFollows (s : RpcManager) : Prop :=
  s.removing = [] → s.shuttingDown = false →
    ∀ p, sinkConnected s.sinkCalls p = true ↔ p ∈ s.connectionsByPeer

theorem sink_follows_connections (events : List RpcEvent)
    (h : EventRun.Guarded RpcManager.step (fun s e => (registryOf s).Notifies (effectOf s e))
      {} events) :
    EventRun.Always RpcManager.step SinkFollows {} events := by
  have hstep : ∀ s e, ((registryOf s).shuttingDown = false → (registryOf s).Known) →
      (registryOf s).Notifies (effectOf s e) →
      (registryOf (RpcManager.step s e)).shuttingDown = false →
        (registryOf (RpcManager.step s e)).Known := by
    intro s e hs hsafe hopen
    rw [registryOf_step] at hopen ⊢
    exact (hs (shuttingDown_of_apply hopen)).apply hsafe hopen
  have hempty : (registryOf {}).shuttingDown = false → (registryOf {}).Known :=
    fun _ => ⟨List.nodup_nil, nofun, fun p => by simp [registryOf, sinkConnected]⟩
  intro pre hpre hquiet hopen p
  have hknown := EventRun.always_of_guarded hstep hempty h pre hpre hopen
  simpa [registryOf, hquiet] using hknown.connected p

/-- A removal that the sink is told of before the peer comes back. -/
theorem sink_follows_connections_reconnect :
    EventRun.Guarded RpcManager.step (fun s e => (registryOf s).Notifies (effectOf s e)) {}
      [.incoming "10.0.0.2" "b", .removeConnection "b", .notifyRemoved "b",
        .incoming "10.0.0.2" "b"] ∧
    EventRun.Always RpcManager.step SinkFollows {}
      [.incoming "10.0.0.2" "b", .removeConnection "b", .notifyRemoved "b",
        .incoming "10.0.0.2" "b"] := by
  have hguard : EventRun.Guarded RpcManager.step
      (fun s e => (registryOf s).Notifies (effectOf s e)) {}
      [.incoming "10.0.0.2" "b", .removeConnection "b", .notifyRemoved "b",
        .incoming "10.0.0.2" "b"] := by
    refine ⟨nofun, trivial, trivial, ?_, trivial⟩
    change "b" ∉ _
    decide
  exact ⟨hguard, sink_follows_connections _ hguard⟩

/-- The sink is not told of the eviction. -/
theorem eviction_untold_to_sink :
    ¬∀ events, EventRun.Always RpcManager.step SinkFollows {} events := by
  intro h
  have hknown := h evictedPeer _ (List.prefix_refl _) (by decide) (by decide) "b"
  exact absurd (hknown.mp (by decide)) (by decide)

end MeshNetwork.Proofs
