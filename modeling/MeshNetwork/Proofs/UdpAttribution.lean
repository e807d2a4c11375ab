import MeshNetwork.Model.UdpTransport
import MeshNetwork.Proofs.ConnectionIndex

/-!
# The senders of UDP payloads

The callback of the transport finds the connection of a datagram by its address alone. It finds the
peer that sent the datagram as long as the registered peers have addresses of their own.
-/

namespace MeshNetwork.Proofs

/-! ## The registry -/

/-- The connection that is stored under the address of a registered one is of the same peer. -/
def Registry.Attributed (r : Registry) : Prop :=
  ∀ p c, r.byPeer.lookup p = some c → ∃ c', r.byIp.lookup c.remoteIp = some c' ∧
    c'.remotePeerId = c.remotePeerId

/-- A peer is registered at an address under which no other peer is stored, and an address is not
removed while another peer is registered at it. -/
def Registry.Separate (r : Registry) : RegistryEffect → Prop
  | .register conn => conn.remotePeerId ∈ r.byPeer ∨
      ∀ c, r.byIp.lookup conn.remoteIp = some c → c.remotePeerId = conn.remotePeerId
  | .remove p => ∀ c, r.byPeer.lookup p = some c → ∀ q c', r.byPeer.lookup q = some c' →
      c'.remoteIp = c.remoteIp → q = p
  | _ => True

variable {r : Registry}

lemma Registry.attributed_register (h : r.Attributed) (conn : RpcConnection) :
    (r.apply (.register conn)).Attributed ↔ r.Separate (.register conn) := by
  constructor
  · intro h'
    by_cases hpeer : conn.remotePeerId ∈ r.byPeer
    · exact .inl hpeer
    · refine .inr fun c hc => ?_
      obtain ⟨c', hc', heq⟩ :=
        h' conn.remotePeerId conn (UMap.lookup_insertNew_eq_some.mpr (.inr ⟨hpeer, rfl, rfl⟩))
      have hold : (r.byIp.insertNew conn.remoteIp conn).lookup conn.remoteIp = some c :=
        UMap.lookup_insertNew_eq_some.mpr (.inl hc)
      rw [← heq]
      exact congrArg _ (Option.some.inj (hold.symm.trans hc'))
  · intro hsep p c hc
    rcases UMap.lookup_insertNew_eq_some.mp hc with hold | ⟨hpeer, rfl, rfl⟩
    · obtain ⟨c', hc', heq⟩ := h p c hold
      exact ⟨c', UMap.lookup_insertNew_eq_some.mpr (.inl hc'), heq⟩
    · cases hip : r.byIp.lookup conn.remoteIp with
      | none =>
        have habsent := AList.lookup_eq_none.mp hip
        exact ⟨conn, UMap.lookup_insertNew_eq_some.mpr (.inr ⟨habsent, rfl, rfl⟩), rfl⟩
      | some c' =>
        exact ⟨c', UMap.lookup_insertNew_eq_some.mpr (.inl hip), hsep.resolve_left hpeer c' hip⟩

lemma Registry.attributed_remove (h : r.Attributed) (p : PeerId) :
    (r.apply (.remove p)).Attributed ↔ r.Separate (.remove p) := by
  simp only [Registry.Separate]
  cases hl : r.byPeer.lookup p with
  | none => simpa [Registry.apply, hl] using h
  | some conn =>
    simp only [Registry.apply, hl, Option.some.injEq, forall_eq']
    constructor
    · intro h' q c hc hip
      by_contra hq
      obtain ⟨c', hc', -⟩ := h' q c (UMap.lookup_erase_eq_some.mpr ⟨hq, hc⟩)
      exact (UMap.lookup_erase_eq_some.mp hc').1 hip
    · intro hsep q c hc
      obtain ⟨hq, hc⟩ := UMap.lookup_erase_eq_some.mp hc
      obtain ⟨c', hc', heq⟩ := h q c hc
      exact ⟨c', UMap.lookup_erase_eq_some.mpr ⟨fun hip => hq (hsep q c hc hip), hc'⟩, heq⟩

/-- An effect keeps the attribution exactly if it keeps the addresses of the peers apart. -/
theorem Registry.attributed_apply (h : r.Attributed) (f : RegistryEffect) :
    (r.apply f).Attributed ↔ r.Separate f := by
  cases f with
  | keep => exact iff_of_true h trivial
  | register conn => exact Registry.attributed_register h conn
  | remove p => exact Registry.attributed_remove h p
  | notify p =>
    refine iff_of_true ?_ trivial
    by_cases hp : p ∈ r.removing
    · simp only [Registry.apply, if_pos hp]
      exact h
    · simpa [Registry.apply, hp] using h
  | evict p => exact iff_of_true (fun q c hc => h q c (UMap.lookup_erase_eq_some.mp hc).2) trivial
  | clear =>
    refine iff_of_true (fun q c hc => ?_) trivial
    change (∅ : UMap PeerId _).lookup q = some c at hc
    rw [AList.lookup_empty] at hc
    cases hc

/-! ## Datagrams -/

/-- The payloads that come from the UDP endpoint of a registered connection are pushed under its
peer. -/
def DatagramsAttributed (s : UdpManager) : Prop :=
  ∀ p c, s.manager.connectionsByPeer.lookup p = some c →
    ∀ bytes, s.manager.onUdpReceive (s.remoteUdpEndpoint c) bytes = some (c.remotePeerId, bytes)

/-- The event keeps the addresses of the registered peers apart. -/
def SeparateAddresses (s : UdpManager) : UdpManagerEvent → Prop
  | .rpc event _ => (registryOf s.manager).Separate (effectOf s.manager event)
  | .handshake _ _ => True

lemma datagramsAttributed_iff (s : UdpManager) :
    DatagramsAttributed s ↔ (registryOf s.manager).Attributed := by
  unfold DatagramsAttributed Registry.Attributed RpcManager.onUdpReceive
    UdpManager.remoteUdpEndpoint
  simp only [Option.map_eq_some_iff, Prod.mk.injEq, and_true, forall_const]
  rfl

/-- In every state of a run, and for every registered connection, the payloads from its UDP endpoint
are pushed under its peer, exactly if every event of the run keeps the addresses of the peers
apart. -/
theorem datagrams_attributed_iff (events : List UdpManagerEvent) :
    EventRun.Always UdpManager.step DatagramsAttributed {} events ↔
      EventRun.Guarded UdpManager.step SeparateAddresses {} events := by
  have hstep : ∀ s e, DatagramsAttributed s →
      (DatagramsAttributed (UdpManager.step s e) ↔ SeparateAddresses s e) := by
    intro s e h
    rw [datagramsAttributed_iff] at h ⊢
    cases e with
    | rpc event announced =>
      change (registryOf (s.manager.step event)).Attributed ↔ _
      rw [registryOf_step]
      exact Registry.attributed_apply h _
    | handshake id announced => exact iff_of_true h trivial
  have hinit : DatagramsAttributed {} := by
    rw [datagramsAttributed_iff]
    exact nofun
  exact EventRun.always_iff_guarded_of_step hstep hinit events

/-- Two peers connect from one address, with UDP ports of their own. -/
def sharedAddress : List UdpManagerEvent :=
  [.rpc (.incoming "10.0.0.2" "b") 9001, .rpc (.incoming "10.0.0.2" "c") 9002]

theorem shared_address_misattributed :
    let s := EventRun.run UdpManager.step {} sharedAddress
    s.manager.connectionsByPeer.lookup "c" = some ⟨1, "c", "10.0.0.2"⟩ ∧
      s.remoteUdpEndpoint ⟨1, "c", "10.0.0.2"⟩ = ⟨"10.0.0.2", 9002⟩ ∧
      s.manager.onUdpReceive ⟨"10.0.0.2", 9002⟩ [7] = some ("b", [7]) := by
  decide

end MeshNetwork.Proofs
