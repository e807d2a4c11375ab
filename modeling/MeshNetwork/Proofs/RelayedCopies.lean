import MeshNetwork.Library.Lists
import MeshNetwork.Proofs.PendingMessages
import MeshNetwork.Proofs.Relaying

/-!
# The copies of a packet

A call of `route_data_packet` lets the owner handle the packet, asks for its id among the seen ones
and transmits copies of it. The packets that the owner sends meanwhile are calls of their own.
-/

namespace MeshNetwork.Proofs

variable {ν : Type}

/-- A call of `route_data_packet` at the router `self`. -/
structure DataCall (ν : Type) where
  self : PeerId
  env : StepEnv
  owner : ν
  router : RouterState
  immediateSrc : PeerId
  destPeer : PeerId
  pktId : String
  pkt : RoutedPacket

namespace DataCall

variable (cb : OnPacketForMe ν) (call : DataCall ν)

def run : List RouterOutput × ν × RouterState :=
  call.router.routeDataPacket cb call.self call.env call.owner call.immediateSrc call.destPeer
    call.pktId call.pkt

/-- The owner is called with the packet. -/
def IsForOwner : Prop :=
  (call.destPeer = "" ∨ call.destPeer = call.self) ∧ call.pkt.fromPeerId ≠ call.self

instance : Decidable call.IsForOwner := inferInstanceAs (Decidable (_ ∧ _))

/-- The owner's state, the packet and the packets that it has sent, after its call. -/
def handled : ν × RoutedPacket × List RoutedPacket :=
  if call.IsForOwner then cb call.env call.owner call.router call.pkt
    else (call.owner, call.pkt, [])

/-- What the call outputs before it comes to the forwarding. -/
def ownerOutputs : List RouterOutput :=
  (if call.IsForOwner then [.packetForMe call.pkt] else []) ++
    (call.router.sendOwnPackets call.self call.env 2 (call.handled cb).2.2).1

/-- The router that looks for the id of the packet. -/
def checked : RouterState :=
  (call.router.sendOwnPackets call.self call.env 2 (call.handled cb).2.2).2

def checkTime : Time := call.env.clock (2 + (call.handled cb).2.2.length)

/-- The part of the call after the owner has returned. -/
def forward : List RouterOutput × RouterState :=
  (call.checked cb).forwardPacket call.self call.env.order (call.checkTime cb) call.immediateSrc
    call.destPeer
    call.pktId (call.handled cb).2.1

/-- What the forwarding loop transmits. -/
def copies : List RouterOutput := if call.destPeer = call.self then [] else (call.forward cb).1

lemma run_eq : call.run cb = (call.ownerOutputs cb ++ call.copies cb, (call.handled cb).1,
    if call.destPeer = call.self then call.checked cb else (call.forward cb).2) := by
  unfold run RouterState.routeDataPacket copies forward checked checkTime ownerOutputs handled
  by_cases howner : (call.destPeer = "" ∨ call.destPeer = call.self) ∧
    call.pkt.fromPeerId ≠ call.self
  · have hcalled : call.IsForOwner := howner
    rw [if_pos howner, if_pos hcalled, if_pos hcalled]
    by_cases hself : call.destPeer = call.self
    · simp [hself]
    · simp [hself]
  · have hcalled : ¬call.IsForOwner := howner
    rw [if_neg howner, if_neg hcalled, if_neg hcalled]
    by_cases hself : call.destPeer = call.self
    · simp [hself, RouterState.sendOwnPackets]
    · simp [hself, RouterState.sendOwnPackets]

/-- The id of the packet does not stop it. -/
def Passes : Prop :=
  call.destPeer ≠ call.self ∧
    (call.immediateSrc ≠ call.self → (call.pktId, (call.handled cb).2.1.expectResponse) ∉
      (call.checked cb).seenPacketIds.set)

variable {cb call}

/-- A copy has come through the checks of the forwarding loop. -/
lemma mem_copies {o : RouterOutput} (h : o ∈ call.copies cb) :
    ∃ next ∈ (call.checked cb).determineNextHop call.self call.env.order call.destPeer,
      next ≠ call.immediateSrc ∧ next ≠ call.self ∧ 0 < (call.handled cb).2.1.ttl - 1 ∧
        o = .transmit next { (call.handled cb).2.1 with ttl := (call.handled cb).2.1.ttl - 1 } := by
  unfold copies forward RouterState.forwardPacket at h
  dsimp only at h
  split_ifs at h
  · exact absurd h List.not_mem_nil
  · exact absurd h List.not_mem_nil
  · obtain ⟨next, hnext, ho⟩ := List.mem_filterMap.mp h
    unfold forwardTo at ho
    dsimp only at ho
    split_ifs at ho with hsrc hself hdead
    refine ⟨next, hnext, hsrc, hself, UInt32.not_le.mp hdead, ?_⟩
    split at ho <;> cases ho <;> rfl

lemma determineNextHop_nodup (s : RouterState) (self dest : PeerId) (ord : IterOrder PeerId) :
    (s.determineNextHop self ord dest).Nodup := by
  unfold RouterState.determineNextHop RouterState.getDirectNeighbors
  split_ifs
  · exact ((ord.visit_perm 0 s.neighborViews.keys).nodup_iff.mpr s.neighborViews.nodupKeys).filter _
  · split
    · exact List.nodup_nil
    · split_ifs
      · exact List.nodup_nil
      · exact List.nodup_singleton _

/-- A next hop gets at most one copy. -/
lemma copies_to_le_one (next : PeerId) :
    ((call.copies cb).filterMap (packetTo next)).length ≤ 1 := by
  unfold copies forward RouterState.forwardPacket
  dsimp only
  split_ifs
  · exact Nat.zero_le 1
  · exact Nat.zero_le 1
  · rw [List.filterMap_filterMap]
    refine List.length_filterMap_le_one (determineNextHop_nodup ..) (x := next) fun hop hne => ?_
    unfold forwardTo
    dsimp only
    split_ifs
    · rfl
    · rfl
    · rfl
    · split <;> simp [packetTo, hne.symm]

/-- The immediate sender and the router itself get none. -/
lemma copies_to_none {next : PeerId} (h : next = call.immediateSrc ∨ next = call.self) :
    (call.copies cb).filterMap (packetTo next) = [] := by
  rw [List.filterMap_eq_nil_iff]
  intro o ho
  obtain ⟨hop, -, hsrc, hself, -, rfl⟩ := mem_copies ho
  refine if_neg ?_
  rintro rfl
  rcases h with h | h
  · exact hsrc h
  · exact hself h

lemma handled_header (hcb : KeepsHeader cb) (call : DataCall ν) :
    SameHeader call.pkt (call.handled cb).2.1 ∧ (call.handled cb).2.1.ttl = call.pkt.ttl := by
  unfold handled
  split_ifs
  · exact hcb call.env call.owner call.router call.pkt
  · exact ⟨.refl call.pkt, rfl⟩

variable (cb call) in
/-- The id of the packet has been seen, or the owner sends a packet with it while it handles this
one. -/
def KeyEntered : Prop :=
  (∃ own ∈ (call.handled cb).2.2, own.toPeerId ≠ call.self ∧
    (call.pktId, call.pkt.expectResponse) = (toHex own.id, own.expectResponse)) ∨
  (call.pktId, call.pkt.expectResponse) ∈ call.router.seenPacketIds.set

variable (cb call) in
/-- What has to be the case when the call is made for the forwarding loop to transmit something. -/
structure Transmits : Prop where
  dest : call.destPeer ≠ call.self
  unseen : call.immediateSrc ≠ call.self → ¬call.KeyEntered cb
  hop : ∃ next ∈ call.router.determineNextHop call.self call.env.order call.destPeer,
    next ≠ call.immediateSrc ∧ next ≠ call.self
  alive : call.pkt.ttl ≠ 1
  known : call.pkt.transport = .tcp ∨ call.pkt.transport = .udp

lemma checked_hops (cb : OnPacketForMe ν) (call : DataCall ν) (ord : IterOrder PeerId)
    (dest : PeerId) :
    (call.checked cb).determineNextHop call.self ord dest =
      call.router.determineNextHop call.self ord dest := by
  obtain ⟨seen, hchecked⟩ :=
    sendOwnPackets_frame call.self call.env 2 call.router (call.handled cb).2.2
  unfold checked
  rw [hchecked]
  rfl

lemma pred_pos_iff {t : UInt32} : 0 < t - 1 ↔ t ≠ 1 := by
  rw [UInt32.pos_iff_ne_zero]
  refine not_congr ⟨fun h => (UInt32.sub_left_inj 1).mp h, ?_⟩
  rintro rfl
  rfl

lemma transport_of_mem_copies {o : RouterOutput} (h : o ∈ call.copies cb) :
    (call.handled cb).2.1.transport = .tcp ∨ (call.handled cb).2.1.transport = .udp := by
  unfold copies forward RouterState.forwardPacket at h
  dsimp only at h
  split_ifs at h
  · exact absurd h List.not_mem_nil
  · exact absurd h List.not_mem_nil
  · obtain ⟨next, -, ho⟩ := List.mem_filterMap.mp h
    unfold forwardTo at ho
    dsimp only at ho
    split_ifs at ho
    split at ho
    · exact .inl ‹_›
    · exact .inr ‹_›
    · cases ho

/-- The forwarding loop transmits something exactly if the checks let it. -/
lemma copies_ne_nil_iff (hcb : KeepsHeader cb) (call : DataCall ν) :
    call.copies cb ≠ [] ↔ call.Transmits cb := by
  obtain ⟨hheader, httl⟩ := handled_header hcb call
  have hseen : (call.pktId, (call.handled cb).2.1.expectResponse) ∈
      (call.checked cb).seenPacketIds.set ↔ call.KeyEntered cb := by
    rw [hheader.kind]
    exact mem_sendOwnPackets_seen_iff ..
  by_cases hself : call.destPeer = call.self
  · exact iff_of_false (by simp [copies, hself]) fun h => h.dest hself
  have hcopies : call.copies cb = (call.forward cb).1 := if_neg hself
  constructor
  · intro hne
    obtain ⟨o, ho⟩ := List.exists_mem_of_ne_nil _ hne
    have hknown := transport_of_mem_copies ho
    obtain ⟨next, -, -, -, -, rfl⟩ := mem_copies ho
    rw [hcopies] at ho
    obtain ⟨hunseen, hhop, hsrc, hnext, hpos, -⟩ := (mem_forwardPacket hknown).mp ho
    rw [checked_hops] at hhop
    rw [hseen, not_and] at hunseen
    rw [httl, pred_pos_iff] at hpos
    exact ⟨hself, hunseen, ⟨next, hhop, hsrc, hnext⟩, hpos, hheader.transport ▸ hknown⟩
  · rintro ⟨-, hunseen, ⟨next, hhop, hsrc, hnext⟩, halive, hknown⟩
    rw [hcopies]
    rw [← hseen, ← not_and] at hunseen
    rw [← checked_hops cb call] at hhop
    rw [← httl, ← pred_pos_iff] at halive
    exact List.ne_nil_of_mem ((mem_forwardPacket (hheader.transport ▸ hknown)).mpr
      ⟨hunseen, hhop, hsrc, hnext, halive, rfl⟩)

end DataCall

/-! ## TTL -/

lemma pred_lt_self_iff {t : UInt32} : t - 1 < t ↔ t ≠ 0 := by
  constructor
  · rintro hlt rfl
    exact absurd hlt (by decide)
  · intro hne
    have hpos : t.toNat ≠ 0 := fun hzero => hne (UInt32.toNat_inj.mp hzero)
    rw [UInt32.lt_iff_toNat_lt, toNat_pred hpos]
    omega

/-- The copies of a packet have a positive TTL below its own exactly if its TTL is not zero, or the
checks that precede the transmission do not let it through. -/
theorem copies_ttl_iff (lib : Libraries) (call : DataCall NodeState) :
    (call.run (onPacketForMe lib)).1 =
      call.ownerOutputs (onPacketForMe lib) ++ call.copies (onPacketForMe lib) ∧
    ((∀ next p, .transmit next p ∈ call.copies (onPacketForMe lib) →
        0 < p.ttl ∧ p.ttl < call.pkt.ttl) ↔
      call.pkt.ttl ≠ 0 ∨ ¬call.Transmits (onPacketForMe lib)) := by
  have hcb := onPacketForMe_keepsHeader lib
  have httl := (DataCall.handled_header hcb call).2
  refine ⟨by rw [call.run_eq], ?_, ?_⟩
  · intro hall
    rw [or_iff_not_imp_right, not_not, ← DataCall.copies_ne_nil_iff hcb]
    intro hne
    obtain ⟨o, ho⟩ := List.exists_mem_of_ne_nil _ hne
    obtain ⟨next, -, -, -, -, rfl⟩ := DataCall.mem_copies ho
    have hlt := (hall next _ ho).2
    dsimp only at hlt
    rw [httl] at hlt
    exact pred_lt_self_iff.mp hlt
  · rintro (hne | hnone) next p hp
    · obtain ⟨_, -, -, -, hpos, heq⟩ := DataCall.mem_copies hp
      cases heq
      dsimp only
      rw [httl] at hpos ⊢
      exact ⟨hpos, pred_lt_self_iff.mpr hne⟩
    · exact absurd ((DataCall.copies_ne_nil_iff hcb call).mp (List.ne_nil_of_mem hp)) hnone

/-- Node "a" with the neighbours "b" and "c" gets a packet from "c" for "b" with the given TTL. -/
def relayFromC (ttl : UInt32) : DataCall NodeState where
  self := "a"
  env := plainEnv 0
  owner := { peerId := "a", encryptMessages := false }
  router := timedRun [(0, .peerConnected "b"), (0, .peerConnected "c")]
  immediateSrc := "c"
  destPeer := "b"
  pktId := toHex [7]
  pkt := makeTextRoutedPacket [7] "c" "b" ttl "hello"

/-- A packet that arrives with a TTL of zero goes on with the greatest one. -/
theorem zero_ttl_wraps :
    (relayFromC 0).pkt.ttl = 0 ∧
      ((relayFromC 0).run (onPacketForMe openLibraries)).1 =
        [.transmit "b" (makeTextRoutedPacket [7] "c" "b" 4294967295 "hello")] ∧
      (relayFromC 0).copies (onPacketForMe openLibraries) =
        [.transmit "b" (makeTextRoutedPacket [7] "c" "b" 4294967295 "hello")] :=
  ⟨rfl, rfl, rfl⟩

end MeshNetwork.Proofs
