import MeshNetwork.Library.Flooding
import MeshNetwork.Proofs.Answers

/-!
# Broadcast requests in flight

The invariants of a network in which a broadcast request spreads and the answers travel back, and
what the delivery of one packet does to them.
-/

namespace MeshNetwork.Proofs

open Flooding

/-- A node that is reached for the first time passes the copy on with one hop less. -/
lemma extend_trail {G : SimpleGraph PeerId} {S : Set PeerId} {o x y : PeerId} {n bound : Nat}
    {ttl : UInt32} (hpaths : PathsWithin G o bound) (htrail : Trail G S o x n)
    (httl : ttl.toNat + n = bound) (hadj : G.Adj x y) (hnew : y ∉ S) :
    Trail G (insert y S) o y (n + 1) ∧ (ttl - 1).toNat + (n + 1) = bound := by
  have hlt := htrail.lt_bound hadj hnew hpaths
  have hpred := toNat_pred (t := ttl) (by omega)
  exact ⟨htrail.concat hadj hnew, by omega⟩

/-! ## Coverage -/

section Coverage

variable {ν : Type} {G : SimpleGraph PeerId} {S : Set PeerId} {net : Network ν} {src dst : PeerId}
  {index : Nat}
  {pkt : RoutedPacket} {r : List RouterOutput × ν × RouterState}
  {P : PeerId → PeerId → RoutedPacket → Prop}

/-- A copy is delivered to a node that has been reached before. -/
lemma covers_of_reached (h : Covers G S fun x y => ∃ p ∈ net.channel x y, P x y p)
    (hpkt : (net.channel src dst)[index]? = some pkt) (hdst : dst ∈ S) :
    Covers G S fun x y => ∃ p ∈ ((net.take src dst index).apply dst r).channel x y, P x y p := by
  refine h.mono fun x y ⟨p, hp, hcopy⟩ => ?_
  by_cases hxy : x = src ∧ y = dst
  · refine .inl ?_
    rw [hxy.2]
    exact hdst
  · exact .inr ⟨p, mem_delivered.mpr (.inl (mem_take_of_ne hpkt hp fun heq => absurd heq hxy)),
      hcopy⟩

/-- A packet that is no copy is delivered. -/
lemma covers_of_other (h : Covers G S fun x y => ∃ p ∈ net.channel x y, P x y p)
    (hpkt : (net.channel src dst)[index]? = some pkt) (hother : ¬P src dst pkt) :
    Covers G S fun x y => ∃ p ∈ ((net.take src dst index).apply dst r).channel x y, P x y p := by
  refine h.mono fun x y ⟨p, hp, hcopy⟩ => .inr
    ⟨p, mem_delivered.mpr (.inl (mem_take_of_ne hpkt hp ?_)), hcopy⟩
  rintro ⟨rfl, rfl⟩ rfl
  exact hother hcopy

end Coverage

/-! ## The network -/

/-- The neighbours of each node are those of `G`, and every node that `o` can reach has a shortest
route to it. -/
structure RoutesTo (G : SimpleGraph PeerId) (o : PeerId)
    (routers : PeerId → RouterState) : Prop where
  neighbors : ∀ b p, p ∈ (routers b).neighborViews ↔ G.Adj b p
  closer : ∀ b, b ≠ o → G.Reachable o b →
    ∃ hop, NextHop (routers b) o hop ∧ G.Adj b hop ∧ G.dist o hop + 1 = G.dist o b

/-- The network can carry the request and its answers: the ids are names, a packet can take any path
from the originator before its TTL runs out, and the protocol is known. -/
structure Carries (G : SimpleGraph PeerId) (q : Query) : Prop where
  named : ∀ b, G.Reachable q.origin b → b ≠ ""
  paths : PathsWithin G q.origin 14
  protocol : q.protocol = .tcp ∨ q.protocol = .udp

/-- The routers are converged, the originator collects answers and the other nodes answer. -/
structure Serving (lib : Libraries) (im : IdentityManager) (G : SimpleGraph PeerId) (q : Query)
    (routers : PeerId → RouterState) (owners : PeerId → NodeState) : Prop where
  routes : RoutesTo G q.origin routers
  peerId : ∀ b, (owners b).peerId = b
  responds : ∀ b, b ≠ q.origin → G.Reachable q.origin b → Responds lib im q (owners b)
  collects : Collects im q (owners q.origin)

/-- The nodes that have seen the request. -/
def reached (q : Query) (routers : PeerId → RouterState) : Set PeerId :=
  {b | (q.reqId, true) ∈ (routers b).seenPacketIds.set}

/-- A copy of the request on its way from `x` to `y`, which has come along a path of nodes in
`S`. -/
structure CopyOnWay (G : SimpleGraph PeerId) (q : Query) (S : Set PeerId) (x y : PeerId)
    (pkt : RoutedPacket) :
    Prop where
  adj : G.Adj x y
  trail : ∃ n ttl, pkt = q.copy ttl ∧ Trail G S q.origin x n ∧ ttl.toNat + n = 14

/-- An answer of `v` on its way from `x` to `y`, with enough TTL left for the rest of the way. -/
structure AnswerOnWay (lib : Libraries) (im : IdentityManager) (G : SimpleGraph PeerId) (q : Query)
    (v x y : PeerId) (pkt : RoutedPacket) : Prop where
  answer : IsAnswer lib im q v pkt
  adj : G.Adj x y
  reachable : G.Reachable q.origin x
  closer : G.dist q.origin y < G.dist q.origin x
  within : G.dist q.origin x ≤ G.dist q.origin v
  ttl : G.dist q.origin y < pkt.ttl.toNat

/-- An answer of `v` has been collected or is on its way. -/
def Answered (lib : Libraries) (im : IdentityManager) (G : SimpleGraph PeerId) (q : Query)
    (net : Network NodeState) (v : PeerId) : Prop :=
  (∃ x y, ∃ pkt ∈ net.channel x y, AnswerOnWay lib im G q v x y pkt) ∨
    ∃ rawBytes, .onResponse q.reqId v rawBytes ∈ (net.owners q.origin).calls

/-- What holds from the call of `broadcast_request` on, whatever becomes of the answers. -/
structure Spreading (lib : Libraries) (im : IdentityManager) (G : SimpleGraph PeerId) (q : Query)
    (net : Network NodeState) : Prop where
  serving : Serving lib im G q net.routers net.owners
  origin : q.origin ∈ reached q net.routers
  inFlight : ∀ x y, ∀ pkt ∈ net.channel x y,
    CopyOnWay G q (reached q net.routers) x y pkt ∨ ∃ v, AnswerOnWay lib im G q v x y pkt
  covers : Covers G (reached q net.routers) fun x y =>
    ∃ pkt ∈ net.channel x y, CopyOnWay G q (reached q net.routers) x y pkt

/-- No answer has been lost. -/
def AllAnswered (lib : Libraries) (im : IdentityManager) (G : SimpleGraph PeerId) (q : Query)
    (net : Network NodeState) : Prop :=
  ∀ v ∈ reached q net.routers, v ≠ q.origin → Answered lib im G q net v

section Delivery

variable {lib : Libraries} {im : IdentityManager} {G : SimpleGraph PeerId} {q : Query}
  {net : Network NodeState}

/-- The originator is within the TTL of every node. -/
lemma Carries.dist_le (h : Carries G q) {x : PeerId} (hx : G.Reachable q.origin x) :
    G.dist q.origin x ≤ 14 := by
  obtain ⟨p, hp, hlen⟩ := hx.exists_path_of_dist
  rw [← hlen]
  exact h.paths x p hp

lemma CopyOnWay.mono {S S' : Set PeerId} {x y : PeerId} {pkt : RoutedPacket}
    (h : CopyOnWay G q S x y pkt) (hsub : S ⊆ S') : CopyOnWay G q S' x y pkt := by
  obtain ⟨n, ttl, hpkt, htrail, httl⟩ := h.trail
  exact ⟨h.adj, n, ttl, hpkt, htrail.mono hsub, httl⟩

lemma CopyOnWay.not_isAnswer {S : Set PeerId} {x y v : PeerId} {pkt : RoutedPacket}
    (h : CopyOnWay G q S x y pkt) :
    ¬IsAnswer lib im q v pkt := by
  obtain ⟨n, ttl, rfl, -⟩ := h.trail
  intro hanswer
  cases hanswer.kind

lemma Responds.withCalls {node : NodeState} (h : Responds lib im q node) (calls : List AppCall) :
    Responds lib im q { node with calls } :=
  ⟨h.unblocked, h.notPending, h.notTracked, h.answers,
    fun hon => ⟨(h.encrypts hon).cipher, (h.encrypts hon).keys⟩⟩

lemma RoutesTo.update {o : PeerId} {routers : PeerId → RouterState} (h : RoutesTo G o routers)
    {b : PeerId} {s : RouterState} (hsame : SameRoutes (routers b) s) :
    RoutesTo G o (Function.update routers b s) := by
  have hrouter := fun x => hsame.update x
  constructor
  · intro x p
    rw [(hrouter x).mem]
    exact h.neighbors x p
  · intro x hx hreach
    obtain ⟨hop, hhop, hcloser⟩ := h.closer x hx hreach
    exact ⟨hop, hhop.of_same (hrouter x), hcloser⟩

lemma Serving.apply (h : Serving lib im G q net.routers net.owners) {b : PeerId}
    {r : List RouterOutput × NodeState × RouterState}
    (hsteady : Steady (net.routers b) r.2.2 (net.owners b) r.2.1) :
    Serving lib im G q (net.apply b r).routers (net.apply b r).owners := by
  obtain ⟨hroutes, calls, hnode⟩ := hsteady
  rw [apply_eq]
  dsimp only
  have howner : ∀ x, ∃ calls, Function.update net.owners b r.2.1 x =
      { net.owners x with calls } := by
    intro x
    by_cases hx : x = b
    · rw [hx, Function.update_self]
      exact ⟨_, hnode⟩
    · rw [Function.update_of_ne hx]
      exact ⟨(net.owners x).calls, rfl⟩
  constructor
  · exact h.routes.update hroutes
  · intro x
    obtain ⟨calls, hx⟩ := howner x
    rw [hx]
    exact h.peerId x
  · intro x hx hreach
    obtain ⟨calls, heq⟩ := howner x
    rw [heq]
    exact (h.responds x hx hreach).withCalls calls
  · obtain ⟨calls, heq⟩ := howner q.origin
    rw [heq]
    exact ⟨h.collects.unblocked, h.collects.notPending, h.collects.tracked, h.collects.identity⟩

section Packet

variable {src dst : PeerId} {index : Nat} {pkt : RoutedPacket}
  {r : List RouterOutput × NodeState × RouterState}

lemma reached_mono
    (hseen : dst ∈ reached q net.routers → (q.reqId, true) ∈ r.2.2.seenPacketIds.set) :
    reached q net.routers ⊆ reached q ((net.take src dst index).apply dst r).routers :=
  seenBy_mono hseen

lemma reached_eq (hseen : (q.reqId, true) ∈ r.2.2.seenPacketIds.set ↔ dst ∈ reached q net.routers) :
    reached q ((net.take src dst index).apply dst r).routers = reached q net.routers :=
  seenBy_eq hseen

lemma reached_insert (hseen : (q.reqId, true) ∈ r.2.2.seenPacketIds.set) :
    reached q ((net.take src dst index).apply dst r).routers = insert dst (reached q net.routers) :=
  seenBy_insert hseen

/-- A delivery keeps the invariant if the node keeps what it knows and sends only copies and
answers. -/
lemma Spreading.delivered (h : Spreading lib im G q net)
    (hsteady : Steady (net.routers dst) r.2.2 (net.owners dst) r.2.1)
    (hseen : dst ∈ reached q net.routers → (q.reqId, true) ∈ r.2.2.seenPacketIds.set)
    (hsends : ∀ y p, .transmit y p ∈ r.1 →
      CopyOnWay G q (reached q ((net.take src dst index).apply dst r).routers) dst y p ∨
        ∃ v, AnswerOnWay lib im G q v dst y p)
    (hcovers : Covers G (reached q ((net.take src dst index).apply dst r).routers) fun x y =>
      ∃ p ∈ ((net.take src dst index).apply dst r).channel x y,
        CopyOnWay G q (reached q ((net.take src dst index).apply dst r).routers) x y p) :
    Spreading lib im G q ((net.take src dst index).apply dst r) := by
  have hserving : Serving lib im G q (net.take src dst index).routers
      (net.take src dst index).owners := h.serving
  refine ⟨hserving.apply hsteady, reached_mono hseen h.origin, ?_, hcovers⟩
  intro x y p hp
  rw [mem_delivered] at hp
  rcases hp with hold | ⟨rfl, hnew⟩
  · exact (h.inFlight x y p (mem_of_mem_take hold)).imp_left fun hcopy =>
      hcopy.mono (reached_mono hseen)
  · exact hsends y p hnew

/-- A delivery loses no answer if the node has none before it, or the answer is not the packet
delivered. -/
lemma AllAnswered.delivered (h : AllAnswered lib im G q net)
    (hpkt : (net.channel src dst)[index]? = some pkt)
    (hsteady : Steady (net.routers dst) r.2.2 (net.owners dst) r.2.1)
    (hanswers : ∀ v ∈ reached q ((net.take src dst index).apply dst r).routers, v ≠ q.origin →
      v ∈ reached q net.routers ∧ ¬IsAnswer lib im q v pkt ∨
        Answered lib im G q ((net.take src dst index).apply dst r) v) :
    AllAnswered lib im G q ((net.take src dst index).apply dst r) := by
  intro v hv hvo
  rcases hanswers v hv hvo with ⟨hold, hother⟩ | hnew
  · rcases h v hold hvo with ⟨x, y, p, hp, hway⟩ | ⟨rawBytes, hcall⟩
    · refine .inl ⟨x, y, p, mem_delivered.mpr (.inl (mem_take_of_ne hpkt hp ?_)), hway⟩
      rintro - rfl
      exact hother hway.answer
    · refine .inr ⟨rawBytes, ?_⟩
      rw [apply_eq]
      dsimp only [Network.take]
      by_cases ho : q.origin = dst
      · obtain ⟨calls, hnode⟩ := hsteady.node
        rw [ho] at hcall
        rw [ho, Function.update_self, hnode]
        exact List.mem_append_left calls hcall
      · rw [Function.update_of_ne ho]
        exact hcall
  · exact hnew

/-- What the delivery of `pkt` does to the invariants. -/
structure Delivers (lib : Libraries) (im : IdentityManager) (G : SimpleGraph PeerId) (q : Query)
    (net net' : Network NodeState) (dst : PeerId) (pkt : RoutedPacket) : Prop where
  spreading : Spreading lib im G q net'
  answered : (pkt.toPeerId = q.origin → dst ≠ q.origin →
    (q.reqId, false) ∉ (net.routers dst).seenPacketIds.set) →
    AllAnswered lib im G q net → AllAnswered lib im G q net'

/-- A copy comes back to the originator. -/
lemma Spreading.deliver_back (h : Spreading lib im G q net)
    (hpkt : (net.channel src dst)[index]? = some pkt)
    (hcopy : CopyOnWay G q (reached q net.routers) src dst pkt) (hdst : dst = q.origin)
    (env : StepEnv)
    (hr : r = (net.routers dst).handlePacket (onPacketForMe lib) dst env (net.owners dst) src pkt) :
    Delivers lib im G q net ((net.take src dst index).apply dst r) dst pkt := by
  have hdrop : r = ([], net.owners dst, net.routers dst) := by
    obtain ⟨n, ttl, rfl, -⟩ := hcopy.trail
    rw [hr]
    exact if_pos (.inr hdst.symm)
  have hsteady : Steady (net.routers dst) r.2.2 (net.owners dst) r.2.1 := by
    rw [hdrop]
    exact ⟨.of_eq rfl rfl, [], by simp⟩
  have hseen : (q.reqId, true) ∈ r.2.2.seenPacketIds.set ↔ dst ∈ reached q net.routers := by
    rw [hdrop]
    rfl
  constructor
  · apply h.delivered hsteady hseen.mpr
    · rw [hdrop]
      exact fun y p hp => absurd hp List.not_mem_nil
    · rw [reached_eq hseen]
      exact covers_of_reached h.covers hpkt (hdst ▸ h.origin)
  · intro _ hall
    apply hall.delivered hpkt hsteady
    rw [reached_eq hseen]
    exact fun v hv _ => .inl ⟨hv, hcopy.not_isAnswer⟩

/-- A copy reaches another node. -/
lemma Spreading.deliver_copy (hcarries : Carries G q) (h : Spreading lib im G q net)
    (hpkt : (net.channel src dst)[index]? = some pkt)
    (hcopy : CopyOnWay G q (reached q net.routers) src dst pkt) (hdst : dst ≠ q.origin)
    (env : StepEnv)
    (hr : r = (net.routers dst).handlePacket (onPacketForMe lib) dst env (net.owners dst) src pkt) :
    Delivers lib im G q net ((net.take src dst index).apply dst r) dst pkt := by
  have hway := hcopy
  obtain ⟨hadj, n, ttl, rfl, htrail, httl⟩ := hcopy
  have hreach : G.Reachable q.origin dst := htrail.reachable.trans hadj.reachable
  obtain ⟨hop, hroute, hhop, hcloser⟩ := h.serving.routes.closer dst hdst hreach
  obtain ⟨hsteady, hkey, sent, hsent, hsome, htransmit⟩ := handlePacket_copy
    (h.serving.responds dst hdst hreach)
    (h.serving.peerId dst) (hcarries.named dst hreach) hadj.ne hdst.symm
    (hcarries.named q.origin .rfl)
    hcarries.protocol hroute hhop.ne' ttl
  rw [← hr] at hsteady hkey htransmit
  have hreached : reached q ((net.take src dst index).apply dst r).routers =
      insert dst (reached q net.routers) :=
    reached_insert hkey
  -- the answers of the node itself
  have hown : ∀ a ∈ sent, AnswerOnWay lib im G q dst dst hop { a with ttl := 14 } := by
    intro a ha
    have hbound := hcarries.dist_le hreach
    refine ⟨(hsent a ha).1.withTtl 14, hhop, hreach, by omega, le_rfl, ?_⟩
    change G.dist q.origin hop < 14
    omega
  constructor
  · apply h.delivered hsteady (fun _ => hkey)
    · intro y p hp
      rw [hreached]
      rcases (htransmit y p).mp hp with ⟨rfl, a, ha, rfl⟩ | ⟨hnew, hy, -, -, -, rfl⟩
      · exact .inr ⟨dst, hown a ha⟩
      · obtain ⟨htrail', hsum⟩ := extend_trail hcarries.paths htrail httl hadj hnew
        exact .inl ⟨(h.serving.routes.neighbors dst y).mp hy, n + 1, ttl - 1, rfl, htrail', hsum⟩
    · rw [hreached]
      apply h.covers.arrive (a := src)
      · rintro x y ⟨p, hp, hold⟩ hne
        exact ⟨p, mem_delivered.mpr (.inl (mem_take_of_ne hpkt hp fun heq => absurd heq hne)),
          hold.mono (Set.subset_insert ..)⟩
      · intro hnew y hy hyS
        obtain ⟨htrail', hsum⟩ := extend_trail hcarries.paths htrail httl hadj hnew
        have hlt := htrail'.lt_bound hy (by simp [hyS, hy.ne']) hcarries.paths
        have hback : y ≠ src := by
          rintro rfl
          exact hyS htrail.mem
        refine ⟨q.copy (ttl - 1), mem_delivered.mpr (.inr ⟨rfl, (htransmit y _).mpr (.inr ?_)⟩), hy,
          n + 1, ttl - 1, rfl, htrail', hsum⟩
        exact ⟨hnew, (h.serving.routes.neighbors dst y).mpr hy, hback, hy.ne',
          pos_of_toNat (by omega), rfl⟩
  · intro _ hall
    apply hall.delivered hpkt hsteady
    intro v hv hvo
    rw [hreached, Set.mem_insert_iff] at hv
    rcases hv with rfl | hv
    · obtain ⟨a, ha⟩ := List.exists_mem_of_ne_nil sent hsome
      exact .inr (.inl ⟨v, hop, _, mem_delivered.mpr
        (.inr ⟨rfl, (htransmit hop _).mpr (.inl ⟨rfl, a, ha, rfl⟩)⟩), hown a ha⟩)
    · exact .inl ⟨hv, hway.not_isAnswer⟩

lemma AnswerOnWay.sender_ne {v x y : PeerId} (h : AnswerOnWay lib im G q v x y pkt) : v ≠ y := by
  rintro rfl
  have hcloser := h.closer
  have hwithin := h.within
  omega

/-- The delivery of an answer leaves all copies of the request where they are. -/
lemma Spreading.covers_answer (h : Spreading lib im G q net)
    (hpkt : (net.channel src dst)[index]? = some pkt) {v : PeerId}
    (hanswer : IsAnswer lib im q v pkt)
    (hreached : reached q ((net.take src dst index).apply dst r).routers = reached q net.routers) :
    Covers G (reached q ((net.take src dst index).apply dst r).routers) fun x y =>
      ∃ p ∈ ((net.take src dst index).apply dst r).channel x y,
        CopyOnWay G q (reached q ((net.take src dst index).apply dst r).routers) x y p := by
  rw [hreached]
  exact covers_of_other h.covers hpkt fun hcopy => hcopy.not_isAnswer hanswer

/-- An answer reaches the originator. -/
lemma Spreading.deliver_collect (h : Spreading lib im G q net)
    (hpkt : (net.channel src dst)[index]? = some pkt) {v : PeerId}
    (hway : AnswerOnWay lib im G q v src dst pkt) (hdst : dst = q.origin) (env : StepEnv)
    (hr : r = (net.routers dst).handlePacket (onPacketForMe lib) dst env (net.owners dst) src pkt) :
    Delivers lib im G q net ((net.take src dst index).apply dst r) dst pkt := by
  have hcollects : Collects im q (net.owners dst) := by
    rw [hdst]
    exact h.serving.collects
  obtain ⟨hroutes, hsame, ⟨rawBytes, howner⟩, hsilent⟩ := handlePacket_collect hway.answer
    hcollects hdst.symm
    hway.adj.ne hway.sender_ne
  rw [← hr] at hroutes hsame howner hsilent
  have hsteady : Steady (net.routers dst) r.2.2 (net.owners dst) r.2.1 := ⟨hroutes, _, howner⟩
  have hseen : (q.reqId, true) ∈ r.2.2.seenPacketIds.set ↔ dst ∈ reached q net.routers := by
    rw [hsame]
    rfl
  constructor
  · apply h.delivered hsteady hseen.mpr
    · exact fun y p hp => absurd hp (hsilent y p)
    · exact h.covers_answer hpkt hway.answer (reached_eq hseen)
  · intro _ hall
    apply hall.delivered hpkt hsteady
    rw [reached_eq hseen]
    intro w hw _
    by_cases hwv : w = v
    · refine .inr (.inr ⟨rawBytes, ?_⟩)
      rw [apply_eq]
      dsimp only
      rw [← hdst, Function.update_self, howner, hwv]
      simp
    · exact .inl ⟨hw, fun hother => hwv (hother.sender.symm.trans hway.answer.sender)⟩

/-- An answer reaches a relay. -/
lemma Spreading.deliver_relay (hcarries : Carries G q) (h : Spreading lib im G q net)
    (hpkt : (net.channel src dst)[index]? = some pkt) {v : PeerId}
    (hway : AnswerOnWay lib im G q v src dst pkt) (hdst : dst ≠ q.origin) (env : StepEnv)
    (hr : r = (net.routers dst).handlePacket (onPacketForMe lib) dst env (net.owners dst) src pkt) :
    Delivers lib im G q net ((net.take src dst index).apply dst r) dst pkt := by
  have hreach : G.Reachable q.origin dst := hway.reachable.trans hway.adj.reachable
  obtain ⟨hop, hroute, hhop, hcloser⟩ := h.serving.routes.closer dst hdst hreach
  have hdist := hway.closer
  have hwithin := hway.within
  have httl := hway.ttl
  have hback : hop ≠ src := by
    rintro rfl
    omega
  have hpred := toNat_pred (t := pkt.ttl) (by omega)
  obtain ⟨hsteady, hkey, htransmit⟩ := handlePacket_relay hway.answer hway.adj.ne
    hway.sender_ne hdst.symm
    (hcarries.named q.origin .rfl) hcarries.protocol hroute hhop.ne' hback (pos_of_toNat (by omega))
  rw [← hr] at hsteady hkey htransmit
  have hnext : AnswerOnWay lib im G q v dst hop { pkt with ttl := pkt.ttl - 1 } := by
    refine ⟨hway.answer.withTtl _, hhop, hreach, by omega, by omega, ?_⟩
    change G.dist q.origin hop < (pkt.ttl - 1).toNat
    omega
  constructor
  · apply h.delivered hsteady hkey.mpr
    · intro y p hp
      obtain ⟨-, rfl, rfl⟩ := (htransmit y p).mp hp
      exact .inr ⟨v, hnext⟩
    · exact h.covers_answer hpkt hway.answer (reached_eq hkey)
  · intro hunseen hall
    apply hall.delivered hpkt hsteady
    rw [reached_eq hkey]
    intro w hw _
    by_cases hwv : w = v
    · have hsent := (htransmit hop _).mpr ⟨hunseen hway.answer.dest hdst, rfl, rfl⟩
      rw [hwv]
      exact .inr (.inl ⟨dst, hop, _, mem_delivered.mpr (.inr ⟨rfl, hsent⟩), hnext⟩)
    · exact .inl ⟨hw, fun hother => hwv (hother.sender.symm.trans hway.answer.sender)⟩

/-- The delivery of any packet in flight. -/
lemma Spreading.deliver (hcarries : Carries G q) (h : Spreading lib im G q net)
    (hpkt : (net.channel src dst)[index]? = some pkt) (env : StepEnv) :
    Delivers lib im G q net (net.step (fun _ => onPacketForMe lib) env (.deliver src dst index))
      dst pkt := by
  rw [step_deliver_some hpkt]
  rcases h.inFlight src dst pkt (List.mem_of_getElem? hpkt) with hcopy | ⟨v, hway⟩
  · by_cases hdst : dst = q.origin
    · exact h.deliver_back hpkt hcopy hdst env rfl
    · exact h.deliver_copy hcarries hpkt hcopy hdst env rfl
  · by_cases hdst : dst = q.origin
    · exact h.deliver_collect hpkt hway hdst env rfl
    · exact h.deliver_relay hcarries hpkt hway hdst env rfl

end Packet

end Delivery

end MeshNetwork.Proofs
