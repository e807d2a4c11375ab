import MeshNetwork.Proofs.DedupSet
import MeshNetwork.Proofs.RelayedCopies
import MeshNetwork.Proofs.TrustedKeys

/-!
# Relaying within the lifetime of a seen id

A packet that passes the check enters its id, and the id stays at least 30 s. Along the whole run
of a router two packets with one id that both pass are further apart than that.
-/

namespace MeshNetwork.Proofs

variable {ν : Type}

/-! ## Ids as text -/

lemma digitChar_inj {a b : Nat} (ha : a < 16) (hb : b < 16)
    (h : Nat.digitChar a = Nat.digitChar b) : a = b := by
  interval_cases a <;> interval_cases b <;> first | rfl | exact absurd h (by decide)

theorem toHex_injective : Function.Injective toHex := by
  intro a b h
  have hlist := String.ofList_injective h
  clear h
  induction a generalizing b with
  | nil =>
    cases b with
    | nil => rfl
    | cons y b => simp at hlist
  | cons x a ih =>
    cases b with
    | nil => simp at hlist
    | cons y b =>
      simp only [List.flatMap_cons, List.cons_append, List.nil_append, List.cons.injEq] at hlist
      obtain ⟨hhigh, hlow, hrest⟩ := hlist
      have hx := x.toNat_lt
      have hy := y.toNat_lt
      have hdiv := digitChar_inj (by omega) (by omega) hhigh
      have hmod := digitChar_inj (by omega) (by omega) hlow
      have hxy : x = y := UInt8.toNat_inj.mp (by omega)
      rw [hxy, ih hrest]

/-! ## The seen ids of a run -/

section Seen

variable {P : TimedDedupSet DedupKey → Prop}
  (hinsert : ∀ seen key now, P seen → P (seen.insert key now).2)
include hinsert

lemma forwardPacket_seen_induction {self src dest : PeerId} {ord : IterOrder PeerId} {now : Time}
    {s : RouterState} {pktId : String} {pkt : RoutedPacket} (h : P s.seenPacketIds) :
    P (s.forwardPacket self ord now src dest pktId pkt).2.seenPacketIds := by
  unfold RouterState.forwardPacket
  dsimp only
  split_ifs
  · exact h
  · exact hinsert _ _ _ h

lemma sendOwnPackets_seen_induction {self : PeerId} {env : StepEnv} (pkts : List RoutedPacket)
    (i : Nat) {s : RouterState} (h : P s.seenPacketIds) :
    P (s.sendOwnPackets self env i pkts).2.seenPacketIds := by
  induction pkts generalizing i s with
  | nil => exact h
  | cons pkt pkts ih =>
    unfold RouterState.sendOwnPackets RouterState.sendOwnPacket
    dsimp only
    apply ih
    split_ifs
    · exact h
    · exact forwardPacket_seen_induction hinsert h

lemma run_seen_induction {cb : OnPacketForMe ν} (call : DataCall ν)
    (h : P call.router.seenPacketIds) :
    P (call.run cb).2.2.seenPacketIds := by
  have hchecked : P (call.checked cb).seenPacketIds := sendOwnPackets_seen_induction hinsert _ _ h
  rw [call.run_eq]
  dsimp only
  split_ifs
  · exact hchecked
  · exact forwardPacket_seen_induction hinsert hchecked

/-- Whatever insertions and a cleanup keep, an event of the router keeps. -/
lemma step_seen_induction (hcleanup : ∀ seen now, P seen → P (seen.cleanup now))
    {cb : OnPacketForMe ν} {self : PeerId} {env : StepEnv} {owner : ν} {s : RouterState}
    (event : RouterEvent) (h : P s.seenPacketIds) :
    P (s.step cb self env owner event).2.2.seenPacketIds := by
  cases event with
  | packetReceived src pkt =>
    have hheard : P (s.heardFrom src (env.clock 0)).seenPacketIds := by
      rw [heardFrom_seen]
      exact h
    unfold RouterState.step RouterState.handlePacket
    dsimp only
    split_ifs
    · exact h
    · unfold RouterState.processRoutingUpdate
      rw [recalculate_seen]
      exact hheard
    · exact run_seen_induction hinsert ⟨self, env, owner, _, src, pkt.toPeerId, toHex pkt.id,
        pkt⟩ hheard
  | peerConnected p =>
    unfold RouterState.step RouterState.peerConnected
    rw [recalculate_seen]
    exact h
  | peerDisconnected p =>
    unfold RouterState.step RouterState.peerDisconnected
    rw [recalculate_seen]
    exact h
  | maintenance =>
    unfold RouterState.step
    rw [runPeriodicMaintenance_seen]
    exact hcleanup _ _ h
  | sendPacket pkt =>
    exact run_seen_induction hinsert ⟨self, env, owner, s, self, pkt.toPeerId, toHex pkt.id, pkt⟩ h

end Seen

/-- The seen ids of a router. -/
structure SeenInStep (seen : TimedDedupSet DedupKey) : Prop where
  age : seen.maxAge = seconds 30
  inStep : InStep seen

lemma SeenInStep.insert {seen : TimedDedupSet DedupKey} (h : SeenInStep seen) (key : DedupKey)
    (now : Time) :
    SeenInStep (seen.insert key now).2 := by
  refine ⟨?_, h.inStep.insert key now⟩
  unfold TimedDedupSet.insert
  split_ifs <;> exact h.age

lemma run_seenInStep (cb : OnPacketForMe ν) (self : PeerId) (owner₀ : ν) (now : Time)
    (events : List (StepEnv × RouterEvent)) :
    SeenInStep (EventRun.run (routerStep cb self) (owner₀, RouterState.create self now)
      events).2.seenPacketIds := by
  induction events using List.reverseRecOn with
  | nil => exact ⟨rfl, inStep_empty _⟩
  | append_singleton events ee ih =>
    rw [EventRun.run_concat]
    exact step_seen_induction (fun _ key now h => h.insert key now)
      (fun _ now h => ⟨h.age, h.inStep.cleanup now⟩)
      ee.2 ih

/-! ## Packets that pass -/

/-- The readings of the clock never go back. -/
def ClockOrdered (events : List (StepEnv × RouterEvent)) : Prop :=
  events.Pairwise fun a b => ∀ i j, a.1.clock i ≤ b.1.clock j

/-- The call that routes a data packet of another node. -/
def dataCall (self : PeerId) (os : ν × RouterState) : StepEnv × RouterEvent → Option (DataCall ν)
  | (env, .packetReceived src pkt) =>
    if src = self ∨ pkt.fromPeerId = self ∨ pkt.type = .routingUpdate then none
    else some ⟨self, env, os.1, os.2.heardFrom src (env.clock 0), src, pkt.toPeerId,
      toHex pkt.id, pkt⟩
  | _ => none

/-- The `n`-th event of the run is a data packet that passes the check, and `call` routes it. -/
def PassesAt (cb : OnPacketForMe ν) (self : PeerId) (start : ν × RouterState)
    (events : List (StepEnv × RouterEvent)) (n : Nat) (call : DataCall ν) : Prop :=
  ∃ ee, events[n]? = some ee ∧
    dataCall self (EventRun.run (routerStep cb self) start (events.take n)) ee = some call ∧
      call.Passes cb

section Passing

variable {cb : OnPacketForMe ν} {self : PeerId}

variable (cb) in
lemma dataCall_eq_some {os : ν × RouterState} {ee : StepEnv × RouterEvent} {call : DataCall ν}
    (h : dataCall self os ee = some call) :
    call.self = self ∧ call.env = ee.1 ∧ call.immediateSrc ≠ self ∧ call.pktId = toHex call.pkt.id ∧
      call.router.seenPacketIds = os.2.seenPacketIds ∧
        routerStep cb self os ee = (call.run cb).2 := by
  obtain ⟨env, event⟩ := ee
  cases event with
  | packetReceived src pkt =>
    unfold dataCall at h
    dsimp only at h
    split_ifs at h with hskip
    cases h
    rw [not_or, not_or] at hskip
    refine ⟨rfl, rfl, hskip.1, rfl, heardFrom_seen .., ?_⟩
    exact congrArg Prod.snd (handlePacket_data hskip.1 hskip.2.1 hskip.2.2)
  | _ => cases h

/-- A packet that passes leaves its id behind, with the time of the check. -/
lemma recent_of_passes {call : DataCall ν} (h : SeenInStep call.router.seenPacketIds)
    (hpass : call.Passes cb) (hsrc : call.immediateSrc ≠ call.self) :
    Recent (call.pktId, (call.handled cb).2.1.expectResponse)
      (call.checkTime cb) (call.run cb).2.2.seenPacketIds ∧
      (call.pktId, (call.handled cb).2.1.expectResponse) ∈ (call.run cb).2.2.seenPacketIds.set := by
  obtain ⟨hdest, hunseen⟩ := hpass
  have hnew := hunseen hsrc
  have hchecked : SeenInStep (call.checked cb).seenPacketIds :=
    sendOwnPackets_seen_induction (fun _ key now hs => hs.insert key now) _ _ h
  rw [call.run_eq]
  dsimp only
  rw [if_neg hdest]
  refine ⟨⟨?_, fun t ht => ?_⟩, forwardPacket_seen_mem ..⟩
  · exact (forwardPacket_seen_induction (fun _ key now hs => hs.insert key now) hchecked :
      SeenInStep (call.forward cb).2.seenPacketIds).age
  · have hseen : (call.forward cb).2.seenPacketIds.timeQueue =
        (call.checked cb).seenPacketIds.timeQueue ++
        [(call.checkTime cb, (call.pktId, (call.handled cb).2.1.expectResponse))] := by
      unfold DataCall.forward RouterState.forwardPacket TimedDedupSet.contains TimedDedupSet.insert
      simp [hnew]
    rw [hseen] at ht
    rcases List.mem_append.mp ht with hold | hlast
    · exact absurd ((hchecked.inStep.mem _).mpr (List.mem_map_of_mem hold)) hnew
    · cases List.mem_singleton.mp hlast
      exact le_rfl

variable (cb self) in
lemma run_remembers (key : DedupKey) {t₀ : Time} (events : List (StepEnv × RouterEvent))
    (hevents : ∀ ee ∈ events, ∀ i, t₀ ≤ ee.1.clock i ∧ ee.1.clock i ≤ t₀ + seconds 30)
    (os : ν × RouterState) :
    Remembers key t₀ os.2 (EventRun.run (routerStep cb self) os events).2 := by
  induction events generalizing os with
  | nil => exact .of_eq rfl
  | cons ee events ih =>
    have hfirst : Remembers key t₀ os.2 (routerStep cb self os ee).2 :=
      step_remembers cb self (hevents ee List.mem_cons_self) os.1 os.2 ee.2
    exact hfirst.trans (ih (fun ee' h => hevents ee' (List.mem_cons_of_mem ee h)) _)

/-- Two packets with one id that both pass are more than 30 s apart. -/
lemma passes_apart (hcb : KeepsHeader cb) {owner₀ : ν} {now : Time}
    {events : List (StepEnv × RouterEvent)} (hclock : ClockOrdered events) {i j : Nat}
    {a b : DataCall ν} (hij : i < j)
    (ha : PassesAt cb self (owner₀, RouterState.create self now) events i a)
    (hb : PassesAt cb self (owner₀, RouterState.create self now) events j b)
    (hid : b.pkt.id = a.pkt.id) (hkind : b.pkt.expectResponse = a.pkt.expectResponse) :
    a.checkTime cb + seconds 30 < b.env.clock 0 := by
  obtain ⟨ea, hea, hcalla, hpassa⟩ := ha
  obtain ⟨eb, heb, hcallb, hpassb⟩ := hb
  obtain ⟨hselfa, henva, hsrca, hida, hseena, hstepa⟩ := dataCall_eq_some cb hcalla
  obtain ⟨hselfb, henvb, hsrcb, hidb, hseenb, -⟩ := dataCall_eq_some cb hcallb
  obtain ⟨mid, post, hevents, htake⟩ := List.split_at_two hij hea heb
  rw [← hselfa] at hsrca
  rw [← hselfb] at hsrcb
  by_contra hlate
  rw [not_lt, henvb] at hlate
  -- all readings after the first packet and before the second are within the lifetime of the id
  have htime : a.checkTime cb = ea.1.clock (2 + (a.handled cb).2.2.length) := by
    rw [← henva]
    rfl
  rw [ClockOrdered, hevents, List.pairwise_append, List.pairwise_cons, List.pairwise_append,
    List.pairwise_cons] at hclock
  obtain ⟨-, ⟨hafter, -, ⟨hlast, -⟩, hbefore⟩, -⟩ := hclock
  have hmid : ∀ ee ∈ mid, ∀ n, a.checkTime cb ≤ ee.1.clock n ∧
      ee.1.clock n ≤ a.checkTime cb + seconds 30 := by
    intro ee hee n
    rw [htime]
    exact ⟨hafter ee (List.mem_append_left _ hee) _ n,
      (hbefore ee hee eb List.mem_cons_self n 0).trans (htime ▸ hlate)⟩
  have hreadings : ∀ n, a.checkTime cb ≤ b.env.clock n := by
    intro n
    rw [htime, henvb]
    exact hafter eb (by simp) _ n
  have hkey : (b.pktId, (b.handled cb).2.1.expectResponse) =
      (a.pktId, (a.handled cb).2.1.expectResponse) := by
    rw [hida, hidb, hid, (DataCall.handled_header hcb a).1.kind,
      (DataCall.handled_header hcb b).1.kind, hkind]
  have hstart := run_seenInStep cb self owner₀ now (events.take i)
  rw [← hseena] at hstart
  obtain ⟨hrecent, hmem⟩ := recent_of_passes hstart hpassa hsrca
  have hkept :=
    run_remembers cb self (a.pktId, (a.handled cb).2.1.expectResponse) mid hmid (a.run cb).2
  have hstate : EventRun.run (routerStep cb self) (a.run cb).2 mid =
      EventRun.run (routerStep cb self) (owner₀, RouterState.create self now) (events.take j) := by
    rw [htake, EventRun.run_append, EventRun.run_cons, hstepa]
  rw [hstate] at hkept
  have harrived : Remembers (a.pktId, (a.handled cb).2.1.expectResponse) (a.checkTime cb) b.router
      (b.checked cb) :=
    sendOwnPackets_remembers b.self hreadings 2 b.router _
  have hrecentb := hkept.recent hrecent
  have hmemb := hkept.mem hrecent hmem
  rw [← hseenb] at hrecentb hmemb
  apply hpassb.2 hsrcb
  rw [hkey]
  exact harrived.mem hrecentb hmemb

end Passing

/-! ## The content of the copies -/

/-- The owner decrypts the packet in place before the router copies it. -/
def DataCall.Decrypts (lib : Libraries) (call : DataCall NodeState) : Prop :=
  call.IsForOwner ∧ call.owner.ignoreAllIncomingMessages = false ∧
    call.pkt.hasEncryptedPayload = true ∧
    ∃ plaintext, decryptPacket lib.toOpenSsl call.owner.identity call.pkt = .ok plaintext

lemma decryptPacket_error {ssl : OpenSsl} {im : IdentityManager} {pkt : RoutedPacket}
    (h : im.hasKey pkt.fromPeerId = false) (plaintext : Bytes) :
    decryptPacket ssl im pkt ≠ .ok plaintext := by
  have hnone : im.getPublicKey pkt.fromPeerId = none := by
    simpa [IdentityManager.hasKey, IdentityManager.getPublicKey] using h
  unfold decryptPacket
  rw [hnone]
  simp

lemma decrypted_ne {pkt : RoutedPacket} (h : pkt.hasEncryptedPayload = true) (plaintext : Bytes) :
    (NodeCall.decrypted pkt plaintext).payload ≠ pkt.payload := by
  intro heq
  unfold RoutedPacket.hasEncryptedPayload at h
  rw [← heq] at h
  cases h

/-- What the owner leaves of the packet. -/
lemma handled_cases (lib : Libraries) (call : DataCall NodeState) :
    ¬call.Decrypts lib ∧ (call.handled (onPacketForMe lib)).2.1 = call.pkt ∨
      call.Decrypts lib ∧ ∃ plaintext, (call.handled (onPacketForMe lib)).2.1 = NodeCall.decrypted
        call.pkt plaintext := by
  unfold DataCall.handled DataCall.Decrypts
  by_cases howner : call.IsForOwner
  · rw [if_pos howner]
    unfold onPacketForMe NodeCall.handleIncomingPacket NodeCall.handleWith
    dsimp only
    split_ifs with hignore hencrypted hkey
    · exact .inl ⟨fun h => by simp [hignore] at h, rfl⟩
    · refine .inl ⟨?_, rfl⟩
      rintro ⟨-, -, -, plaintext, hok⟩
      exact decryptPacket_error (by simpa using hkey) plaintext hok
    · cases hdecrypt : decryptPacket lib.toOpenSsl call.owner.identity call.pkt with
      | error e => exact .inl ⟨fun h => by simp at h, rfl⟩
      | ok plaintext =>
        exact .inr ⟨⟨howner, by simpa using hignore, hencrypted, plaintext, rfl⟩, plaintext, rfl⟩
    · exact .inl ⟨fun h => hencrypted h.2.2.1, rfl⟩
  · rw [if_neg howner]
    exact .inl ⟨fun h => howner h.1, rfl⟩

/-- Every copy is the received packet but for its TTL, exactly if the checks stop the packet or the
owner has not decrypted it. -/
lemma copies_equal_iff (lib : Libraries) (call : DataCall NodeState) :
    (∀ next p, .transmit next p ∈ call.copies (onPacketForMe lib) →
      p = { call.pkt with ttl := p.ttl }) ↔
      ¬call.Transmits (onPacketForMe lib) ∨ ¬call.Decrypts lib := by
  have hnil := DataCall.copies_ne_nil_iff (onPacketForMe_keepsHeader lib) call
  rcases handled_cases lib call with ⟨hplain, hsame⟩ | ⟨hdecrypts, plaintext, hchanged⟩
  · refine iff_of_true (fun next p hp => ?_) (.inr hplain)
    obtain ⟨_, -, -, -, -, heq⟩ := DataCall.mem_copies hp
    cases heq
    rw [hsame]
  · constructor
    · intro hall
      rw [← hnil, not_not]
      refine .inl (List.eq_nil_iff_forall_not_mem.mpr fun o ho => ?_)
      obtain ⟨next, -, -, -, -, rfl⟩ := DataCall.mem_copies ho
      have hpayload := congrArg RoutedPacket.payload (hall next _ ho)
      dsimp only at hpayload
      rw [hchanged] at hpayload
      exact decrypted_ne hdecrypts.2.2.1 plaintext hpayload
    · rintro (hnone | hplain) next p hp
      · exact absurd (hnil.mp (List.ne_nil_of_mem hp)) hnone
      · exact absurd hdecrypts hplain

/-- Along every run of a router of a node: packets with one id that pass the check are more than
30 s apart, ids that differ are told apart, and each packet that passes goes at most once to each
next hop, never back and never to the router itself. Its copies are the packet but for the TTL
exactly if the node has not decrypted it in place, or the checks before the transmission stop
it. -/
theorem relayed_once (lib : Libraries) (self : PeerId) (node₀ : NodeState) (now : Time)
    (events : List (StepEnv × RouterEvent)) (hclock : ClockOrdered events) :
    Function.Injective toHex ∧
    (∀ i j a b, i < j → PassesAt (onPacketForMe lib) self (node₀, RouterState.create self now)
      events i a →
      PassesAt (onPacketForMe lib) self (node₀, RouterState.create self now) events j b →
        b.pkt.id = a.pkt.id →
      b.pkt.expectResponse = a.pkt.expectResponse → a.checkTime (onPacketForMe lib) + seconds 30 <
        b.env.clock 0) ∧
    ∀ i a, PassesAt (onPacketForMe lib) self (node₀, RouterState.create self now) events i a →
      (a.run (onPacketForMe lib)).1 = a.ownerOutputs (onPacketForMe lib) ++
        a.copies (onPacketForMe lib) ∧
      (∀ next, ((a.copies (onPacketForMe lib)).filterMap (packetTo next)).length ≤ 1) ∧
      (a.copies (onPacketForMe lib)).filterMap (packetTo a.immediateSrc) = [] ∧
      (a.copies (onPacketForMe lib)).filterMap (packetTo self) = [] ∧
      ((∀ next p, .transmit next p ∈ a.copies (onPacketForMe lib) →
        p = { a.pkt with ttl := p.ttl }) ↔ ¬a.Transmits (onPacketForMe lib) ∨ ¬a.Decrypts lib) := by
  refine ⟨toHex_injective, fun i j a b hij ha hb hid hkind => ?_, fun i a ha => ?_⟩
  · exact passes_apart (onPacketForMe_keepsHeader lib) hclock hij ha hb hid hkind
  · obtain ⟨ee, -, hcall, -⟩ := ha
    have hself := (dataCall_eq_some (onPacketForMe lib) hcall).1
    refine ⟨by rw [a.run_eq], fun next => DataCall.copies_to_le_one next,
      DataCall.copies_to_none (.inl rfl), ?_, copies_equal_iff lib a⟩
    exact DataCall.copies_to_none (.inr hself.symm)

/-- Events of node "a", each at its time, after "b" and "c" have connected. -/
def timedEvents (events : List (Time × RouterEvent)) : List (StepEnv × RouterEvent) :=
  ((0, RouterEvent.peerConnected "b") :: (0, RouterEvent.peerConnected "c") :: events).map fun te =>
    (plainEnv te.1, te.2)

lemma timedEvents_ordered {events : List (Time × RouterEvent)}
    (h : (events.map Prod.fst).Pairwise (· ≤ ·)) :
    ClockOrdered (timedEvents events) := by
  rw [ClockOrdered, timedEvents, List.pairwise_map]
  refine List.Pairwise.imp (R := fun a b => a.1 ≤ b.1) (fun hle _ _ => hle) ?_
  simp only [List.pairwise_cons, Nat.zero_le, implies_true, true_and]
  exact List.pairwise_map.mp h

/-- The packet comes from "b" at `t`, after `events`. -/
def callFromB (node : NodeState) (events : List (StepEnv × RouterEvent)) (t : Time)
    (pkt : RoutedPacket) :
    DataCall NodeState :=
  let os :=
    EventRun.run (routerStep (onPacketForMe openLibraries) "a")
      (node, RouterState.create "a" 0) events
  ⟨"a", plainEnv t, os.1, os.2.heardFrom "b" t, "b", pkt.toPeerId, toHex pkt.id, pkt⟩

def textFromB : RoutedPacket := makeTextRoutedPacket [7] "b" "c" 5 "hello"

/-- A packet that comes again after a tick at 31 s. -/
def againEvents : List (StepEnv × RouterEvent) :=
  timedEvents [(0, .packetReceived "b" textFromB), (seconds 31, .maintenance),
    (seconds 32, .packetReceived "b" textFromB)]

theorem relayed_once_again :
    ∃ a b, PassesAt (onPacketForMe openLibraries) "a" (loadedA, RouterState.create "a" 0)
      againEvents 2 a ∧
      PassesAt (onPacketForMe openLibraries) "a" (loadedA, RouterState.create "a" 0)
        againEvents 4 b ∧
      a.checkTime (onPacketForMe openLibraries) + seconds 30 < b.env.clock 0 := by
  have hrun :=
    relayed_once openLibraries "a" loadedA 0 againEvents (timedEvents_ordered (by decide))
  have ha : PassesAt (onPacketForMe openLibraries) "a" (loadedA, RouterState.create "a" 0)
      againEvents 2
      (callFromB loadedA (againEvents.take 2) 0 textFromB) :=
    ⟨_, rfl, rfl, by decide, fun _ => by decide⟩
  have hb : PassesAt (onPacketForMe openLibraries) "a" (loadedA, RouterState.create "a" 0)
      againEvents 4
      (callFromB loadedA (againEvents.take 4) (seconds 32) textFromB) :=
    ⟨_, rfl, rfl, by decide, fun _ => by decide⟩
  exact ⟨_, _, ha, hb, hrun.2.1 2 4 _ _ (by decide) ha hb rfl rfl⟩

/-- A broadcast of "b" that it has encrypted for "a". -/
def sealedBroadcast : RoutedPacket :=
  { makeBinaryRoutedPacket [7] "b" "" defaultTtl "Note" .tcp with
    payload := .encryptedPayload (List.replicate 16 0 ++ [42])
    encryptedSessionKey := List.replicate 32 0
    signature := [2] }

def sealedEvents : List (StepEnv × RouterEvent) :=
  timedEvents [(0, .packetReceived "b" sealedBroadcast)]

/-- Node "a" passes it on to "c" in plaintext. -/
theorem broadcast_relayed_in_plaintext :
    ClockOrdered sealedEvents ∧
      ∃ call, PassesAt (onPacketForMe openLibraries) "a" (askedBy [9, 2], RouterState.create "a" 0)
        sealedEvents 2 call ∧ call.pkt = sealedBroadcast ∧
        call.copies (onPacketForMe openLibraries) =
          [.transmit "c" { sealedBroadcast with
            ttl := 9, payload := .binaryData [42], encryptedSessionKey := [],
            signature := [] }] := by
  refine ⟨timedEvents_ordered (by decide), callFromB (askedBy [9, 2]) (sealedEvents.take 2) 0
    sealedBroadcast, ?_, rfl, rfl⟩
  exact ⟨_, rfl, rfl, by decide, fun _ => by decide⟩

end MeshNetwork.Proofs
