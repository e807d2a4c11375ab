import MeshNetwork.Proofs.KeyExchange

/-!
# Content that a node passes on

What a node hands to callbacks and handlers for a packet that arrived encrypted is what
`decrypt_packet` has returned for it, however the steps of its calls interleave. A packet that
arrives without an encrypted payload is passed on as it is, whether the node encrypts or not.
-/

namespace MeshNetwork.Proofs

open TaskPool

/-- `decrypt_packet` returns `bytes`: the signature is one of the key that is trusted for the
sender. -/
structure Verified (lib : Libraries) (im : IdentityManager) (arrived : RoutedPacket)
    (bytes : Bytes) : Prop where
  decrypted : decryptPacket lib.toOpenSsl im arrived = .ok bytes
  signed : ∃ key, im.trustedKeys.lookup arrived.fromPeerId = some key ∧ key ≠ [] ∧
    lib.digestVerify key arrived.encryptedPayload arrived.signature = true

lemma verified_of_decrypted (lib : Libraries) {im : IdentityManager} {arrived : RoutedPacket}
    {bytes : Bytes} (h : decryptPacket lib.toOpenSsl im arrived = .ok bytes) :
    Verified lib im arrived bytes := by
  refine ⟨h, ?_⟩
  unfold decryptPacket IdentityManager.getPublicKey at h
  cases hkey : im.trustedKeys.lookup arrived.fromPeerId with
  | none => simp [hkey] at h
  | some key =>
    simp only [hkey] at h
    split_ifs at h with hempty hverify
    exact ⟨key, rfl, hempty, by simpa using hverify⟩

/-! ## Steps -/

/-- Content that a step calls another one with comes from that step, from a packet in plaintext or
from `decrypt_packet`. -/
inductive ContentOrigin (lib : Libraries) (call : NodeCall) (t : NodeTask) (arrived : RoutedPacket)
    (bytes : Bytes) :
    Prop
  | carried : content t = some (arrived, bytes) → ContentOrigin ..
  | plain : arrived.hasEncryptedPayload = false → bytes = arrived.binaryData → ContentOrigin ..
  | opened : decryptPacket lib.toOpenSsl call.node.identity arrived = .ok bytes → ContentOrigin ..

lemma StepMove.content_origin {lib : Libraries} {call call' : NodeCall} {t : NodeTask}
    {called : List NodeTask} (h : StepMove lib call t call' called) {arrived : RoutedPacket}
    {bytes : Bytes} (hcontent : (arrived, bytes) ∈ called.filterMap content) :
    ContentOrigin lib call t arrived bytes := by
  cases h with
  | silent ht hsilent =>
    rw [hsilent.content] at hcontent
    exact absurd hcontent List.not_mem_nil
  | receive pkt =>
    unfold NodeTask.receive at hcontent
    split_ifs at hcontent with hignore hencrypted hkey
    · exact absurd hcontent List.not_mem_nil
    · exact absurd hcontent List.not_mem_nil
    · exact absurd hcontent List.not_mem_nil
    · cases List.mem_singleton.mp hcontent
      exact .plain (by simpa using hencrypted) rfl
  | opened hopened =>
    cases List.mem_singleton.mp hcontent
    exact .opened hopened
  | delivered hidentity hsubset =>
    exact .carried (congrArg some (List.mem_singleton.mp (hsubset hcontent)).symm)
  | popIncoming src => simp [content, passedOn] at hcontent
  | popOutgoing dest => simp [content, passedOn] at hcontent
  | _ => exact absurd hcontent List.not_mem_nil

/-! ## Runs -/

/-- `bytes` is the content of a packet that arrived in plaintext, or `decrypt_packet` has returned
it for the packet in a state of the run. -/
def Genuine (lib : Libraries) (node : NodeState) (events : List PoolEvent) (arrived : RoutedPacket)
    (bytes : Bytes) :
    Prop :=
  arrived.hasEncryptedPayload = false ∧ bytes = arrived.binaryData ∨
    ∃ before, before <+: events ∧ Verified lib
      (EventRun.run (NodePool.step lib) (NodePool.create node) before).shared.node.identity
      arrived bytes

lemma Genuine.mono {lib : Libraries} {node : NodeState} {events later : List PoolEvent}
    {arrived : RoutedPacket} {bytes : Bytes} (h : Genuine lib node events arrived bytes)
    (hlater : events <+: later) :
    Genuine lib node later arrived bytes :=
  h.imp id fun ⟨before, hbefore, hverified⟩ => ⟨before, hbefore.trans hlater, hverified⟩

lemma content_genuine (lib : Libraries) (node : NodeState) (events : List PoolEvent) {t : NodeTask}
    (ht : (EventRun.run (NodePool.step lib) (NodePool.create node) events).Pending t)
    {arrived : RoutedPacket} {bytes : Bytes} (hcontent : content t = some (arrived, bytes)) :
    Genuine lib node events arrived bytes := by
  refine pending_of_run (nodeThreads lib)
    (P := fun events t => ∀ arrived bytes, content t = some (arrived, bytes) →
      Genuine lib node events arrived bytes)
    ?_ ?_ ?_ ?_ events ht arrived bytes hcontent
  · intro events event t h arrived bytes hcontent
    exact (h arrived bytes hcontent).mono (List.prefix_append _ _)
  · rintro t ⟨stack, hstack, -⟩
    exact absurd hstack List.not_mem_nil
  · intro events event t ht arrived bytes hcontent
    obtain rfl := List.mem_singleton.mp ht
    cases hcontent
  · intro events thread env t h u hu arrived bytes hcontent
    cases (exec_move lib env.1 env.2 _ t).content_origin
      (List.mem_filterMap.mpr ⟨u, hu, hcontent⟩) with
    | carried hcarried => exact (h arrived bytes hcarried).mono (List.prefix_append _ _)
    | plain hplain hbytes => exact .inl ⟨hplain, hbytes⟩
    | opened hopened =>
      exact .inr ⟨events, List.prefix_append _ _, verified_of_decrypted lib hopened⟩

/-- Whatever a call hands to a callback or a handler for a packet that arrived with an encrypted
payload, `decrypt_packet` has returned for it. -/
theorem passedOn_verified (lib : Libraries) (node : NodeState) (events : List PoolEvent)
    {t : NodeTask} (ht : (EventRun.run (NodePool.step lib) (NodePool.create node) events).Pending t)
    {arrived : RoutedPacket} {bytes : Bytes} (hpassed : passedOn t = some (arrived, bytes))
    (hencrypted : arrived.hasEncryptedPayload = true) :
    ∃ before, before <+: events ∧ Verified lib
      (EventRun.run (NodePool.step lib) (NodePool.create node) before).shared.node.identity arrived
        bytes := by
  have hcontent : content t = some (arrived, bytes) := by
    cases t with
    | dispatch arrived' pkt => cases hpassed
    | _ => exact hpassed
  rcases content_genuine lib node events ht hcontent with ⟨hplain, -⟩ | hverified
  · rw [hencrypted] at hplain
    cases hplain
  · exact hverified

/-! ## A note from a peer -/

/-- An application handler for notes, and then a packet. -/
def receiveNote (pkt : RoutedPacket) (n : Nat) : List PoolEvent :=
  [.start (.on "Note" none fun _ _ => [])] ++ steps 1 0 ++
    [.start (.incoming (RouterState.create "a" 0) pkt)] ++ steps n 1

/-- A note of "b" with its signature. -/
def sealedNote : RoutedPacket :=
  { makeBinaryRoutedPacket [7] "b" "a" defaultTtl "Note" .tcp with
    payload := .encryptedPayload (List.replicate 16 0 ++ [42])
    encryptedSessionKey := List.replicate 32 0
    signature := [2] }

theorem passedOn_verified_note :
    ∃ before, before <+: receiveNote sealedNote 4 ∧ Verified openLibraries
      (EventRun.run (NodePool.step openLibraries) (NodePool.create (askedBy [9, 2]))
        before).shared.node.identity
      sealedNote [42] := by
  refine passedOn_verified openLibraries (askedBy [9, 2]) (receiveNote sealedNote 4)
    (t := .handler sealedNote ⟨none, .application fun _ _ => []⟩
      (NodeCall.decrypted sealedNote [42])) ?_ rfl rfl
  exact ⟨[_], List.mem_cons_of_mem _ List.mem_cons_self, List.mem_cons_self⟩

/-- A note that someone sends under the name of "b" without encryption or signature. -/
def forgedNote : RoutedPacket := makeBinaryRoutedPacket [7] "b" "a" defaultTtl "Note" .tcp [66]

/-- The handler of a node with encryption on gets it, though `decrypt_packet` returns nothing for
it. -/
theorem plaintext_note_passed_on :
    loadedA.encryptMessages = true ∧
      (poolA (receiveNote forgedNote 4)).shared.node.calls = [.handler "Note" "b" [66]] ∧
      ∀ im bytes, decryptPacket openLibraries.toOpenSsl im forgedNote ≠ .ok bytes := by
  refine ⟨rfl, by decide, fun im bytes h => ?_⟩
  obtain ⟨key, -, hkey, hverify⟩ := (verified_of_decrypted openLibraries h).signed
  exact hkey (of_decide_eq_true hverify).symm

end MeshNetwork.Proofs
