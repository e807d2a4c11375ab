import MeshNetwork.Library.EventRuns
import MeshNetwork.Library.Lists
import MeshNetwork.Proofs.ManagerSteps

/-!
# Failed heartbeats

`send_heartbeats` removes a peer when its counter reaches five. A success inserts a counter of zero
only if there is none, so it does not reset one: the counter is the number of failures since the
peer has been registered, consecutive or not.
-/

namespace MeshNetwork.Proofs

open EventRun

/-! ## Outcomes -/

/-- The outcome of a heartbeat of `p` that an event brings. -/
def outcomeOf (p : PeerId) (s : RpcManager) : RpcEvent → List Bool
  | .heartbeatResult success => if s.roundWaits = some p then [success] else []
  | _ => []

/-- The outcomes of the heartbeats of `p` in a run, one for each round. -/
def outcomes (p : PeerId) : RpcManager → List RpcEvent → List Bool
  | _, [] => []
  | s, e :: events => outcomeOf p s e ++ outcomes p (s.step e) events

/-- The failures that are counted for `p`. -/
def countedFailures (p : PeerId) (s : RpcManager) : Nat := (s.consecutiveFailed.lookup p).getD 0

/-! ## The counter -/

lemma startupFinished_failed (s : RpcManager) (i : Nat) (res : Except String PeerId) :
    (s.startupFinished i res).consecutiveFailed = s.consecutiveFailed := by
  unfold RpcManager.startupFinished
  split
  · rfl
  · split
    · dsimp only
      split <;> rfl
    · rfl

/-- Only the result of a heartbeat changes the counters. -/
lemma step_failed (s : RpcManager) {e : RpcEvent} (h : ∀ success, e ≠ .heartbeatResult success) :
    (s.step e).consecutiveFailed = s.consecutiveFailed := by
  cases e with
  | incoming | removeAutoConnection => rfl
  | heartbeatResult success => exact absurd rfl (h success)
  | startupFinished i res => exact startupFinished_failed s i res
  | connectAsync | timerExpired | resolved | tcpConnected | completionRun | maintenance =>
    exact attempt_preserves RpcManager.consecutiveFailed (fun _ _ _ _ _ => rfl) s rfl
  | beginHeartbeats | sendHeartbeat | awaitHeartbeat =>
    exact round_preserves RpcManager.consecutiveFailed (fun _ _ _ _ => rfl) s rfl
  | addAutoConnection record =>
    obtain ⟨_, hframe⟩ := addAutoConnection_frame s record
    change (s.addAutoConnection record).consecutiveFailed = _
    rw [hframe]
  | removeConnection peerId =>
    change (s.removeConnection peerId).2.consecutiveFailed = _
    unfold RpcManager.removeConnection
    split <;> rfl
  | notifyRemoved peerId =>
    change (s.notifyRemoved peerId).consecutiveFailed = _
    unfold RpcManager.notifyRemoved
    split_ifs <;> rfl
  | shutdown =>
    change s.shutdown.consecutiveFailed = _
    unfold RpcManager.shutdown
    split_ifs <;> rfl

section Counter

variable {p : PeerId}

/-- The result of a heartbeat of `p` itself. -/
inductive ResultMove (p : PeerId) (s : RpcManager) : Bool → RpcManager → Prop
  | success {s' : RpcManager} (hcounter : countedFailures p s' = countedFailures p s)
      (hpeers : s'.connectionsByPeer = s.connectionsByPeer) : ResultMove p s true s'
  | failure {s' : RpcManager} (hfew : countedFailures p s + 1 < 5)
      (hcounter : countedFailures p s' = countedFailures p s + 1)
      (hpeers : s'.connectionsByPeer = s.connectionsByPeer) : ResultMove p s false s'
  | eviction {s' : RpcManager} (hmany : 5 ≤ countedFailures p s + 1)
      (hpeers : s'.connectionsByPeer = s.connectionsByPeer.erase p) : ResultMove p s false s'

lemma result_move {s : RpcManager} (hwaits : s.roundWaits = some p) (success : Bool) :
    ResultMove p s success (s.heartbeatResult success) := by
  unfold RpcManager.heartbeatResult
  rw [hwaits]
  cases success with
  | true =>
    refine .success ?_ rfl
    change ((s.consecutiveFailed.insertNew p 0).lookup p).getD 0 = _
    unfold UMap.insertNew countedFailures
    split_ifs with hmem
    · rfl
    · rw [AList.lookup_insert, AList.lookup_eq_none.mpr hmem]
      rfl
  | false =>
    have hfailures : RpcManager.heartbeatFailures p { s with roundWaits := none } =
        countedFailures p s + 1 := rfl
    dsimp only
    rw [if_neg Bool.false_ne_true, hfailures]
    split_ifs with hmany
    · exact .eviction hmany rfl
    · refine .failure (Nat.lt_of_not_le hmany) ?_ rfl
      unfold countedFailures
      rw [AList.lookup_insert]
      rfl

/-- The result of a heartbeat of another peer leaves the counter of `p` alone. -/
lemma result_other {s : RpcManager} (hwaits : s.roundWaits ≠ some p) (success : Bool) :
    countedFailures p (s.heartbeatResult success) = countedFailures p s := by
  unfold RpcManager.heartbeatResult countedFailures
  cases hpeer : s.roundWaits with
  | none => rfl
  | some peer =>
    have hne : p ≠ peer := by
      rintro rfl
      exact hwaits hpeer
    cases success with
    | true =>
      dsimp only
      rw [if_pos rfl]
      dsimp only [UMap.insertNew]
      split_ifs
      · rfl
      · rw [AList.lookup_insert_ne hne]
    | false =>
      dsimp only
      rw [if_neg Bool.false_ne_true]
      split_ifs
      · rw [AList.lookup_erase_ne hne]
      · rw [AList.lookup_insert_ne hne]

/-- One step of a peer that is still registered after it: its failures are counted, and stay below
five. -/
lemma step_counted {s : RpcManager} {e : RpcEvent} (hafter : p ∈ (s.step e).connectionsByPeer) :
    countedFailures p (s.step e) = countedFailures p s + (outcomeOf p s e).count false ∧
      (false ∈ outcomeOf p s e → countedFailures p (s.step e) < 5) := by
  by_cases hresult : ∃ success, e = .heartbeatResult success
  · obtain ⟨success, rfl⟩ := hresult
    by_cases hwaits : s.roundWaits = some p
    · have houtcome : outcomeOf p s (.heartbeatResult success) = [success] := if_pos hwaits
      have hmove : ResultMove p s success (s.step (.heartbeatResult success)) :=
        result_move hwaits success
      rw [houtcome]
      generalize s.step (.heartbeatResult success) = s' at hmove hafter ⊢
      cases hmove with
      | success hcounter hpeers => simp [hcounter]
      | failure hfew hcounter hpeers => simp [hcounter, hfew]
      | eviction hmany hpeers =>
        rw [hpeers] at hafter
        exact absurd rfl (AList.mem_erase.mp hafter).1
    · have hnone : outcomeOf p s (.heartbeatResult success) = [] := if_neg hwaits
      rw [hnone]
      exact ⟨result_other hwaits success, fun hmem => absurd hmem List.not_mem_nil⟩
  · have hother : ∀ success, e ≠ .heartbeatResult success := fun success he => hresult ⟨success, he⟩
    have hnone : outcomeOf p s e = [] := by
      cases e with
      | heartbeatResult success => exact absurd rfl (hother success)
      | _ => rfl
    have hsame : countedFailures p (s.step e) = countedFailures p s := by
      unfold countedFailures
      rw [step_failed s hother]
    rw [hnone]
    exact ⟨hsame, fun hmem => absurd hmem List.not_mem_nil⟩

/-- A run in which the peer stays registered. -/
lemma run_counted {s : RpcManager} {events : List RpcEvent}
    (hstays : Always RpcManager.step (fun s => p ∈ s.connectionsByPeer) s events) :
    countedFailures p (run RpcManager.step s events) = countedFailures p s +
      (outcomes p s events).count false ∧
      (false ∈ outcomes p s events → countedFailures p (run RpcManager.step s events) < 5) := by
  induction events generalizing s with
  | nil => exact ⟨rfl, fun hmem => absurd hmem List.not_mem_nil⟩
  | cons e events ih =>
    obtain ⟨-, hrest⟩ := always_cons.mp hstays
    obtain ⟨hcount, hfew⟩ := step_counted (hrest [] List.nil_prefix)
    obtain ⟨hcounts, hfews⟩ := ih hrest
    unfold outcomes
    rw [run_cons, List.count_append, hcounts, hcount]
    refine ⟨by omega, fun hmem => ?_⟩
    by_cases hlater : false ∈ outcomes p (s.step e) events
    · have hlt := hfews hlater
      omega
    · have hzero : (outcomes p (s.step e) events).count false = 0 := List.count_eq_zero.mpr hlater
      have hlt := hfew ((List.mem_append.mp hmem).resolve_right hlater)
      omega

end Counter

/-! ## Rounds -/

lemma outcomes_concat (p : PeerId) (s : RpcManager) (before : List RpcEvent) (e : RpcEvent) :
    outcomes p s (before ++ [e]) = outcomes p s before ++
      outcomeOf p (run RpcManager.step s before) e := by
  induction before generalizing s with
  | nil => simp [outcomes]
  | cons e' before ih =>
    rw [List.cons_append, outcomes, outcomes, ih, run_cons, List.append_assoc]

section Rounds

variable {p : PeerId} {s : RpcManager} {before : List RpcEvent}

/-- The peer is removed in the round of its fifth failure, counted from all rounds before. -/
theorem removed_iff_fifth_failure
    (hstays : Always RpcManager.step (fun s => p ∈ s.connectionsByPeer) s before)
    (hwaits : (run RpcManager.step s before).roundWaits = some p) (success : Bool) :
    p ∉ (run RpcManager.step s (before ++ [.heartbeatResult success])).connectionsByPeer ↔
      success = false ∧ 4 ≤ countedFailures p s + (outcomes p s before).count false := by
  have hregistered := hstays before (List.prefix_refl before)
  obtain ⟨hcount, -⟩ := run_counted hstays
  rw [run_concat, ← hcount]
  have hmove : ResultMove p (run RpcManager.step s before) success
    ((run RpcManager.step s before).step (.heartbeatResult success)) := result_move hwaits success
  generalize (run RpcManager.step s before).step (.heartbeatResult success) = s' at hmove ⊢
  cases hmove with
  | success hcounter hpeers =>
    rw [hpeers]
    simp [hregistered]
  | failure hfew hcounter hpeers =>
    rw [hpeers]
    simp only [hregistered, not_true_eq_false, true_and, false_iff]
    omega
  | eviction hmany hpeers =>
    rw [hpeers, AList.mem_erase]
    simp only [ne_eq, not_true_eq_false, false_and, not_false_eq_true, true_and, true_iff]
    omega

/-- In every round of a peer that has stayed registered, the peer is removed exactly after five
failures in a row, the first ones, if and only if the round is not a failure that completes five
counted ones without the four rounds before being failures. -/
theorem removal_consecutive_iff
    (hstays : Always RpcManager.step (fun s => p ∈ s.connectionsByPeer) s before)
    (hwaits : (run RpcManager.step s before).roundWaits = some p) (success : Bool) :
    (p ∉ (run RpcManager.step s (before ++ [.heartbeatResult success])).connectionsByPeer ↔
      List.replicate 5 false <:+ outcomes p s (before ++ [.heartbeatResult success]) ∧
        ¬List.replicate 5 false <:+: outcomes p s before) ↔
    (success = false → 4 ≤ countedFailures p s + (outcomes p s before).count false →
      List.replicate 4 false <:+ outcomes p s before) := by
  have houtcome : outcomeOf p (run RpcManager.step s before) (.heartbeatResult success) =
      [success] := if_pos hwaits
  obtain ⟨hcount, hfew⟩ := run_counted hstays
  -- five failures in a row would have removed the peer already
  have hnever : ¬List.replicate 5 false <:+: outcomes p s before := by
    intro hinfix
    have hfive := hinfix.sublist.count_le false
    rw [List.count_replicate_self] at hfive
    have hlt := hfew (List.count_pos_iff.mp (by omega))
    omega
  have hfour : List.replicate 4 false <:+ outcomes p s before →
      4 ≤ (outcomes p s before).count false := by
    intro hsuffix
    have hle := hsuffix.sublist.count_le false
    rwa [List.count_replicate_self] at hle
  rw [removed_iff_fifth_failure hstays hwaits, and_iff_left hnever, outcomes_concat, houtcome,
    List.replicate_succ', List.concat_suffix_concat]
  constructor
  · rintro hiff rfl hmany
    exact (hiff.mp ⟨rfl, hmany⟩).2
  · intro himp
    constructor
    · rintro ⟨rfl, hmany⟩
      exact ⟨rfl, himp rfl hmany⟩
    · rintro ⟨hfalse, hsuffix⟩
      have hle := hfour hsuffix
      exact ⟨hfalse.symm, by omega⟩

end Rounds

/-! ## A peer with mixed outcomes -/

/-- The events of a round of the one registered peer "b", up to its answer. -/
def askB : List RpcEvent := [.beginHeartbeats, .sendHeartbeat, .awaitHeartbeat "b"]

/-- The rounds of "b" with the given outcomes. -/
def roundsOfB (results : List Bool) : List RpcEvent :=
  results.flatMap fun success => askB ++ [.heartbeatResult success]

def connectedToB : RpcManager := run RpcManager.step {} [.incoming "10.0.0.2" "b"]

/-- Five failures after a success. -/
theorem removal_consecutive_five :
    outcomes "b" connectedToB (roundsOfB [true, false, false, false, false] ++ askB ++
      [.heartbeatResult false]) =
        [true, false, false, false, false, false] ∧
      ("b" ∉ (run RpcManager.step connectedToB
          (roundsOfB [true, false, false, false, false] ++ askB ++
            [.heartbeatResult false])).connectionsByPeer ↔
        List.replicate 5 false <:+
            outcomes "b" connectedToB (roundsOfB [true, false, false, false, false] ++ askB ++
              [.heartbeatResult false]) ∧
          ¬List.replicate 5 false <:+: outcomes "b" connectedToB
            (roundsOfB [true, false, false, false, false] ++ askB)) := by
  have hstays : Always RpcManager.step (fun s => "b" ∈ s.connectionsByPeer) connectedToB
      (roundsOfB [true, false, false, false, false] ++ askB) :=
    (always_iff_guarded_of_step (fun _ _ _ => Iff.rfl) (by decide) _).mpr (by decide)
  exact ⟨by decide, (removal_consecutive_iff hstays (by decide) false).mpr fun _ _ => by decide⟩

/-- Four failures, a success and a fifth failure: the peer is removed, although the round before
succeeded. -/
theorem removal_after_success :
    outcomes "b" connectedToB (roundsOfB [false, false, false, false, true, false]) =
        [false, false, false, false, true, false] ∧
      "b" ∈ (run RpcManager.step connectedToB
        (roundsOfB [false, false, false, false, true])).connectionsByPeer ∧
      "b" ∉ (run RpcManager.step connectedToB
        (roundsOfB [false, false, false, false, true, false])).connectionsByPeer := by
  decide

end MeshNetwork.Proofs
