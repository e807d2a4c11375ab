import MeshNetwork.Proofs.ConnectionIndex

/-!
# Connect attempts

The steps of the attempts of `connect_async`, in any order with each other and with all else that
the manager does, and the connections of the attempts that fail.
-/

namespace MeshNetwork.Proofs

/-! ## Stored connections -/

/-- The connection `id` is stored in one of the maps. -/
def Registry.Holds (r : Registry) (id : Nat) : Prop :=
  (∃ p c, r.byPeer.lookup p = some c ∧ c.id = id) ∨ ∃ ip c, r.byIp.lookup ip = some c ∧ c.id = id

/-- Only a registration adds a connection. -/
lemma Registry.Holds.of_apply {r : Registry} {f : RegistryEffect} {id : Nat}
    (h : (r.apply f).Holds id) :
    r.Holds id ∨ ∃ conn, f = .register conn ∧ conn.id = id := by
  cases f with
  | keep => exact .inl h
  | register conn =>
    rcases h with ⟨p, c, hc, hid⟩ | ⟨ip, c, hc, hid⟩
    · rcases UMap.lookup_insertNew_eq_some.mp hc with hold | ⟨-, -, rfl⟩
      · exact .inl (.inl ⟨p, c, hold, hid⟩)
      · exact .inr ⟨conn, rfl, hid⟩
    · rcases UMap.lookup_insertNew_eq_some.mp hc with hold | ⟨-, -, rfl⟩
      · exact .inl (.inr ⟨ip, c, hold, hid⟩)
      · exact .inr ⟨conn, rfl, hid⟩
  | remove p =>
    left
    cases hl : r.byPeer.lookup p with
    | none => simpa [Registry.apply, hl] using h
    | some conn =>
      simp only [Registry.apply, hl] at h
      rcases h with ⟨q, c, hc, hid⟩ | ⟨ip, c, hc, hid⟩
      · exact .inl ⟨q, c, (UMap.lookup_erase_eq_some.mp hc).2, hid⟩
      · exact .inr ⟨ip, c, (UMap.lookup_erase_eq_some.mp hc).2, hid⟩
  | notify p =>
    left
    by_cases hp : p ∈ r.removing
    · simpa [Registry.apply, Registry.Holds, hp] using h
    · simpa [Registry.apply, hp] using h
  | evict p =>
    rcases h with ⟨q, c, hc, hid⟩ | hip
    · exact .inl (.inl ⟨q, c, (UMap.lookup_erase_eq_some.mp hc).2, hid⟩)
    · exact .inl (.inr hip)
  | clear => rcases h with ⟨q, c, hc, -⟩ | ⟨ip, c, hc, -⟩ <;> cases hc

/-! ## Attempts -/

/-- What is known of an attempt while `holds` are the stored connections and `next` is the next
number of a connection. -/
structure AttemptSound (holds : Nat → Prop) (next : Nat) (a : ConnectAttempt) : Prop where
  fresh : ∀ c, a.conn = some c → c.id < next
  unconnected : a.stage = .refused ∨ a.stage = .resolving ∨ a.stage = .connecting → a.conn = none
  uncompleted : a.completed = false → a.results = []
  succeeded : ∀ p, a.stage = .posted (.ok p) → a.completed = false
  finished : a.stage = .finished → a.completed = true
  held : ∀ c, a.conn = some c → holds c.id → (∃ p, a.stage = .posted (.ok p)) ∨ a.stage = .finished
  failed : (∃ message, .error message ∈ a.results) → ∀ c, a.conn = some c → ¬holds c.id

variable {holds holds' : Nat → Prop} {next next' : Nat} {a : ConnectAttempt}

lemma AttemptSound.mono (h : AttemptSound holds next a) (hnext : next ≤ next')
    (hholds : ∀ c, a.conn = some c → holds' c.id → holds c.id) : AttemptSound holds' next' a :=
  { h with
    fresh := fun c hc => (h.fresh c hc).trans_le hnext
    held := fun c hc hid => h.held c hc (hholds c hc hid)
    failed := fun herr c hc hid => h.failed herr c hc (hholds c hc hid) }

/-- The connection of an uncompleted attempt is stored only if its startup has succeeded. -/
lemma AttemptSound.not_holds (h : AttemptSound holds next a) (hopen : a.completed = false)
    (hstage : ∀ p, a.stage ≠ .posted (.ok p)) (c : RpcConnection) (hc : a.conn = some c) :
    ¬holds c.id := by
  intro hid
  rcases h.held c hc hid with ⟨p, hp⟩ | hfin
  · exact hstage p hp
  · rw [h.finished hfin] at hopen
    cases hopen

lemma AttemptSound.complete_error (h : AttemptSound holds next a)
    (hstage : ∀ p, a.stage ≠ .posted (.ok p)) {stage : AttemptStage}
    (hnew : stage = .finished ∨ stage = a.stage) (message : String) :
    AttemptSound holds next (a.complete stage (.error message)) := by
  have hheld : ∀ c, a.conn = some c → holds c.id → stage = .finished := by
    intro c hc hid
    rcases hnew with rfl | rfl
    · rfl
    · exact (h.held c hc hid).resolve_left fun ⟨p, hp⟩ => hstage p hp
  have hok : ∀ p, stage ≠ .posted (.ok p) := by
    rcases hnew with rfl | rfl
    · nofun
    · exact hstage
  have hconn : stage = .refused ∨ stage = .resolving ∨ stage = .connecting → a.conn = none := by
    rcases hnew with rfl | rfl
    · nofun
    · exact h.unconnected
  unfold ConnectAttempt.complete
  split_ifs with hdone
  · exact ⟨h.fresh, hconn, h.uncompleted, fun p hp => absurd hp (hok p), fun _ => hdone,
      fun c hc hid => .inr (hheld c hc hid), h.failed⟩
  · exact ⟨h.fresh, hconn, nofun, fun p hp => absurd hp (hok p), fun _ => rfl,
      fun c hc hid => .inr (hheld c hc hid), fun _ => h.not_holds (by simpa using hdone) hstage⟩

lemma AttemptSound.complete_ok (h : AttemptSound holds next a) {p : PeerId}
    (hstage : a.stage = .posted (.ok p)) :
    AttemptSound holds next (a.complete .finished (.ok p)) := by
  have hopen := h.succeeded p hstage
  unfold ConnectAttempt.complete
  rw [if_neg (by simp [hopen])]
  refine ⟨h.fresh, nofun, nofun, nofun, fun _ => rfl, fun _ _ _ => .inr rfl,
    fun ⟨message, hm⟩ => ?_⟩
  simp [h.uncompleted hopen] at hm

/-! ## What an event does to the attempts -/

/-- The events that can register a connection. -/
def registers : RpcEvent → Bool
  | .incoming .. => true
  | .startupFinished .. => true
  | _ => false

lemma effectOf_ne_register (s : RpcManager) {e : RpcEvent} (h : registers e = false)
    (conn : RpcConnection) :
    effectOf s e ≠ .register conn := by
  intro heffect
  cases e with
  | incoming remoteIp remotePeerId => cases h
  | startupFinished i res => cases h
  | heartbeatResult success =>
    cases success with
    | true => cases heffect
    | false =>
      cases hwaits : s.roundWaits with
      | none =>
        simp only [effectOf, hwaits, Option.elim_none] at heffect
        cases heffect
      | some peer =>
        simp only [effectOf, hwaits, Option.elim_some] at heffect
        split_ifs at heffect
  | shutdown =>
    dsimp only [effectOf] at heffect
    split_ifs at heffect
  | _ => cases heffect

/-- A step of the attempt `i`. -/
inductive AttemptMove (s : RpcManager) (i : Nat) (a : ConnectAttempt) :
    RpcEvent → ConnectAttempt → Prop
  | expired : AttemptMove s i a (.timerExpired i) (a.complete a.stage (.error "connect timed out"))
  | failed {e : RpcEvent} (heffect : ∀ conn, effectOf s e ≠ .register conn)
      (hstage : a.stage = .resolving ∨ a.stage = .connecting) (message : String) :
      AttemptMove s i a e (a.complete .finished (.error message))
  | resolved (hstage : a.stage = .resolving) (hopen : a.completed = false) :
      AttemptMove s i a (.resolved i none) { a with stage := .connecting }
  | connected (remoteIp : String) (hstage : a.stage = .connecting) (hopen : a.completed = false) :
      AttemptMove s i a (.tcpConnected i (.ok remoteIp))
        { a with stage := .starting, conn := some { id := s.nextConnection, remoteIp := remoteIp } }
  | started (res : Except String PeerId) (conn : RpcConnection) (hstage : a.stage = .starting)
      (hconn : a.conn = some conn) :
      AttemptMove s i a (.startupFinished i res) { a with stage := .posted res }
  | posted (res : Except String PeerId) (hstage : a.stage = .posted res) :
      AttemptMove s i a (.completionRun i) (a.complete .finished res)

/-- What an event does to the attempts and to the numbers of connections. -/
inductive AttemptsMove (s : RpcManager) : RpcEvent → RpcManager → Prop
  | incoming (remoteIp : String) (remotePeerId : PeerId) :
      AttemptsMove s (.incoming remoteIp remotePeerId) (s.handleNewConnection remoteIp remotePeerId)
  | untouched {e : RpcEvent} {s' : RpcManager} (hattempts : s'.attempts = s.attempts)
      (hnumber : s'.nextAttempt = s.nextAttempt) (hnext : s'.nextConnection = s.nextConnection)
      (heffect : ∀ conn, effectOf s e ≠ .register conn) : AttemptsMove s e s'
  | created {e : RpcEvent} (targets : List PeerIp)
      (heffect : ∀ conn, effectOf s e ≠ .register conn) :
      AttemptsMove s e (targets.foldl (fun s target => s.connectAsync target.ip target.tcpPort) s)
  | moved {e : RpcEvent} {s' : RpcManager} {i : Nat} {a a' : ConnectAttempt}
      (hi : s.attempts.lookup i = some a)
      (hmove : AttemptMove s i a e a') (hattempts : s'.attempts = s.attempts.insert i a')
      (hnumber : s'.nextAttempt = s.nextAttempt) (hnext : s.nextConnection ≤ s'.nextConnection)
      (hconn : a'.conn = a.conn ∨ s'.nextConnection = s.nextConnection + 1) : AttemptsMove s e s'

lemma complete_conn (a : ConnectAttempt) (stage : AttemptStage) (result : Except String PeerId) :
    (a.complete stage result).conn = a.conn := by
  unfold ConnectAttempt.complete
  split_ifs <;> rfl

lemma complete_of_completed {a : ConnectAttempt} (h : a.completed = true) (stage : AttemptStage)
    (result : Except String PeerId) : a.complete stage result = { a with stage := stage } :=
  if_pos h

lemma resolved_move (s : RpcManager) (i : Nat) (ec : Option String) :
    AttemptsMove s (.resolved i ec) (s.resolved i ec) := by
  have heffect := effectOf_ne_register s (e := .resolved i ec) rfl
  unfold RpcManager.resolved
  cases hi : s.attempts.lookup i with
  | none => exact .untouched rfl rfl rfl heffect
  | some a =>
    dsimp only
    cases hstage : a.stage with
    | resolving =>
      dsimp only
      split_ifs with hdone
      · exact .moved hi (.failed heffect (.inl hstage) "") (by rw [complete_of_completed hdone])
          rfl le_rfl
          (.inl (complete_conn ..))
      · cases ec with
        | some message =>
          exact .moved hi (.failed heffect (.inl hstage) _) rfl rfl le_rfl (.inl (complete_conn ..))
        | none =>
          exact .moved hi (.resolved hstage (by simpa using hdone)) rfl rfl le_rfl (.inl rfl)
    | _ => exact .untouched rfl rfl rfl heffect

lemma tcpConnected_move (s : RpcManager) (i : Nat) (result : Except String String) :
    AttemptsMove s (.tcpConnected i result) (s.tcpConnected i result) := by
  have heffect := effectOf_ne_register s (e := .tcpConnected i result) rfl
  unfold RpcManager.tcpConnected
  cases hi : s.attempts.lookup i with
  | none => exact .untouched rfl rfl rfl heffect
  | some a =>
    dsimp only
    cases hstage : a.stage with
    | connecting =>
      dsimp only
      split_ifs with hdone
      · exact .moved hi (.failed heffect (.inr hstage) "") (by rw [complete_of_completed hdone])
          rfl le_rfl
          (.inl (complete_conn ..))
      · cases result with
        | error message =>
          exact .moved hi (.failed heffect (.inr hstage) _) rfl rfl le_rfl (.inl (complete_conn ..))
        | ok remoteIp =>
          exact .moved hi (.connected remoteIp hstage (by simpa using hdone)) rfl rfl
            (Nat.le_succ _) (.inr rfl)
    | _ => exact .untouched rfl rfl rfl heffect

lemma startupFinished_move (s : RpcManager) (i : Nat) (res : Except String PeerId) :
    AttemptsMove s (.startupFinished i res) (s.startupFinished i res) := by
  have hidle : startingConnection s i = none →
      ∀ conn, effectOf s (.startupFinished i res) ≠ .register conn := by
    intro hnone
    cases res with
    | error message => nofun
    | ok p => simp [effectOf, hnone]
  unfold RpcManager.startupFinished
  cases hi : s.attempts.lookup i with
  | none => exact .untouched rfl rfl rfl (hidle (by simp [startingConnection, hi]))
  | some a =>
    dsimp only
    cases hstage : a.stage with
    | starting =>
      cases hconn : a.conn with
      | none =>
        exact .untouched rfl rfl rfl (hidle (by simp [startingConnection, hi, hstage, hconn]))
      | some conn =>
        have hmove := AttemptMove.started (s := s) (i := i) res conn hstage hconn
        cases res with
        | error message => exact .moved hi hmove (by rw [hconn]) rfl le_rfl (.inl rfl)
        | ok p => exact .moved hi hmove (by rw [hconn]; rfl) rfl le_rfl (.inl rfl)
    | _ => exact .untouched rfl rfl rfl (hidle (by simp [startingConnection, hi, hstage]))

lemma completionRun_move (s : RpcManager) (i : Nat) :
    AttemptsMove s (.completionRun i) (s.completionRun i) := by
  unfold RpcManager.completionRun
  cases hi : s.attempts.lookup i with
  | none => exact .untouched rfl rfl rfl (effectOf_ne_register s rfl)
  | some a =>
    dsimp only
    cases hstage : a.stage with
    | posted res => exact .moved hi (.posted res hstage) rfl rfl le_rfl (.inl (complete_conn ..))
    | _ => exact .untouched rfl rfl rfl (effectOf_ne_register s rfl)

theorem step_attempts (s : RpcManager) (e : RpcEvent) : AttemptsMove s e (s.step e) := by
  cases e with
  | incoming remoteIp remotePeerId => exact .incoming remoteIp remotePeerId
  | connectAsync host port => exact .created [⟨host, port⟩] (effectOf_ne_register s rfl)
  | timerExpired i =>
    change AttemptsMove s _ (s.timerExpired i)
    unfold RpcManager.timerExpired
    cases hi : s.attempts.lookup i with
    | none => exact .untouched rfl rfl rfl (effectOf_ne_register s rfl)
    | some a => exact .moved hi .expired rfl rfl le_rfl (.inl (complete_conn ..))
  | resolved i ec => exact resolved_move s i ec
  | tcpConnected i result => exact tcpConnected_move s i result
  | startupFinished i res => exact startupFinished_move s i res
  | completionRun i => exact completionRun_move s i
  | removeConnection peerId =>
    change AttemptsMove s _ (s.removeConnection peerId).2
    unfold RpcManager.removeConnection
    split <;> exact .untouched rfl rfl rfl (effectOf_ne_register s rfl)
  | notifyRemoved peerId =>
    change AttemptsMove s _ (s.notifyRemoved peerId)
    unfold RpcManager.notifyRemoved
    split_ifs <;> exact .untouched rfl rfl rfl (effectOf_ne_register s rfl)
  | beginHeartbeats | sendHeartbeat | awaitHeartbeat =>
    exact .untouched (round_preserves RpcManager.attempts (fun _ _ _ _ => rfl) s rfl)
      (round_preserves RpcManager.nextAttempt (fun _ _ _ _ => rfl) s rfl)
      (round_preserves RpcManager.nextConnection (fun _ _ _ _ => rfl) s rfl)
      (effectOf_ne_register s rfl)
  | heartbeatResult success =>
    change AttemptsMove s _ (s.heartbeatResult success)
    unfold RpcManager.heartbeatResult
    split
    · exact .untouched rfl rfl rfl (effectOf_ne_register s rfl)
    · dsimp only
      split_ifs <;> exact .untouched rfl rfl rfl (effectOf_ne_register s rfl)
  | addAutoConnection record =>
    change AttemptsMove s _ (s.addAutoConnection record)
    unfold RpcManager.addAutoConnection
    split_ifs <;> exact .untouched rfl rfl rfl (effectOf_ne_register s rfl)
  | removeAutoConnection record => exact .untouched rfl rfl rfl (effectOf_ne_register s rfl)
  | maintenance =>
    change AttemptsMove s _ s.checkForAutoConnections
    unfold RpcManager.checkForAutoConnections
    split_ifs
    · exact .untouched rfl rfl rfl (effectOf_ne_register s rfl)
    · exact .created _ (effectOf_ne_register s rfl)
  | shutdown =>
    change AttemptsMove s _ s.shutdown
    unfold RpcManager.shutdown
    split_ifs <;> exact .untouched rfl rfl rfl (effectOf_ne_register s rfl)

/-! ## Failed attempts -/

/-- The attempts of a manager, and the connections that it stores. -/
structure AttemptsSound (s : RpcManager) : Prop where
  attempt : ∀ i a, s.attempts.lookup i = some a →
    AttemptSound (registryOf s).Holds s.nextConnection a
  distinct : ∀ i j a b c d, s.attempts.lookup i = some a → s.attempts.lookup j = some b →
    a.conn = some c → b.conn = some d → c.id = d.id → i = j
  stored : ∀ id, (registryOf s).Holds id → id < s.nextConnection
  numbered : ∀ i ∈ s.attempts, i < s.nextAttempt

/-- The timer of an attempt does not expire after its startup has succeeded and before the
completion runs, and its startup does not succeed after the attempt has been completed. -/
def InTime (s : RpcManager) : RpcEvent → Prop
  | .timerExpired i =>
    ∀ a, s.attempts.lookup i = some a → a.completed = false → ∀ p, a.stage ≠ .posted (.ok p)
  | .startupFinished i (.ok _) =>
    ∀ a, s.attempts.lookup i = some a → a.stage = .starting → a.completed = false
  | _ => True

variable {s s' : RpcManager} {e : RpcEvent}

lemma AttemptsSound.untouched (h : AttemptsSound s) (hattempts : s'.attempts = s.attempts)
    (hnumber : s'.nextAttempt = s.nextAttempt) (hnext : s.nextConnection ≤ s'.nextConnection)
    (hholds : ∀ id, (registryOf s').Holds id → (registryOf s).Holds id ∨
      s.nextConnection ≤ id ∧ id < s'.nextConnection) : AttemptsSound s' := by
  refine ⟨fun i a hi => ?_, by rw [hattempts]; exact h.distinct, fun id hid => ?_,
    by rw [hattempts, hnumber]; exact h.numbered⟩
  · rw [hattempts] at hi
    refine (h.attempt i a hi).mono hnext fun c hc hid => ?_
    rcases hholds c.id hid with hold | ⟨hnew, -⟩
    · exact hold
    · exact absurd ((h.attempt i a hi).fresh c hc) (not_lt.mpr hnew)
  · rcases hholds id hid with hold | ⟨-, hnew⟩
    · exact (h.stored id hold).trans_le hnext
    · exact hnew

/-- One attempt changes; it keeps its connection or gets a new one. -/
lemma AttemptsSound.set (h : AttemptsSound s) {i : Nat} {a a' : ConnectAttempt}
    (hi : s.attempts.lookup i = some a) (hattempts : s'.attempts = s.attempts.insert i a')
    (hnumber : s'.nextAttempt = s.nextAttempt) (hnext : s.nextConnection ≤ s'.nextConnection)
    (hconn : ∀ c, a'.conn = some c → a.conn = some c ∨ s.nextConnection ≤ c.id)
    (hstored : ∀ id, (registryOf s').Holds id → id < s'.nextConnection)
    (hholds : ∀ j b c, j ≠ i → s.attempts.lookup j = some b → b.conn = some c →
      (registryOf s').Holds c.id → (registryOf s).Holds c.id)
    (ha' : AttemptSound (registryOf s').Holds s'.nextConnection a') : AttemptsSound s' := by
  have hlookup : ∀ j b, s'.attempts.lookup j = some b → j = i ∧ b = a' ∨ j ≠ i ∧
      s.attempts.lookup j = some b := by
    intro j b hb
    rw [hattempts, UMap.lookup_insert_eq] at hb
    split_ifs at hb with hj
    · exact .inl ⟨hj, (Option.some.inj hb).symm⟩
    · exact .inr ⟨hj, hb⟩
  -- a connection of another attempt is not the one that the attempt `i` has now
  have hother : ∀ j b c d, j ≠ i → s.attempts.lookup j = some b → b.conn = some c →
      a'.conn = some d → c.id ≠ d.id := by
    intro j b c d hj hb hc hd heq
    rcases hconn d hd with hold | hnew
    · exact hj (h.distinct j i b a c d hb hi hc hold heq)
    · exact absurd ((h.attempt j b hb).fresh c hc) (not_lt.mpr (heq ▸ hnew))
  refine ⟨fun j b hb => ?_, fun j k b b' c d hb hb' hc hd heq => ?_, hstored, fun j hj => ?_⟩
  · rcases hlookup j b hb with ⟨-, rfl⟩ | ⟨hj, hb⟩
    · exact ha'
    · exact (h.attempt j b hb).mono hnext fun c hc => hholds j b c hj hb hc
  · rcases hlookup j b hb with ⟨rfl, rfl⟩ | ⟨hj, hb⟩
    · rcases hlookup k b' hb' with ⟨rfl, -⟩ | ⟨hk, hb'⟩
      · rfl
      · exact absurd heq.symm (hother k b' d c hk hb' hd hc)
    · rcases hlookup k b' hb' with ⟨rfl, rfl⟩ | ⟨-, hb'⟩
      · exact absurd heq (hother j b c d hj hb hc hd)
      · exact h.distinct j k b b' c d hb hb' hc hd heq
  · rw [hnumber]
    rw [hattempts, AList.mem_insert] at hj
    rcases hj with rfl | hj
    · exact h.numbered j ((UMap.mem_iff_lookup _ _).mpr ⟨a, hi⟩)
    · exact h.numbered j hj

/-- A call of `connect_async` adds an attempt without a connection. -/
lemma connectAsync_attempts (s : RpcManager) (host : String) (port : Nat) :
    ∃ b : ConnectAttempt, (s.connectAsync host port).attempts = s.attempts.insert s.nextAttempt b ∧
      (s.connectAsync host port).nextAttempt = s.nextAttempt + 1 ∧
      (s.connectAsync host port).nextConnection = s.nextConnection ∧ b.conn = none ∧
      ∀ holds next, AttemptSound holds next b := by
  unfold RpcManager.connectAsync
  dsimp only
  split_ifs
  · exact ⟨_, rfl, rfl, rfl, rfl, fun _ _ => ⟨nofun, fun _ => rfl, nofun, nofun, nofun, nofun,
      fun _ => nofun⟩⟩
  · exact ⟨_, rfl, rfl, rfl, rfl, fun _ _ =>
      ⟨nofun, fun _ => rfl, fun _ => rfl, nofun, nofun, nofun, fun _ => nofun⟩⟩

lemma AttemptsSound.connectAsync (h : AttemptsSound s) (host : String) (port : Nat) :
    AttemptsSound (s.connectAsync host port) := by
  have hregistry : registryOf (s.connectAsync host port) = registryOf s :=
    registryOf_step s (.connectAsync host port)
  obtain ⟨b, hattempts, hnumber, hnext, hconn, hsound⟩ := connectAsync_attempts s host port
  have hlookup : ∀ j a, (s.connectAsync host port).attempts.lookup j = some a →
      a = b ∨ s.attempts.lookup j = some a := by
    intro j a ha
    rw [hattempts, UMap.lookup_insert_eq] at ha
    split_ifs at ha
    · exact .inl (Option.some.inj ha).symm
    · exact .inr ha
  refine ⟨fun j a ha => ?_, fun j k a a' c d ha ha' hc hd heq => ?_, ?_, fun j hj => ?_⟩
  · rw [hregistry, hnext]
    rcases hlookup j a ha with rfl | hold
    · exact hsound _ _
    · exact h.attempt j a hold
  · rcases hlookup j a ha with rfl | hold
    · rw [hconn] at hc
      cases hc
    · rcases hlookup k a' ha' with rfl | hold'
      · rw [hconn] at hd
        cases hd
      · exact h.distinct j k a a' c d hold hold' hc hd heq
  · rw [hregistry, hnext]
    exact h.stored
  · rw [hattempts, AList.mem_insert] at hj
    rw [hnumber]
    rcases hj with rfl | hj
    · exact Nat.lt_succ_self _
    · exact (h.numbered j hj).trans (Nat.lt_succ_self _)

lemma AttemptsSound.connectAll (h : AttemptsSound s) (targets : List PeerIp) :
    AttemptsSound (targets.foldl (fun s target => s.connectAsync target.ip target.tcpPort) s) := by
  induction targets generalizing s with
  | nil => exact h
  | cons target targets ih => exact ih (h.connectAsync target.ip target.tcpPort)

/-- Without a registration the stored connections are those of before. -/
lemma holds_of_step (hregistry : registryOf s' = (registryOf s).apply (effectOf s e))
    (heffect : ∀ conn, effectOf s e ≠ .register conn) (id : Nat) (hid : (registryOf s').Holds id) :
    (registryOf s).Holds id := by
  rw [hregistry] at hid
  rcases hid.of_apply with hold | ⟨conn, hconn, -⟩
  · exact hold
  · exact absurd hconn (heffect conn)

section Moved

variable {i : Nat} {a a' : ConnectAttempt} (h : AttemptsSound s)
  (hregistry : registryOf s' = (registryOf s).apply (effectOf s e))
  (hi : s.attempts.lookup i = some a)
  (hattempts : s'.attempts = s.attempts.insert i a') (hnumber : s'.nextAttempt = s.nextAttempt)
include h hregistry hi hattempts hnumber

lemma AttemptsSound.quiet (hnext : s.nextConnection ≤ s'.nextConnection)
    (heffect : ∀ conn, effectOf s e ≠ .register conn)
    (hconn : ∀ c, a'.conn = some c → a.conn = some c)
    (hsound : AttemptSound (registryOf s).Holds s.nextConnection a') : AttemptsSound s' := by
  have hkept := holds_of_step hregistry heffect
  exact h.set hi hattempts hnumber hnext (fun c hc => .inl (hconn c hc))
    (fun id hid => (h.stored id (hkept id hid)).trans_le hnext) (fun _ _ c _ _ _ => hkept c.id)
    (hsound.mono hnext fun c _ => hkept c.id)

/-- The attempt gets a connection with a number that no stored one has. -/
lemma AttemptsSound.connected (hnext : s'.nextConnection = s.nextConnection + 1)
    (heffect : ∀ conn, effectOf s e ≠ .register conn) {conn : RpcConnection}
    (hid : conn.id = s.nextConnection)
    (ha' : a' = { a with stage := .starting, conn := some conn }) :
    AttemptsSound s' := by
  subst ha'
  have hkept := holds_of_step hregistry heffect
  have hfresh : ∀ c, some conn = some c → ¬(registryOf s').Holds c.id := by
    rintro c heq hc
    cases heq
    exact absurd (h.stored _ (hkept _ hc)) (hid ▸ lt_irrefl _)
  refine h.set hi hattempts hnumber (hnext ▸ Nat.le_succ _) (fun c hc => ?_)
    (fun id hid => (h.stored id (hkept id hid)).trans_le (hnext ▸ Nat.le_succ _))
    (fun _ _ c _ _ _ => hkept c.id) ?_
  · cases hc
    exact .inr hid.ge
  · refine ⟨fun c hc => ?_, by simp, (h.attempt i a hi).uncompleted, by simp, by simp,
      fun c hc hid => absurd hid (hfresh c hc), fun _ => hfresh⟩
    cases hc
    rw [hid, hnext]
    exact Nat.lt_succ_self _

/-- The startup thread of the attempt registers its connection. -/
lemma AttemptsSound.registered (hnext : s.nextConnection ≤ s'.nextConnection) {conn : RpcConnection}
    {p : PeerId} (hconn : a.conn = some conn) (hopen : a.completed = false)
    (heffect : effectOf s e = .register { conn with remotePeerId := p })
    (ha' : a' = { a with stage := .posted (.ok p) }) : AttemptsSound s' := by
  subst ha'
  have ha := h.attempt i a hi
  have hheld : ∀ id, (registryOf s').Holds id → (registryOf s).Holds id ∨ conn.id = id := by
    intro id hid
    rw [hregistry, heffect] at hid
    rcases hid.of_apply with hold | ⟨conn', heq, hid'⟩
    · exact .inl hold
    · cases heq
      exact .inr hid'
  refine h.set hi hattempts hnumber hnext (fun c hc => .inl hc) (fun id hid => ?_)
    (fun j b c hj hb hc hid => ?_) ⟨fun c hc => (ha.fresh c hc).trans_le hnext, by simp,
      ha.uncompleted, fun _ _ => hopen, by simp, fun _ _ _ => .inl ⟨p, rfl⟩, ?_⟩
  · rcases hheld id hid with hold | rfl
    · exact (h.stored id hold).trans_le hnext
    · exact (ha.fresh conn hconn).trans_le hnext
  · refine (hheld c.id hid).resolve_right fun heq => hj ?_
    exact h.distinct j i b a c conn hb hi hc hconn heq.symm
  · rintro ⟨message, hm⟩
    simp [ha.uncompleted hopen] at hm

lemma AttemptsSound.moved (hguard : InTime s e) (hmove : AttemptMove s i a e a')
    (hnext : s.nextConnection ≤ s'.nextConnection)
    (hconn : a'.conn = a.conn ∨ s'.nextConnection = s.nextConnection + 1) : AttemptsSound s' := by
  have ha := h.attempt i a hi
  have hquiet := h.quiet hregistry hi hattempts hnumber hnext
  have hcomplete : ∀ stage result c, (a.complete stage result).conn = some c → a.conn = some c :=
    fun stage result c hc => (complete_conn a stage result).symm.trans hc
  cases hmove with
  | expired =>
    refine hquiet (by simp [effectOf]) (hcomplete _ _)
      (ha.complete_error (fun p hp => ?_) (.inr rfl) _)
    exact hguard a hi (ha.succeeded p hp) p hp
  | failed heffect hstage message =>
    refine hquiet heffect (hcomplete _ _) (ha.complete_error (fun p hp => ?_) (.inl rfl) message)
    rcases hstage with hstage | hstage <;> simp [hstage] at hp
  | resolved hstage hopen =>
    exact hquiet (by simp [effectOf]) (fun c hc => hc)
      ⟨ha.fresh, fun _ => ha.unconnected (.inr (.inl hstage)), ha.uncompleted, by simp, by simp,
      fun c hc hid => absurd hid (ha.not_holds hopen (by simp [hstage]) c hc), ha.failed⟩
  | connected remoteIp hstage hopen =>
    have hnone := ha.unconnected (.inr (.inr hstage))
    exact h.connected hregistry hi hattempts hnumber (hconn.resolve_left (by simp [hnone]))
      (by simp [effectOf])
      rfl rfl
  | started res conn hstage hconn' =>
    cases res with
    | error message =>
      refine hquiet (by simp [effectOf]) (fun c hc => hc)
        ⟨ha.fresh, by simp, ha.uncompleted, by simp, by simp, fun c hc hid => ?_, ha.failed⟩
      rcases ha.held c hc hid with ⟨p, hp⟩ | hfin
      · simp [hstage] at hp
      · simp [hstage] at hfin
    | ok p =>
      have hstart : startingConnection s i = some conn := by
        simp [startingConnection, hi, hstage, hconn']
      exact h.registered hregistry hi hattempts hnumber hnext hconn' (hguard a hi hstage)
        (by simp [effectOf, hstart]) rfl
  | posted res hstage =>
    cases res with
    | error message =>
      exact hquiet (by simp [effectOf]) (hcomplete _ _)
        (ha.complete_error (by simp [hstage]) (.inl rfl) message)
    | ok p => exact hquiet (by simp [effectOf]) (hcomplete _ _) (ha.complete_ok hstage)

end Moved

theorem step_attemptsSound (h : AttemptsSound s) (hguard : InTime s e) :
    AttemptsSound (s.step e) := by
  have hregistry := registryOf_step s e
  have hmove := step_attempts s e
  generalize s.step e = s' at hregistry hmove
  cases hmove with
  | incoming remoteIp remotePeerId =>
    refine h.untouched rfl rfl (Nat.le_succ _) fun id hid => ?_
    rw [hregistry] at hid
    rcases hid.of_apply with hold | ⟨conn, heffect, rfl⟩
    · exact .inl hold
    · cases heffect
      exact .inr ⟨le_rfl, Nat.lt_succ_self _⟩
  | untouched hattempts hnumber hnext heffect =>
    refine h.untouched hattempts hnumber hnext.ge fun id hid => ?_
    exact .inl (holds_of_step hregistry heffect id hid)
  | created targets _ => exact h.connectAll targets
  | moved hi hmove hattempts hnumber hnext hconn =>
    exact h.moved hregistry hi hattempts hnumber hguard hmove hnext hconn

/-- A later state of an attempt: results are only added, and its connection stays. -/
def LaterAttempt (a a' : ConnectAttempt) : Prop :=
  a.results <+: a'.results ∧ ∀ c, a.conn = some c → a'.conn = some c

lemma AttemptMove.later {i : Nat} {a a' : ConnectAttempt} (hsound : AttemptSound holds next a)
    (hmove : AttemptMove s i a e a') : LaterAttempt a a' := by
  have hcomplete : ∀ stage result, LaterAttempt a (a.complete stage result) := by
    intro stage result
    refine ⟨?_, fun c hc => (complete_conn a stage result).trans hc⟩
    unfold ConnectAttempt.complete
    split_ifs
    · exact List.prefix_refl _
    · exact List.prefix_append _ _
  cases hmove with
  | expired => exact hcomplete _ _
  | failed _ _ message => exact hcomplete _ _
  | resolved _ _ => exact ⟨List.prefix_refl _, fun _ hc => hc⟩
  | connected remoteIp hstage _ =>
    refine ⟨List.prefix_refl _, fun c hc => ?_⟩
    rw [hsound.unconnected (.inr (.inr hstage))] at hc
    cases hc
  | started res conn _ _ => exact ⟨List.prefix_refl _, fun _ hc => hc⟩
  | posted res _ => exact hcomplete _ _

lemma lookup_connectAll (h : AttemptsSound s) (targets : List PeerIp) {i : Nat} {a : ConnectAttempt}
    (hi : s.attempts.lookup i = some a) :
    (targets.foldl (fun s target => s.connectAsync target.ip target.tcpPort) s).attempts.lookup i =
      some a := by
  induction targets generalizing s with
  | nil => exact hi
  | cons target targets ih =>
    refine ih (h.connectAsync target.ip target.tcpPort) ?_
    have hlt : i < s.nextAttempt := h.numbered i ((UMap.mem_iff_lookup _ _).mpr ⟨a, hi⟩)
    obtain ⟨b, hattempts, -⟩ := connectAsync_attempts s target.ip target.tcpPort
    rw [hattempts, UMap.lookup_insert_eq, if_neg hlt.ne, hi]

lemma attempt_step (h : AttemptsSound s) (e : RpcEvent) {i : Nat} {a : ConnectAttempt}
    (hi : s.attempts.lookup i = some a) :
    ∃ a', (s.step e).attempts.lookup i = some a' ∧ LaterAttempt a a' := by
  have hrefl : LaterAttempt a a := ⟨List.prefix_refl _, fun _ hc => hc⟩
  have hmove := step_attempts s e
  generalize s.step e = s' at hmove
  cases hmove with
  | incoming _ _ => exact ⟨a, hi, hrefl⟩
  | untouched hattempts _ _ _ => exact ⟨a, hattempts ▸ hi, hrefl⟩
  | created targets _ => exact ⟨a, lookup_connectAll h targets hi, hrefl⟩
  | @moved _ _ j b b' hj hmove hattempts _ _ _ =>
    rw [hattempts, UMap.lookup_insert_eq]
    by_cases hij : i = j
    · subst hij
      rw [hi] at hj
      cases hj
      exact ⟨b', if_pos rfl, hmove.later (h.attempt i a hi)⟩
    · exact ⟨a, (if_neg hij).trans hi, hrefl⟩

lemma attempt_run (h : AttemptsSound s) {events : List RpcEvent}
    (hguard : EventRun.Guarded RpcManager.step InTime s events) {i : Nat} {a : ConnectAttempt}
    (hi : s.attempts.lookup i = some a) :
    ∃ a', (EventRun.run RpcManager.step s events).attempts.lookup i = some a' ∧
      LaterAttempt a a' := by
  induction events generalizing s a with
  | nil => exact ⟨a, hi, List.prefix_refl _, fun _ hc => hc⟩
  | cons e events ih =>
    obtain ⟨a₁, hi₁, hresults₁, hconn₁⟩ := attempt_step h e hi
    obtain ⟨a₂, hi₂, hresults₂, hconn₂⟩ := ih (step_attemptsSound h hguard.1) hguard.2 hi₁
    exact ⟨a₂, hi₂, hresults₁.trans hresults₂, fun c hc => hconn₂ c (hconn₁ c hc)⟩

lemma initial_attemptsSound : AttemptsSound {} := by
  have hnone : ∀ i a, ({} : RpcManager).attempts.lookup i ≠ some a := by simp
  refine ⟨fun i a hi => absurd hi (hnone i a), fun i _ a _ _ _ hi => absurd hi (hnone i a),
    fun id hid => ?_, fun i hi => absurd hi (AList.notMem_empty i)⟩
  rcases hid with ⟨p, c, hc, -⟩ | ⟨ip, c, hc, -⟩ <;> simp [registryOf] at hc

/-- Once the callback of an attempt has been called with an error, the connection of the attempt is
stored in no later state. -/
theorem failed_attempt_not_stored (before after : List RpcEvent)
    (hguard : EventRun.Guarded RpcManager.step InTime {} (before ++ after)) (i : Nat)
    (a : ConnectAttempt) (hi : (EventRun.run RpcManager.step {} before).attempts.lookup i = some a)
    (herror : ∃ message, .error message ∈ a.results) (conn : RpcConnection)
    (hconn : a.conn = some conn) :
    ¬(registryOf (EventRun.run RpcManager.step {} (before ++ after))).Holds conn.id := by
  rw [EventRun.guarded_append] at hguard
  have hbefore : AttemptsSound (EventRun.run RpcManager.step {} before) :=
    EventRun.always_of_guarded (fun _ _ => step_attemptsSound) initial_attemptsSound hguard.1 before
      (List.prefix_refl _)
  have hafter : AttemptsSound (EventRun.run RpcManager.step
      (EventRun.run RpcManager.step {} before) after) :=
    EventRun.always_of_guarded (fun _ _ => step_attemptsSound) hbefore hguard.2 after
      (List.prefix_refl _)
  obtain ⟨a', hi', hresults, hkept⟩ := attempt_run hbefore hguard.2 hi
  obtain ⟨message, hmessage⟩ := herror
  rw [EventRun.run_append]
  exact (hafter.attempt i a' hi').failed ⟨message, hresults.subset hmessage⟩ conn (hkept conn hconn)

/-- The attempt to reach `"b"` times out in its handshake, and the thread notices later. -/
def timedOutAttempt : List RpcEvent :=
  [.connectAsync "10.0.0.2" 9000, .resolved 0 none, .tcpConnected 0 (.ok "10.0.0.2"),
    .timerExpired 0]

theorem failed_attempt_not_stored_timeout :
    ¬(registryOf (EventRun.run RpcManager.step {} (timedOutAttempt ++
      [.startupFinished 0 (.error "Handshake error: RPC failed: timeout"),
        .completionRun 0]))).Holds 0 := by
  refine failed_attempt_not_stored timedOutAttempt _ ?_ 0
    { key := "10.0.0.2:9000", completed := true, conn := some { id := 0, remoteIp := "10.0.0.2" },
      stage := .starting, results := [.error "connect timed out"] } rfl
        ⟨_, List.mem_cons_self⟩ _ rfl
  refine ⟨trivial, trivial, trivial, ?_, trivial, trivial, trivial⟩
  rintro a ha - p
  cases ha
  nofun

/-- The timer expires after the thread has registered the connection and before the completion
runs. -/
theorem failed_attempt_stored :
    ¬∀ (before after : List RpcEvent) (i : Nat) (a : ConnectAttempt),
      (EventRun.run RpcManager.step {} before).attempts.lookup i = some a →
      (∃ message, .error message ∈ a.results) → ∀ conn, a.conn = some conn →
      ¬(registryOf (EventRun.run RpcManager.step {} (before ++ after))).Holds conn.id := by
  intro h
  refine h [.connectAsync "10.0.0.2" 9000, .resolved 0 none, .tcpConnected 0 (.ok "10.0.0.2"),
      .startupFinished 0 (.ok "b"), .timerExpired 0] [.completionRun 0] 0
    { key := "10.0.0.2:9000", completed := true, conn := some { id := 0, remoteIp := "10.0.0.2" },
      stage := .posted (.ok "b"), results := [.error "connect timed out"] } rfl
        ⟨_, List.mem_cons_self⟩ _ rfl ?_
  exact .inl ⟨"b", ⟨0, "b", "10.0.0.2"⟩, by decide, rfl⟩

end MeshNetwork.Proofs
