import MeshNetwork.Library.OneShot
import MeshNetwork.Proofs.ConnectionSteps

/-!
# The requests of a connection

The events of a connection reduced to what they do to the table of its requests: answers, timeouts
and `shutdown` settle the request that is pending under an id, and no other event touches it.
-/

namespace MeshNetwork.Proofs

open OneShot

variable {codec : EnvelopeCodec} {s : RpcConnection.State}

/-! ## The table -/

def requestTable (s : RpcConnection.State) : Table Bytes (Except String Bytes) :=
  ⟨fun reqId => s.pendingRequests.lookup reqId, s.requests.map fun r => (r.reqId, r.promise)⟩

abbrev RequestOp := Op Bytes (Except String Bytes)

/-- The id is entered, in place of a request that may be pending under it. -/
def trackOps (reqId : Bytes) : List RequestOp := [.settle reqId brokenPromise, .enter reqId]

def shutdownOps (ord : IterOrder Bytes) (s : RpcConnection.State) : List RequestOp :=
  (ord.visit 0 s.pendingRequests.keys).map fun reqId => .settle reqId rpcLayerDestroyed

def sendOps (envelope : Envelope) : List RequestOp :=
  if envelope.expectResponse then trackOps envelope.msgId else []

def timeoutOps (n : Nat) (s : RpcConnection.State) : List RequestOp :=
  match s.requests[n]? with
  | none => []
  | some r => if r.timer = .expired then [.settle r.reqId requestTimeout] else []

def messageOps (codec : EnvelopeCodec) (msgId payload : Bytes) : List RequestOp :=
  if (codec.parseEnvelope payload).isSome then [.settle msgId (.ok payload)] else []

/-- What an event does to the table. -/
def requestOps (codec : EnvelopeCodec) (s : RpcConnection.State) : ConnectionEvent → List RequestOp
  | .sendMessage envelope => sendOps envelope
  | .timerHandler n => timeoutOps n s
  | .shutdown ord => shutdownOps ord s
  | .message msgId payload =>
    if s.hasSession ∧ s.dispatching = none then messageOps codec msgId payload else []
  | .awaitRemote msgId => if s.stage = .reading true then trackOps msgId else []
  | .startTimeout ord =>
    if s.stage = .awaitingHandshake ∧ s.handshakePromise = some none then shutdownOps ord s else []
  | _ => []

lemma requestTable_settle (reqId : Bytes) (result : Except String Bytes) :
    requestTable (s.settle reqId result) = OneShot.apply (requestTable s)
      (.settle reqId result) := by
  unfold RpcConnection.State.settle OneShot.apply
  dsimp only [requestTable]
  cases s.pendingRequests.lookup reqId with
  | none => rfl
  | some n =>
    refine congrArg₂ Table.mk (UMap.lookup_erase_update s.pendingRequests reqId) ?_
    exact map_modify (g := fun r : PendingRequest => (r.reqId, r.promise)) (fun _ => rfl)
      s.requests n

lemma requestTable_track (reqId : Bytes) :
    requestTable (s.track reqId) = EventRun.run OneShot.apply (requestTable s)
      (trackOps reqId) := by
  unfold RpcConnection.State.track trackOps
  rw [EventRun.run_cons, EventRun.run_cons, ← requestTable_settle]
  simp [requestTable, OneShot.apply, UMap.lookup_insert_update]

lemma requestTable_sendMessage (codec : EnvelopeCodec) (envelope : Envelope) :
    requestTable (s.sendMessage codec envelope) =
      EventRun.run OneShot.apply (requestTable s) (sendOps envelope) := by
  unfold RpcConnection.State.sendMessage sendOps
  dsimp only
  split_ifs
  · exact requestTable_track envelope.msgId
  · rfl

lemma requestTable_failAll (ids : List Bytes) : requestTable (s.failAll ids) =
    EventRun.run OneShot.apply (requestTable s)
      (ids.map fun reqId => .settle reqId rpcLayerDestroyed) := by
  induction ids generalizing s with
  | nil => rfl
  | cons id ids ih =>
    rw [List.map_cons, EventRun.run_cons, ← requestTable_settle]
    exact ih

lemma requestTable_shutdown (ord : IterOrder Bytes) : requestTable (s.shutdown ord) =
    EventRun.run OneShot.apply (requestTable s) (shutdownOps ord s) :=
  requestTable_failAll _

/-- A change of the timers alone. -/
lemma requestTable_timer (n : Nat) (f : PendingRequest → PendingRequest)
    (hf : ∀ r, ((f r).reqId, (f r).promise) = (r.reqId, r.promise)) :
    requestTable { s with requests := s.requests.modify n f } = requestTable s :=
  congrArg (Table.mk _) (map_modify_eq hf s.requests n)

lemma requestTable_timerHandler (n : Nat) : requestTable (s.timerHandler n) =
    EventRun.run OneShot.apply (requestTable s) (timeoutOps n s) := by
  have hdone :
      requestTable { s with requests := s.requests.modify n fun r => { r with timer := .done } } =
      requestTable s :=
    requestTable_timer n (fun r => { r with timer := .done }) fun _ => rfl
  unfold RpcConnection.State.timerHandler timeoutOps
  cases s.requests[n]? with
  | none => rfl
  | some r =>
    dsimp only
    cases r.timer with
    | waiting | done => rfl
    | expired =>
      rw [if_pos rfl, EventRun.run_cons, EventRun.run_nil]
      dsimp only
      rw [requestTable_settle, hdone]
    | aborted => exact hdone

lemma requestTable_onMessage (msgId payload : Bytes) :
    requestTable (s.onMessage codec msgId payload) =
    EventRun.run OneShot.apply (requestTable s) (messageOps codec msgId payload) := by
  have hstore :=
    requestTable_settle (s := { s with received := s.received ++ [(msgId, payload)] }) msgId
      (.ok payload)
  unfold RpcConnection.State.onMessage messageOps
  cases codec.parseEnvelope payload with
  | none => rfl
  | some env =>
    dsimp only [Option.isSome_some]
    rw [if_pos rfl, EventRun.run_cons, EventRun.run_nil]
    split_ifs <;> exact hstore

lemma requestTable_dispatchMessage (sinkAlive : Bool) (env : Envelope) :
    requestTable (s.dispatchMessage codec sinkAlive env) = requestTable s := by
  unfold RpcConnection.State.dispatchMessage
  cases env.type with
  | handshake =>
    unfold RpcConnection.State.handleHandshake RpcConnection.State.fulfillHandshakePromise
    dsimp only
    split_ifs
    · cases codec.parseHandshake env.payload with
      | none => rfl
      | some req =>
        dsimp only
        split <;> exact requestTable_sendMessage codec _
    · rfl
  | heartbeat =>
    unfold RpcConnection.State.handleHeartbeat
    dsimp only
    split_ifs
    · exact requestTable_sendMessage codec _
    · rfl
  | data =>
    dsimp only
    split_ifs <;> rfl
  | other _ => rfl

/-- The connection refines the table. -/
theorem requestTable_step (event : ConnectionEvent) : requestTable (s.step codec event) =
    EventRun.run OneShot.apply (requestTable s) (requestOps codec s event) := by
  cases event with
  | sendMessage envelope => exact requestTable_sendMessage codec envelope
  | timerExpires n =>
    refine requestTable_timer n _ fun r => ?_
    split_ifs <;> rfl
  | timerHandler n => exact requestTable_timerHandler n
  | shutdown ord => exact requestTable_shutdown ord
  | message msgId payload =>
    unfold RpcConnection.State.step requestOps
    dsimp only
    split_ifs
    · exact requestTable_onMessage msgId payload
    · rfl
  | dispatch sinkAlive =>
    unfold RpcConnection.State.step requestOps
    dsimp only
    cases s.dispatching with
    | none => rfl
    | some env => exact requestTable_dispatchMessage sinkAlive env
  | start initiator =>
    unfold RpcConnection.State.step RpcConnection.State.start requestOps
    dsimp only
    split <;> rfl
  | awaitRemote msgId =>
    unfold RpcConnection.State.step RpcConnection.State.awaitRemote requestOps
    cases hstage : s.stage with
    | reading initiator =>
      cases initiator with
      | true => exact requestTable_sendMessage codec _
      | false => rfl
    | _ => rfl
  | resume =>
    unfold RpcConnection.State.step RpcConnection.State.resume requestOps
    cases hstage : s.stage with
    | awaitingResponse n =>
      dsimp only
      split
      · rfl
      · unfold RpcConnection.State.takeResponse RpcConnection.State.shake
        split <;> rfl
    | awaitingHandshake =>
      dsimp only
      split <;> rfl
    | _ => rfl
  | startTimeout ord =>
    unfold RpcConnection.State.step RpcConnection.State.startTimeout requestOps
    dsimp only
    split
    · rename_i hstage hpromise
      rw [if_pos ⟨hstage, hpromise⟩]
      exact requestTable_shutdown ord
    · rename_i hother
      rw [if_neg fun h => hother h.1 h.2]
      rfl

/-! ## The invariant -/

/-- The invariant of the requests. -/
structure RequestsTracked (s : RpcConnection.State) : Prop where
  sound : (requestTable s).Sound
  complete : (requestTable s).Complete
  results : (requestTable s).Results fun reqId result =>
    ∀ v, result = .ok v → (reqId, v) ∈ s.received

lemma guarded_settles (f : Bytes → Except String Bytes) (ids : List Bytes)
    (t : Table Bytes (Except String Bytes)) :
    EventRun.Guarded OneShot.apply Fresh t (ids.map fun id => .settle id (f id)) := by
  induction ids generalizing t with
  | nil => trivial
  | cons id ids ih => exact ⟨trivial, ih _⟩

/-- The forms of `requestOps`: an event tracks an id, fails some requests, or answers one with a
message. -/
inductive RequestMove (s : RpcConnection.State) (event : ConnectionEvent) : List RequestOp → Prop
  | none : RequestMove s event []
  | track (reqId : Bytes) : RequestMove s event (trackOps reqId)
  | fail (ids : List Bytes) (error : String) :
      RequestMove s event (ids.map fun reqId => .settle reqId (.error error))
  | answer (reqId payload : Bytes) (harrived : (reqId, payload) ∈ arrivals s event) :
      RequestMove s event [.settle reqId (.ok payload)]

lemma requestOps_move (event : ConnectionEvent) :
    RequestMove s event (requestOps codec s event) := by
  cases event with
  | sendMessage envelope =>
    unfold requestOps sendOps
    dsimp only
    split_ifs
    · exact .track _
    · exact .none
  | timerHandler n =>
    unfold requestOps timeoutOps
    dsimp only
    split
    · exact .none
    · rename_i r _
      split_ifs
      · exact .fail [r.reqId] _
      · exact .none
  | shutdown ord => exact .fail _ _
  | message msgId payload =>
    unfold requestOps messageOps
    dsimp only
    split_ifs with hready
    · refine .answer msgId payload ?_
      unfold arrivals
      dsimp only
      rw [if_pos hready]
      exact List.mem_singleton_self _
    · exact .none
    · exact .none
  | awaitRemote msgId =>
    unfold requestOps
    dsimp only
    split_ifs
    · exact .track _
    · exact .none
  | startTimeout ord =>
    unfold requestOps
    dsimp only
    split_ifs
    · exact .fail _ _
    · exact .none
  | timerExpires | dispatch | start | resume => exact .none

lemma RequestMove.guarded {event : ConnectionEvent} {ops : List RequestOp}
    (h : RequestMove s event ops) (t : Table Bytes (Except String Bytes)) :
    EventRun.Guarded OneShot.apply Fresh t ops := by
  cases h with
  | none => trivial
  | track reqId => exact ⟨trivial, fresh_after_settle t reqId brokenPromise, trivial⟩
  | fail ids error => exact guarded_settles _ ids t
  | answer reqId payload harrived => exact ⟨trivial, trivial⟩

/-- A value comes from a message with the id of the request. -/
lemma RequestMove.value {event : ConnectionEvent} {ops : List RequestOp}
    (h : RequestMove s event ops) {reqId v : Bytes} (hop : .settle reqId (.ok v) ∈ ops) :
    (reqId, v) ∈ arrivals s event := by
  cases h with
  | none => cases hop
  | track id => simp [trackOps, brokenPromise] at hop
  | fail ids error => simp at hop
  | answer id payload harrived =>
    obtain ⟨rfl, rfl⟩ : reqId = id ∧ v = payload := by simpa using hop
    exact harrived

theorem RequestsTracked.step (h : RequestsTracked s) (event : ConnectionEvent) :
    RequestsTracked (s.step codec event) := by
  have hreceived := (startup_step codec s event).received
  refine ⟨?_, ?_, ?_⟩
  · rw [requestTable_step]
    exact h.sound.run _
  · rw [requestTable_step]
    exact h.complete.run h.sound ((requestOps_move event).guarded _)
  · rw [requestTable_step]
    refine Table.Results.run h.sound (fun e he r hr v hv => ?_) fun reqId r hop v hv => ?_
    · rw [hreceived]
      exact List.mem_append_left _ (h.results e he r hr v hv)
    · rw [hreceived]
      exact List.mem_append_right _ ((requestOps_move event).value (hv ▸ hop))

lemma create_tracked (peerId : PeerId) (localEndpoint remoteEndpoint : Endpoint) (udpPort : Int)
    (hasHandler : Bool) :
    RequestsTracked (.create peerId localEndpoint remoteEndpoint udpPort hasHandler) :=
  ⟨⟨nofun, nofun⟩, nofun, nofun⟩

theorem RequestsTracked.run (h : RequestsTracked s) (events : List ConnectionEvent) :
    RequestsTracked (EventRun.run (RpcConnection.State.step codec) s events) := by
  induction events generalizing s with
  | nil => exact h
  | cons event events ih => exact ih (h.step event)

/-! ## After `shutdown` -/

lemma shutdown_empty (ord : IterOrder Bytes) (id : Bytes) :
    (s.shutdown ord).pendingRequests.lookup id = none := by
  change (requestTable (s.shutdown ord)).pending id = none
  rw [requestTable_shutdown]
  refine lookup_settleAll (fun _ => rpcLayerDestroyed) (fun k hk => ?_) id
  rw [(ord.visit_perm 0 _).mem_iff] at hk
  exact AList.lookup_eq_none.mpr hk

lemma requests_length (s : RpcConnection.State) :
    (requestTable s).entries.length = s.requests.length :=
  List.length_map _

lemma requests_length_step (s : RpcConnection.State) (event : ConnectionEvent) :
    s.requests.length ≤ (s.step codec event).requests.length := by
  rw [← requests_length, ← requests_length, requestTable_step]
  exact length_run _ _

lemma requests_length_run (s : RpcConnection.State) (events : List ConnectionEvent) :
    s.requests.length ≤ (EventRun.run (RpcConnection.State.step codec) s
      events).requests.length := by
  induction events generalizing s with
  | nil => exact le_rfl
  | cons event events ih => exact (requests_length_step s event).trans (ih _)

/-- Once no request is pending, this stays so until a request is sent. -/
lemma run_empty (hempty : ∀ id, s.pendingRequests.lookup id = none)
    (events : List ConnectionEvent) :
    (∀ id, (EventRun.run (RpcConnection.State.step codec) s events).pendingRequests.lookup
      id = none) ∨
      s.requests.length < (EventRun.run (RpcConnection.State.step codec) s
        events).requests.length := by
  induction events generalizing s with
  | nil => exact .inl hempty
  | cons event events ih =>
    have hstep := run_empty_or_grows (t := requestTable s) hempty (requestOps codec s event)
    rw [← requestTable_step, requests_length, requests_length] at hstep
    rcases hstep with hstill | hmore
    · refine (ih hstill).imp_right fun hlater => ?_
      exact (requests_length_step s event).trans_lt hlater
    · exact .inr (hmore.trans_le (requests_length_run _ events))

/-! ## Requests are answered once -/

structure RequestsResolve (s : RpcConnection.State) : Prop where
  once : ∀ r ∈ s.requests, r.promise.length ≤ 1
  own : ∀ r ∈ s.requests, ∀ v, .ok v ∈ r.promise → (r.reqId, v) ∈ s.received
  pending : ∀ id, id ∈ s.pendingRequests ↔ ∃ r ∈ s.requests, r.reqId = id ∧ r.promise = []

lemma RequestsTracked.resolve (h : RequestsTracked s) : RequestsResolve s := by
  have hentry : ∀ r ∈ s.requests, (r.reqId, r.promise) ∈ (requestTable s).entries :=
    fun r hr => List.mem_map_of_mem hr
  refine ⟨fun r hr => h.sound.once _ (hentry r hr), fun r hr v hv => h.results _ (hentry r hr) _ hv
    v rfl, fun id => ?_⟩
  constructor
  · intro hid
    obtain ⟨n, hn⟩ := (UMap.mem_iff_lookup _ _).mp hid
    obtain ⟨r, hr, heq⟩ := List.mem_map.mp (List.mem_of_getElem? (h.sound.unsettled id n hn))
    obtain ⟨hreqId, hpromise⟩ := Prod.ext_iff.mp heq
    exact ⟨r, hr, hreqId, hpromise⟩
  · rintro ⟨r, hr, rfl, hpromise⟩
    obtain ⟨n, hn⟩ := List.mem_iff_getElem?.mp (hentry r hr)
    rw [hpromise] at hn
    exact (UMap.mem_iff_lookup _ _).mpr ⟨n, h.complete r.reqId n hn⟩

/-- In every run of a connection each promise is set at most once, to the payload of a message with
the id of the request if to a value, and its id is pending until then. After a `shutdown` that no
request follows, nothing is pending and all promises are set. -/
theorem requests_resolve_once (codec : EnvelopeCodec) (peerId : PeerId)
    (localEndpoint remoteEndpoint : Endpoint) (udpPort : Int) (hasHandler : Bool)
    (before after : List ConnectionEvent) (ord : IterOrder Bytes) :
    let s := RpcConnection.State.create peerId localEndpoint remoteEndpoint udpPort hasHandler
    let atShutdown := EventRun.run (RpcConnection.State.step codec) s (before ++ [.shutdown ord])
    let atEnd := EventRun.run (RpcConnection.State.step codec) atShutdown after
    RequestsResolve (EventRun.run (RpcConnection.State.step codec) s before) ∧
      RequestsResolve atEnd ∧
      (atEnd.requests.length = atShutdown.requests.length →
        (∀ id, id ∉ atEnd.pendingRequests) ∧ ∀ r ∈ atEnd.requests, r.promise ≠ []) := by
  intro s atShutdown atEnd
  have hcreated := create_tracked peerId localEndpoint remoteEndpoint udpPort hasHandler
  have hend : RequestsTracked atEnd := (hcreated.run (before ++ [.shutdown ord])).run after
  refine ⟨(hcreated.run before).resolve, hend.resolve, fun hlength => ?_⟩
  have hempty : ∀ id, atShutdown.pendingRequests.lookup id = none := by
    intro id
    change (EventRun.run _ s (before ++ [.shutdown ord])).pendingRequests.lookup id = none
    rw [EventRun.run_concat]
    exact shutdown_empty ord id
  have hnone := (run_empty hempty after).resolve_right hlength.le.not_gt
  refine ⟨fun id => AList.lookup_eq_none.mp (hnone id), fun r hr hpromise => ?_⟩
  have hmem := (hend.resolve.pending r.reqId).mpr ⟨r, hr, rfl, hpromise⟩
  exact AList.lookup_eq_none.mp (hnone r.reqId) hmem

def idleConnection : RpcConnection.State :=
  .create "a" ⟨"10.0.0.1", 9000⟩ ⟨"10.0.0.2", 9000⟩ 9001 true

/-- The answer to the first of two requests arrives when its timer has already expired. -/
def answeredLate : List ConnectionEvent :=
  [.start false,
    .sendMessage { msgId := [1], type := .heartbeat, payload := [], expectResponse := true },
    .sendMessage { msgId := [2], type := .heartbeat, payload := [], expectResponse := true },
    .timerExpires 0, .message [1] [9]]

theorem requests_resolve_once_late :
    (EventRun.run (RpcConnection.State.step dataCodec) idleConnection
        (answeredLate ++ [.shutdown (.stored Bytes)])).requests.map (·.promise) =
          [[.ok [9]], [rpcLayerDestroyed]] ∧
      ∀ r ∈ (EventRun.run (RpcConnection.State.step dataCodec)
        (EventRun.run (RpcConnection.State.step dataCodec)
        idleConnection (answeredLate ++ [.shutdown (.stored Bytes)]))
          [.timerHandler 0, .timerHandler 1]).requests, r.promise ≠ [] :=
  ⟨by rfl, ((requests_resolve_once dataCodec "a" ⟨"10.0.0.1", 9000⟩ ⟨"10.0.0.2", 9000⟩ 9001 true
    answeredLate
    [.timerHandler 0, .timerHandler 1] (.stored Bytes)).2.2 (by rfl)).2⟩

end MeshNetwork.Proofs
