import MeshNetwork.Proofs.SessionReader

/-!
# Messages between two sessions

The frames that a session is given come out of its write queue in order, so the other session reads
the messages that were sent. The sender accepts payloads up to 4 GiB, the reader stops at the first
one above 10 MiB.
-/

namespace MeshNetwork.Proofs

open PrefixCode

/-! ## The write queue -/

/-- The frames `frames` have been given to the session; they have been written, up to those that
wait in the outbox and those that are still posted. -/
structure Queued (s : GenericSession) (frames : List Bytes) : Prop where
  posted : ∃ pushed : List Bytes, s.tasks = pushed.map .push ∧
    s.output ++ s.outbox.tail.flatten ++ pushed.flatten = frames.flatten
  writing : s.writes = s.outbox.head?.toList

section Queue

variable {s : GenericSession} {frames : List Bytes}

lemma Queued.asyncSendMessage (h : Queued s frames) (reqId : Bytes) {message : Bytes}
    (haccepted : message.length ≤ 4294967295) :
    Queued (s.asyncSendMessage reqId message) (frames ++ [frameOf reqId message]) := by
  obtain ⟨⟨pushed, htasks, hframes⟩, hwriting⟩ := h
  unfold GenericSession.asyncSendMessage
  rw [if_neg (not_lt.mpr haccepted)]
  refine ⟨⟨pushed ++ [frameOf reqId message], ?_, ?_⟩, hwriting⟩
  · simp [GenericSession.post, htasks]
  · rw [List.flatten_append, List.flatten_append, ← hframes]
    simp [GenericSession.post]

lemma Queued.runTask (h : Queued s frames) : Queued s.runTask frames := by
  obtain ⟨⟨pushed, htasks, hframes⟩, hwriting⟩ := h
  unfold GenericSession.runTask
  cases pushed with
  | nil =>
    rw [List.map_nil] at htasks
    simp only [htasks]
    exact ⟨⟨[], htasks, hframes⟩, hwriting⟩
  | cons data pushed =>
    rw [List.map_cons] at htasks
    simp only [htasks]
    unfold GenericSession.pushData
    dsimp only
    cases houtbox : s.outbox with
    | nil =>
      rw [houtbox] at hframes hwriting
      refine ⟨⟨pushed, rfl, ?_⟩, ?_⟩
      · rw [← hframes]
        simp [GenericSession.doWrite]
      · simp [GenericSession.doWrite, hwriting]
    | cons msg rest =>
      rw [houtbox] at hframes hwriting
      refine ⟨⟨pushed, rfl, ?_⟩, ?_⟩
      · rw [← hframes]
        simp
      · simp [hwriting]

lemma Queued.onWritten (h : Queued s frames) (index : Nat) :
    Queued (s.onWritten index none) frames := by
  obtain ⟨⟨pushed, htasks, hframes⟩, hwriting⟩ := h
  unfold GenericSession.onWritten
  dsimp only
  split_ifs with hindex
  · cases houtbox : s.outbox with
    | nil =>
      rw [houtbox] at hwriting
      simp [hwriting] at hindex
    | cons msg rest =>
      rw [houtbox] at hframes hwriting
      obtain rfl : index = 0 := by simpa [hwriting] using hindex
      refine ⟨⟨pushed, ?_, ?_⟩, ?_⟩
      · cases rest <;> simpa [GenericSession.doWrite] using htasks
      · rw [← hframes]
        cases rest <;> simp [GenericSession.doWrite]
      · cases rest <;> simp [GenericSession.doWrite, hwriting]
  · exact ⟨⟨pushed, htasks, hframes⟩, hwriting⟩

lemma Queued.output_starts (h : Queued s frames) : s.output <+: frames.flatten := by
  obtain ⟨⟨pushed, -, hframes⟩, -⟩ := h
  rw [← hframes, List.append_assoc]
  exact List.prefix_append _ _

lemma Queued.output_eq (h : Queued s frames) (htasks : s.tasks = []) (hwrites : s.writes = []) :
    s.output = frames.flatten := by
  obtain ⟨⟨pushed, hposted, hframes⟩, hwriting⟩ := h
  obtain rfl : pushed = [] := List.map_eq_nil_iff.mp (hposted.symm.trans htasks)
  have houtbox : s.outbox = [] := by
    rw [hwrites] at hwriting
    cases hbox : s.outbox with
    | nil => rfl
    | cons msg rest =>
      rw [hbox] at hwriting
      simp at hwriting
  rw [← hframes, houtbox]
  simp

lemma doWrite_output (s : GenericSession) : s.output <+: s.doWrite.output := by
  unfold GenericSession.doWrite
  split
  · exact List.prefix_refl _
  · exact List.prefix_append _ _

lemma runTask_output (s : GenericSession) : s.output <+: s.runTask.output := by
  unfold GenericSession.runTask GenericSession.pushData GenericSession.closeStream
  dsimp only
  split
  · exact List.prefix_refl _
  · split
    · exact List.prefix_refl _
    · split_ifs
      · exact List.prefix_refl _
      · exact .trans (by exact List.prefix_refl _) (doWrite_output _)
    · split_ifs <;> exact List.prefix_refl _

lemma onWritten_output (s : GenericSession) (index : Nat) :
    s.output <+: (s.onWritten index none).output := by
  unfold GenericSession.onWritten
  dsimp only
  split_ifs
  · exact .trans (by exact List.prefix_refl _) (doWrite_output _)
  · exact List.prefix_refl _

/-- What the strand still has to do. -/
def work (s : GenericSession) : Nat := 2 * s.tasks.length + s.outbox.length

lemma doWrite_work (s : GenericSession) : work s.doWrite = work s := by
  unfold GenericSession.doWrite
  split <;> rfl

lemma Queued.runTask_work (h : Queued s frames) (htasks : s.tasks ≠ []) :
    work s.runTask < work s := by
  obtain ⟨⟨pushed, hposted, -⟩, -⟩ := h
  cases pushed with
  | nil => exact absurd hposted htasks
  | cons data pushed =>
    rw [List.map_cons] at hposted
    unfold GenericSession.runTask GenericSession.pushData
    simp only [hposted]
    split_ifs
    · simp [work, hposted]
      omega
    · rw [doWrite_work]
      simp [work, hposted]
      omega

lemma Queued.onWritten_work (h : Queued s frames) (hwrites : s.writes ≠ []) :
    work (s.onWritten 0 none) < work s := by
  have hwriting := h.writing
  unfold GenericSession.onWritten
  dsimp only
  rw [if_pos (List.length_pos_iff.mpr hwrites), doWrite_work]
  cases houtbox : s.outbox with
  | nil =>
    rw [houtbox] at hwriting
    exact absurd hwriting hwrites
  | cons msg rest => simp [work, houtbox]

end Queue

/-! ## The pair -/

def sentMessages (events : List PairEvent) : List (Bytes × Bytes) :=
  events.filterMap fun
    | .asyncSendMessage reqId message => some (reqId, message)
    | _ => none

/-- `async_send_message` takes the message, whose id is a `uuid`. -/
def Accepted (m : Bytes × Bytes) : Prop := m.1.length = 16 ∧ m.2.length ≤ 4294967295

instance (m : Bytes × Bytes) : Decidable (Accepted m) := inferInstanceAs (Decidable (_ ∧ _))

/-- The invariant of a pair in which `msgs` have been sent. -/
structure Linked (p : SessionPair) (msgs : List (Bytes × Bytes)) : Prop where
  queued : Queued p.sender (msgs.map frameBytes)
  carried : p.receiver.stream.received <+: p.sender.output
  connected : p.receiver.stream.ended = false
  aligned : Aligned p.receiver

section Pair

variable {p : SessionPair} {msgs : List (Bytes × Bytes)}

lemma frameOf_eq {m : Bytes × Bytes} (hm : Accepted m) : frameOf m.1 m.2 = frameBytes m := by
  unfold frameOf frameBytes
  rw [List.take_of_length_le hm.1.le]

lemma read_stream (s : Incoming) :
    s.read.stream.received = s.stream.received ∧ s.read.stream.ended = s.stream.ended := by
  have hmove := read_move s
  generalize s.read = s' at hmove
  cases hmove <;> exact ⟨rfl, rfl⟩

lemma Linked.step (h : Linked p msgs) (event : PairEvent)
    (hevent : ∀ m ∈ sentMessages [event], Accepted m) :
    Linked (p.step event) (msgs ++ sentMessages [event]) := by
  have hsilent : msgs ++ [] = msgs := List.append_nil msgs
  cases event with
  | asyncSendMessage reqId message =>
    have hm : Accepted (reqId, message) := hevent _ (by simp [sentMessages])
    have hqueued := h.queued.asyncSendMessage reqId hm.2
    rw [frameOf_eq hm] at hqueued
    refine ⟨?_, ?_, h.connected, h.aligned⟩
    · rw [List.map_append]
      exact hqueued
    · have houtput : (p.sender.asyncSendMessage reqId message).output = p.sender.output := by
        unfold GenericSession.asyncSendMessage
        split_ifs <;> rfl
      exact houtput ▸ h.carried
  | runTask =>
    change Linked _ (msgs ++ [])
    rw [hsilent]
    exact ⟨h.queued.runTask, h.carried.trans (runTask_output _), h.connected, h.aligned⟩
  | written index =>
    change Linked _ (msgs ++ [])
    rw [hsilent]
    exact ⟨h.queued.onWritten index, h.carried.trans (onWritten_output _ index), h.connected,
      h.aligned⟩
  | carry n =>
    change Linked _ (msgs ++ [])
    rw [hsilent]
    have hstep : p.receiver.step (.arrive (p.inTransit.take n)) = { p.receiver with
        stream :=
          { p.receiver.stream with
            received := p.receiver.stream.received ++ p.inTransit.take n } } := by
      unfold Incoming.step
      rw [h.connected]
      rfl
    unfold SessionPair.step
    dsimp only
    rw [hstep]
    refine ⟨h.queued, ?_, h.connected, h.aligned.arrive h.connected _⟩
    refine prefix_append_iff.mpr ⟨h.carried, ?_⟩
    exact List.take_prefix _ _
  | read =>
    change Linked _ (msgs ++ [])
    rw [hsilent]
    obtain ⟨hreceived, hended⟩ := read_stream p.receiver
    exact ⟨h.queued, hreceived ▸ h.carried, hended ▸ h.connected, h.aligned.move (read_move _)⟩

lemma create_linked : Linked .create [] :=
  ⟨⟨⟨[], rfl, rfl⟩, rfl⟩, List.prefix_refl _, rfl, started_aligned⟩

lemma sentMessages_append (before after : List PairEvent) :
    sentMessages (before ++ after) = sentMessages before ++ sentMessages after :=
  List.filterMap_append

lemma Linked.run (h : Linked p msgs) (events : List PairEvent)
    (hevents : ∀ m ∈ sentMessages events, Accepted m) :
    Linked (EventRun.run SessionPair.step p events) (msgs ++ sentMessages events) := by
  induction events generalizing p msgs with
  | nil => simpa [sentMessages] using h
  | cons event events ih =>
    rw [← List.singleton_append, sentMessages_append] at hevents ⊢
    rw [← List.append_assoc]
    exact ih (h.step event fun m hm => hevents m (List.mem_append_left _ hm)) fun m hm =>
      hevents m (List.mem_append_right _ hm)

/-! ## What arrives -/

lemma Linked.received_starts (h : Linked p msgs) :
    p.receiver.stream.received <+: msgs.flatMap frameBytes := by
  rw [List.flatMap_def]
  exact h.carried.trans h.queued.output_starts

lemma Linked.calls_starts (h : Linked p msgs) (hmsgs : ∀ m ∈ msgs, IsFrame m) :
    p.receiver.session.calls <+: msgs := by
  refine h.aligned.parses.prefix_of_flatMap frames_unambiguous (fun f hf hnil => ?_) hmsgs
    h.received_starts
  have hlen := frameBytes_length hf
  rw [hnil] at hlen
  unfold frameHeaderSize at hlen
  rw [List.length_nil] at hlen
  omega

/-- No header above the limit arrives. -/
lemma Linked.not_oversized (h : Linked p msgs) (hmsgs : ∀ m ∈ msgs, IsFrame m) :
    ¬Oversized p.receiver := by
  rintro ⟨id, len, hid, hbig, hheader⟩
  obtain ⟨rest, hrest⟩ := h.calls_starts hmsgs
  have hstarts := h.received_starts
  rw [← hrest, List.flatMap_append] at hstarts
  have hunframed : unframed p.receiver <+: rest.flatMap frameBytes := by
    have hdrop := hstarts.drop (framed p.receiver).length
    unfold framed at hdrop
    rwa [List.drop_left] at hdrop
  have hlen := (hheader.trans hunframed).length_le
  rw [header_length hid] at hlen
  cases rest with
  | nil => simp [frameHeaderSize] at hlen
  | cons f rest =>
    have hf : IsFrame f := hmsgs f (by rw [← hrest]; simp)
    have hfirst : frameBytes f <+: (f :: rest).flatMap frameBytes := List.prefix_append _ _
    obtain ⟨-, rfl⟩ :=
      header_inj hf.1 hid ((frameBytes_starts hf).mp hfirst).1 (hheader.trans hunframed)
    rw [ofNat_toNat_length hf] at hbig
    exact absurd hf.2 (by omega)

lemma Linked.not_stopped (h : Linked p msgs) (hmsgs : ∀ m ∈ msgs, IsFrame m) :
    p.receiver.session.reading ≠ .stopped := by
  intro hreading
  have hstage := h.aligned.stage
  rw [hreading] at hstage
  rcases hstage.2 with hover | ⟨hended, -⟩
  · exact h.not_oversized hmsgs hover
  · rw [h.connected] at hended
    cases hended

lemma Linked.received_eq (h : Linked p msgs) (hquiet : p.Quiet) :
    p.receiver.stream.received = msgs.flatMap frameBytes := by
  have houtput := h.queued.output_eq hquiet.noTask hquiet.noWrite
  have hall : p.receiver.stream.received = p.sender.output :=
    h.carried.eq_of_length_le (List.drop_eq_nil_iff.mp hquiet.arrived)
  rw [hall, houtput, List.flatMap_def]

lemma Linked.calls_eq (h : Linked p msgs) (hmsgs : ∀ m ∈ msgs, IsFrame m) (hquiet : p.Quiet) :
    p.receiver.session.calls = msgs := by
  have hlongest := h.aligned.readsFrames.longest hquiet.settled
  rw [h.received_eq hquiet] at hlongest
  exact (h.calls_starts hmsgs).eq_of_length_le (hlongest.longest msgs ⟨hmsgs, List.prefix_refl _⟩)

/-! ## Everything arrives -/

lemma Linked.carry_all (h : Linked p msgs) :
    (p.step (.carry p.inTransit.length)).inTransit = [] := by
  have hreceived : (p.step (.carry p.inTransit.length)).receiver.stream.received =
      p.receiver.stream.received ++ p.inTransit := by
    simp [SessionPair.step, Incoming.step, h.connected]
  have houtput : p.receiver.stream.received ++ p.inTransit = p.sender.output := by
    obtain ⟨rest, hrest⟩ := h.carried
    unfold SessionPair.inTransit
    rw [← hrest, List.drop_left]
  change p.sender.output.drop (p.step (.carry p.inTransit.length)).receiver.stream.received.length =
    []
  rw [hreceived, houtput, List.drop_length]

lemma run_reads (p : SessionPair) (n : Nat) :
    EventRun.run SessionPair.step p (List.replicate n .read) =
    { p with receiver := EventRun.run Incoming.step p.receiver (List.replicate n .read) } := by
  induction n generalizing p with
  | zero => rfl
  | succ n ih => exact ih { p with receiver := p.receiver.read }

lemma run_reads_received (s : Incoming) (n : Nat) :
    (EventRun.run Incoming.step s (List.replicate n .read)).stream.received =
      s.stream.received := by
  induction n generalizing s with
  | zero => rfl
  | succ n ih => exact (ih s.read).trans (read_stream s).1

/-- The strand runs its tasks and the writes complete until nothing is left to do. -/
lemma Linked.exists_written (h : Linked p msgs) : ∃ more, sentMessages more = [] ∧
    (EventRun.run SessionPair.step p more).sender.tasks = [] ∧
    (EventRun.run SessionPair.step p more).sender.writes = [] := by
  induction hfuel : work p.sender using Nat.strong_induction_on generalizing p with
  | _ fuel ih =>
    have hcontinue : ∀ event, sentMessages [event] = [] → work (p.step event).sender < fuel →
        ∃ more, sentMessages more = [] ∧ (EventRun.run SessionPair.step p more).sender.tasks = [] ∧
          (EventRun.run SessionPair.step p more).sender.writes = [] := by
      intro event hevent hless
      have hlinked := h.step event (by rw [hevent]; simp)
      rw [hevent, List.append_nil] at hlinked
      obtain ⟨more, hmore, hdone⟩ := ih _ hless hlinked rfl
      refine ⟨event :: more, ?_, hdone⟩
      rw [← List.singleton_append, sentMessages_append, hevent, hmore]
      rfl
    by_cases htasks : p.sender.tasks = []
    · by_cases hwrites : p.sender.writes = []
      · exact ⟨[], rfl, htasks, hwrites⟩
      · exact hcontinue (.written 0) rfl (hfuel ▸ h.queued.onWritten_work hwrites)
    · exact hcontinue .runTask rfl (hfuel ▸ h.queued.runTask_work htasks)

lemma Linked.exists_quiet (h : Linked p msgs) : ∃ more, sentMessages more = [] ∧
    (EventRun.run SessionPair.step p more).Quiet := by
  obtain ⟨writing, hwriting, htasks, hwrites⟩ := h.exists_written
  have hlinked := h.run writing (by rw [hwriting]; simp)
  generalize hp : EventRun.run SessionPair.step p writing = p₁ at htasks hwrites hlinked
  obtain ⟨n, hsettled⟩ := exists_settled (p₁.step (.carry p₁.inTransit.length)).receiver
  refine ⟨writing ++ (.carry p₁.inTransit.length :: List.replicate n .read), ?_, ?_⟩
  · rw [sentMessages_append, hwriting]
    simp [sentMessages]
  · rw [EventRun.run_append, hp, EventRun.run_cons, run_reads]
    refine ⟨htasks, hwrites, ?_, hsettled⟩
    refine Eq.trans ?_ hlinked.carry_all
    exact congrArg (fun received => p₁.sender.output.drop received.length) (run_reads_received _ n)

end Pair

/-! ## Round trips -/

/-- The handler of the receiver is called with `msgs`, whatever the order of the events, and reading
goes on. -/
structure RoundTrips (msgs : List (Bytes × Bytes)) (p : SessionPair) : Prop where
  inOrder : p.receiver.session.calls <+: msgs
  reads : p.receiver.session.reading ≠ .stopped
  complete : p.Quiet → p.receiver.session.calls = msgs
  completes : ∃ more, sentMessages more = [] ∧ (EventRun.run SessionPair.step p more).Quiet

/-- Messages that were accepted for sending are handled by the other session in every run exactly if
none of them exceeds the limit of the reader. -/
theorem messages_round_trip (msgs : List (Bytes × Bytes)) (haccepted : ∀ m ∈ msgs, Accepted m) :
    (∀ events, sentMessages events = msgs →
      RoundTrips msgs (EventRun.run SessionPair.step .create events)) ↔
      ∀ m ∈ msgs, m.2.length ≤ maxPayloadSize := by
  have hlinked : ∀ events, sentMessages events = msgs →
      Linked (EventRun.run SessionPair.step .create events) msgs := by
    intro events hevents
    have h := create_linked.run events (by rwa [hevents])
    rwa [hevents, List.nil_append] at h
  constructor
  · intro htrips
    let sends : List PairEvent := msgs.map fun m => .asyncSendMessage m.1 m.2
    have hsends : sentMessages sends = msgs := by
      simp [sends, sentMessages, List.filterMap_map]
    obtain ⟨more, hmore, hquiet⟩ := (htrips sends hsends).completes
    have hboth : sentMessages (sends ++ more) = msgs := by
      rw [sentMessages_append, hsends, hmore, List.append_nil]
    rw [← EventRun.run_append] at hquiet
    -- Whatever the handler is called with is a frame.
    have hcalls := (htrips _ hboth).complete hquiet
    intro m hm
    exact ((hlinked _ hboth).aligned.parses.admissible m (hcalls.symm ▸ hm)).2
  · intro hsmall events hevents
    have h := hlinked events hevents
    have hframes : ∀ m ∈ msgs, IsFrame m := fun m hm => ⟨(haccepted m hm).1, hsmall m hm⟩
    exact ⟨h.calls_starts hframes, h.not_stopped hframes, h.calls_eq hframes, h.exists_quiet⟩

/-- A message of one byte more than the reader takes. -/
def oversizedMessage : Bytes × Bytes := (List.replicate 16 0, List.replicate (maxPayloadSize + 1) 0)

/-- It is sent, its header arrives and is read. -/
def overrun : List PairEvent :=
  [.asyncSendMessage oversizedMessage.1 oversizedMessage.2, .runTask, .carry frameHeaderSize, .read]

lemma header_of_written {m : Bytes × Bytes} (hm : Accepted m) :
    EventRun.run SessionPair.step .create [.asyncSendMessage m.1 m.2, .runTask,
      .carry frameHeaderSize] =
      ⟨{ GenericSession.started with
        outbox := [frameBytes m], writes := [frameBytes m], output := frameBytes m },
        ⟨.started, { received := m.1 ++ htonl (UInt32.ofNat m.2.length) }⟩⟩ := by
  have hsent : EventRun.run SessionPair.step .create [.asyncSendMessage m.1 m.2, .runTask] =
      ⟨{ GenericSession.started with
        outbox := [frameBytes m], writes := [frameBytes m], output := frameBytes m },
        { session := .started }⟩ := by
    rw [← frameOf_eq hm]
    simp only [EventRun.run_cons, EventRun.run_nil, SessionPair.step,
      GenericSession.asyncSendMessage, if_neg (not_lt.mpr hm.2)]
    rfl
  have hheader : (frameBytes m).take frameHeaderSize = m.1 ++ htonl (UInt32.ofNat m.2.length) := by
    unfold frameBytes
    rw [← header_length hm.1, List.take_left]
  change SessionPair.step (EventRun.run SessionPair.step .create
    [.asyncSendMessage m.1 m.2, .runTask])
    (.carry frameHeaderSize) = _
  rw [hsent, ← hheader]
  rfl

theorem oversized_message_stops :
    Accepted oversizedMessage ∧ sentMessages overrun = [oversizedMessage] ∧
      (EventRun.run SessionPair.step .create overrun).receiver.session.reading = .stopped ∧
      (EventRun.run SessionPair.step .create overrun).receiver.session.calls = [] := by
  have haccepted : Accepted oversizedMessage := by
    unfold Accepted oversizedMessage
    rw [List.length_replicate, List.length_replicate]
    decide
  have hread : EventRun.run SessionPair.step .create overrun = SessionPair.step _ .read :=
    congrArg (SessionPair.step · .read) (header_of_written haccepted)
  have hlength : oversizedMessage.2.length = maxPayloadSize + 1 := List.length_replicate
  rw [hread, hlength]
  exact ⟨haccepted, rfl, by decide, by decide⟩

/-- A message without content and a longer one. -/
def smallMessages : List (Bytes × Bytes) :=
  [(List.replicate 16 1, []), (List.replicate 16 2, [3, 4])]

theorem messages_round_trip_small :
    RoundTrips smallMessages (EventRun.run SessionPair.step .create
      [.asyncSendMessage (List.replicate 16 1) [], .runTask,
        .asyncSendMessage (List.replicate 16 2) [3, 4], .carry 25, .read]) :=
  (messages_round_trip smallMessages (by decide)).mpr (by decide) _ rfl


end MeshNetwork.Proofs
