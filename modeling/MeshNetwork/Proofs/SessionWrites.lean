import MeshNetwork.Library.EventRuns
import MeshNetwork.Model.Session

/-!
# The write queue under stop

While the stream is open, the write in progress is the front of the outbox. The task of `stop`
clears the outbox and not the write, so a write that is outstanding then has to fail before the
outbox is used again: otherwise its handler pops a queue that it does not own, or a second write
starts.
-/

namespace MeshNetwork.Proofs

open EventRun

/-! ## Events of the write queue -/

/-- What an event does to the write queue. -/
inductive WriteEvent where
  /-- The task of `async_send_message` runs. -/
  | pushed (data : Bytes)
  /-- The task of `stop` runs and finds the stream open. -/
  | closed
  | failed (index : Nat)
  | written (index : Nat)

def writeEvent (s : GenericSession) : SessionEvent → Option WriteEvent
  | .runTask =>
    match s.tasks with
    | .push data :: _ => some (.pushed data)
    | .close :: _ => if s.isOpen then some .closed else none
    | _ => none
  | .writeDone index ec =>
    if index < s.writes.length then
      match ec with
      | some _ => some (.failed index)
      | none => some (.written index)
    else none
  | _ => none

/-- The write queue and the stream after an event. -/
structure QueueAfter (s : GenericSession) (outbox writes : List Bytes) (isOpen : Bool) : Prop where
  outbox_eq : s.outbox = outbox
  writes_eq : s.writes = writes
  isOpen_eq : s.isOpen = isOpen

lemma doWrite_queue (s : GenericSession) :
    QueueAfter s.doWrite s.outbox (s.writes ++ s.outbox.head?.toList) s.isOpen := by
  unfold GenericSession.doWrite
  cases houtbox : s.outbox with
  | nil => exact ⟨houtbox, by simp, rfl⟩
  | cons msg rest => exact ⟨rfl, rfl, rfl⟩

/-- The write queue before and after an event. -/
inductive QueueStep (s s' : GenericSession) : Option WriteEvent → Prop
  | unrelated : QueueAfter s' s.outbox s.writes s.isOpen → QueueStep s s' none
  | pushed {data : Bytes} :
      QueueAfter s' (s.outbox ++ [data]) (if s.outbox = [] then s.writes ++ [data]
        else s.writes) s.isOpen →
      QueueStep s s' (some (.pushed data))
  | closed : s.isOpen = true → QueueAfter s' [] s.writes false → QueueStep s s' (some .closed)
  | failed {index : Nat} : index < s.writes.length →
      QueueAfter s' s.outbox (s.writes.eraseIdx index) s.isOpen →
      QueueStep s s' (some (.failed index))
  | written {index : Nat} : index < s.writes.length →
      QueueAfter s' s.outbox.tail (s.writes.eraseIdx index ++ s.outbox.tail.head?.toList) s.isOpen →
      QueueStep s s' (some (.written index))

lemma step_queue (s : GenericSession) (e : SessionEvent) :
    QueueStep s (s.step e) (writeEvent s e) := by
  cases e with
  | start => exact .unrelated ⟨rfl, rfl, rfl⟩
  | stop => exact .unrelated ⟨rfl, rfl, rfl⟩
  | asyncSendMessage reqId message =>
    refine .unrelated ?_
    change QueueAfter (s.asyncSendMessage reqId message) _ _ _
    unfold GenericSession.asyncSendMessage
    split_ifs <;> exact ⟨rfl, rfl, rfl⟩
  | handshakeDone ec =>
    refine .unrelated ?_
    change QueueAfter (s.onHandshake ec) _ _ _
    unfold GenericSession.onHandshake
    split
    · split <;> exact ⟨rfl, rfl, rfl⟩
    · exact ⟨rfl, rfl, rfl⟩
  | readDone result =>
    refine .unrelated ?_
    change QueueAfter (s.onRead result) _ _ _
    unfold GenericSession.onRead
    split
    · dsimp only
      split_ifs <;> exact ⟨rfl, rfl, rfl⟩
    all_goals exact ⟨rfl, rfl, rfl⟩
  | runTask =>
    unfold writeEvent GenericSession.step GenericSession.runTask
    cases htasks : s.tasks with
    | nil => exact .unrelated ⟨rfl, rfl, rfl⟩
    | cons task rest =>
      cases task with
      | handshake => exact .unrelated ⟨rfl, rfl, rfl⟩
      | push data =>
        refine .pushed ?_
        dsimp only
        unfold GenericSession.pushData
        cases houtbox : s.outbox with
        | nil => exact ⟨rfl, rfl, rfl⟩
        | cons msg others => exact ⟨rfl, rfl, rfl⟩
      | close =>
        dsimp only
        unfold GenericSession.closeStream
        cases hopen : s.isOpen with
        | false => exact .unrelated ⟨rfl, rfl, hopen.symm⟩
        | true => exact .closed hopen ⟨rfl, rfl, rfl⟩
  | writeDone index ec =>
    unfold writeEvent GenericSession.step GenericSession.onWritten
    dsimp only
    by_cases hindex : index < s.writes.length
    · rw [if_pos hindex, if_pos hindex]
      cases ec with
      | some err => exact .failed hindex ⟨rfl, rfl, rfl⟩
      | none =>
        have hqueue :=
          doWrite_queue { s with writes := s.writes.eraseIdx index, outbox := s.outbox.tail }
        exact .written hindex ⟨hqueue.outbox_eq, hqueue.writes_eq, hqueue.isOpen_eq⟩
    · rw [if_neg hindex, if_neg hindex]
      exact .unrelated ⟨rfl, rfl, rfl⟩

/-! ## Safe use of the queue -/

/-- A handler that runs after a successful write finds the frame that was written at the front of
the outbox. -/
def PopsWritten (s : GenericSession) (e : SessionEvent) : Prop :=
  ∀ index, writeEvent s e = some (.written index) →
    ∃ msg rest, s.writes[index]? = some msg ∧ s.outbox = msg :: rest

/-- The queue is used safely along a run. -/
def UsedSafely (s : GenericSession) (events : List SessionEvent) : Prop :=
  Always GenericSession.step (fun s => s.writes.length ≤ 1) s events ∧
    Guarded GenericSession.step PopsWritten s events

/-- The stream is closed while a write is outstanding. -/
def CutsWrite (s : GenericSession) (e : SessionEvent) : Prop :=
  writeEvent s e = some .closed ∧ s.writes ≠ []

/-- The first event that concerns the write queue is the handler of a failed write. -/
def FailsFirst (s : GenericSession) : List SessionEvent → Prop
  | [] => True
  | e :: events =>
    match writeEvent s e with
    | some (.pushed _) => False
    | some (.written _) => False
    | some (.failed _) => True
    | _ => FailsFirst (s.step e) events

/-- Whenever a write is cut, it fails before the queue is used again. -/
def CutWritesFail (s : GenericSession) (events : List SessionEvent) : Prop :=
  ∀ pre e post, events = pre ++ e :: post → CutsWrite (run GenericSession.step s pre) e →
    FailsFirst (run GenericSession.step s (pre ++ [e])) post

section Runs

variable {s s' : GenericSession} {e : SessionEvent} {events : List SessionEvent}

lemma usedSafely_cons : UsedSafely s (e :: events) ↔
    s.writes.length ≤ 1 ∧ PopsWritten s e ∧ UsedSafely (s.step e) events := by
  unfold UsedSafely
  rw [always_cons, Guarded]
  tauto

lemma cutWritesFail_cons : CutWritesFail s (e :: events) ↔
    (CutsWrite s e → FailsFirst (s.step e) events) ∧ CutWritesFail (s.step e) events := by
  constructor
  · intro h
    exact ⟨h [] e events rfl, fun pre e' post heq => h (e :: pre) e' post (by rw [heq]; rfl)⟩
  · rintro ⟨hnow, hlater⟩ pre e' post heq hcut
    cases pre with
    | nil =>
      cases heq
      exact hnow hcut
    | cons first pre =>
      rw [List.cons_append, List.cons.injEq] at heq
      obtain ⟨rfl, heq⟩ := heq
      exact hlater pre e' post heq hcut

/-- No write is in progress, or the one write is that of the front of the outbox. -/
def Orderly (s : GenericSession) : Prop :=
  s.writes = [] ∨ ∃ msg rest, s.outbox = msg :: rest ∧ s.writes = [msg]

/-- A write is outstanding on a stream that has been closed, and the outbox is empty. -/
def Severed (s : GenericSession) : Prop :=
  (∃ msg, s.writes = [msg]) ∧ s.outbox = [] ∧ s.isOpen = false

lemma Orderly.length_le (h : Orderly s) : s.writes.length ≤ 1 := by
  rcases h with hnone | ⟨msg, rest, -, hone⟩
  · rw [hnone]
    exact Nat.zero_le 1
  · rw [hone]
    exact le_rfl

lemma Orderly.popsWritten (h : Orderly s) (e : SessionEvent) : PopsWritten s e := by
  intro index hevent
  have hstep := step_queue s e
  rw [hevent] at hstep
  cases hstep with
  | written hindex _ =>
    rcases h with hnone | ⟨msg, rest, houtbox, hone⟩
    · rw [hnone] at hindex
      exact absurd hindex (Nat.not_lt_zero index)
    · rw [hone] at hindex ⊢
      obtain rfl : index = 0 := by simpa using hindex
      exact ⟨msg, rest, rfl, houtbox⟩

/-- An orderly queue stays so, unless the event cuts a write. -/
lemma Orderly.step (h : Orderly s) (e : SessionEvent) :
    ¬CutsWrite s e ∧ Orderly (s.step e) ∨ CutsWrite s e ∧ Severed (s.step e) := by
  have hstep := step_queue s e
  have hkind : CutsWrite s e ↔ writeEvent s e = some .closed ∧ s.writes ≠ [] := Iff.rfl
  rw [hkind]
  generalize writeEvent s e = event at hstep ⊢
  cases hstep with
  | unrelated hq =>
    refine .inl ⟨by simp, ?_⟩
    unfold Orderly
    rw [hq.outbox_eq, hq.writes_eq]
    exact h
  | @pushed data hq =>
    refine .inl ⟨by simp, ?_⟩
    unfold Orderly
    rw [hq.outbox_eq, hq.writes_eq]
    rcases h with hnone | ⟨msg, rest, houtbox, hone⟩
    · rw [hnone]
      cases s.outbox with
      | nil => exact .inr ⟨data, [], rfl, rfl⟩
      | cons first others => exact .inl rfl
    · rw [houtbox, hone]
      exact .inr ⟨msg, rest ++ [data], rfl, rfl⟩
  | closed _ hq =>
    rcases h with hnone | ⟨msg, rest, -, hone⟩
    · refine .inl ⟨by simp [hnone], .inl ?_⟩
      rw [hq.writes_eq, hnone]
    · refine .inr ⟨⟨rfl, by simp [hone]⟩, ⟨msg, ?_⟩, hq.outbox_eq, hq.isOpen_eq⟩
      rw [hq.writes_eq, hone]
  | failed hindex hq =>
    refine .inl ⟨by simp, .inl ?_⟩
    have hlen := h.length_le
    rw [hq.writes_eq]
    exact List.length_eq_zero_iff.mp (by rw [List.length_eraseIdx_of_lt hindex]; omega)
  | written hindex hq =>
    refine .inl ⟨by simp, ?_⟩
    unfold Orderly
    rw [hq.outbox_eq, hq.writes_eq]
    rcases h with hnone | ⟨msg, rest, houtbox, hone⟩
    · rw [hnone] at hindex
      exact absurd hindex (Nat.not_lt_zero _)
    · rw [hone] at hindex ⊢
      obtain rfl := Nat.lt_one_iff.mp hindex
      rw [houtbox]
      cases rest with
      | nil => exact .inl rfl
      | cons next others => exact .inr ⟨next, others, rfl, rfl⟩

/-- After a cut, everything depends on the first event that concerns the queue. -/
lemma Severed.step (h : Severed s) (e : SessionEvent) (events : List SessionEvent) :
    ¬CutsWrite s e ∧
      (Severed (s.step e) ∧ PopsWritten s e ∧
        (FailsFirst s (e :: events) ↔ FailsFirst (s.step e) events) ∨
        Orderly (s.step e) ∧ PopsWritten s e ∧ FailsFirst s (e :: events) ∨
        (2 ≤ (s.step e).writes.length ∨ ¬PopsWritten s e) ∧ ¬FailsFirst s (e :: events)) := by
  obtain ⟨⟨msg, hone⟩, houtbox, hclosed⟩ := h
  have hstep := step_queue s e
  generalize hlater : FailsFirst (s.step e) events = later
  unfold CutsWrite FailsFirst PopsWritten
  rw [hlater]
  generalize writeEvent s e = event at hstep ⊢
  cases hstep with
  | unrelated hq =>
    refine ⟨by simp, .inl ⟨⟨⟨msg, ?_⟩, ?_, ?_⟩, by simp, Iff.rfl⟩⟩
    · rw [hq.writes_eq, hone]
    · rw [hq.outbox_eq, houtbox]
    · rw [hq.isOpen_eq, hclosed]
  | pushed hq =>
    refine ⟨by simp, .inr (.inr ⟨.inl ?_, id⟩)⟩
    rw [hq.writes_eq, if_pos houtbox, hone]
    exact le_rfl
  | closed hopen _ =>
    rw [hclosed] at hopen
    cases hopen
  | failed hindex hq =>
    refine ⟨by simp, .inr (.inl ⟨.inl ?_, by simp, trivial⟩)⟩
    rw [hone] at hindex
    obtain rfl := Nat.lt_one_iff.mp hindex
    rw [hq.writes_eq, hone]
    rfl
  | @written index hindex _ =>
    refine ⟨by simp, .inr (.inr ⟨.inr fun hpops => ?_, id⟩)⟩
    obtain ⟨msg', rest, -, hfront⟩ := hpops index rfl
    rw [houtbox] at hfront
    cases hfront

lemma Severed.length_le (h : Severed s) : s.writes.length ≤ 1 := by
  obtain ⟨⟨msg, hone⟩, -⟩ := h
  rw [hone]
  exact le_rfl

/-- The queue is used safely exactly if every cut write fails in time. -/
lemma usedSafely_iff (events : List SessionEvent) :
    (∀ s, Orderly s → (UsedSafely s events ↔ CutWritesFail s events)) ∧
      ∀ s, Severed s → (UsedSafely s events ↔ FailsFirst s events ∧ CutWritesFail s events) := by
  have hnil : ∀ s, s.writes.length ≤ 1 → UsedSafely s [] := fun s hs => ⟨always_nil.mpr hs, trivial⟩
  have hnever : ∀ s, CutWritesFail s [] := fun s pre e post heq => by simp at heq
  induction events with
  | nil =>
    exact ⟨fun s hs => iff_of_true (hnil s hs.length_le) (hnever s),
      fun s hs => iff_of_true (hnil s hs.length_le) ⟨trivial, hnever s⟩⟩
  | cons e events ih =>
    obtain ⟨ihOrderly, ihSevered⟩ := ih
    constructor
    · intro s hs
      rw [usedSafely_cons, cutWritesFail_cons]
      have hfine := hs.length_le
      have hpops := hs.popsWritten e
      rcases hs.step e with ⟨hkeeps, hnext⟩ | ⟨hcut, hnext⟩
      · have hrest := ihOrderly _ hnext
        tauto
      · have hrest := ihSevered _ hnext
        tauto
    · intro s hs
      rw [usedSafely_cons, cutWritesFail_cons]
      have hfine := hs.length_le
      obtain ⟨hnocut, hcases⟩ := hs.step e events
      rcases hcases with ⟨hnext, hpops, hfails⟩ | ⟨hnext, hpops, hfails⟩ | ⟨hbad, hfails⟩
      · have hrest := ihSevered _ hnext
        tauto
      · have hrest := ihOrderly _ hnext
        tauto
      · refine iff_of_false ?_ fun h => hfails h.1
        rintro ⟨-, hpops, hsafe⟩
        rcases hbad with hmany | hpopless
        · have hfew : (s.step e).writes.length ≤ 1 := hsafe.1 [] List.nil_prefix
          omega
        · exact hpopless hpops

end Runs

/-- At most one write is outstanding and every successful write is popped by its own handler,
exactly if each write that is outstanding when the stream is closed fails, before any other message
is queued. -/
theorem write_queue_safe_iff (events : List SessionEvent) :
    UsedSafely {} events ↔ CutWritesFail {} events :=
  (usedSafely_iff events).1 {} (.inl rfl)

/-- A write that has completed when `stop` runs: its handler pops the cleared outbox. -/
theorem completed_write_pops_empty_outbox :
    let events :=
      [SessionEvent.asyncSendMessage (List.replicate 16 0) [1], .stop, .runTask, .runTask,
        .writeDone 0 none]
    let s := run GenericSession.step {} (events.take 4)
    s.writes = [frameOf (List.replicate 16 0) [1]] ∧ s.outbox = [] ∧
      ¬PopsWritten s (.writeDone 0 none) ∧ ¬UsedSafely {} events := by
  have hpops : ¬PopsWritten (run GenericSession.step {}
      [SessionEvent.asyncSendMessage (List.replicate 16 0) [1], .stop, .runTask, .runTask])
      (.writeDone 0 none) := by
    intro hpops
    obtain ⟨msg, rest, -, houtbox⟩ := hpops 0 rfl
    cases houtbox
  refine ⟨by decide, by decide, hpops, fun hsafe => ?_⟩
  exact hpops hsafe.2.2.2.2.2.1

/-- A message that is sent after `stop` is written beside the write that was cut. -/
theorem second_write_after_stop :
    let events := [SessionEvent.asyncSendMessage (List.replicate 16 0) [1], .stop,
      .asyncSendMessage (List.replicate 16 1) [2], .runTask, .runTask, .runTask]
    (run GenericSession.step {} events).writes =
      [frameOf (List.replicate 16 0) [1], frameOf (List.replicate 16 1) [2]] := by
  decide

end MeshNetwork.Proofs
