import GrlxRpc.Session.CallEnds

/-
  Who still waits when a session is over.

  A sender that waits for a slot of the full write queue is
  released by the writer's receives only: `close()` does not
  cancel the queue. So it is stranded as soon as the writer
  leaves its loop on a failed write, and so is a sender that
  begins to wait after that.

  Main declarations:
    * `Session.Drains` and `Session.WriterLeft`
    * `Session.nobodyWaits`
    * `Session.strands` and `Session.stranded_forever`
-/

------------------------------------------------------------
-- Waiting For The Queue
------------------------------------------------------------

namespace GrlxRpc

namespace Session

variable {ω : Type}
variable {cfg : Config ω}

/- Does the action `co_await` a slot of the write queue? -/
def awaitsSlot : Action ω → Bool
  | .queueCall _ => true
  | .notify _ _ => true
  | .rejectRequest _ _ _ => true
  | .sendReply _ _ _ => true
  | _ => false

/- Does `async_write` fail? -/
def failsWrite : Action ω → Bool
  | .writerFail _ => true
  | _ => false

/-
  No write fails while a sender waits, and none begins to
  wait once the writer has left its loop.
-/
def Unstranding
    (s : Session)
    (a : Action ω) : Prop :=
  (failsWrite a = true → s.writeChannel.senders = []) ∧
    (awaitsSlot a = true → s.writer.hasStopped = true →
      s.writeChannel.isOpen = true →
        s.writeChannel.hasRoom = true)

instance
    (s : Session)
    (a : Action ω) : Decidable (s.Unstranding a) :=
  inferInstanceAs (Decidable ((_ → _) ∧ (_ → _)))

/- The same, in a run in which tokens do not wrap. -/
def Drains
    (s : Session)
    (a : Action ω) : Prop :=
  FewCalls s a ∧ Unstranding s a

instance
    (s : Session)
    (a : Action ω) : Decidable (s.Drains a) :=
  inferInstanceAs (Decidable (_ ∧ _))

/- Nobody waits for a slot of the queue, or for a reply. -/
def NobodyWaits (s : Session) : Prop :=
  s.writeChannel.senders = [] ∧
    ∀ call ∈ s.calls, call.channel.receiver ≠ .waiting

/- What the writer leaves behind when its loop ends. -/
structure WriterLeft
    (writer : WriterPc)
    (c : Channel WriteItem) : Prop where
  failed :
    ∀ e, c.receiver = .completed (.error e) →
      c.isOpen = false ∧ c.senders = []
  stopped : writer.hasStopped = true → c.senders = []

namespace WriterLeft

variable {writer writer' : WriterPc}
variable {c : Channel WriteItem}

theorem asyncSend
    (hInv : WriterLeft writer c)
    (hRoom :
      writer.hasStopped = true → c.isOpen = true →
        c.hasRoom = true)
    (item : WriteItem) :
    WriterLeft writer (c.asyncSend item) := by
  cases hOpen : c.isOpen with
  | false => rwa [c.asyncSend_of_closed item hOpen]
  | true =>
      refine ⟨fun e hError => ?_, fun hStopped => ?_⟩
      · rcases c.asyncSend_receiver item with
          ⟨hSame, -⟩ | ⟨-, hOk, -⟩
        · have hClosed := (hInv.failed e (hSame ▸ hError)).1
          simp [hOpen] at hClosed
        · simp [hOk] at hError
      · rw [c.senders_asyncSend_of_hasRoom item
          (hRoom hStopped hOpen)]
        exact hInv.stopped hStopped

theorem trySend
    (hInv : WriterLeft writer c)
    (item : WriteItem) :
    WriterLeft writer (c.trySend item) := by
  refine ⟨fun e hError => ?_, by simpa using hInv.stopped⟩
  rcases c.trySend_receiver item with
    ⟨hSame, -⟩ | ⟨-, hOk, -⟩
  · simpa using hInv.failed e (hSame ▸ hError)
  · simp [hOk] at hError

theorem close (hInv : WriterLeft writer c) :
    WriterLeft writer c.close := by
  refine ⟨fun e hError => ⟨rfl, ?_⟩, hInv.stopped⟩
  rcases c.close_receiver with hSame | ⟨hWaiting, -⟩
  · exact (hInv.failed e (hSame ▸ hError)).2
  · exact (c.parked hWaiting).2.2

/- The writer starts to receive. -/
theorem receive (c : Channel WriteItem) :
    WriterLeft .receiving c.asyncReceive := by
  refine ⟨fun e hError => ?_, Bool.noConfusion⟩
  simpa using c.asyncReceive_error hError

/- The writer goes on with what it received. -/
theorem take
    (hInv : WriterLeft writer c)
    (order : ByteOrder) :
    WriterLeft (.resume order c.receiver) c.consume := by
  refine ⟨nofun, fun hStopped => ?_⟩
  cases hReceiver : c.receiver with
  | idle => simp [hReceiver, WriterPc.resume,
      WriterPc.hasStopped] at hStopped
  | waiting => simp [hReceiver, WriterPc.resume,
      WriterPc.hasStopped] at hStopped
  | completed result =>
      cases result with
      | error e => exact (hInv.failed e hReceiver).2
      | ok item => simp [hReceiver, WriterPc.resume,
          WriterPc.hasStopped] at hStopped

/- The writer moves on. -/
theorem move
    (hInv : WriterLeft writer c)
    (hStopped :
      writer'.hasStopped = true →
        writer.hasStopped = true ∨ c.senders = []) :
    WriterLeft writer' c :=
  ⟨hInv.failed, fun h =>
    (hStopped h).elim hInv.stopped id⟩

end WriterLeft

theorem writerLeft
    {ok : Session → Action ω → Prop}
    (hFree : ∀ s a, ok s a → Unstranding s a)
    {s : Session}
    (hReach : ReachableBy cfg ok s) :
    WriterLeft s.writer s.writeChannel := by
  refine invariant
    (fun s => WriterLeft s.writer s.writeChannel)
    ⟨nofun, nofun⟩ ?_ hReach
  intro s a _ hInv hOk hEnabled
  rcases hFree s a hOk with ⟨hFail, hRoom⟩
  cases a with
  | queueCall i =>
      cases hCall : s.calls[i]? with
      | none => simpa [update, hCall] using hInv
      | some call =>
          simpa [update, hCall] using
            hInv.asyncSend (hRoom rfl) _
  | notify callName buffer =>
      exact hInv.asyncSend (hRoom rfl) _
  | rejectRequest rid header closes =>
      exact hInv.asyncSend (hRoom rfl) _
  | sendReply rid header answer =>
      exact hInv.asyncSend (hRoom rfl) _
  | tryNotify callName buffer => exact hInv.trySend _
  | tryPing => exact hInv.trySend _
  | sendPong => exact hInv.trySend _
  | closeWriteChannel => exact hInv.close
  | writerReceive => exact .receive s.writeChannel
  | writerTake => exact hInv.take cfg.order
  | writerWrite chunk rest => exact hInv.move Bool.noConfusion
  | writerFinish => exact hInv.move Bool.noConfusion
  | writerFail rest =>
      exact hInv.move fun _ => .inr (hFail rfl)
  | writerClose =>
      have hAt : s.writer = .close := hEnabled
      exact hInv.move fun _ => .inl (by rw [hAt]; rfl)
  | writerClosed =>
      exact hInv.move fun _ => .inl (by rw [hEnabled.1]; rfl)
  | _ => exact hInv

------------------------------------------------------------
-- After The Session
------------------------------------------------------------

/-
  Once `close()` is through and the reader has left, no call
  waits for a reply.
-/
theorem no_call_waits
    {ok : Session → Action ω → Prop}
    (hFew : ∀ s a, ok s a → FewCalls s a)
    {s : Session}
    (hReach : ReachableBy cfg ok s)
    (hClosed : s.teardown = .finished)
    (hReader : s.reader = .exited) :
    ∀ call ∈ s.calls, call.channel.receiver ≠ .waiting := by
  intro call hMem hWaiting
  rcases List.getElem?_of_mem hMem with ⟨i, hGet⟩
  have hCall := (callsInv hFew hReach).each i call hGet
  rw [hClosed, hReader] at hCall
  have hPc : call.pc = .receiving := by
    by_contra hNot
    simp [hCall.idle hNot] at hWaiting
  have hEmpty : call.channel.admitted = [] :=
    (call.channel.admitted_of_waiting hWaiting).trans
      (hCall.undelivered (.inr hWaiting))
  -- Somebody would have to hold the call's channel.
  rcases hCall.live (by simp [hPc])
      (call.channel.parked hWaiting).1 hEmpty with
    hIn | hReading | hClosing
  · exact hCall.not_taken (by simp [hPc]) (by simp [hPc])
      hIn rfl
  · cases hReading
  · cases hClosing

/-
  Nobody waits once `close()` has returned and both loops
  have exited, in a run that strands no sender.
-/
theorem nobodyWaits
    (cfg : Config ω)
    (s : Session)
    (hReach : ReachableBy cfg Drains s)
    (hClosed : s.teardown = .finished)
    (hReader : s.reader = .exited)
    (hWriter : s.writer = .exited) :
    s.NobodyWaits := by
  constructor
  · refine (writerLeft (fun _ _ h => h.2) hReach).stopped ?_
    rw [hWriter]
    rfl
  · exact no_call_waits (fun _ _ h => h.1) hReach hClosed
      hReader

/- A call is suspended when its session is closed. -/
theorem nobodyWaits_call :
    ∃ s : Session, Reachable ({} : Config Unit) s ∧
      s.teardown = .finished ∧ s.calls ≠ [] ∧
        s.NobodyWaits := by
  obtain ⟨s, hReach, hRun⟩ :=
    Transition.exists_of_runBy (step ({} : Config Unit))
      Drains (start ({} : Config Unit))
      [.generateToken (literal "call") Buffer.empty,
        .registerOperation 0,
        .queueCall 0,
        .armTimer 0,
        .receiveReply 0,
        .writerReceive,
        .writerTake,
        .close,
        .closeWriteChannel,
        .takeTable,
        .cancelChannel 0,
        .closeChannel 0,
        .closeStream,
        .writerFail ((WriteItem.request true 0
          (literal "call") 1 Buffer.empty).bytes .little),
        .writerClose,
        .readFail,
        .readerClose false]
      (fun s =>
        decide (s.teardown = .finished ∧
          s.reader = .exited ∧ s.writer = .exited ∧
            s.calls.length = 1))
      (by decide +kernel)
  rcases of_decide_eq_true hRun with
    ⟨hClosed, hReader, hWriter, hCalls⟩
  exact ⟨s, hReach.reachable, hClosed,
    List.ne_nil_of_length_eq_add_one hCalls,
    nobodyWaits {} s hReach hClosed hReader hWriter⟩

------------------------------------------------------------
-- Stranded Senders
------------------------------------------------------------

/- The writer has left its loop, and senders still wait. -/
def Stranded (s : Session) : Prop :=
  s.writer.hasStopped = true ∧ s.writeChannel.senders ≠ []

/- A step that the condition excludes strands a sender. -/
theorem strands
    (cfg : Config ω)
    {s : Session}
    {a : Action ω}
    (hEnabled : s.Enabled a)
    (hNot : ¬ s.Unstranding a) :
    (s.update cfg a).Stranded := by
  by_cases hFails : failsWrite a = true
  · cases a with
    | writerFail rest =>
        refine ⟨rfl, fun hNone =>
          hNot ⟨fun _ => hNone, Bool.noConfusion⟩⟩
    | _ => cases hFails
  · have hFull :
        awaitsSlot a = true ∧ s.writer.hasStopped = true ∧
          s.writeChannel.isOpen = true ∧
            s.writeChannel.hasRoom = false := by
      simpa [Unstranding, hFails] using hNot
    rcases hFull with ⟨hAwaits, hStopped, hOpen, hRoom⟩
    have hWaits :
        ∀ item, (s.writeChannel.asyncSend item).senders ≠ [] := by
      intro item
      rw [s.writeChannel.senders_asyncSend_of_full item hOpen
        hRoom]
      simp
    cases a with
    | queueCall i =>
        rcases hEnabled with ⟨call, hGet, -⟩
        refine ⟨hStopped, ?_⟩
        simpa [update, Option.mem_def.mp hGet] using hWaits _
    | notify callName buffer => exact ⟨hStopped, hWaits _⟩
    | rejectRequest rid header closes =>
        exact ⟨hStopped, hWaits _⟩
    | sendReply rid header answer =>
        exact ⟨hStopped, hWaits _⟩
    | _ => cases hAwaits

theorem stranded_update
    (cfg : Config ω)
    {s : Session}
    {a : Action ω}
    (hStranded : s.Stranded)
    (hEnabled : s.Enabled a) :
    (s.update cfg a).Stranded := by
  rcases hStranded with ⟨hStopped, hSenders⟩
  have hSend :
      ∀ item, (s.writeChannel.asyncSend item).senders ≠ [] :=
    fun item hNone => hSenders (List.subset_nil.mp
      (hNone ▸ s.writeChannel.senders_subset_asyncSend item))
  cases a with
  | queueCall i =>
      rcases hEnabled with ⟨call, hGet, -⟩
      refine ⟨hStopped, ?_⟩
      simpa [update, Option.mem_def.mp hGet] using hSend _
  | notify callName buffer => exact ⟨hStopped, hSend _⟩
  | rejectRequest rid header closes =>
      exact ⟨hStopped, hSend _⟩
  | sendReply rid header answer => exact ⟨hStopped, hSend _⟩
  | tryNotify callName buffer =>
      exact ⟨hStopped, by simpa [update] using hSenders⟩
  | tryPing =>
      exact ⟨hStopped, by simpa [update] using hSenders⟩
  | sendPong =>
      exact ⟨hStopped, by simpa [update] using hSenders⟩
  | writerReceive =>
      have hAt : s.writer = .ready := hEnabled
      simp [hAt, WriterPc.hasStopped] at hStopped
  | writerTake =>
      simp [hEnabled.1, WriterPc.hasStopped] at hStopped
  | writerWrite chunk rest =>
      simp [hEnabled.1, WriterPc.hasStopped] at hStopped
  | writerFinish =>
      have hAt : s.writer = .writing [] := hEnabled
      simp [hAt, WriterPc.hasStopped] at hStopped
  | writerFail rest => exact ⟨rfl, hSenders⟩
  | writerClose =>
      refine ⟨?_, hSenders⟩
      simp only [update]
      split <;> rfl
  | writerClosed => exact ⟨rfl, hSenders⟩
  | _ => exact ⟨hStopped, hSenders⟩

/- No step of any later run releases them. -/
theorem stranded_forever
    (cfg : Config ω)
    {s s' : Session}
    (hStranded : s.Stranded)
    (hLater : Transition.Reachable (step cfg) s s') :
    s'.Stranded := by
  refine hLater.invariant hStranded ?_
  intro t a t' _ hInv _ hStep
  rcases (step_eq_some_iff cfg t t' a).mp hStep with
    ⟨hEnabled, rfl⟩
  exact stranded_update cfg hInv hEnabled

/-
  A write fails while the queue is full and one notification
  waits for a slot.
-/
theorem notify_stranded :
    ∃ s : Session, Reachable ({} : Config Unit) s ∧
      s.teardown = .finished ∧ s.reader = .exited ∧
        s.writer = .exited ∧ ¬ s.NobodyWaits := by
  obtain ⟨s, hReach, hRun⟩ :=
    Transition.exists_of_run (step ({} : Config Unit))
      (start ({} : Config Unit))
      ([.notify (literal "event") Buffer.empty,
          .writerReceive,
          .writerTake] ++
        List.replicate 257
          (.notify (literal "event") Buffer.empty) ++
        [.close,
          .closeWriteChannel,
          .takeTable,
          .closeStream,
          .writerFail ((WriteItem.notify true
            (literal "event") Buffer.empty).bytes .little),
          .writerClose,
          .readFail,
          .readerClose false])
      (fun s =>
        decide (s.teardown = .finished ∧
          s.reader = .exited ∧ s.writer = .exited ∧
            s.writeChannel.senders ≠ []))
      (by decide +kernel)
  rcases of_decide_eq_true hRun with
    ⟨hClosed, hReader, hWriter, hSenders⟩
  exact ⟨s, hReach, hClosed, hReader, hWriter,
    fun hNobody => hSenders hNobody.1⟩

end Session

end GrlxRpc
