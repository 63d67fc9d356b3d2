import GrlxRpc.Session.Requests

/-
  A session at rest.

  The steps that coroutines and strands take by themselves
  need no decision of the application, no timer, no failure
  and no byte of the transport. Where an open session has
  none left and its writer is not held up in a write, the
  writer has written all that was queued, the reader waits
  for more bytes, every request is answered, and a call that
  queued its frame has ended or waits for its reply.

  Main declarations:
    * `Session.proceeds`, `Session.Rests`, `Session.Blocked`
    * `Session.Untouched` and `Session.untouched`
    * `Session.recorded`, `Session.offered`
    * `Session.handledBy`
    * `Session.Rested` and `Session.rested`
-/

------------------------------------------------------------
-- Steps Nobody Decides On
------------------------------------------------------------

namespace GrlxRpc

/- What a writer inside `async_write` has yet to write. -/
def WriterPc.unwritten : WriterPc → List UInt8
  | writing rest => rest
  | ready => []
  | receiving => []
  | close => []
  | closing => []
  | exited => []

namespace Session

variable {ω : Type}
variable {cfg : Config ω}
variable {ok : Session → Action ω → Prop}
variable {s : Session}

/-
  Steps that the session takes by itself: not the
  application's, a timer's or a failure's. The transport
  moves bytes when it can: it may stop to take those that a
  writer has for it, and those of its peer may be long on
  their way.
-/
def proceeds : Action ω → Bool
  | .generateToken _ _ => false
  | .registerOperation _ => false
  | .queueCall _ => false
  | .armTimer _ => true
  | .receiveReply _ => true
  | .resumeCall _ => true
  | .timerFire _ => false
  | .timerStore _ => false
  | .timerCancel _ => false
  | .notify _ _ => false
  | .tryNotify _ _ => false
  | .tryPing => false
  | .close => false
  | .closeWriteChannel => true
  | .takeTable => true
  | .cancelChannel _ => true
  | .closeChannel _ => true
  | .closeStream => true
  | .stamp _ => false
  | .deliver _ => false
  | .readHeader _ => true
  | .sendPong => true
  | .readBody _ _ => true
  | .readFail => false
  | .findOperation _ _ => true
  | .sendResult _ _ => true
  | .resumeResult _ => true
  | .rejectRequest _ _ _ => true
  | .resumeReject _ _ => true
  | .readerClose _ => true
  | .readerClosed _ => true
  | .startHandler _ _ _ => true
  | .finishHandler _ _ => true
  | .sendReply _ _ _ => true
  | .resumeReply _ => true
  | .runNotification _ _ _ => true
  | .writerReceive => true
  | .writerTake => true
  | .writerWrite _ _ => false
  | .writerFinish => true
  | .writerFail _ => false
  | .writerClose => true
  | .writerClosed => true

/- Only the transport can make the session go on. -/
def Rests
    (ω : Type)
    (s : Session) : Prop :=
  ∀ a : Action ω, proceeds a = true → ¬ s.Enabled a

/- The writer waits for the transport to take more bytes. -/
def Blocked (s : Session) : Prop :=
  s.writer.unwritten ≠ []

instance (s : Session) : Decidable s.Blocked :=
  inferInstanceAs (Decidable (_ ≠ _))

end Session

------------------------------------------------------------
-- Open Sessions
------------------------------------------------------------

/- Has the reader called `close()`? -/
def ReaderPc.hasClosed : ReaderPc → Bool
  | closing _ => true
  | exited => true
  | header => false
  | pong => false
  | body _ _ => false
  | complete _ _ => false
  | completing _ _ => false
  | completed _ => false
  | rejecting _ _ _ => false
  | rejected _ _ => false
  | close _ => false

/- Has the writer called `close()`? -/
def WriterPc.hasClosed : WriterPc → Bool
  | closing => true
  | exited => true
  | ready => false
  | receiving => false
  | writing _ => false
  | close => false

namespace Session

variable {ω : Type}
variable {cfg : Config ω}
variable {ok : Session → Action ω → Prop}
variable {s : Session}

/- What nobody did to a session that is still open. -/
structure Untouched (s : Session) : Prop where
  stream : s.streamOpen = true
  reader : s.reader.hasClosed = false
  writer : s.writer.hasClosed = false
  completed :
    ∀ i, s.reader = .completed i → i < s.calls.length

theorem hasClosed_resume
    (order : ByteOrder)
    (receiver : Receiver WriteItem) :
    (WriterPc.resume order receiver).hasClosed = false := by
  rcases receiver with _ | _ | ⟨_ | _⟩ <;> rfl

theorem untouched
    (hReach : ReachableBy cfg ok s)
    (hIdle : s.teardown = .idle) :
    s.Untouched := by
  revert hIdle
  refine invariant (fun s => s.teardown = .idle → s.Untouched)
    (fun _ => ⟨rfl, rfl, rfl, by simp [start]⟩) ?_ hReach
  intro s a _ hInv _ hEnabled hIdle
  have hWas : s.teardown = .idle := teardown_eq_idle hIdle
  have hOld := hInv hWas
  -- Most steps of the reader end elsewhere than in `close()`.
  have hReader :
      ∀ {s' : Session}, s'.streamOpen = s.streamOpen →
        s'.writer = s.writer →
          s'.reader.hasClosed = false →
            (∀ i, s'.reader ≠ .completed i) →
              s'.Untouched :=
    fun hStream hWriter hNot hElse =>
      ⟨hStream.trans hOld.stream, hNot,
        hWriter ▸ hOld.writer,
        fun i hAt => absurd hAt (hElse i)⟩
  cases a with
  | readHeader now =>
      refine hReader rfl rfl ?_ ?_ <;> simp only [update] <;>
        cases s.nextIntake cfg now <;>
          simp [afterHeader, ReaderPc.hasClosed]
  | readBody header use =>
      refine hReader rfl rfl ?_ ?_ <;> simp only [update] <;>
        cases use <;> simp [afterBody, ReaderPc.hasClosed]
  | sendPong | readFail | resumeResult i =>
      exact hReader rfl rfl rfl (by simp [update])
  | findOperation token result =>
      refine hReader rfl rfl ?_ ?_ <;> simp only [update] <;>
        cases s.channels.lookup token <;>
          simp [ReaderPc.hasClosed]
  | sendResult i result =>
      refine ⟨hOld.stream, ?_, hOld.writer, ?_⟩
      · simp only [update]
        split <;> rfl
      · intro j hAt
        simp only [update] at hAt
        split at hAt
        · next hOpen =>
            rcases hOpen with ⟨call, hCall, -⟩
            cases hAt
            simpa [update] using
              (List.getElem?_eq_some_iff.mp hCall).1
        · cases hAt
  | rejectRequest rid header closes =>
      refine hReader rfl rfl ?_ ?_ <;> simp only [update] <;>
        split <;> simp [ReaderPc.hasClosed]
  | resumeReject rid closes =>
      refine hReader rfl rfl ?_ ?_ <;> simp only [update] <;>
        split <;> simp [ReaderPc.hasClosed]
  | readerClose again =>
      simp [update, hWas, Teardown.begin] at hIdle
  | readerClosed again =>
      cases hEnabled.2.symm.trans hWas
  | writerReceive | writerFinish =>
      exact ⟨hOld.stream, hOld.reader, rfl, hOld.completed⟩
  | writerTake =>
      exact ⟨hOld.stream, hOld.reader, hasClosed_resume _ _,
        hOld.completed⟩
  | writerWrite chunk rest | writerFail rest =>
      exact ⟨hOld.stream, hOld.reader, rfl, hOld.completed⟩
  | writerClose =>
      simp [update, hWas, Teardown.begin] at hIdle
  | writerClosed => cases hEnabled.2.symm.trans hWas
  | closeStream => cases hIdle
  | generateToken callName reqBuffer =>
      refine ⟨hOld.stream, hOld.reader, hOld.writer, ?_⟩
      intro i hAt
      have hLt := hOld.completed i hAt
      simp only [update, List.length_append]
      exact Nat.lt_add_right _ hLt
  | registerOperation i | queueCall i | armTimer i
  | receiveReply i | resumeCall i | timerFire i
  | timerStore i | timerCancel i | cancelChannel i
  | closeChannel i =>
      exact ⟨hOld.stream, hOld.reader, hOld.writer,
        by simpa [update] using hOld.completed⟩
  | _ => exact ⟨hOld.stream, hOld.reader, hOld.writer,
      hOld.completed⟩

------------------------------------------------------------
-- Requests On Record
------------------------------------------------------------

/- Every request frame the reader finished is on record. -/
def Recorded
    (frames : List Frame)
    (ords : List Nat) : Prop :=
  ∀ (k : Nat) (frame : Frame), frames[k]? = some frame →
    frame.1.incomingType = some .request → k ∈ ords

theorem Recorded.add
    {frames : List Frame}
    {ords more : List Nat}
    {frame : Frame}
    (hOld : Recorded frames ords)
    (hNew :
      frame.1.incomingType = some .request →
        frames.length ∈ more) :
    Recorded (frames ++ [frame]) (ords ++ more) := by
  intro k other hGet hType
  rcases Records.getElem?_concat_eq_some.mp hGet with
    hBefore | ⟨rfl, rfl⟩
  · exact List.mem_append_left _ (hOld k other hBefore hType)
  · exact List.mem_append_right _ (hNew hType)

/- A finished frame whose type is no request's. -/
theorem Recorded.pass
    {frames : List Frame}
    {ords : List Nat}
    {frame : Frame}
    (hOld : Recorded frames ords)
    (hOther : frame.1.incomingType ≠ some .request) :
    Recorded (frames ++ [frame]) ords := by
  have hAdd :
      Recorded (frames ++ [frame]) (ords ++ []) :=
    hOld.add fun hType => absurd hType hOther
  rwa [List.append_nil] at hAdd

/- What a request's header makes the reader do. -/
theorem intake_of_request
    (limits : SessionLimits)
    (granted : Bool)
    (header : Header)
    (hType : header.incomingType = some .request) :
    intake limits granted header = .drop ∨
      intake limits granted header = .oversizedRequest ∨
        ∃ use, intake limits granted header = .read use := by
  unfold intake
  by_cases hMagic : header.magic = magicHeaderNumber
  · simp only [hMagic, hType, ne_eq, not_true, if_false]
    split
    · exact .inr (.inl rfl)
    · split
      · exact .inr (.inr ⟨.request, rfl⟩)
      · exact .inr (.inr ⟨.limited, rfl⟩)
  · exact .inl (if_pos hMagic)

/-
  A reader that goes on has made a record of every request
  frame it has finished.
-/
theorem recorded
    {passed : Teardown → Bool}
    (hLatch : Latch cfg passed)
    (hSettles : ∀ s a, ok s a → Settles passed s a)
    (hReach : ReachableBy cfg ok s)
    (hOn : s.reader.leaves = false) :
    Recorded s.done (s.requests.map Request.ord) := by
  revert hOn
  refine invariant
    (fun s => s.reader.leaves = false →
      Recorded s.done (s.requests.map Request.ord))
    (fun _ => by simp [Recorded, start, done,
      ReaderPc.inBody]) ?_ hReach
  intro s a hPrior hInv _ hEnabled hOn
  have hReading := readerInv hPrior
  -- A step between two frames changes no record's place.
  have hBetween :
      ∀ {s' : Session}, s'.taken = s.taken →
        s'.requests.map Request.ord =
            s.requests.map Request.ord →
          s.reader.inBody = false →
            s'.reader.inBody = false →
              s.reader.leaves = false →
                Recorded s'.done
                  (s'.requests.map Request.ord) := by
    intro s' hTaken hOrds hBefore hAfter hLeaves
    rw [done_eq_taken hAfter, hTaken, hOrds,
      ← done_eq_taken hBefore]
    exact hInv hLeaves
  have hOrds :
      ∀ (rid : Nat) (pc : Request → RequestPc),
        (s.requests.modify rid fun request =>
            { request with pc := pc request }).map
              Request.ord =
          s.requests.map Request.ord :=
    fun rid pc => Records.map_modify_of_eq fun _ => rfl
  cases a with
  | readHeader now =>
      have hAt : s.reader = .header := hEnabled.1
      have hDone : s.done = s.taken :=
        done_eq_taken (by rw [hAt]; rfl)
      have hOld := hInv (by rw [hAt]; rfl)
      rw [hDone] at hOld
      have hPass :
          (afterHeader s.requests.length s.taken.length
              (s.nextHeader cfg)
              (s.nextIntake cfg now)).inBody = false →
            oversizedRequest s.taken.length (s.nextHeader cfg)
                (s.nextIntake cfg now) = [] →
              (s.nextHeader cfg).incomingType ≠
                  some .request →
                Recorded (s.update cfg (.readHeader now)).done
                  ((s.update cfg
                    (.readHeader now)).requests.map
                      Request.ord) := by
        intro hBody hNone hOther
        rw [done_eq_taken hBody]
        simp only [update, hNone, List.append_nil]
        exact hOld.pass hOther
      have hRequest :=
        intake_of_request cfg.limits (s.nextBucket cfg now).2
          (s.nextHeader cfg)
      change (_ → s.nextIntake cfg now = _ ∨
        s.nextIntake cfg now = _ ∨
          ∃ use, s.nextIntake cfg now = _) at hRequest
      cases hKind : s.nextIntake cfg now with
      | drop =>
          simp [update, hKind, afterHeader, ReaderPc.leaves]
            at hOn
      | oversizedRequest =>
          rw [done_eq_taken (by
            simp [update, hKind, afterHeader,
              ReaderPc.inBody])]
          simp only [update, hKind, oversizedRequest,
            List.map_append, List.map_cons, List.map_nil]
          exact hOld.add fun _ => List.mem_singleton_self _
      | read use =>
          have hSame :
              (s.update cfg (.readHeader now)).done =
                s.taken := by
            simp [done, update, hKind, afterHeader,
              ReaderPc.inBody]
          rw [hSame]
          simpa [update, hKind, oversizedRequest] using hOld
      | skip | answerPing | oversized | emptyError =>
          rw [hKind] at hPass hRequest
          exact hPass rfl rfl fun hType => by
            simpa using hRequest hType
  | readBody header use =>
      have hAt : s.reader = .body header use := hEnabled.1
      have hOld := hInv (by rw [hAt]; rfl)
      rcases body_header hReading
        (headInv hLatch hSettles hPrior) hAt with
        ⟨-, hType, hLength⟩
      rw [done_readBody hReading hAt]
      cases use with
      | limited | request =>
          simp only [update, readRequest, List.map_append,
            List.map_cons, List.map_nil]
          exact hOld.add fun _ => by
            rw [hLength]
            exact List.mem_singleton_self _
      | response | notification | error =>
          simp only [update, readRequest, List.append_nil]
          exact hOld.pass (by simp [hType, BodyUse.type])
  | sendPong =>
      have hAt : s.reader = .pong := hEnabled
      exact hBetween rfl rfl (by rw [hAt]; rfl) rfl
        (by rw [hAt]; rfl)
  | readFail => cases hOn
  | findOperation token result =>
      have hAt : s.reader = .complete token result := hEnabled
      refine hBetween rfl rfl (by rw [hAt]; rfl) ?_
        (by rw [hAt]; rfl)
      simp only [update]
      cases s.channels.lookup token <;> rfl
  | sendResult i result =>
      have hAt : s.reader = .completing i result := hEnabled
      refine hBetween rfl rfl (by rw [hAt]; rfl) ?_
        (by rw [hAt]; rfl)
      simp only [update]
      split <;> rfl
  | resumeResult i =>
      have hAt : s.reader = .completed i := hEnabled.1
      exact hBetween rfl rfl (by rw [hAt]; rfl) rfl
        (by rw [hAt]; rfl)
  | rejectRequest rid header closes =>
      have hAt : s.reader = .rejecting rid header closes :=
        hEnabled
      refine hBetween rfl (hOrds rid _) (by rw [hAt]; rfl) ?_
        (by rw [hAt]; rfl)
      simp only [update]
      split <;> rfl
  | resumeReject rid closes =>
      have hAt : s.reader = .rejected rid closes := hEnabled.1
      refine hBetween rfl (hOrds rid _) (by rw [hAt]; rfl) ?_
        (by rw [hAt]; rfl)
      cases closes <;> rfl
  | readerClose again =>
      have hAt : s.reader = .close again := hEnabled
      cases again with
      | false =>
          simp only [update] at hOn
          split at hOn <;> cases hOn
      | true =>
          refine hBetween rfl rfl (by rw [hAt]; rfl) ?_
            (by rw [hAt]; rfl)
          simp only [update]
          split <;> rfl
  | readerClosed again =>
      have hAt : s.reader = .closing again := hEnabled.1
      cases again with
      | false => cases hOn
      | true =>
          exact hBetween rfl rfl (by rw [hAt]; rfl) rfl
            (by rw [hAt]; rfl)
  | startHandler rid header w =>
      simp only [update, hOrds rid]
      exact hInv hOn
  | finishHandler rid w =>
      simp only [update, hOrds rid]
      exact hInv hOn
  | sendReply rid header answer =>
      simp only [update, hOrds rid]
      exact hInv hOn
  | resumeReply rid =>
      simp only [update, hOrds rid]
      exact hInv hOn
  | _ => exact hInv hOn

------------------------------------------------------------
-- Calls That Were Offered
------------------------------------------------------------

/- A call has its frame in the queue, unless that is closed. -/
def Offered
    (isOpen : Bool)
    (items : List WriteItem)
    (i : Nat)
    (call : PendingCall) : Prop :=
  call.pc = .created ∨ call.pc = .registered ∨
    isOpen = false ∨ ∃ item ∈ items, item.source = .call i

theorem Offered.move
    {isOpen : Bool}
    {items : List WriteItem}
    {i : Nat}
    {call call' : PendingCall}
    (hOld : Offered isOpen items i call)
    (hCreated : call.pc ≠ .created)
    (hRegistered : call.pc ≠ .registered) :
    Offered isOpen items i call' :=
  .inr (.inr ((hOld.resolve_left hCreated).resolve_left
    hRegistered))

theorem offered
    (hReach : ReachableBy cfg ok s) :
    ∀ (i : Nat) (call : PendingCall),
      s.calls[i]? = some call →
        Offered s.writeChannel.isOpen s.writeChannel.admitted
          i call := by
  refine invariant
    (fun s => ∀ (i : Nat) (call : PendingCall),
      s.calls[i]? = some call →
        Offered s.writeChannel.isOpen s.writeChannel.admitted
          i call) (by simp [start]) ?_ hReach
  intro s a _ hInv _ hEnabled
  -- The queue only grows and is never opened again.
  have hLater :
      ∀ {i : Nat} {call : PendingCall},
        Offered s.writeChannel.isOpen s.writeChannel.admitted
            i call →
          Offered (s.update cfg a).writeChannel.isOpen
            (s.update cfg a).writeChannel.admitted i call := by
    intro i call hOld
    rcases hOld with hPc | hPc | hClosed | ⟨item, hMem, hSource⟩
    · exact .inl hPc
    · exact .inr (.inl hPc)
    · exact .inr (.inr (.inl
        (s.isOpen_update cfg a hClosed)))
    · refine .inr (.inr (.inr ⟨item, ?_, hSource⟩))
      rw [admitted_update]
      exact List.mem_append_left _ hMem
  -- One call moves on.
  have hModify :
      ∀ {i : Nat} {f : PendingCall → PendingCall},
        (∀ call, s.calls[i]? = some call →
          Offered s.writeChannel.isOpen
              s.writeChannel.admitted i call →
            Offered (s.update cfg a).writeChannel.isOpen
              (s.update cfg a).writeChannel.admitted i
              (f call)) →
          ∀ (j : Nat) (call : PendingCall),
            (s.calls.modify i f)[j]? = some call →
              Offered (s.update cfg a).writeChannel.isOpen
                (s.update cfg a).writeChannel.admitted j
                call := by
    intro i f hAt
    exact Records.forall_getElem?_modify
      (fun j call hGet _ => hLater (hInv j call hGet))
      fun call hGet => hAt call hGet (hInv i call hGet)
  have hKeep :
      ∀ {i : Nat} {f : PendingCall → PendingCall},
        (∀ call, (f call).pc = call.pc) →
          ∀ (j : Nat) (call : PendingCall),
            (s.calls.modify i f)[j]? = some call →
              Offered (s.update cfg a).writeChannel.isOpen
                (s.update cfg a).writeChannel.admitted j
                call := by
    intro i f hPc
    refine hModify fun call _ hOld => ?_
    have hNew := hLater hOld
    rwa [Offered, ← hPc call] at hNew
  have hPass :
      ∀ {i : Nat} {f : PendingCall → PendingCall}
          {call : PendingCall},
        s.calls[i]? = some call →
          call.pc ≠ .created → call.pc ≠ .registered →
            ∀ (j : Nat) (call : PendingCall),
              (s.calls.modify i f)[j]? = some call →
                Offered (s.update cfg a).writeChannel.isOpen
                  (s.update cfg a).writeChannel.admitted j
                  call := by
    intro i f call hGet hCreated hRegistered
    refine hModify fun call' hGet' hOld => ?_
    obtain rfl : call = call' :=
      Option.some.inj (hGet.symm.trans hGet')
    exact hLater (hOld.move hCreated hRegistered)
  cases a with
  | generateToken callName reqBuffer =>
      exact Records.forall_getElem?_concat
        (fun j call hGet => hLater (hInv j call hGet))
        (.inl rfl)
  | registerOperation i =>
      exact hModify fun call _ _ => .inr (.inl rfl)
  | queueCall i =>
      refine hModify fun call hGet _ => ?_
      cases hOpen : s.writeChannel.isOpen with
      | false =>
          exact .inr (.inr (.inl
            (s.isOpen_update cfg _ hOpen)))
      | true =>
          refine .inr (.inr (.inr ⟨.request cfg.charSigned i
            call.callName call.token call.reqBuffer, ?_, rfl⟩))
          rw [admitted_update]
          simp [admits, hGet, hOpen]
  | armTimer i =>
      rcases hEnabled.1 with ⟨call, hCall, hPc⟩
      exact hPass hCall (by simp [hPc]) (by simp [hPc])
  | receiveReply i =>
      rcases hEnabled with ⟨call, hCall, hPc⟩
      exact hPass hCall (by simp [hPc]) (by simp [hPc])
  | resumeCall i =>
      rcases hEnabled with ⟨call, hCall, hPc, -⟩
      exact hPass hCall (by simp [hPc]) (by simp [hPc])
  | timerFire i => exact hKeep fun _ => rfl
  | timerStore i => exact hKeep fun _ => rfl
  | timerCancel i => exact hKeep fun _ => rfl
  | cancelChannel i => exact hKeep fun _ => rfl
  | closeChannel i => exact hKeep fun _ => rfl
  | sendResult i result => exact hKeep fun _ => rfl
  | _ => exact fun j call hGet => hLater (hInv j call hGet)

------------------------------------------------------------
-- Who Answers A Request
------------------------------------------------------------

/-
  A request that is not its own coroutine's is done, or the
  reader is answering it.
-/
def HandledBy
    (reader : ReaderPc)
    (rid : Nat)
    (request : Request) : Prop :=
  (request.verdict = .spawned ∧ request.pc ≠ .rejecting) ∨
    request.pc = .done ∨
      (∃ header closes,
        reader = .rejecting rid header closes) ∨
        ∃ closes, reader = .rejected rid closes

namespace HandledBy

variable {reader reader' : ReaderPc}
variable {rid : Nat}
variable {request : Request}

/- The reader answers another request, or none. -/
theorem away
    (hOld : HandledBy reader rid request)
    (hRejecting :
      ∀ header closes, reader ≠ .rejecting rid header closes)
    (hRejected : ∀ closes, reader ≠ .rejected rid closes) :
    HandledBy reader' rid request := by
  rcases hOld with
    hOwn | hDone | ⟨header, closes, hAt⟩ | ⟨closes, hAt⟩
  · exact .inl hOwn
  · exact .inr (.inl hDone)
  · exact absurd hAt (hRejecting header closes)
  · exact absurd hAt (hRejected closes)

/- The request's own coroutine moves it. -/
theorem move
    (hOld : HandledBy reader rid request)
    {pc : RequestPc}
    (hWas : request.pc ≠ .done)
    (hPc : pc ≠ .rejecting) :
    HandledBy reader rid { request with pc := pc } := by
  rcases hOld with hOwn | hDone | hAnswers
  · exact .inl ⟨hOwn.1, hPc⟩
  · exact absurd hDone hWas
  · exact .inr (.inr hAnswers)

end HandledBy

theorem handledBy
    (hReach : ReachableBy cfg ok s) :
    ∀ (rid : Nat) (request : Request),
      s.requests[rid]? = some request →
        HandledBy s.reader rid request := by
  refine invariant
    (fun s => ∀ (rid : Nat) (request : Request),
      s.requests[rid]? = some request →
        HandledBy s.reader rid request) (by simp [start]) ?_
    hReach
  intro s a _ hInv _ hEnabled
  -- The reader moves on from a step that answers nothing.
  have hAway :
      ∀ {r : ReaderPc},
        (∀ rid header closes,
          s.reader ≠ .rejecting rid header closes) →
        (∀ rid closes, s.reader ≠ .rejected rid closes) →
          ∀ (rid : Nat) (request : Request),
            s.requests[rid]? = some request →
              HandledBy r rid request :=
    fun hRejecting hRejected rid request hGet =>
      (hInv rid request hGet).away (hRejecting rid)
        (hRejected rid)
  have hMove :
      ∀ {rid : Nat} {f : Request → RequestPc}
          {request : Request},
        s.requests[rid]? = some request →
          request.pc ≠ .done → f request ≠ .rejecting →
            ∀ (rid' : Nat) (request : Request),
              (s.requests.modify rid fun request =>
                  { request with pc := f request })[rid']? =
                  some request →
                HandledBy s.reader rid' request := by
    intro rid f request hGet hWas hPc
    refine Records.forall_getElem?_modify
      (fun j request hGet _ => hInv j request hGet) ?_
    intro request' hGet'
    obtain rfl : request = request' :=
      Option.some.inj (hGet.symm.trans hGet')
    exact (hInv rid _ hGet).move hWas hPc
  cases a with
  | readHeader now =>
      have hOld := hAway
        (r := (s.update cfg (.readHeader now)).reader)
        (by simp [hEnabled.1]) (by simp [hEnabled.1])
      simp only [update] at hOld ⊢
      cases hKind : s.nextIntake cfg now with
      | oversizedRequest =>
          rw [hKind] at hOld
          exact Records.forall_getElem?_concat hOld
            (.inr (.inr (.inl ⟨_, _, rfl⟩)))
      | _ =>
          rw [hKind] at hOld
          simpa only [oversizedRequest, List.append_nil]
            using hOld
  | readBody header use =>
      have hOld := hAway
        (r := (s.update cfg (.readBody header use)).reader)
        (by simp [hEnabled.1]) (by simp [hEnabled.1])
      simp only [update] at hOld ⊢
      cases use with
      | limited =>
          exact Records.forall_getElem?_concat hOld
            (.inr (.inr (.inl ⟨_, _, rfl⟩)))
      | request =>
          exact Records.forall_getElem?_concat hOld
            (.inl ⟨rfl, by simp⟩)
      | response | notification | error =>
          simpa only [readRequest, List.append_nil] using hOld
  | sendPong =>
      have hAt : s.reader = .pong := hEnabled
      exact hAway (by simp [hAt]) (by simp [hAt])
  | readFail =>
      have hReading : s.reader.isReading = true := hEnabled
      refine hAway ?_ ?_
      · intro rid header closes hAt
        simp [hAt, ReaderPc.isReading] at hReading
      · intro rid closes hAt
        simp [hAt, ReaderPc.isReading] at hReading
  | findOperation token result =>
      have hAt : s.reader = .complete token result := hEnabled
      exact hAway (by simp [hAt]) (by simp [hAt])
  | sendResult i result =>
      have hAt : s.reader = .completing i result := hEnabled
      exact hAway (by simp [hAt]) (by simp [hAt])
  | resumeResult i =>
      exact hAway (by simp [hEnabled.1]) (by simp [hEnabled.1])
  | readerClose again =>
      have hAt : s.reader = .close again := hEnabled
      exact hAway (by simp [hAt]) (by simp [hAt])
  | readerClosed again =>
      exact hAway (by simp [hEnabled.1]) (by simp [hEnabled.1])
  | rejectRequest rid header closes =>
      have hAt : s.reader = .rejecting rid header closes :=
        hEnabled
      refine Records.forall_getElem?_modify ?_ ?_
      · intro j request hGet hNe
        refine (hInv j request hGet).away ?_ (by simp [hAt])
        intro header' closes' hAt'
        cases hAt.symm.trans hAt'
        exact hNe rfl
      · intro request hGet
        simp only [update]
        cases s.writeChannel.isOpen with
        | true => exact .inr (.inr (.inr ⟨closes, rfl⟩))
        | false => exact .inr (.inl rfl)
  | resumeReject rid closes =>
      have hAt : s.reader = .rejected rid closes := hEnabled.1
      refine Records.forall_getElem?_modify ?_
        fun request hGet => .inr (.inl rfl)
      intro j request hGet hNe
      refine (hInv j request hGet).away (by simp [hAt]) ?_
      intro closes' hAt'
      cases hAt.symm.trans hAt'
      exact hNe rfl
  | startHandler rid header w =>
      rcases hEnabled with ⟨request, hGet, -, hPc⟩
      refine hMove hGet (by simp [hPc]) ?_
      rcases s.gate cfg header w with ⟨consulted, e | entry⟩ <;>
        simp [afterGate]
  | finishHandler rid w =>
      rcases hEnabled with ⟨request, hGet, hPc⟩
      exact hMove
        (f := fun request =>
          .answering (handlerAnswer cfg w request))
        hGet (by simp [hPc]) (by simp)
  | sendReply rid header answer =>
      rcases hEnabled with ⟨request, hGet, -, hPc⟩
      refine hMove hGet (by simp [hPc]) ?_
      cases s.writeChannel.isOpen <;> cases answer <;>
        simp [afterOffer]
  | resumeReply rid =>
      rcases hEnabled with ⟨⟨request, hGet, -, hSending⟩, -⟩
      refine hMove (f := fun _ => .done) hGet ?_ (by simp)
      intro hDone
      simp [hDone, RequestPc.isSending] at hSending
  | _ => exact hInv

------------------------------------------------------------
-- Sessions At Rest
------------------------------------------------------------

/- What is left to do in an open session at rest. -/
structure Rested
    (cfg : Config ω)
    (s : Session) : Prop where
  starved : s.Starved
  waiting : s.writeChannel.receiver = .waiting
  written : s.outbound = wire cfg.order s.items
  answered : ∀ request ∈ s.requests, request.pc = .done
  called :
    ∀ call ∈ s.calls,
      call.pc = .created ∨ call.pc = .registered ∨
        call.pc.isFinished = true ∨
          (call.pc = .receiving ∧
            call.channel.receiver = .waiting)
  notified : s.notifications = []

/- The writer waits for an item that is not there. -/
theorem writer_rests
    (hReach : ReachableBy cfg ok s)
    (hIdle : s.teardown = .idle)
    (hRests : s.Rests ω)
    (hWrote : ¬ s.Blocked) :
    s.writer = .receiving ∧
      s.writeChannel.receiver = .waiting := by
  have hUntouched := untouched hReach hIdle
  have hInv := writerInv hReach
  cases hWriter : s.writer with
  | ready => exact absurd hWriter (hRests .writerReceive rfl)
  | receiving =>
      refine ⟨rfl, ?_⟩
      rw [hWriter] at hInv
      cases hReceiver : s.writeChannel.receiver with
      | idle => simp [WriterInv, hReceiver] at hInv
      | waiting => rfl
      | completed result =>
          exact absurd ⟨hWriter, by rw [hReceiver]; rfl⟩
            (hRests .writerTake rfl)
  | writing rest =>
      cases rest with
      | nil =>
          exact absurd hWriter (hRests .writerFinish rfl)
      | cons byte rest =>
          exact absurd
            (by simp [Blocked, hWriter, WriterPc.unwritten])
            hWrote
  | close => exact absurd hWriter (hRests .writerClose rfl)
  | closing =>
      have hOpen := hUntouched.writer
      rw [hWriter] at hOpen
      cases hOpen
  | exited =>
      have hOpen := hUntouched.writer
      rw [hWriter] at hOpen
      cases hOpen

/- The reader waits for bytes that have not arrived. -/
theorem reader_rests
    (hFew : ∀ s a, ok s a → FewCalls s a)
    (hReach : ReachableBy cfg ok s)
    (hIdle : s.teardown = .idle)
    (hRests : s.Rests ω)
    (hSenders : s.writeChannel.senders = []) :
    s.Starved := by
  have hUntouched := untouched hReach hIdle
  have hResumable : ∀ source, s.Resumable source := by
    intro source item hMem
    simp [hSenders] at hMem
  cases hReader : s.reader with
  | header =>
      refine .inl ⟨hReader, ?_⟩
      by_contra hEnough
      exact hRests (.readHeader 0) rfl
        ⟨hReader, Nat.le_of_not_lt hEnough⟩
  | body header use =>
      refine .inr ⟨header, use, hReader, ?_⟩
      by_contra hEnough
      exact hRests (.readBody header use) rfl
        ⟨hReader, Nat.le_of_not_lt hEnough⟩
  | pong => exact absurd hReader (hRests .sendPong rfl)
  | complete token result =>
      exact absurd hReader
        (hRests (.findOperation token result) rfl)
  | completing i result =>
      exact absurd hReader (hRests (.sendResult i result) rfl)
  | completed i =>
      have hLt := hUntouched.completed i hReader
      have hCall := List.getElem?_eq_getElem hLt
      exact absurd
        ⟨hReader, _, hCall,
          ((callsInv hFew hReach).each i _ hCall).unparked⟩
        (hRests (.resumeResult i) rfl)
  | rejecting rid header closes =>
      exact absurd hReader
        (hRests (.rejectRequest rid header closes) rfl)
  | rejected rid closes =>
      exact absurd ⟨hReader, hResumable _⟩
        (hRests (.resumeReject rid closes) rfl)
  | close again =>
      exact absurd hReader (hRests (.readerClose again) rfl)
  | closing again =>
      have hOpen := hUntouched.reader
      rw [hReader] at hOpen
      cases hOpen
  | exited =>
      have hOpen := hUntouched.reader
      rw [hReader] at hOpen
      cases hOpen

/- Every request's coroutine is through. -/
theorem requests_rest
    [hApp : Nonempty ω]
    (hReach : ReachableBy cfg ok s)
    (hRests : s.Rests ω)
    (hSenders : s.writeChannel.senders = [])
    (hStarved : s.Starved) :
    ∀ request ∈ s.requests, request.pc = .done := by
  intro request hMem
  rcases hApp with ⟨w⟩
  rcases List.mem_iff_getElem?.mp hMem with ⟨rid, hGet⟩
  have hOwn := handledBy hReach rid request hGet
  cases hPc : request.pc with
  | done => rfl
  | rejecting =>
      rcases hStarved with ⟨hAt, -⟩ | ⟨_, _, hAt, -⟩ <;>
        simp [HandledBy, hAt, hPc] at hOwn
  | spawned =>
      exact absurd ⟨request, hGet, rfl, hPc⟩
        (hRests (.startHandler rid request.header w) rfl)
  | running =>
      exact absurd ⟨request, hGet, hPc⟩
        (hRests (.finishHandler rid w) rfl)
  | answering answer =>
      exact absurd ⟨request, hGet, rfl, hPc⟩
        (hRests (.sendReply rid request.header answer) rfl)
  | sending answer =>
      have hSpawned : request.verdict = .spawned := by
        rcases hStarved with ⟨hAt, -⟩ | ⟨_, _, hAt, -⟩ <;>
          simpa [HandledBy, hAt, hPc] using hOwn
      have hResumes : s.Enabled (.resumeReply rid : Action ω) :=
        ⟨⟨request, hGet, hSpawned, by rw [hPc]; rfl⟩,
          fun item hMem => by simp [hSenders] at hMem⟩
      exact absurd hResumes (hRests (.resumeReply rid) rfl)

/- A call that queued its frame waits for its reply. -/
theorem calls_rest
    (hFew : ∀ s a, ok s a → FewCalls s a)
    (hReach : ReachableBy cfg ok s)
    (hRests : s.Rests ω)
    (hSenders : s.writeChannel.senders = []) :
    ∀ call ∈ s.calls,
      call.pc = .created ∨ call.pc = .registered ∨
        call.pc.isFinished = true ∨
          (call.pc = .receiving ∧
            call.channel.receiver = .waiting) := by
  intro call hMem
  rcases List.mem_iff_getElem?.mp hMem with ⟨i, hCall⟩
  cases hPc : call.pc with
  | created => exact .inl rfl
  | registered => exact .inr (.inl rfl)
  | returned buffer => exact .inr (.inr (.inl rfl))
  | threw error => exact .inr (.inr (.inl rfl))
  | sending =>
      have hArms : s.Enabled (.armTimer i : Action ω) :=
        ⟨⟨call, hCall, hPc⟩,
          fun item hMem => by simp [hSenders] at hMem⟩
      exact absurd hArms (hRests (.armTimer i) rfl)
  | armed =>
      exact absurd ⟨call, hCall, hPc⟩
        (hRests (.receiveReply i) rfl)
  | receiving =>
      refine .inr (.inr (.inr ⟨rfl, ?_⟩))
      cases hReceiver : call.channel.receiver with
      | waiting => rfl
      | idle =>
          have hInv := (callsInv hFew hReach).each i call hCall
          exact absurd hReceiver (hInv.busy hPc)
      | completed result =>
          exact absurd ⟨call, hCall, hPc, by rw [hReceiver]; rfl⟩
            (hRests (.resumeCall i) rfl)

/-
  An open session that can only go on with bytes of its peer,
  and has given its own to the transport, has done what it
  was asked to.
-/
theorem rested
    [Nonempty ω]
    (hFew : ∀ s a, ok s a → FewCalls s a)
    (hReach : ReachableBy cfg ok s)
    (hIdle : s.teardown = .idle)
    (hRests : s.Rests ω)
    (hWrote : ¬ s.Blocked) :
    s.Rested cfg := by
  rcases writer_rests hReach hIdle hRests hWrote with
    ⟨hWriter, hWaiting⟩
  have hParked := s.writeChannel.parked hWaiting
  have hStarved := reader_rests hFew hReach hIdle hRests
    hParked.2.2
  constructor
  case starved => exact hStarved
  case waiting => exact hWaiting
  case written =>
    have hBytes := accepted_bytes hReach
      (by rw [hWriter]; rfl)
    have hHeld : s.held cfg = [] := by
      simp [held, hWriter, hWaiting]
    rw [hHeld, hParked.2.1] at hBytes
    simp only [itemBytes, List.map_nil, wire,
      Framing.Code.flat_nil, List.append_nil] at hBytes
    exact hBytes.symm
  case answered =>
    exact requests_rest hReach hRests hParked.2.2 hStarved
  case called => exact calls_rest hFew hReach hRests hParked.2.2
  case notified =>
    cases hTasks : s.notifications with
    | nil => rfl
    | cons task rest =>
        rcases ‹Nonempty ω› with ⟨w⟩
        have hRuns : s.Enabled
            (.runNotification task.1 task.2 w : Action ω) := by
          change s.notifications.head? = _
          rw [hTasks]
          rfl
        exact absurd hRuns
          (hRests (.runNotification task.1 task.2 w) rfl)

end Session

end GrlxRpc
