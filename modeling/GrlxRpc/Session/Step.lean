import GrlxRpc.Session.State
import GrlxRpc.Lib.Transition

/-
  The steps of one session.

  An action names the coroutine, handler or thread that runs
  and what its environment supplies: bytes, a clock reading,
  the application's state, or the place where a socket call
  stopped. `Enabled` says when it may run and `update` what
  it changes.

  Main declarations:
    * `Action`
    * `Session.Enabled`
    * `Session.update`
    * `Session.step` and `Session.step_eq_some_iff`
-/

------------------------------------------------------------
-- Actions
------------------------------------------------------------

namespace GrlxRpc

inductive Action (ω : Type)
  -- `call()`, its timer and `create_operation`
  | generateToken (callName : StdString) (reqBuffer : Buffer)
  | registerOperation (i : Nat)
  | queueCall (i : Nat)
  | armTimer (i : Nat)
  | receiveReply (i : Nat)
  | resumeCall (i : Nat)
  | timerFire (i : Nat)
  | timerStore (i : Nat)
  | timerCancel (i : Nat)
  -- the other producers of frames
  | notify (callName : StdString) (buffer : Buffer)
  | tryNotify (callName : StdString) (buffer : Buffer)
  | tryPing
  -- `close()` from outside, and the steps of its one run
  | close
  | closeWriteChannel
  | takeTable
  | cancelChannel (i : Nat)
  | closeChannel (i : Nat)
  | closeStream
  -- the application and the transport
  | stamp (identity : Identity)
  | deliver (bytes : List UInt8)
  -- `msg_reader`
  | readHeader (now : Int)
  | sendPong
  | readBody (header : Header) (use : BodyUse)
  | readFail
  | findOperation (token : UInt64) (result : OpResult)
  | sendResult (i : Nat) (result : OpResult)
  | resumeResult (i : Nat)
  | rejectRequest (rid : Nat) (header : Header) (closes : Bool)
  | resumeReject (rid : Nat) (closes : Bool)
  | readerClose (again : Bool)
  | readerClosed (again : Bool)
  -- the coroutine of a request
  | startHandler (rid : Nat) (header : Header) (w : ω)
  | finishHandler (rid : Nat) (w : ω)
  | sendReply (rid : Nat) (header : Header) (answer : Answer)
  | resumeReply (rid : Nat)
  -- the notification strand
  | runNotification
      (callId : UInt64) (body : Buffer) (w : ω)
  -- `msg_writer`
  | writerReceive
  | writerTake
  | writerWrite (chunk rest : List UInt8)
  | writerFinish
  | writerFail (rest : List UInt8)
  | writerClose
  | writerClosed

------------------------------------------------------------
-- The Reader's Decisions
------------------------------------------------------------

/- What a header makes the reader do. -/
inductive Intake
  | drop
  | skip
  | answerPing
  | oversizedRequest
  | oversized
  | read (use : BodyUse)
  | emptyError
  deriving DecidableEq, Repr

namespace Session

variable {ω : Type}

/-
  The `switch` of `msg_reader` with the size checks of the
  functions it calls. `granted` is `request_bucket_`'s
  answer, which is asked for requests within the limit only.
-/
def intake
    (limits : SessionLimits)
    (granted : Bool)
    (header : Header) : Intake :=
  if header.magic ≠ magicHeaderNumber then
    .drop
  else
    match header.incomingType with
    | none => .drop
    | some .nop => .skip
    | some .ping => .answerPing
    | some .pong => .skip
    | some .request =>
        if header.msgSize > limits.maxMessageBytes then
          .oversizedRequest
        else if granted then
          .read .request
        else
          .read .limited
    | some .response =>
        if header.msgSize > limits.maxMessageBytes then
          .oversized
        else
          .read .response
    | some .notification =>
        if header.msgSize > limits.maxMessageBytes then
          .oversized
        else
          .read .notification
    | some .error =>
        if header.msgSize > 0 then
          if header.msgSize > limits.maxMessageBytes then
            .oversized
          else
            .read .error
        else
          .emptyError

/- Is the header a request that reaches the bucket? -/
def metered
    (limits : SessionLimits)
    (header : Header) : Bool :=
  header.magic = magicHeaderNumber &&
    header.incomingType = some .request &&
      !decide (header.msgSize > limits.maxMessageBytes)

/- The header that starts at the next unread byte. -/
def nextHeader
    (cfg : Config ω)
    (s : Session) : Header :=
  .ofBytes cfg.order (s.unread.take Header.size)

/- The body bytes that a read of `header`'s body gives. -/
def nextBody
    (s : Session)
    (header : Header) : Buffer :=
  .ofStream s.unread header.msgSize

/- The bucket and its answer to the next header. -/
def nextBucket
    (cfg : Config ω)
    (s : Session)
    (now : Int) : TokenBucket × Bool :=
  if metered cfg.limits (s.nextHeader cfg) then
    s.requestBucket.tryTake now
  else
    (s.requestBucket, true)

def nextIntake
    (cfg : Config ω)
    (s : Session)
    (now : Int) : Intake :=
  intake cfg.limits (s.nextBucket cfg now).2 (s.nextHeader cfg)

/- Where the reader goes after a header. -/
def afterHeader
    (rid : Nat)
    (ord : Nat)
    (header : Header) : Intake → ReaderPc
  | .drop => .close false
  | .skip => .header
  | .answerPing => .pong
  | .oversizedRequest => .rejecting rid header true
  | .oversized => .close true
  | .read use => .body header use
  | .emptyError =>
      .complete header.userToken
        { ec := some .invalidArgument
          buffer := Buffer.empty
          frame := ord }

/- The request record an oversized request leaves. -/
def oversizedRequest
    (ord : Nat)
    (header : Header) : Intake → List Request
  | .oversizedRequest =>
      [{ header := header
         ord := ord
         body := Buffer.empty
         verdict := .oversized
         pc := .rejecting }]
  | .drop => []
  | .skip => []
  | .answerPing => []
  | .oversized => []
  | .read _ => []
  | .emptyError => []

/- Where the reader goes after a body. -/
def afterBody
    (rid : Nat)
    (ord : Nat)
    (header : Header)
    (body : Buffer) : BodyUse → ReaderPc
  | .limited => .rejecting rid header false
  | .request => .header
  | .response =>
      .complete header.userToken
        { ec := none, buffer := body, frame := ord }
  | .notification => .header
  | .error =>
      .complete header.userToken
        { ec := some .invalidArgument
          buffer := Buffer.empty
          frame := ord }

/- The request record a request's body leaves. -/
def readRequest
    (ord : Nat)
    (header : Header)
    (body : Buffer) : BodyUse → List Request
  | .limited =>
      [{ header := header
         ord := ord
         body := body
         verdict := .limited
         pc := .rejecting }]
  | .request =>
      [{ header := header
         ord := ord
         body := body
         verdict := .spawned
         pc := .spawned }]
  | .response => []
  | .notification => []
  | .error => []

/- The task a notification posts to its strand. -/
def postedNotification
    (header : Header)
    (body : Buffer) : BodyUse → List (UInt64 × Buffer)
  | .notification => [(header.callId, body)]
  | .limited => []
  | .request => []
  | .response => []
  | .error => []

/- Complete the last frame with the body that was read. -/
def fillLast
    (body : List UInt8) : List Frame → List Frame
  | [] => []
  | [frame] => [(frame.1, body)]
  | frame :: next :: rest =>
      frame :: fillLast body (next :: rest)

------------------------------------------------------------
-- Dispatching
------------------------------------------------------------

/- The gate of request `rid` in the application state `w`. -/
def gate
    (cfg : Config ω)
    (s : Session)
    (header : Header)
    (w : ω) : Option AuthCall × Except Exn (MethodEntry ω) :=
  cfg.dispatcher.enter w header.callId
    (cfg.clientContext s.identity)

/- What starting request `rid` does to the application. -/
def startEvents
    (rid : Nat)
    (callId : UInt64) :
    Option AuthCall × Except Exn (MethodEntry ω) →
      List Event
  | (consulted, .error _) =>
      consulted.toList.map (.authCalled rid)
  | (consulted, .ok _) =>
      consulted.toList.map (.authCalled rid) ++
        [.invoked (.request rid) callId]

/- Where a request is after its gate. -/
def afterGate :
    Option AuthCall × Except Exn (MethodEntry ω) → RequestPc
  | (_, .error _) => .answering .error
  | (_, .ok _) => .running

/- How a handler that returned or threw is answered. -/
def handlerAnswer
    (cfg : Config ω)
    (w : ω)
    (request : Request) : Answer :=
  .ofResult
    (cfg.dispatcher.handled cfg.order w request.header.callId
      request.body).result

/- What a notification does to the application. -/
def notificationEvents
    (cfg : Config ω)
    (w : ω)
    (callId : UInt64)
    (body : Buffer) : List Event :=
  if cfg.notificationCallback then
    [.notified callId body]
  else
    (cfg.dispatcher.dispatch cfg.order w callId
      body).invoked.toList.map fun _ =>
        .invoked .notification callId

/-
  Where a request is after it offered its answer: a response
  that the closed channel refused becomes an error.
-/
def afterOffer
    (isOpen : Bool)
    (answer : Answer) : RequestPc :=
  if isOpen then
    .sending answer
  else
    match answer with
    | .response _ => .answering .error
    | .error => .done

------------------------------------------------------------
-- Steps
------------------------------------------------------------

/- No sender with this source waits for a slot. -/
def Resumable
    (s : Session)
    (source : Source) : Prop :=
  ∀ item ∈ s.writeChannel.senders, item.source ≠ source

instance
    (s : Session)
    (source : Source) : Decidable (s.Resumable source) :=
  inferInstanceAs
    (Decidable (∀ item ∈ s.writeChannel.senders, _))

def Enabled (s : Session) : Action ω → Prop
  | .generateToken _ _ => True
  | .registerOperation i =>
      ∃ call ∈ s.calls[i]?, call.pc = .created
  | .queueCall i =>
      ∃ call ∈ s.calls[i]?, call.pc = .registered
  | .armTimer i =>
      (∃ call ∈ s.calls[i]?, call.pc = .sending) ∧
        s.Resumable (.call i)
  | .receiveReply i =>
      ∃ call ∈ s.calls[i]?, call.pc = .armed
  | .resumeCall i =>
      ∃ call ∈ s.calls[i]?, call.pc = .receiving ∧
        call.channel.receiver.isCompleted = true
  | .timerFire i =>
      ∃ call ∈ s.calls[i]?, call.timer = .armed
  | .timerStore i =>
      ∃ call ∈ s.calls[i]?, call.timer = .fired
  | .timerCancel i =>
      ∃ call ∈ s.calls[i]?, call.timer = .stored
  | .notify _ _ => True
  | .tryNotify _ _ => True
  | .tryPing => True
  | .close => True
  | .closeWriteChannel => s.teardown = .writeChannel
  | .takeTable => s.teardown = .table
  | .cancelChannel i =>
      s.teardown = .channels s.teardown.todo ∧
        i ∈ s.teardown.todo
  | .closeChannel i =>
      s.teardown = .channel i s.teardown.todo
  | .closeStream => s.teardown = .channels []
  | .stamp _ => True
  | .deliver _ => s.streamOpen = true
  | .readHeader _ =>
      s.reader = .header ∧ Header.size ≤ s.unread.length
  | .sendPong => s.reader = .pong
  | .readBody header use =>
      s.reader = .body header use ∧
        header.msgSize.toNat ≤ s.unread.length
  | .readFail => s.reader.isReading = true
  | .findOperation token result =>
      s.reader = .complete token result
  | .sendResult i result => s.reader = .completing i result
  | .resumeResult i =>
      s.reader = .completed i ∧
        ∃ call ∈ s.calls[i]?, call.channel.senders = []
  | .rejectRequest rid header closes =>
      s.reader = .rejecting rid header closes
  | .resumeReject rid closes =>
      s.reader = .rejected rid closes ∧
        s.Resumable (.reply rid)
  | .readerClose again => s.reader = .close again
  | .readerClosed again =>
      s.reader = .closing again ∧ s.teardown = .finished
  | .startHandler rid header _ =>
      ∃ request ∈ s.requests[rid]?,
        request.header = header ∧ request.pc = .spawned
  | .finishHandler rid _ =>
      ∃ request ∈ s.requests[rid]?, request.pc = .running
  | .sendReply rid header answer =>
      ∃ request ∈ s.requests[rid]?,
        request.header = header ∧
          request.pc = .answering answer
  | .resumeReply rid =>
      (∃ request ∈ s.requests[rid]?,
        request.verdict = .spawned ∧
          request.pc.isSending = true) ∧
        s.Resumable (.reply rid)
  | .runNotification callId body _ =>
      s.notifications.head? = some (callId, body)
  | .writerReceive => s.writer = .ready
  | .writerTake =>
      s.writer = .receiving ∧
        s.writeChannel.receiver.isCompleted = true
  | .writerWrite chunk rest =>
      s.writer = .writing (chunk ++ rest) ∧
        s.streamOpen = true
  | .writerFinish => s.writer = .writing []
  | .writerFail rest => s.writer = .writing rest
  | .writerClose => s.writer = .close
  | .writerClosed =>
      s.writer = .closing ∧ s.teardown = .finished

def decidableEnabled
    (s : Session) :
    (a : Action ω) → Decidable (s.Enabled a)
  | .generateToken _ _ => instDecidableTrue
  | .registerOperation _ =>
      inferInstanceAs (Decidable (∃ call ∈ _, _))
  | .queueCall _ =>
      inferInstanceAs (Decidable (∃ call ∈ _, _))
  | .armTimer _ => inferInstanceAs (Decidable (_ ∧ _))
  | .receiveReply _ =>
      inferInstanceAs (Decidable (∃ call ∈ _, _))
  | .resumeCall _ =>
      inferInstanceAs (Decidable (∃ call ∈ _, _))
  | .timerFire _ =>
      inferInstanceAs (Decidable (∃ call ∈ _, _))
  | .timerStore _ =>
      inferInstanceAs (Decidable (∃ call ∈ _, _))
  | .timerCancel _ =>
      inferInstanceAs (Decidable (∃ call ∈ _, _))
  | .notify _ _ => instDecidableTrue
  | .tryNotify _ _ => instDecidableTrue
  | .tryPing => instDecidableTrue
  | .close => instDecidableTrue
  | .closeWriteChannel => inferInstanceAs (Decidable (_ = _))
  | .takeTable => inferInstanceAs (Decidable (_ = _))
  | .cancelChannel _ => inferInstanceAs (Decidable (_ ∧ _))
  | .closeChannel _ => inferInstanceAs (Decidable (_ = _))
  | .closeStream => inferInstanceAs (Decidable (_ = _))
  | .stamp _ => instDecidableTrue
  | .deliver _ => inferInstanceAs (Decidable (_ = _))
  | .readHeader _ => inferInstanceAs (Decidable (_ ∧ _))
  | .sendPong => inferInstanceAs (Decidable (_ = _))
  | .readBody _ _ => inferInstanceAs (Decidable (_ ∧ _))
  | .readFail => inferInstanceAs (Decidable (_ = _))
  | .findOperation _ _ => inferInstanceAs (Decidable (_ = _))
  | .sendResult _ _ => inferInstanceAs (Decidable (_ = _))
  | .resumeResult _ => inferInstanceAs (Decidable (_ ∧ _))
  | .rejectRequest _ _ _ =>
      inferInstanceAs (Decidable (_ = _))
  | .resumeReject _ _ => inferInstanceAs (Decidable (_ ∧ _))
  | .readerClose _ => inferInstanceAs (Decidable (_ = _))
  | .readerClosed _ => inferInstanceAs (Decidable (_ ∧ _))
  | .startHandler _ _ _ =>
      inferInstanceAs (Decidable (∃ request ∈ _, _))
  | .finishHandler _ _ =>
      inferInstanceAs (Decidable (∃ request ∈ _, _))
  | .sendReply _ _ _ =>
      inferInstanceAs (Decidable (∃ request ∈ _, _))
  | .resumeReply _ => inferInstanceAs (Decidable (_ ∧ _))
  | .runNotification _ _ _ =>
      inferInstanceAs (Decidable (_ = _))
  | .writerReceive => inferInstanceAs (Decidable (_ = _))
  | .writerTake => inferInstanceAs (Decidable (_ ∧ _))
  | .writerWrite _ _ => inferInstanceAs (Decidable (_ ∧ _))
  | .writerFinish => inferInstanceAs (Decidable (_ = _))
  | .writerFail _ => inferInstanceAs (Decidable (_ = _))
  | .writerClose => inferInstanceAs (Decidable (_ = _))
  | .writerClosed => inferInstanceAs (Decidable (_ ∧ _))

instance
    (s : Session)
    (a : Action ω) : Decidable (s.Enabled a) :=
  s.decidableEnabled a

/- What an action that may run changes. -/
def update
    (cfg : Config ω)
    (s : Session) : Action ω → Session
  | .generateToken callName reqBuffer =>
      { s with
        nextToken := s.nextToken + 1
        calls :=
          s.calls ++ [.create callName reqBuffer s.nextToken] }
  | .registerOperation i =>
      { s with
        channels :=
          s.calls[i]?.elim s.channels fun call =>
            s.channels.insert call.token i
        calls :=
          s.calls.modify i fun call =>
            { call with pc := .registered } }
  | .queueCall i =>
      { s with
        writeChannel :=
          s.calls[i]?.elim s.writeChannel fun call =>
            s.writeChannel.asyncSend
              (.request cfg.charSigned i call.callName
                call.token call.reqBuffer)
        calls :=
          s.calls.modify i fun call =>
            { call with
              pc :=
                if s.writeChannel.isOpen then .sending
                else .threw .queueClosed } }
  | .armTimer i =>
      { s with
        calls :=
          s.calls.modify i fun call =>
            { call with pc := .armed, timer := .armed } }
  | .receiveReply i =>
      { s with
        calls :=
          s.calls.modify i fun call =>
            { call with
              pc := .receiving
              channel := call.channel.asyncReceive } }
  | .resumeCall i =>
      { s with calls := s.calls.modify i PendingCall.resume }
  | .timerFire i =>
      { s with
        calls :=
          s.calls.modify i fun call =>
            { call with
              timer :=
                if call.finished then .over else .fired } }
  | .timerStore i =>
      { s with
        calls :=
          s.calls.modify i fun call =>
            { call with timedOut := true, timer := .stored } }
  | .timerCancel i =>
      { s with
        calls :=
          s.calls.modify i fun call =>
            { call with
              channel := call.channel.cancel
              timer := .over } }
  | .notify callName buffer =>
      { s with
        writeChannel :=
          s.writeChannel.asyncSend
            (.notify cfg.charSigned callName buffer) }
  | .tryNotify callName buffer =>
      { s with
        writeChannel :=
          s.writeChannel.trySend
            (.tryNotify cfg.charSigned callName buffer) }
  | .tryPing =>
      { s with writeChannel := s.writeChannel.trySend .ping }
  | .close => { s with teardown := s.teardown.begin }
  | .closeWriteChannel =>
      { s with
        writeChannel := s.writeChannel.close
        teardown := .table }
  | .takeTable =>
      { s with
        channels := ∅
        teardown :=
          .channels (s.channels.entries.map Sigma.snd) }
  | .cancelChannel i =>
      { s with
        calls :=
          s.calls.modify i fun call =>
            { call with channel := call.channel.cancel }
        teardown := .channel i (s.teardown.todo.erase i) }
  | .closeChannel i =>
      { s with
        calls :=
          s.calls.modify i fun call =>
            { call with channel := call.channel.close }
        teardown := .channels s.teardown.todo }
  | .closeStream =>
      { s with streamOpen := false, teardown := .finished }
  | .stamp identity =>
      { s with
        identity := identity
        log := s.log ++ [.stamped identity] }
  | .deliver bytes =>
      { s with received := s.received ++ bytes }
  | .readHeader now =>
      { s with
        consumed := s.consumed + Header.size
        taken := s.taken ++ [(s.nextHeader cfg, [])]
        requestBucket := (s.nextBucket cfg now).1
        reader :=
          afterHeader s.requests.length s.taken.length
            (s.nextHeader cfg) (s.nextIntake cfg now)
        requests :=
          s.requests ++
            oversizedRequest s.taken.length
              (s.nextHeader cfg) (s.nextIntake cfg now) }
  | .sendPong =>
      { s with
        reader := .header
        writeChannel := s.writeChannel.trySend .pong }
  | .readBody header use =>
      { s with
        consumed := s.consumed + header.msgSize.toNat
        taken := fillLast (s.nextBody header).bytes s.taken
        reader :=
          afterBody s.requests.length (s.taken.length - 1)
            header (s.nextBody header) use
        requests :=
          s.requests ++
            readRequest (s.taken.length - 1) header
              (s.nextBody header) use
        notifications :=
          s.notifications ++
            postedNotification header (s.nextBody header) use }
  | .readFail => { s with reader := .close false }
  | .findOperation token result =>
      { s with
        channels := s.channels.erase token
        reader :=
          (s.channels.lookup token).elim .header fun i =>
            .completing i result }
  | .sendResult i result =>
      { s with
        reader :=
          if ∃ call ∈ s.calls[i]?,
              call.channel.isOpen = true then
            .completed i
          else
            .close false
        calls :=
          s.calls.modify i fun call =>
            { call with
              channel := call.channel.asyncSend result } }
  | .resumeResult _ => { s with reader := .header }
  | .rejectRequest rid header closes =>
      { s with
        writeChannel :=
          s.writeChannel.asyncSend
            (.respond .error header Buffer.empty rid)
        reader :=
          if s.writeChannel.isOpen then
            .rejected rid closes
          else
            .close false
        requests :=
          s.requests.modify rid fun request =>
            { request with
              pc :=
                if s.writeChannel.isOpen then .sending .error
                else .done } }
  | .resumeReject rid closes =>
      { s with
        reader := if closes then .close true else .header
        requests :=
          s.requests.modify rid fun request =>
            { request with pc := .done } }
  | .readerClose again =>
      { s with
        reader :=
          if s.teardown = .idle then .closing again
          else .afterClose again
        teardown := s.teardown.begin }
  | .readerClosed again =>
      { s with reader := .afterClose again }
  | .startHandler rid header w =>
      { s with
        requests :=
          s.requests.modify rid fun request =>
            { request with
              pc := afterGate (s.gate cfg header w) }
        log :=
          s.log ++
            startEvents rid header.callId
              (s.gate cfg header w) }
  | .finishHandler rid w =>
      { s with
        requests :=
          s.requests.modify rid fun request =>
            { request with
              pc := .answering (handlerAnswer cfg w request) } }
  | .sendReply rid header answer =>
      { s with
        writeChannel :=
          s.writeChannel.asyncSend
            (.respond answer.type header answer.body rid)
        requests :=
          s.requests.modify rid fun request =>
            { request with
              pc := afterOffer s.writeChannel.isOpen answer } }
  | .resumeReply rid =>
      { s with
        requests :=
          s.requests.modify rid fun request =>
            { request with pc := .done } }
  | .runNotification callId body w =>
      { s with
        notifications := s.notifications.tail
        log :=
          s.log ++ notificationEvents cfg w callId body }
  | .writerReceive =>
      { s with
        writeChannel := s.writeChannel.asyncReceive
        writer := .receiving }
  | .writerTake =>
      { s with
        writeChannel := s.writeChannel.consume
        writer := .resume cfg.order s.writeChannel.receiver }
  | .writerWrite chunk rest =>
      { s with
        outbound := s.outbound ++ chunk
        writer := .writing rest }
  | .writerFinish => { s with writer := .ready }
  | .writerFail _ => { s with writer := .close }
  | .writerClose =>
      { s with
        writer :=
          if s.teardown = .idle then .closing else .exited
        teardown := s.teardown.begin }
  | .writerClosed => { s with writer := .exited }

/- One step of the session, if the action may run. -/
def step
    (cfg : Config ω)
    (s : Session)
    (a : Action ω) : Option Session :=
  if s.Enabled a then some (s.update cfg a) else none

theorem step_eq_some_iff
    (cfg : Config ω)
    (s s' : Session)
    (a : Action ω) :
    step cfg s a = some s' ↔
      s.Enabled a ∧ s' = s.update cfg a := by
  simp [step, eq_comm]

------------------------------------------------------------
-- Reachable Sessions
------------------------------------------------------------

/- The sessions that runs of steps meeting `ok` reach. -/
abbrev ReachableBy
    (cfg : Config ω)
    (ok : Session → Action ω → Prop)
    (s : Session) : Prop :=
  Transition.ReachableBy (step cfg) ok (start cfg) s

/- The sessions that any run reaches. -/
abbrev Reachable
    (cfg : Config ω)
    (s : Session) : Prop :=
  Transition.Reachable (step cfg) (start cfg) s

/-
  The invariant rule for sessions: an invariant holds at the
  start and every action that may run preserves it.
-/
theorem invariant
    {cfg : Config ω}
    {ok : Session → Action ω → Prop}
    (inv : Session → Prop)
    (hStart : inv (start cfg))
    (hUpdate :
      ∀ s a,
        ReachableBy cfg ok s →
        inv s →
        ok s a →
        s.Enabled a →
        inv (s.update cfg a))
    {s : Session}
    (hReach : ReachableBy cfg ok s) :
    inv s :=
  hReach.invariant_of_guarded (step_eq_some_iff cfg) hStart
    hUpdate

end Session

end GrlxRpc
