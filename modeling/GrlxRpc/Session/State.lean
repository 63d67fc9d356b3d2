import GrlxRpc.Dispatch.Dispatcher
import GrlxRpc.Lib.Channel

/-
  The state of one session: its stream, its reader and
  writer coroutines, the write queue, the pending calls, the
  requests it handles, and its teardown.

  Every coroutine has a program counter whose values are the
  points where another actor can run. The fields `received`,
  `taken`, `outbound` and `log` are histories.

  Main declarations:
    * `WriteItem` and the items the producers build
    * `PendingCall`, `Request`
    * `ReaderPc`, `WriterPc`, `Teardown`
    * `Config` and `Session`
-/

------------------------------------------------------------
-- Write Items
------------------------------------------------------------

namespace GrlxRpc

/- Which producer queued an item: a history variable. -/
inductive Source
  | call (index : Nat)
  | notify
  | tryNotify
  | ping
  | pong
  | reply (request : Nat)
  deriving DecidableEq, Repr

structure WriteItem where
  header : Header
  body : Buffer
  source : Source
  deriving DecidableEq

namespace WriteItem

/- The frame an item is written as. -/
def frame (item : WriteItem) : Frame :=
  (item.header, item.body.bytes)

/- The two buffers of one `async_write`. -/
def bytes
    (order : ByteOrder)
    (item : WriteItem) : List UInt8 :=
  item.header.toBytes order ++ item.body.bytes

/- The request that `call` queues. -/
def request
    (charSigned : Bool)
    (index : Nat)
    (callName : StdString)
    (token : UInt64)
    (reqBuffer : Buffer) : WriteItem where
  header :=
    frameHeader .request (shash64 charSigned callName) token
      reqBuffer
  body := reqBuffer
  source := .call index

/- The notification that `notify` queues. -/
def notify
    (charSigned : Bool)
    (callName : StdString)
    (buffer : Buffer) : WriteItem where
  header :=
    frameHeader .notification (shash64 charSigned callName) 0
      buffer
  body := buffer
  source := .notify

/- The notification that `try_notify` queues. -/
def tryNotify
    (charSigned : Bool)
    (callName : StdString)
    (buffer : Buffer) : WriteItem where
  header :=
    frameHeader .notification (shash64 charSigned callName) 0
      buffer
  body := buffer
  source := .tryNotify

/- The ping that `try_ping` queues. -/
def ping : WriteItem where
  header := frameHeader .ping 0 0 Buffer.empty
  body := Buffer.empty
  source := .ping

/- The pong that `msg_reader` queues. -/
def pong : WriteItem where
  header := frameHeader .pong 0 0 Buffer.empty
  body := Buffer.empty
  source := .pong

/- The reply that `respond` queues. -/
def respond
    (type : MsgType)
    (relatedMsg : Header)
    (rspBuffer : Buffer)
    (request : Nat) : WriteItem where
  header :=
    frameHeader type relatedMsg.callId relatedMsg.userToken
      rspBuffer
  body := rspBuffer
  source := .reply request

end WriteItem

namespace Answer

def type : Answer → MsgType
  | response _ => .response
  | error => .error

def body : Answer → Buffer
  | response rspBuffer => rspBuffer
  | error => Buffer.empty

end Answer

------------------------------------------------------------
-- Pending Calls
------------------------------------------------------------

/- The codes a pending call can be completed with. -/
inductive ErrorCode
  | invalidArgument
  | timedOut
  deriving DecidableEq, Repr

/-
  What goes through a response channel. `frame` is the
  position of the reply frame among those the reader took: a
  history variable.
-/
structure OpResult where
  ec : Option ErrorCode
  buffer : Buffer
  frame : Nat
  deriving DecidableEq

/- How a `call()` that threw did so. -/
inductive CallError
  | queueClosed
  | timeout
  | channel (error : ChannelError)
  | failed (ec : ErrorCode)
  deriving DecidableEq, Repr

/- Where a `call()` is. -/
inductive CallPc
  | created
  | registered
  | sending
  | armed
  | receiving
  | returned (buffer : Buffer)
  | threw (error : CallError)
  deriving DecidableEq

namespace CallPc

/- Has the call returned or thrown? -/
def isFinished : CallPc → Bool
  | returned _ => true
  | threw _ => true
  | created => false
  | registered => false
  | sending => false
  | armed => false
  | receiving => false

end CallPc

/-
  Where the timer of a `call()` is. `fired` has read
  `finished` as false, `stored` has also set `timed_out`.
-/
inductive TimerPc
  | unarmed
  | armed
  | fired
  | stored
  | over
  deriving DecidableEq, Repr

/- One `call()` with its response channel and wait state. -/
structure PendingCall where
  callName : StdString
  reqBuffer : Buffer
  token : UInt64
  pc : CallPc
  channel : Channel OpResult
  timer : TimerPc
  timedOut : Bool
  finished : Bool

namespace PendingCall

def create
    (callName : StdString)
    (reqBuffer : Buffer)
    (token : UInt64) : PendingCall where
  callName := callName
  reqBuffer := reqBuffer
  token := token
  pc := .created
  channel := .make 1
  timer := .unarmed
  timedOut := false
  finished := false

/- How the call ends, from what its receive gave. -/
def outcome
    (timedOut : Bool) :
    Except ChannelError OpResult → CallPc
  | .error error =>
      if timedOut then .threw .timeout
      else .threw (.channel error)
  | .ok result =>
      if timedOut then
        .threw .timeout
      else
        match result.ec with
        | none => .returned result.buffer
        | some .timedOut => .threw .timeout
        | some ec => .threw (.failed ec)

@[simp] theorem isFinished_outcome
    (timedOut : Bool)
    (result : Except ChannelError OpResult) :
    (outcome timedOut result).isFinished = true := by
  rcases result with error | ⟨_ | _ | _, _, _⟩ <;>
    cases timedOut <;> rfl

/- A call returns the body of an ordinary result only. -/
theorem outcome_eq_returned
    {timedOut : Bool}
    {result : Except ChannelError OpResult}
    {buffer : Buffer}
    (hReturned : outcome timedOut result = .returned buffer) :
    ∃ r, result = .ok r ∧ r.ec = none ∧ r.buffer = buffer := by
  rcases result with error | ⟨_ | _ | _, _, _⟩ <;>
    cases timedOut <;> simp_all [outcome]

/-
  Resume after `async_receive`. Storing `finished` and
  reading `timed_out` is one step: only the timer handler
  reads the first, and it stores the second afterwards.
-/
def resume (call : PendingCall) : PendingCall :=
  match call.channel.receiver with
  | .completed result =>
      { call with
        pc := outcome call.timedOut result
        channel := call.channel.consume
        finished := true }
  | .idle => call
  | .waiting => call

@[simp] theorem token_resume (call : PendingCall) :
    call.resume.token = call.token := by
  unfold resume
  split <;> rfl

@[simp] theorem callName_resume (call : PendingCall) :
    call.resume.callName = call.callName := by
  unfold resume
  split <;> rfl

@[simp] theorem reqBuffer_resume (call : PendingCall) :
    call.resume.reqBuffer = call.reqBuffer := by
  unfold resume
  split <;> rfl

@[simp] theorem timedOut_resume (call : PendingCall) :
    call.resume.timedOut = call.timedOut := by
  unfold resume
  split <;> rfl

@[simp] theorem timer_resume (call : PendingCall) :
    call.resume.timer = call.timer := by
  unfold resume
  split <;> rfl

theorem resume_ne_waiting
    (call : PendingCall)
    (hDone : call.channel.receiver.isCompleted = true) :
    call.resume.channel.receiver ≠ .waiting := by
  cases hReceiver : call.channel.receiver with
  | idle => simp [hReceiver, Receiver.isCompleted] at hDone
  | waiting => simp [hReceiver, Receiver.isCompleted] at hDone
  | completed result =>
      simp [resume, hReceiver, Channel.consume]

theorem isFinished_resume
    (call : PendingCall)
    (hDone : call.channel.receiver.isCompleted = true) :
    call.resume.pc.isFinished = true := by
  cases hReceiver : call.channel.receiver with
  | idle => simp [hReceiver, Receiver.isCompleted] at hDone
  | waiting => simp [hReceiver, Receiver.isCompleted] at hDone
  | completed result => simp [resume, hReceiver]

end PendingCall

------------------------------------------------------------
-- Requests
------------------------------------------------------------

/- What the reader decided about a request frame. -/
inductive Verdict
  | oversized
  | limited
  | spawned
  deriving DecidableEq, Repr

/- Where the handling of a request is. -/
inductive RequestPc
  | rejecting
  | spawned
  | running
  | answering (answer : Answer)
  | sending (answer : Answer)
  | done
  deriving DecidableEq

/- Is the request suspended in `respond`? -/
def RequestPc.isSending : RequestPc → Bool
  | sending _ => true
  | rejecting => false
  | spawned => false
  | running => false
  | answering _ => false
  | done => false

/-
  One request frame. `ord` is its position among the frames
  the reader took.
-/
structure Request where
  header : Header
  ord : Nat
  body : Buffer
  verdict : Verdict
  pc : RequestPc
  deriving DecidableEq

------------------------------------------------------------
-- The Loops
------------------------------------------------------------

/- What a body is read for. -/
inductive BodyUse
  | limited
  | request
  | response
  | notification
  | error
  deriving DecidableEq, Repr

/- Where `msg_reader` is. -/
inductive ReaderPc
  | header
  | pong
  | body (header : Header) (use : BodyUse)
  | complete (token : UInt64) (result : OpResult)
  | completing (call : Nat) (result : OpResult)
  | completed (call : Nat)
  | rejecting
      (request : Nat) (header : Header) (closes : Bool)
  | rejected (request : Nat) (closes : Bool)
  | close (again : Bool)
  | closing (again : Bool)
  | exited
  deriving DecidableEq

namespace ReaderPc

/- Where the reader goes on when `close()` has returned. -/
def afterClose (again : Bool) : ReaderPc :=
  if again then header else exited

/- The call whose channel the reader is about to send to. -/
def completes : ReaderPc → Option Nat
  | completing call _ => some call
  | header => none
  | pong => none
  | body _ _ => none
  | complete _ _ => none
  | completed _ => none
  | rejecting _ _ _ => none
  | rejected _ _ => none
  | close _ => none
  | closing _ => none
  | exited => none

/- Is the reader suspended in a `deadline_read`? -/
def isReading : ReaderPc → Bool
  | header => true
  | body _ _ => true
  | pong => false
  | complete _ _ => false
  | completing _ _ => false
  | completed _ => false
  | rejecting _ _ _ => false
  | rejected _ _ => false
  | close _ => false
  | closing _ => false
  | exited => false

end ReaderPc

/- Where `msg_writer` is. -/
inductive WriterPc
  | ready
  | receiving
  | writing (rest : List UInt8)
  | close
  | closing
  | exited
  deriving DecidableEq

namespace WriterPc

/- Resume after `async_receive`. -/
def resume
    (order : ByteOrder) :
    Receiver WriteItem → WriterPc
  | .completed (.ok item) => .writing (item.bytes order)
  | .completed (.error _) => .close
  | .idle => .receiving
  | .waiting => .receiving

/- Has the writer left its loop? -/
def hasStopped : WriterPc → Bool
  | close => true
  | closing => true
  | exited => true
  | ready => false
  | receiving => false
  | writing _ => false

end WriterPc

/-
  How far the one effective `close()` is: about to close the
  write channel, about to empty the table, then cancelling
  and closing the channels it took, in any order, and last
  shutting down the stream.
-/
inductive Teardown
  | idle
  | writeChannel
  | table
  | channels (todo : List Nat)
  | channel (call : Nat) (todo : List Nat)
  | finished
  deriving DecidableEq, Repr

namespace Teardown

/- `compare_exchange_strong` on `is_closed_`. -/
def begin : Teardown → Teardown
  | idle => writeChannel
  | writeChannel => writeChannel
  | table => table
  | channels todo => channels todo
  | channel call todo => channel call todo
  | finished => finished

/- Is a channel still to be cancelled? -/
def todo : Teardown → List Nat
  | channels todo => todo
  | channel _ todo => todo
  | idle => []
  | writeChannel => []
  | table => []
  | finished => []

/- Has `write_channel_.close()` run? -/
def hasClosed : Teardown → Bool
  | idle => false
  | writeChannel => false
  | table => true
  | channels _ => true
  | channel _ _ => true
  | finished => true

/- Has the table been emptied? -/
def hasTaken : Teardown → Bool
  | idle => false
  | writeChannel => false
  | table => false
  | channels _ => true
  | channel _ _ => true
  | finished => true

/- The channels still to be closed. -/
def closing : Teardown → List Nat
  | channels todo => todo
  | channel call todo => call :: todo
  | idle => []
  | writeChannel => []
  | table => []
  | finished => []

@[simp] theorem hasClosed_begin (t : Teardown) :
    t.begin.hasClosed = t.hasClosed := by
  cases t <;> rfl

@[simp] theorem hasTaken_begin (t : Teardown) :
    t.begin.hasTaken = t.hasTaken := by
  cases t <;> rfl

@[simp] theorem closing_begin (t : Teardown) :
    t.begin.closing = t.closing := by
  cases t <;> rfl

theorem hasClosed_of_hasTaken
    {t : Teardown}
    (hTaken : t.hasTaken = true) :
    t.hasClosed = true := by
  cases t <;> simp_all [hasTaken, hasClosed]

end Teardown

------------------------------------------------------------
-- Events
------------------------------------------------------------

/- The identity the application stamps on a session. -/
structure Identity where
  logicalSessionId : StdString := []
  logicalDeviceId : StdString := []
  logicalRole : Int := -1
  deriving DecidableEq

/- On whose behalf a handler runs. -/
inductive Caller
  | request (request : Nat)
  | notification
  deriving DecidableEq, Repr

/- What a session did to the application, in order. -/
inductive Event
  | stamped (identity : Identity)
  | authCalled (request : Nat) (call : AuthCall)
  | invoked (caller : Caller) (callId : UInt64)
  | notified (callId : UInt64) (body : Buffer)
  deriving DecidableEq

------------------------------------------------------------
-- Sessions
------------------------------------------------------------

/-
  What a session is built with: the platform, its limits, its
  dispatcher, whether a notification callback is set, and the
  peer's identity.
-/
structure Config (ω : Type) where
  order : ByteOrder := .little
  charSigned : Bool := true
  limits : SessionLimits := {}
  dispatcher : Dispatcher ω := {}
  notificationCallback : Bool := false
  peerFingerprint : StdString := []
  peerAddress : StdString := []
  peerIp : StdString := []

/- The context that `dispatch_request` builds. -/
def Config.clientContext
    {ω : Type}
    (cfg : Config ω)
    (identity : Identity) : ClientContext where
  peerFingerprint := cfg.peerFingerprint
  peerAddress := cfg.peerAddress
  peerIp := cfg.peerIp
  logicalSessionId := identity.logicalSessionId
  logicalDeviceId := identity.logicalDeviceId
  logicalRole := identity.logicalRole

structure Session where
  received : List UInt8
  consumed : Nat
  taken : List Frame
  reader : ReaderPc
  requestBucket : TokenBucket
  writeChannel : Channel WriteItem
  writer : WriterPc
  outbound : List UInt8
  streamOpen : Bool
  nextToken : UInt64
  channels : AList fun _ : UInt64 => Nat
  calls : List PendingCall
  requests : List Request
  notifications : List (UInt64 × Buffer)
  teardown : Teardown
  identity : Identity
  log : List Event

namespace Session

/- A session as its constructor leaves it. -/
def start
    {ω : Type}
    (cfg : Config ω) : Session where
  received := []
  consumed := 0
  taken := []
  reader := .header
  requestBucket := cfg.limits.requestBucket
  writeChannel := .make 256
  writer := .ready
  outbound := []
  streamOpen := true
  nextToken := 1
  channels := ∅
  calls := []
  requests := []
  notifications := []
  teardown := .idle
  identity := {}
  log := []

/- `async_manager::pending_operations_count` -/
def pendingOperationsCount (s : Session) : Nat :=
  s.channels.entries.length

/- The bytes that were delivered and not yet read. -/
def unread (s : Session) : List UInt8 :=
  s.received.drop s.consumed

end Session

end GrlxRpc
