import GrlxRpc.Session.ErrorReplies
import GrlxRpc.Session.Requests

/-
  Why a call threw that no error frame failed.

  The closed queue refused its request, its timer had fired,
  or `close()` had emptied the table. No frame, and nothing
  else that the session does, ends a call in one of these.

  Main declarations:
    * `ThrowInv`
    * `Session.throwInv`
-/

------------------------------------------------------------
-- Ends Of A Receive
------------------------------------------------------------

namespace GrlxRpc

namespace PendingCall

/- A call times out by its flag, or by the code it was sent. -/
theorem outcome_eq_timeout
    {timedOut : Bool}
    {result : Except ChannelError OpResult}
    (hThrew : outcome timedOut result = .threw .timeout) :
    timedOut = true ∨
      ∃ r, result = .ok r ∧ r.ec = some .timedOut := by
  cases timedOut with
  | true => exact .inl rfl
  | false =>
      right
      rcases result with error | ⟨_ | ec, buffer, frame⟩
      · simp [outcome] at hThrew
      · simp [outcome] at hThrew
      · cases ec <;> simp_all [outcome]

/- A call throws the error that ended its receive. -/
theorem outcome_eq_channel
    {timedOut : Bool}
    {result : Except ChannelError OpResult}
    {e : ChannelError}
    (hThrew : outcome timedOut result = .threw (.channel e)) :
    timedOut = false ∧ result = .error e := by
  rcases result with error | ⟨_ | _ | _, _, _⟩ <;>
    cases timedOut <;> simp_all [outcome]

/- No receive ends a call as a closed queue does. -/
theorem outcome_ne_queueClosed
    (timedOut : Bool)
    (result : Except ChannelError OpResult) :
    outcome timedOut result ≠ .threw .queueClosed := by
  rcases result with error | ⟨_ | _ | _, _, _⟩ <;>
    cases timedOut <;> simp [outcome]

end PendingCall

/-
  What call `i` threw for, and what its channel holds for it
  to throw yet.
-/
structure ThrowInv
    (items : List WriteItem)
    (isOpen : Bool)
    (hasTaken : Bool)
    (i : Nat)
    (call : PendingCall) : Prop where
  codes :
    ∀ r ∈ call.channel.admitted, r.ec ≠ some .timedOut
  interrupted :
    ∀ e, call.channel.receiver = .completed (.error e) →
      call.timedOut = true ∨ hasTaken = true
  shut : call.channel.isOpen = false → hasTaken = true
  told : call.timer = .stored → call.timedOut = true
  queueClosed :
    call.pc = .threw .queueClosed →
      isOpen = false ∧ itemsOf (.call i) items = []
  timeout :
    call.pc = .threw .timeout → call.timedOut = true
  channel :
    ∀ e, call.pc = .threw (.channel e) → hasTaken = true

namespace ThrowInv

variable {items items' : List WriteItem}
variable {isOpen isOpen' : Bool}
variable {hasTaken hasTaken' : Bool}
variable {i : Nat}
variable {call : PendingCall}

/- The queue and `close()` go on, and queue no new request. -/
theorem frame
    (hInv : ThrowInv items isOpen hasTaken i call)
    (hSame : itemsOf (.call i) items' = itemsOf (.call i) items)
    (hShut : isOpen = false → isOpen' = false)
    (hTaken : hasTaken = true → hasTaken' = true) :
    ThrowInv items' isOpen' hasTaken' i call where
  codes := hInv.codes
  interrupted := fun e hError =>
    (hInv.interrupted e hError).imp id hTaken
  shut := fun hClosed => hTaken (hInv.shut hClosed)
  told := hInv.told
  queueClosed := by
    intro hPc
    rw [hSame]
    exact (hInv.queueClosed hPc).imp hShut id
  timeout := hInv.timeout
  channel := fun e hPc => hTaken (hInv.channel e hPc)

/- The call moves on, and has not thrown. -/
theorem move
    (hInv : ThrowInv items isOpen hasTaken i call)
    {call' : PendingCall}
    (hChannel : call'.channel = call.channel)
    (hTimedOut : call'.timedOut = call.timedOut)
    (hTimer : call'.timer = .stored → call.timer = .stored)
    (hPc : ∀ e, call'.pc ≠ .threw e) :
    ThrowInv items isOpen hasTaken i call' where
  codes := hChannel ▸ hInv.codes
  interrupted := by
    rw [hChannel, hTimedOut]
    exact hInv.interrupted
  shut := hChannel ▸ hInv.shut
  told := fun h => hTimedOut ▸ hInv.told (hTimer h)
  queueClosed := fun h => absurd h (hPc _)
  timeout := fun h => absurd h (hPc _)
  channel := fun e h => absurd h (hPc _)

/- The call offers its request, which a closed queue refuses. -/
theorem queue
    (hInv : ThrowInv items isOpen hasTaken i call)
    (hRefused :
      isOpen = false → itemsOf (.call i) items' = []) :
    ThrowInv items' isOpen hasTaken i
      { call with
        pc :=
          if isOpen then .sending
          else .threw .queueClosed } := by
  constructor
  case codes => exact hInv.codes
  case interrupted => exact hInv.interrupted
  case shut => exact hInv.shut
  case told => exact hInv.told
  all_goals cases isOpen <;> simp [hRefused]

/- The timer's handler goes on. -/
theorem timer
    (hInv : ThrowInv items isOpen hasTaken i call)
    {timer : TimerPc}
    {timedOut : Bool}
    (hTimedOut : call.timedOut = true → timedOut = true)
    (hTold : timer = .stored → timedOut = true) :
    ThrowInv items isOpen hasTaken i
      { call with timer := timer, timedOut := timedOut } where
  codes := hInv.codes
  interrupted := fun e hError =>
    (hInv.interrupted e hError).imp hTimedOut id
  shut := hInv.shut
  told := hTold
  queueClosed := hInv.queueClosed
  timeout := fun hPc => hTimedOut (hInv.timeout hPc)
  channel := hInv.channel

/- The channel changes, and what it holds is accounted for. -/
theorem onChannel
    (hInv : ThrowInv items isOpen hasTaken i call)
    {channel : Channel OpResult}
    (hCodes : ∀ r ∈ channel.admitted, r.ec ≠ some .timedOut)
    (hError :
      ∀ e, channel.receiver = .completed (.error e) →
        call.timedOut = true ∨ hasTaken = true)
    (hShut : channel.isOpen = false → hasTaken = true) :
    ThrowInv items isOpen hasTaken i
      { call with channel := channel } where
  codes := hCodes
  interrupted := hError
  shut := hShut
  told := hInv.told
  queueClosed := hInv.queueClosed
  timeout := hInv.timeout
  channel := hInv.channel

/- The channel is cancelled, for one of the two reasons. -/
theorem cancel
    (hInv : ThrowInv items isOpen hasTaken i call)
    (hWhy : call.timedOut = true ∨ hasTaken = true) :
    ThrowInv items isOpen hasTaken i
      { call with channel := call.channel.cancel } :=
  hInv.onChannel
    (fun r hMem => hInv.codes r
      (call.channel.admitted_cancel_subset hMem))
    (fun _ _ => hWhy) hInv.shut

/- The reader hands over its result. -/
theorem send
    (hInv : ThrowInv items isOpen hasTaken i call)
    {result : OpResult}
    (hCode : result.ec ≠ some .timedOut) :
    ThrowInv items isOpen hasTaken i
      { call with
        channel := call.channel.asyncSend result } := by
  refine hInv.onChannel ?_ ?_ (by simpa using hInv.shut)
  · intro r hMem
    rw [Channel.asyncSend_admitted] at hMem
    split at hMem
    · rcases List.mem_append.mp hMem with hOld | hNew
      · exact hInv.codes r hOld
      · exact List.mem_singleton.mp hNew ▸ hCode
    · exact hInv.codes r hMem
  · intro e hError
    rcases call.channel.asyncSend_receiver result with
      ⟨hSame, -⟩ | ⟨-, hHanded, -⟩
    · exact hInv.interrupted e (hSame ▸ hError)
    · simp [hHanded] at hError

/- The call starts to receive. -/
theorem receive
    (hInv : ThrowInv items isOpen hasTaken i call) :
    ThrowInv items isOpen hasTaken i
      { call with
        pc := .receiving
        channel := call.channel.asyncReceive } := by
  have hMoved :
      ThrowInv items isOpen hasTaken i
        { call with pc := .receiving } :=
    hInv.move rfl rfl id (by simp)
  refine hMoved.onChannel ?_ ?_ (by simpa using hInv.shut)
  · simpa using hInv.codes
  · intro e hError
    exact .inr
      (hInv.shut (call.channel.asyncReceive_error hError).1)

/- The call resumes, with its receive or without it. -/
theorem resume
    (hInv : ThrowInv items isOpen hasTaken i call) :
    ThrowInv items isOpen hasTaken i call.resume := by
  cases hReceiver : call.channel.receiver with
  | idle => simpa [PendingCall.resume, hReceiver] using hInv
  | waiting => simpa [PendingCall.resume, hReceiver] using hInv
  | completed result =>
      rw [PendingCall.resume, hReceiver]
      constructor
      case codes => exact hInv.codes
      case interrupted =>
        intro e hError
        simp [Channel.consume] at hError
      case shut => exact hInv.shut
      case told => exact hInv.told
      case queueClosed =>
        intro hPc
        exact absurd hPc
          (PendingCall.outcome_ne_queueClosed _ _)
      case timeout =>
        intro hPc
        rcases PendingCall.outcome_eq_timeout hPc with
          hTimedOut | ⟨r, rfl, hCode⟩
        · exact hTimedOut
        · have hMem :=
            call.channel.delivered_prefix_admitted.subset
              (call.channel.handed r hReceiver)
          exact absurd hCode (hInv.codes r hMem)
      case channel =>
        intro e hPc
        rcases PendingCall.outcome_eq_channel hPc with
          ⟨hNot, rfl⟩
        rcases hInv.interrupted e hReceiver with
          hTimedOut | hTaken
        · rw [hNot] at hTimedOut
          cases hTimedOut
        · exact hTaken

end ThrowInv

------------------------------------------------------------
-- Every Run
------------------------------------------------------------

/- The reader's result and the calls. -/
structure ThrowsInv (s : Session) : Prop where
  carried :
    ∀ r, s.reader.result = some r → r.ec ≠ some .timedOut
  calls :
    ∀ (i : Nat) (call : PendingCall),
      s.calls[i]? = some call →
        ThrowInv s.writeChannel.admitted s.writeChannel.isOpen
          s.teardown.hasTaken i call

namespace Session

variable {ω : Type}
variable {cfg : Config ω}

/- No frame gives a call the code of a timeout. -/
theorem ec_afterHeader
    {rid ord : Nat}
    {header : Header}
    {kind : Intake}
    {r : OpResult}
    (hResult :
      (afterHeader rid ord header kind).result = some r) :
    r.ec ≠ some .timedOut := by
  cases kind with
  | emptyError =>
      rcases Option.some.inj hResult with rfl
      simp
  | _ => cases hResult

theorem ec_afterBody
    {rid ord : Nat}
    {header : Header}
    {body : Buffer}
    {use : BodyUse}
    {r : OpResult}
    (hResult :
      (afterBody rid ord header body use).result = some r) :
    r.ec ≠ some .timedOut := by
  cases use with
  | response =>
      rcases Option.some.inj hResult with rfl
      simp
  | error =>
      rcases Option.some.inj hResult with rfl
      simp
  | _ => cases hResult

theorem throwInv
    {ok : Session → Action ω → Prop}
    {s : Session}
    (hReach : ReachableBy cfg ok s) :
    ThrowsInv s := by
  refine invariant ThrowsInv ?_ ?_ hReach
  · constructor <;> simp [start, ReaderPc.result]
  intro s a hPrior hInv _ hEnabled
  have hTaken :=
    (latch_hasTaken cfg).update s a hEnabled
  -- A call whose request this action does not queue.
  have hFrame :
      ∀ {i : Nat} {call : PendingCall},
        producer a ≠ some (.call i) →
        ThrowInv s.writeChannel.admitted s.writeChannel.isOpen
            s.teardown.hasTaken i call →
          ThrowInv (s.update cfg a).writeChannel.admitted
            (s.update cfg a).writeChannel.isOpen
            (s.update cfg a).teardown.hasTaken i call := by
    intro i call hOther hOld
    refine hOld.frame ?_ (s.isOpen_update cfg a) hTaken
    rw [admitted_update, itemsOf_append,
      itemsOf_admits cfg s a hOther, List.append_nil]
  -- The reader stays where it is, or has no result.
  have hCalls :
      (∀ i, producer a ≠ some (.call i)) →
        (∀ r, (s.update cfg a).reader.result = some r →
          r.ec ≠ some .timedOut) →
          (s.update cfg a).calls = s.calls →
            ThrowsInv (s.update cfg a) :=
    fun hOther hReader hSame => ⟨hReader, fun i call hGet =>
      hFrame (hOther i) (hInv.calls i call (hSame ▸ hGet))⟩
  -- One call changes, and nothing else that matters here.
  have hModify :
      ∀ {i : Nat} {f : PendingCall → PendingCall},
        (∀ j, producer a ≠ some (.call j)) →
        (∀ r, (s.update cfg a).reader.result = some r →
          r.ec ≠ some .timedOut) →
        (s.update cfg a).calls = s.calls.modify i f →
        (∀ call, s.calls[i]? = some call →
          ThrowInv (s.update cfg a).writeChannel.admitted
              (s.update cfg a).writeChannel.isOpen
              (s.update cfg a).teardown.hasTaken i call →
            ThrowInv (s.update cfg a).writeChannel.admitted
              (s.update cfg a).writeChannel.isOpen
              (s.update cfg a).teardown.hasTaken i
              (f call)) →
          ThrowsInv (s.update cfg a) := by
    intro i f hOther hReader hSame hAt
    refine ⟨hReader, ?_⟩
    rw [hSame]
    exact Records.forall_getElem?_modify_of_forall
      (fun j call hGet => hFrame (hOther j)
        (hInv.calls j call hGet)) hAt
  cases a with
  | generateToken callName reqBuffer =>
      refine ⟨hInv.carried,
        Records.forall_getElem?_concat hInv.calls ?_⟩
      constructor <;>
        simp [PendingCall.create, Channel.make,
          Channel.admitted]
  | registerOperation i =>
      exact hModify (by simp [producer]) hInv.carried rfl
        fun call _ hOld => hOld.move rfl rfl id (by simp)
  | queueCall i =>
      rcases hEnabled with ⟨call, hGet, hPc⟩
      have hGet := Option.mem_def.mp hGet
      refine ⟨hInv.carried, ?_⟩
      refine Records.forall_getElem?_modify
        (fun j other hOther hNe =>
          hFrame (by simpa [producer] using hNe.symm)
            (hInv.calls j other hOther)) ?_
      intro call' hGet'
      obtain rfl : call = call' :=
        Option.some.inj (hGet.symm.trans hGet')
      have hUnsent := ownInv hPrior i
      rw [hGet] at hUnsent
      have hOpen :
          (s.update cfg (.queueCall i)).writeChannel.isOpen =
            s.writeChannel.isOpen := by
        simp [update, hGet]
      rw [hOpen]
      refine (hInv.calls i call hGet).queue fun hShut => ?_
      rw [admitted_update, itemsOf_append,
        hUnsent.1 (.inr hPc)]
      simp [admits, hGet, hShut, itemsOf]
  | armTimer i =>
      exact hModify (by simp [producer]) hInv.carried rfl
        fun call _ hOld =>
          hOld.move rfl rfl (by simp) (by simp)
  | receiveReply i =>
      exact hModify (by simp [producer]) hInv.carried rfl
        fun call _ hOld => hOld.receive
  | resumeCall i =>
      exact hModify (by simp [producer]) hInv.carried rfl
        fun call _ hOld => hOld.resume
  | timerFire i =>
      exact hModify (by simp [producer]) hInv.carried rfl
        fun call _ hOld => hOld.timer id fun hStored => by
          split at hStored <;> cases hStored
  | timerStore i =>
      exact hModify (by simp [producer]) hInv.carried rfl
        fun call _ hOld =>
          hOld.timer (fun _ => rfl) fun _ => rfl
  | timerCancel i =>
      rcases hEnabled with ⟨call, hGet, hStored⟩
      refine hModify (by simp [producer]) hInv.carried rfl
        fun call' hGet' hOld => ?_
      obtain rfl : call = call' :=
        Option.some.inj (hGet.symm.trans hGet')
      have hTold := hOld.told hStored
      exact (hOld.cancel (.inl hTold)).timer id fun _ => hTold
  | cancelChannel i =>
      have hAt : s.teardown.hasTaken = true := by
        rw [hEnabled.1]
        rfl
      exact hModify (by simp [producer]) hInv.carried rfl
        fun call _ hOld => hOld.cancel (.inr (hTaken hAt))
  | closeChannel i =>
      have hNow :
          (s.update cfg (.closeChannel i)).teardown.hasTaken =
            true := rfl
      exact hModify (by simp [producer]) hInv.carried rfl
        fun call _ hOld => hOld.onChannel hOld.codes
          (fun _ _ => .inr hNow) fun _ => hNow
  | readHeader now =>
      exact hCalls (by simp [producer])
        (fun r hResult => ec_afterHeader hResult) rfl
  | readBody header use =>
      exact hCalls (by simp [producer])
        (fun r hResult => ec_afterBody hResult) rfl
  | findOperation token result =>
      have hAt : s.reader = .complete token result := hEnabled
      refine hCalls (by simp [producer]) ?_ rfl
      intro r hResult
      refine hInv.carried r ?_
      rw [hAt]
      simp only [update] at hResult
      cases hLookup : s.channels.lookup token with
      | none => simp [hLookup, ReaderPc.result] at hResult
      | some i =>
          rw [hLookup] at hResult
          exact hResult
  | sendResult i result =>
      have hAt : s.reader = .completing i result := hEnabled
      refine hModify (by simp [producer]) ?_ rfl
        fun call _ hOld =>
          hOld.send (hInv.carried result (by rw [hAt]; rfl))
      intro r hResult
      simp only [update] at hResult
      split at hResult <;> cases hResult
  | sendPong =>
      exact hCalls (by simp [producer])
        (fun r hResult => by cases hResult) rfl
  | readFail =>
      exact hCalls (by simp [producer])
        (fun r hResult => by cases hResult) rfl
  | resumeResult i =>
      exact hCalls (by simp [producer])
        (fun r hResult => by cases hResult) rfl
  | rejectRequest rid header closes =>
      refine hCalls (by simp [producer]) ?_ rfl
      intro r hResult
      simp only [update] at hResult
      split at hResult <;> cases hResult
  | resumeReject rid closes =>
      refine hCalls (by simp [producer]) ?_ rfl
      intro r hResult
      simp only [update] at hResult
      split at hResult <;> cases hResult
  | readerClose again =>
      refine hCalls (by simp [producer]) ?_ rfl
      intro r hResult
      simp only [update] at hResult
      split at hResult
      · cases hResult
      · cases again <;> cases hResult
  | readerClosed again =>
      refine hCalls (by simp [producer]) ?_ rfl
      intro r hResult
      cases again <;> cases hResult
  | _ => exact hCalls (by simp [producer]) hInv.carried rfl

end Session

end GrlxRpc
