import GrlxRpc.Client.Events
import GrlxRpc.Session.Thrown

/-
  What an invocation ends with is what happened to its one
  request at the other end of the session it loaded.

  A value that is returned is what the handler returned for
  the invocation's arguments. No reconnect, no other
  invocation and no reply to one can come between. An error
  that is thrown names what went wrong.

  Main declarations:
    * `Signature.result_handled`
    * `Link.reply_of_failure`
    * `Invoker.Provides` and `Invoker.Outcome`
    * `Invoker.outcome`
-/

------------------------------------------------------------
-- Typed Calls
------------------------------------------------------------

namespace GrlxRpc

namespace Signature

variable {ω : Type}

/- A method's entry runs its function on the arguments sent. -/
theorem result_handled
    {order peer : ByteOrder}
    {sig : Signature}
    {isAsync : Bool}
    {theCall : ω → sig.Args → Except Exn sig.Ret}
    (hBacked : sig.request.body.Backed)
    {d : Dispatcher ω}
    {callId : UInt64}
    {entry : MethodEntry ω}
    (hFound : d.dispatchTable.lookup callId = some entry)
    (hHandler :
      entry.handler = sig.call order isAsync theCall)
    {args : sig.Args}
    {reqBuffer : Buffer}
    (hEncode :
      encode peer sig.request.body args = some reqBuffer)
    (w : ω) :
    (d.handled order w callId reqBuffer).result =
      (theCall w args).map fun ret =>
        (encode order sig.response.body ret).getD
          Buffer.empty := by
  have hDecoded := decodeMessage_of_encode order hBacked hEncode
    sig.request.body.initial
  rw [d.handled_found order w callId reqBuffer hFound,
    hHandler]
  simp only [Dispatcher.ran, Call.apply, call]
  unfold decodeMessage at hDecoded
  rw [hDecoded]

end Signature

------------------------------------------------------------
-- Failed Calls
------------------------------------------------------------

/- A call fails by an error that the server queued for it. -/
theorem Link.reply_of_failure
    {ω ω' : Type}
    {setup : Link.Setup ω ω'}
    {l : Link}
    (hJoined : Joined setup l)
    {i : Nat}
    {call : PendingCall}
    {ec : ErrorCode}
    (hCall : l.client.calls[i]? = some call)
    (hFailed : call.pc = .threw (.failed ec)) :
    ∃ reply ∈ l.server.writeChannel.accepted,
      reply.header.incomingType = some .error ∧
        reply.header.userToken = tokenOf i := by
  rcases Session.failed_by_error hJoined.client hCall hFailed
    with ⟨r, frame, hGet, hClean, hMagic, hToken, hType⟩
  have hHeads :=
    Session.headInv (Session.latch_hasTaken setup.client)
      (fun _ _ h => h.settles) hJoined.client
  rcases Session.item_of_clean hJoined.client hJoined.server
      hJoined.replies hHeads hGet hMagic hClean with
    ⟨reply, hReply, hHead, -⟩
  exact ⟨reply, List.mem_of_getElem? hReply, hHead ▸ hType,
    hHead ▸ hToken⟩

------------------------------------------------------------
-- Methods Of The Server
------------------------------------------------------------

namespace Link

variable {ω ω' : Type}
variable {setup : Setup ω ω'}

/- The server has this function attached under the name. -/
def Provides
    (setup : Setup ω ω')
    (sig : Signature)
    (funcName : StdString)
    (theCall : ω' → sig.Args → Except Exn sig.Ret) : Prop :=
  ∃ entry isAsync,
    setup.server.dispatcher.dispatchTable.lookup
        (shash64 setup.client.charSigned funcName) =
      some entry ∧
    entry.handler =
      sig.call setup.server.order isAsync theCall

variable {sig : Signature}
variable {theCall : ω' → sig.Args → Except Exn sig.Ret}
variable {args : sig.Args}

/- What a request was answered with, by the function. -/
theorem handlerAnswer_eq
    {request : Request}
    {call : PendingCall}
    (hProvides :
      Provides setup sig call.callName theCall)
    (hBacked : sig.request.body.Backed)
    (hEncode :
      encode setup.client.order sig.request.body args =
        some call.reqBuffer)
    (hId :
      request.header.callId =
        shash64 setup.client.charSigned call.callName)
    (hBody : request.body = call.reqBuffer)
    (w : ω') :
    Session.handlerAnswer setup.server w request =
      .ofResult
        ((theCall w args).map fun ret =>
          (encode setup.server.order sig.response.body
            ret).getD Buffer.empty) := by
  rcases hProvides with ⟨entry, isAsync, hFound, hHandler⟩
  rw [Session.handlerAnswer, hId, hBody,
    Signature.result_handled hBacked hFound hHandler hEncode]

/- A call that returned has run the function once. -/
theorem executed_of_returned
    {l : Link}
    (hJoined : Joined setup l)
    {history : List (Nat × ω')}
    (hRan : Session.Ran setup.server l.server history)
    {i : Nat}
    {call : PendingCall}
    (hProvides :
      Provides setup sig call.callName theCall)
    (hBacked : sig.request.body.Backed)
    (hEncode :
      encode setup.client.order sig.request.body args =
        some call.reqBuffer)
    (hCall : l.client.calls[i]? = some call)
    {rspBuffer : Buffer}
    (hReturned : call.pc = .returned rspBuffer) :
    ∃ rid w ret,
      Executes setup l i rid ∧
        (rid, w) ∈ history ∧
        theCall w args = .ok ret ∧
        rspBuffer =
          (encode setup.server.order sig.response.body
            ret).getD Buffer.empty := by
  rcases reply_of_result hJoined hCall hReturned with
    ⟨reply, hReply, hType, hToken, hRsp⟩
  rcases earned_of_token hJoined hRan hCall hReply
      (.inl hType) hToken with
    ⟨rid, request, answer, hRequest, hServes, hId, hBody,
      hAnswer, hEarned⟩
  rw [hAnswer] at hType
  have hResponse := Answer.eq_response hType
  rw [hResponse] at hEarned
  rcases hEarned with ⟨hInvoked, w, hFinished, hHandled⟩
  rcases invocations_of_invoked hJoined hInvoked with
    ⟨request', hRequest', hVerdict, hOne⟩
  obtain rfl : request = request' :=
    Option.some.inj (hRequest.symm.trans hRequest')
  rw [handlerAnswer_eq hProvides hBacked hEncode hId
    (hBody hVerdict)] at hHandled
  have hExecutes : Executes setup l i rid :=
    ⟨hServes, call, request, hCall, hRequest,
      hBody hVerdict, by rw [hOne, hId]⟩
  cases hCallee : theCall w args with
  | error e =>
      rw [hCallee] at hHandled
      cases hHandled
  | ok ret =>
      rw [hCallee] at hHandled
      refine ⟨rid, w, ret, hExecutes, hFinished, hCallee, ?_⟩
      rw [← hRsp, hAnswer]
      exact (Answer.response.inj hHandled).symm

/-
  Why a call failed: the request was refused, the gate turned
  it away, or the function threw.
-/
theorem refused_of_failed
    {l : Link}
    (hJoined : Joined setup l)
    {history : List (Nat × ω')}
    (hRan : Session.Ran setup.server l.server history)
    {i : Nat}
    {call : PendingCall}
    (hProvides :
      Provides setup sig call.callName theCall)
    (hBacked : sig.request.body.Backed)
    (hEncode :
      encode setup.client.order sig.request.body args =
        some call.reqBuffer)
    (hCall : l.client.calls[i]? = some call)
    {ec : ErrorCode}
    (hFailed : call.pc = .threw (.failed ec)) :
    ∃ rid request,
      l.Serves i rid ∧
        l.server.requests[rid]? = some request ∧
        (request.verdict ≠ .spawned ∨
          (∃ w identity e,
            (setup.server.dispatcher.enter w
              (shash64 setup.client.charSigned call.callName)
              (setup.server.clientContext identity)).2 =
                .error e) ∨
          ∃ w e, (rid, w) ∈ history ∧
            theCall w args = .error e) := by
  rcases reply_of_failure hJoined hCall hFailed with
    ⟨reply, hReply, hType, hToken⟩
  rcases earned_of_token hJoined hRan hCall hReply
      (.inr hType) hToken with
    ⟨rid, request, answer, hRequest, hServes, hId, hBody,
      hAnswer, hEarned⟩
  refine ⟨rid, request, hServes, hRequest, ?_⟩
  by_cases hVerdict : request.verdict = .spawned
  · right
    rw [hAnswer] at hType
    cases answer with
    | response body =>
        simp [Answer.item, WriteItem.respond, Answer.type]
          at hType
    | error =>
        rcases hEarned with hNot | hDenied |
          ⟨w, hFinished, hHandled⟩
        · exact absurd hVerdict hNot
        · left
          rcases hDenied with ⟨w, identity, e, hDenied⟩
          exact ⟨w, identity, e, hId ▸ hDenied⟩
        · right
          rw [handlerAnswer_eq hProvides hBacked hEncode hId
            (hBody hVerdict)] at hHandled
          cases hCallee : theCall w args with
          | error e => exact ⟨w, e, hFinished, hCallee⟩
          | ok ret =>
              rw [hCallee] at hHandled
              cases hHandled
  · exact .inl hVerdict

end Link

------------------------------------------------------------
-- Outcomes
------------------------------------------------------------

namespace Invoker

variable {ω ω' : Type}
variable {setup : Link.Setup ω ω'}

/- The connection of attempt `c`. -/
def linkOf
    (s : Invoker)
    (c : Nat) : Option Link :=
  s.client.sessions[c]?.bind fun session =>
    s.peers[c]?.map fun peer =>
      { client := session, server := peer }

/-
  How an invocation of `theCall` ends, over a run with these
  events. `failed` leaves the gate's reason open: an
  unattached name, or a callback that did not let the request
  through.
-/
structure Outcome
    (setup : Link.Setup ω ω')
    (s : Invoker)
    (history : List (InvokerEvent ω'))
    (k : Nat)
    (inv : TypedInvocation)
    (theCall : ω' → inv.sig.Args → Except Exn inv.sig.Ret) :
    Prop where
  returned :
    ∀ value, inv.pc = .returned value →
      ∃ c i rid w l,
        inv.place = some (c, i) ∧
          s.linkOf c = some l ∧
          Link.Executes (linkSetup setup) l i rid ∧
          .ran c rid w ∈ history ∧
          theCall w inv.args = .ok value
  undecoded :
    inv.pc = .threw .decodeFailed →
      ∃ c i rid w value l,
        inv.place = some (c, i) ∧
          s.linkOf c = some l ∧
          Link.Executes (linkSetup setup) l i rid ∧
          .ran c rid w ∈ history ∧
          theCall w inv.args = .ok value ∧
          encode setup.server.order inv.sig.response.body
            value = none
  failed :
    ∀ ec, inv.pc = .threw (.call (.failed ec)) →
      ∃ c i rid l request,
        inv.place = some (c, i) ∧
          s.linkOf c = some l ∧
          l.Serves i rid ∧
          l.server.requests[rid]? = some request ∧
          (request.verdict ≠ .spawned ∨
            (∃ w identity e,
              (setup.server.dispatcher.enter w
                (shash64 setup.client.charSigned inv.funcName)
                (setup.server.clientContext identity)).2 =
                  .error e) ∨
            ∃ w e, .ran c rid w ∈ history ∧
              theCall w inv.args = .error e)
  queueClosed :
    inv.pc = .threw (.call .queueClosed) →
      ∃ c i l,
        inv.place = some (c, i) ∧
          s.linkOf c = some l ∧
          l.client.writeChannel.isOpen = false ∧
          ∀ rid, ¬ l.Serves i rid
  timeout :
    inv.pc = .threw (.call .timeout) →
      ∃ c i l call,
        inv.place = some (c, i) ∧
          s.linkOf c = some l ∧
          l.client.calls[i]? = some call ∧
          call.timedOut = true
  channel :
    ∀ e, inv.pc = .threw (.call (.channel e)) →
      ∃ c i l,
        inv.place = some (c, i) ∧
          s.linkOf c = some l ∧
          l.client.teardown.hasTaken = true
  disconnected :
    inv.pc = .threw .notConnected →
      inv.place = none ∧ .loaded k none ∈ history
  unencoded :
    inv.pc = .threw .encodeFailed →
      inv.place = none ∧
        inv.reqBuffer setup.client.order = none
  named :
    ∀ error, inv.pc = .threw error →
      error = .notConnected ∨ error = .encodeFailed ∨
        error = .decodeFailed ∨
        ∃ callError, error = .call callError
  loaded :
    ∀ c i, inv.place = some (c, i) →
      .loaded k (some c) ∈ history
  loadedOnce : ((loadsOf history).map Prod.fst).Nodup
  ranOnce : ∀ c, ((runsOf c history).map Prod.fst).Nodup
  once :
    ∀ c i l, inv.place = some (c, i) → s.linkOf c = some l →
      ∀ rid rid', Link.Executes (linkSetup setup) l i rid →
        Link.Executes (linkSetup setup) l i rid' → rid = rid'
  own :
    ∀ k' inv' place, s.invocations[k']? = some inv' →
      inv.place = some place → inv'.place = some place →
        k' = k

/- The connection of an invocation that has made its call. -/
theorem linkOf_placed
    {s : Invoker}
    {history : List (InvokerEvent ω')}
    (hTraced : Traced setup s history)
    {c : Nat}
    {session : Session}
    (hSession : s.client.sessions[c]? = some session) :
    ∃ l, s.linkOf c = some l ∧ l.client = session ∧
      Link.Joined (linkSetup setup) l ∧
      Session.Ran setup.server l.server
        (runsOf c history) := by
  rcases link_reachable
      (Transition.reachableBy_of_observed hTraced) hSession
    with ⟨peer, hPeer, hLink⟩
  refine ⟨{ client := session, server := peer }, ?_, rfl,
    Link.joined hLink, (peers_ran hTraced).each c peer hPeer⟩
  simp [linkOf, hSession, hPeer]

/- An invocation that ended with what its call gave. -/
theorem call_of_ended
    {order : ByteOrder}
    {sessions : List Session}
    {inv : TypedInvocation}
    (hInv : InvocationInv order sessions inv)
    (hOver :
      inv.pc.isLoading = false ∧ inv.pc.loaded = none ∧
        inv.pc.inside = none)
    (hSent :
      inv.pc ≠ .threw .notConnected ∧
        inv.pc ≠ .threw .encodeFailed) :
    ∃ c i session call,
      inv.place = some (c, i) ∧
        sessions[c]? = some session ∧
        session.calls[i]? = some call ∧
        call.callName = inv.funcName ∧
        inv.reqBuffer order = some call.reqBuffer ∧
        call.pc.isFinished = true ∧
        inv.pc = inv.resumed order call.pc := by
  unfold InvocationInv at hInv
  split at hInv
  · exfalso
    rcases hInv with hLoading | hLoaded | hPc | ⟨hPc, -⟩
    · simp [hOver.1] at hLoading
    · simp [hOver.2.1] at hLoaded
    · exact hSent.1 hPc
    · exact hSent.2 hPc
  · next c i hPlace =>
    rcases hInv with ⟨session, call, hSession, hCall, hName,
      hBuffer, hPc | ⟨hFinished, hPc⟩⟩
    · rw [hPc] at hOver
      cases hOver.2.2
    · exact ⟨c, i, session, call, hPlace, hSession, hCall,
        hName, hBuffer, hFinished, hPc⟩

/- An invocation throws a call's error because it threw it. -/
theorem call_of_threw
    {order : ByteOrder}
    {sessions : List Session}
    {inv : TypedInvocation}
    (hInv : InvocationInv order sessions inv)
    {callError : CallError}
    (hPc : inv.pc = .threw (.call callError)) :
    ∃ c i session call,
      inv.place = some (c, i) ∧
        sessions[c]? = some session ∧
        session.calls[i]? = some call ∧
        call.callName = inv.funcName ∧
        inv.reqBuffer order = some call.reqBuffer ∧
        call.pc = .threw callError := by
  rcases call_of_ended hInv
      (by rw [hPc]; exact ⟨rfl, rfl, rfl⟩)
      (by
        rw [hPc]
        simp [InvokeError.notConnected,
          InvokeError.encodeFailed]) with
    ⟨c, i, session, call, hPlace, hSession, hCall, hName,
      hBuffer, hFinished, hEnded⟩
  rcases TypedInvocation.resumed_eq_threw hFinished
      (hEnded.symm.trans hPc) with
    ⟨callError', hThrew, hSame⟩ | ⟨_, -, -, hNot⟩
  · rcases InvokeError.call.inj hSame with rfl
    exact ⟨c, i, session, call, hPlace, hSession, hCall,
      hName, hBuffer, hThrew⟩
  · cases hNot

/- What an invocation that threw is about. -/
theorem unplaced_of_threw
    {order : ByteOrder}
    {sessions : List Session}
    {inv : TypedInvocation}
    (hInv : InvocationInv order sessions inv)
    {error : InvokeError}
    (hPc : inv.pc = .threw error) :
    (inv.place = none ∧
        (error = .notConnected ∨
          error = .encodeFailed ∧ inv.reqBuffer order = none)) ∨
      error = .decodeFailed ∨
        ∃ callError, error = .call callError := by
  unfold InvocationInv at hInv
  split at hInv
  · next hPlace =>
    left
    refine ⟨hPlace, ?_⟩
    rcases hInv with hLoading | hLoaded | hOther |
      ⟨hOther, hBuffer⟩
    · simp [hPc, InvokePc.isLoading] at hLoading
    · simp [hPc, InvokePc.loaded] at hLoaded
    · exact .inl (InvokePc.threw.inj (hPc.symm.trans hOther))
    · exact .inr
        ⟨InvokePc.threw.inj (hPc.symm.trans hOther), hBuffer⟩
  · next c i hPlace =>
    right
    rcases hInv with ⟨session, call, -, -, -, -,
      hCalling | ⟨hFinished, hEnded⟩⟩
    · rw [hPc] at hCalling
      cases hCalling
    · rcases TypedInvocation.resumed_eq_threw hFinished
          (hEnded.symm.trans hPc) with
        ⟨callError, -, hSame⟩ | ⟨_, -, -, hSame⟩
      · exact .inr ⟨callError, hSame⟩
      · exact .inl hSame

/- An invocation whose call returned has run its function. -/
theorem executed_of_decoded
    {s : Invoker}
    {history : List (InvokerEvent ω')}
    (hTraced : Traced setup s history)
    {inv : TypedInvocation}
    {theCall : ω' → inv.sig.Args → Except Exn inv.sig.Ret}
    (hProvides :
      Link.Provides setup inv.sig inv.funcName theCall)
    (hBacked : inv.sig.Backed)
    {c i : Nat}
    {session : Session}
    (hSession : s.client.sessions[c]? = some session)
    {call : PendingCall}
    (hCall : session.calls[i]? = some call)
    (hName : call.callName = inv.funcName)
    (hBuffer :
      inv.reqBuffer setup.client.order = some call.reqBuffer)
    {rspBuffer : Buffer}
    (hReturned : call.pc = .returned rspBuffer) :
    ∃ rid w ret l,
      s.linkOf c = some l ∧
        Link.Executes (linkSetup setup) l i rid ∧
        .ran c rid w ∈ history ∧
        theCall w inv.args = .ok ret ∧
        rspBuffer =
          (encode setup.server.order inv.sig.response.body
            ret).getD Buffer.empty := by
  rcases linkOf_placed hTraced hSession with
    ⟨l, hLink, rfl, hJoined, hRan⟩
  have hSame :
      Link.Provides (linkSetup setup) inv.sig call.callName
        theCall := by
    rw [hName]
    exact hProvides
  rcases Link.executed_of_returned hJoined hRan hSame
      hBacked.args hBuffer hCall hReturned with
    ⟨rid, w, ret, hExecutes, hFinished, hCallee, hRsp⟩
  exact ⟨rid, w, ret, l, hLink, hExecutes,
    mem_runsOf.mp hFinished, hCallee, hRsp⟩

/- What the client reads in what the server wrote. -/
theorem decoded_getD
    (order : ByteOrder)
    {peer : ByteOrder}
    {message : Message}
    (hBacked : message.body.Backed)
    {value : message.body.Val}
    (object : message.body.Val) :
    decodeMessage .bounded order message
        ((encode peer message.body value).getD Buffer.empty)
        object =
      if (encode peer message.body value).isSome then
        (value, true)
      else
        (object, false) := by
  cases hEncode : encode peer message.body value with
  | none => exact decode_empty order _ object
  | some buffer =>
      exact decodeMessage_of_encode order hBacked hEncode
        object

theorem outcome
    (setup : Link.Setup ω ω')
    (s : Invoker)
    (history : List (InvokerEvent ω'))
    (hTraced : Traced setup s history)
    (k : Nat)
    (inv : TypedInvocation)
    (hInvocation : s.invocations[k]? = some inv)
    (theCall : ω' → inv.sig.Args → Except Exn inv.sig.Ret)
    (hProvides :
      Link.Provides setup inv.sig inv.funcName theCall)
    (hBacked : inv.sig.Backed) :
    Outcome setup s history k inv theCall := by
  have hReach := Transition.reachableBy_of_observed hTraced
  have hInv := (invocationsInv hReach).each k inv hInvocation
  have hLoads := loadsInv hTraced
  have hLoad := hLoads.each k inv hInvocation
  constructor
  case returned =>
    intro value hPc
    rcases call_of_ended hInv
        (by rw [hPc]; exact ⟨rfl, rfl, rfl⟩)
        (by rw [hPc]; simp) with
      ⟨c, i, session, call, hPlace, hSession, hCall, hName,
        hBuffer, hFinished, hEnded⟩
    rcases TypedInvocation.resumed_eq_returned hFinished
        (hEnded.symm.trans hPc) with
      ⟨rspBuffer, hReturned, hDecoded⟩
    rcases executed_of_decoded hTraced hProvides hBacked
        hSession hCall hName hBuffer hReturned with
      ⟨rid, w, ret, l, hLink, hExecutes, hRan, hCallee, rfl⟩
    have hValue := TypedInvocation.decoded_eq_returned hDecoded
    rw [decoded_getD _ hBacked.ret] at hValue
    split at hValue
    · rcases Prod.mk.inj hValue with ⟨rfl, -⟩
      exact ⟨c, i, rid, w, l, hPlace, hLink, hExecutes, hRan,
        hCallee⟩
    · cases (Prod.mk.inj hValue).2
  case undecoded =>
    intro hPc
    rcases call_of_ended hInv
        (by rw [hPc]; exact ⟨rfl, rfl, rfl⟩)
        (by rw [hPc]; simp [InvokeError.decodeFailed_ne]) with
      ⟨c, i, session, call, hPlace, hSession, hCall, hName,
        hBuffer, hFinished, hEnded⟩
    rcases TypedInvocation.resumed_eq_threw hFinished
        (hEnded.symm.trans hPc) with
      ⟨callError, -, hNot⟩ | ⟨rspBuffer, hReturned, hThrew, -⟩
    · cases hNot
    · rcases executed_of_decoded hTraced hProvides hBacked
          hSession hCall hName hBuffer hReturned with
        ⟨rid, w, ret, l, hLink, hExecutes, hRan, hCallee, rfl⟩
      have hFailed := TypedInvocation.decoded_eq_threw hThrew
      rw [decoded_getD _ hBacked.ret] at hFailed
      refine ⟨c, i, rid, w, ret, l, hPlace, hLink, hExecutes,
        hRan, hCallee, ?_⟩
      cases hEncode :
          encode setup.server.order inv.sig.response.body ret
        with
      | none => rfl
      | some buffer => simp [hEncode] at hFailed
  case failed =>
    intro ec hPc
    rcases call_of_threw hInv hPc with
      ⟨c, i, session, call, hPlace, hSession, hCall, hName,
        hBuffer, hFailed⟩
    rcases linkOf_placed hTraced hSession with
      ⟨l, hLink, rfl, hJoined, hRan⟩
    have hNamed :
        Link.Provides (linkSetup setup) inv.sig
          call.callName theCall := by
      rw [hName]
      exact hProvides
    rcases Link.refused_of_failed hJoined hRan hNamed
        hBacked.args hBuffer hCall hFailed with
      ⟨rid, request, hServes, hRequest, hWhy⟩
    rw [hName] at hWhy
    refine ⟨c, i, rid, l, request, hPlace, hLink, hServes,
      hRequest, hWhy.imp id (Or.imp id ?_)⟩
    rintro ⟨w, e, hFinished, hCallee⟩
    exact ⟨w, e, mem_runsOf.mp hFinished, hCallee⟩
  case queueClosed =>
    intro hPc
    rcases call_of_threw hInv hPc with
      ⟨c, i, session, call, hPlace, hSession, hCall, -, -,
        hThrew⟩
    rcases linkOf_placed hTraced hSession with
      ⟨l, hLink, rfl, hJoined, -⟩
    rcases ((Session.throwInv hJoined.client).calls i call
        hCall).queueClosed hThrew with ⟨hShut, hNone⟩
    refine ⟨c, i, l, hPlace, hLink, hShut, ?_⟩
    rintro rid ⟨own, request, -, hOwn, hSource, -⟩
    have hMem :=
      l.client.writeChannel.accepted_prefix_admitted.subset
        (List.mem_of_getElem? hOwn)
    exact (itemsOf_eq_nil_iff _ _).mp hNone own hMem hSource
  case timeout =>
    intro hPc
    rcases call_of_threw hInv hPc with
      ⟨c, i, session, call, hPlace, hSession, hCall, -, -,
        hThrew⟩
    rcases linkOf_placed hTraced hSession with
      ⟨l, hLink, rfl, hJoined, -⟩
    exact ⟨c, i, l, call, hPlace, hLink, hCall,
      ((Session.throwInv hJoined.client).calls i call
        hCall).timeout hThrew⟩
  case channel =>
    intro e hPc
    rcases call_of_threw hInv hPc with
      ⟨c, i, session, call, hPlace, hSession, hCall, -, -,
        hThrew⟩
    rcases linkOf_placed hTraced hSession with
      ⟨l, hLink, rfl, hJoined, -⟩
    exact ⟨c, i, l, hPlace, hLink,
      ((Session.throwInv hJoined.client).calls i call
        hCall).channel e hThrew⟩
  case disconnected =>
    intro hPc
    have hFound := mem_loadsOf.mp (hLoad.disconnected hPc)
    rcases unplaced_of_threw hInv hPc with
      ⟨hPlace, -⟩ | hSame | ⟨callError, hSame⟩
    · exact ⟨hPlace, hFound⟩
    · exact absurd hSame.symm InvokeError.decodeFailed_ne.1
    · cases hSame
  case unencoded =>
    intro hPc
    rcases unplaced_of_threw hInv hPc with
      ⟨hPlace, hSame | ⟨-, hBuffer⟩⟩ | hSame |
        ⟨callError, hSame⟩
    · exact absurd hSame InvokeError.encodeFailed_ne
    · exact ⟨hPlace, hBuffer⟩
    · exact absurd hSame.symm InvokeError.decodeFailed_ne.2
    · cases hSame
  case named =>
    intro error hPc
    rcases unplaced_of_threw hInv hPc with
      ⟨-, hSame | ⟨hSame, -⟩⟩ | hDecode | hCall
    · exact .inl hSame
    · exact .inr (.inl hSame)
    · exact .inr (.inr (.inl hDecode))
    · exact .inr (.inr (.inr hCall))
  case loaded =>
    exact fun c i hPlace =>
      mem_loadsOf.mp (hLoad.placed c i hPlace)
  case loadedOnce => exact hLoads.once
  case ranOnce =>
    intro c
    have hPeers := peers_ran hTraced
    by_cases hLt : c < s.peers.length
    · exact (Session.ranOnce (hPeers.each c s.peers[c]
        (List.getElem?_eq_getElem hLt))).once
    · rw [hPeers.known c (Nat.le_of_not_lt hLt)]
      exact List.nodup_nil
  case once =>
    intro c i l hPlace hLink rid rid' hFirst hSecond
    rcases Option.bind_eq_some_iff.mp hLink with
      ⟨session, hSession, -⟩
    rcases linkOf_placed hTraced hSession with
      ⟨l', hLink', -, hJoined, -⟩
    obtain rfl : l = l' :=
      Option.some.inj (hLink.symm.trans hLink')
    exact Link.serves_unique hJoined hFirst.1 hSecond.1
  case own =>
    intro k' inv' place hGet hPlace hPlace'
    exact (invocationsInv hReach).distinct k' k inv' inv place
      hGet hInvocation hPlace' hPlace

/- A function from a 16-bit number to the next one. -/
def next : Signature where
  args := [.arithmetic (.number 2 Nat.two_pos)]
  ret := some (.arithmetic (.number 2 Nat.two_pos))

def nextCallee
    (_ : Unit)
    (args : next.Args) : Except Exn next.Ret :=
  .ok (BitVec.add args.1 (1 : BitVec 16))

/- A server that has it attached as `next`. -/
def nextSetup : Link.Setup Unit Unit where
  client := {}
  server :=
    { dispatcher :=
        Dispatcher.attach true {} (literal "next") .public_
          (next.call .little false nextCallee) }

/- The frames that are sent for `next(41)`. -/
def nextRequest : Buffer :=
  ⟨[1, 41, 0], by decide⟩

def nextResponse : Buffer :=
  ⟨[1, 42, 0], by decide⟩

def nextItem : WriteItem :=
  .request true 0 (literal "next") 1 nextRequest

def nextReply : WriteItem :=
  .respond .response nextItem.header nextResponse 0

def nextResult : OpResult :=
  { ec := none, buffer := nextResponse, frame := 0 }

def nextMoves : List (InvokerAction Unit Unit) :=
  [.client .connect,
    .client (.connected 0),
    .client (.handshook 0),
    .client (.setupNotificationHandling 0),
    .client (.publish 0),
    .client (.spawn 0),
    .invoke next (literal "next") (41#16, ()),
    .load 0,
    .call 0 0 (literal "next") nextRequest,
    .client (.session 0 (.registerOperation 0)),
    .client (.session 0 (.queueCall 0)),
    .client (.session 0 (.armTimer 0)),
    .client (.session 0 (.receiveReply 0)),
    .client (.session 0 .writerReceive),
    .client (.session 0 .writerTake),
    .client (.session 0
      (.writerWrite (nextItem.bytes .little) [])),
    .peer 0 (.deliver (nextItem.bytes .little)),
    .peer 0 (.readHeader 1),
    .peer 0 (.readBody nextItem.header .request),
    .peer 0 (.startHandler 0 nextItem.header ()),
    .peer 0 (.finishHandler 0 ()),
    .peer 0 (.sendReply 0 nextItem.header
      (.response nextResponse)),
    .peer 0 .writerReceive,
    .peer 0 .writerTake,
    .peer 0 (.writerWrite (nextReply.bytes .little) []),
    .client (.session 0
      (.deliver (nextReply.bytes .little))),
    .client (.session 0 (.readHeader 1)),
    .client (.session 0
      (.readBody nextReply.header .response)),
    .client (.session 0 (.findOperation 1 nextResult)),
    .client (.session 0 (.sendResult 0 nextResult)),
    .client (.session 0 (.resumeCall 0)),
    .resume 0 (.returned nextResponse)]

/- What happens on the way: one load and one handler. -/
def nextHistory : List (InvokerEvent Unit) :=
  [.loaded 0 (some 0), .ran 0 0 ()]

/- Has the invocation of `next(41)` returned? -/
def nextReturned (s : Invoker) : Bool :=
  decide
    (∃ inv ∈ s.invocations[0]?,
      inv.sig = next ∧
        inv.funcName = literal "next" ∧
        inv.pc.isReturned = true)

theorem outcome_next :
    ∃ (s : Invoker) (args : next.Args) (pc : InvokePc next)
        (place : Option (Nat × Nat)),
      s.invocations[0]? =
          some ⟨next, literal "next", args, pc, place⟩ ∧
        pc.isReturned = true ∧
        Outcome nextSetup s nextHistory 0
          ⟨next, literal "next", args, pc, place⟩
          nextCallee := by
  obtain ⟨⟨s, history⟩, hTraced, hRun⟩ :=
    Transition.exists_of_runBy
      (Transition.observed (step nextSetup) event)
      (fun x a => Orderly x.1 a) (start, []) nextMoves
      (fun x => decide (x.2 = nextHistory) && nextReturned x.1)
      (by decide +kernel)
  rcases (Bool.and_eq_true _ _).mp hRun with
    ⟨hHistory, hReturned⟩
  obtain rfl : history = nextHistory :=
    of_decide_eq_true hHistory
  rcases of_decide_eq_true hReturned with
    ⟨⟨sig, funcName, args, pc, place⟩, hGet, hSig, hName,
      hReturned⟩
  dsimp only at hSig hName hReturned
  subst hSig hName
  refine ⟨s, args, pc, place, hGet, hReturned,
    outcome nextSetup s nextHistory hTraced 0 _ hGet nextCallee
      ?_ ?_⟩
  · exact ⟨_, false, AList.lookup_insert _, rfl⟩
  · exact ⟨⟨trivial, trivial⟩, trivial⟩

end Invoker

end GrlxRpc
