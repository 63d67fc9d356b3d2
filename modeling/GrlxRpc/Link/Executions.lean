import GrlxRpc.Link
import GrlxRpc.Session.Served

/-
  How often the server runs a handler for a call.

  A request frame is read at most once, and its handler runs
  at most once: a call that threw has been executed once or
  not at all, and one that returned exactly once, with what
  that run produced. What runs without a call was read
  behind a frame over the limit, when the queue had been
  closed, and is never answered.

  Main declarations:
    * `Link.Serves`
    * `Link.Ran` and `Link.server_ran`
    * `Link.ExecutedOnce` and `Link.executedOnce`
-/

------------------------------------------------------------
-- Requests And Calls
------------------------------------------------------------

namespace GrlxRpc

theorem Buffer.eq_of_bytes_eq
    {buffer buffer' : Buffer}
    (hBytes : buffer.bytes = buffer'.bytes) :
    buffer = buffer' := by
  cases buffer
  cases buffer'
  simp_all

/- A response answers with a body. -/
theorem Answer.eq_response
    {answer : Answer}
    {header : Header}
    {rid : Nat}
    (hType :
      (answer.item header rid).header.incomingType =
        some .response) :
    answer = .response answer.body := by
  cases answer with
  | response body => rfl
  | error =>
      simp [Answer.item, WriteItem.respond, Answer.type]
        at hType

namespace Link

variable {ω ω' : Type}
variable {setup : Setup ω ω'}

/- Request `rid` of the server is the frame of call `i`. -/
def Serves
    (l : Link)
    (i rid : Nat) : Prop :=
  ∃ own request,
    l.server.requests[rid]? = some request ∧
      l.client.writeChannel.accepted[request.ord]? =
        some own ∧
      own.source = .call i ∧
      request.header = own.header

/- The caller of a clean request, and what it was sent. -/
theorem serves_of_clean
    {l : Link}
    (hJoined : Joined setup l)
    {rid : Nat}
    {request : Request}
    (hRequest : l.server.requests[rid]? = some request)
    (hClean :
      Clean setup.server.limits l.server.done request.ord) :
    ∃ (i : Nat) (call : PendingCall),
      l.client.calls[i]? = some call ∧
      l.Serves i rid ∧
      request.header.userToken = tokenOf i ∧
      request.header.callId =
        shash64 setup.client.charSigned call.callName ∧
      (request.verdict = .spawned →
        request.body = call.reqBuffer) := by
  rcases own_of_clean hJoined hRequest hClean with
    ⟨i, call, own, hCall, hToken, hItem, hOwn, hHeader, hBody⟩
  refine ⟨i, call, hCall, ⟨own, request, hRequest, hOwn,
    by rw [hItem]; rfl, hHeader⟩, ?_, ?_, ?_⟩
  · rw [← hToken, hHeader, hItem]
    rfl
  · rw [hHeader, hItem]
    rfl
  · intro hVerdict
    rcases Session.bodyInv hJoined.server request
        (List.mem_of_getElem? hRequest) hVerdict with
      ⟨hDone, hSize⟩
    exact Buffer.eq_of_bytes_eq (hBody _ hDone hSize)

/- A handler that the server finishes, and in which world. -/
def handlerRun
    (l : Link) : Move ω ω' → Option (Nat × ω')
  | .client _ => none
  | .server a => Session.handlerRun l.server a

/- Links of runs with the handlers that finished. -/
abbrev Ran
    (setup : Setup ω ω')
    (l : Link)
    (history : List (Nat × ω')) : Prop :=
  Transition.ReachableBy
    (Transition.observed (step setup) handlerRun)
    (fun x m => Orderly x.1 m) (start setup, []) (l, history)

/- The server's own run finished the same handlers. -/
theorem server_ran
    {l : Link}
    {history : List (Nat × ω')}
    (hRan : Ran setup l history) :
    Session.Ran setup.server l.server history := by
  refine Transition.observedInvariant
    (fun l history =>
      Session.Ran setup.server l.server history) .start ?_ hRan
  intro l history m l' _ hInv _ hStep
  rcases step_cases hStep with
    ⟨a, rfl, -, -, rfl⟩ | ⟨a, rfl, -, hEnabled, rfl⟩
  · simpa [handlerRun] using hInv
  · exact hInv.next trivial
      (Transition.observed_eq_some_iff.mpr
        ⟨(Session.step_eq_some_iff _ _ _ _).mpr
          ⟨hEnabled, rfl⟩, rfl⟩)

/- The request that a queued reply answers. -/
theorem earned_of_reply
    {l : Link}
    (hJoined : Joined setup l)
    {history : List (Nat × ω')}
    (hRan : Session.Ran setup.server l.server history)
    {reply : WriteItem}
    (hReply : reply ∈ l.server.writeChannel.accepted)
    (hType :
      reply.header.incomingType = some .response ∨
        reply.header.incomingType = some .error) :
    ∃ (rid : Nat) (request : Request) (answer : Answer),
      l.server.requests[rid]? = some request ∧
      Clean setup.server.limits l.server.done request.ord ∧
      reply = answer.item request.header rid ∧
      Earned setup.server l.server.log history rid request
        answer := by
  have hAdmitted :=
    l.server.writeChannel.accepted_prefix_admitted.subset hReply
  rcases Session.reply_source hJoined.server hAdmitted hType with
    ⟨rid, request, hRequest, hAmong⟩
  rcases Session.earned_of_queued hRan hRequest hAmong with
    ⟨answer, hAnswer, hEarned⟩
  refine ⟨rid, request, answer, hRequest, ?_, hAnswer,
    hEarned⟩
  rcases ((Session.requestsInv (fun _ _ h => h)
      hJoined.server).each rid request hRequest).clean with
    hClean | ⟨-, hNone⟩
  · exact hClean
  · rw [hNone] at hAmong
    cases hAmong

/-
  The request that a call was answered by: a reply with the
  call's token answers its own request.
-/
theorem earned_of_token
    {l : Link}
    (hJoined : Joined setup l)
    {history : List (Nat × ω')}
    (hRan : Session.Ran setup.server l.server history)
    {i : Nat}
    {call : PendingCall}
    (hCall : l.client.calls[i]? = some call)
    {reply : WriteItem}
    (hReply : reply ∈ l.server.writeChannel.accepted)
    (hType :
      reply.header.incomingType = some .response ∨
        reply.header.incomingType = some .error)
    (hToken : reply.header.userToken = tokenOf i) :
    ∃ (rid : Nat) (request : Request) (answer : Answer),
      l.server.requests[rid]? = some request ∧
      l.Serves i rid ∧
      request.header.callId =
        shash64 setup.client.charSigned call.callName ∧
      (request.verdict = .spawned →
        request.body = call.reqBuffer) ∧
      reply = answer.item request.header rid ∧
      Earned setup.server l.server.log history rid request
        answer := by
  rcases earned_of_reply hJoined hRan hReply hType with
    ⟨rid, request, answer, hRequest, hClean, hAnswer, hEarned⟩
  rcases serves_of_clean hJoined hRequest hClean with
    ⟨j, call', hCall', hServes, hToken', hId, hBody⟩
  have hEchoed :
      reply.header.userToken = request.header.userToken := by
    rw [hAnswer]
    rfl
  have hSame : j = i := by
    by_contra hNe
    exact (Session.callsInv (fun _ _ h => h.few)
      hJoined.client).token_ne
        (List.getElem?_eq_some_iff.mp hCall).1
        (List.getElem?_eq_some_iff.mp hCall').1 hNe
        ((hToken'.symm.trans hEchoed.symm).trans hToken)
  subst hSame
  obtain rfl : call = call' :=
    Option.some.inj (hCall.symm.trans hCall')
  exact ⟨rid, request, answer, hRequest, hServes, hId, hBody,
    hAnswer, hEarned⟩

theorem serves_unique
    {l : Link}
    (hJoined : Joined setup l)
    {i rid rid' : Nat}
    (hServes : l.Serves i rid)
    (hServes' : l.Serves i rid') :
    rid = rid' := by
  rcases hServes with
    ⟨own, request, hRequest, hOwn, hSource, -⟩
  rcases hServes' with
    ⟨own', request', hRequest', hOwn', hSource', -⟩
  exact request_unique hJoined hRequest hRequest'
    (place_unique hJoined hOwn hOwn' hSource hSource')

------------------------------------------------------------
-- Executions
------------------------------------------------------------

/- The server ran the handler of request `rid` for call `i`. -/
def Executes
    (setup : Setup ω ω')
    (l : Link)
    (i rid : Nat) : Prop :=
  l.Serves i rid ∧
    ∃ (call : PendingCall) (request : Request),
      l.client.calls[i]? = some call ∧
      l.server.requests[rid]? = some request ∧
      request.body = call.reqBuffer ∧
      invocations l.server.log rid =
        [.invoked (.request rid)
          (shash64 setup.client.charSigned call.callName)]

/-
  Handler runs and the calls they are for. The history names
  the runs that finished and the world each ran in.
-/
structure ExecutedOnce
    (setup : Setup ω ω')
    (l : Link)
    (history : List (Nat × ω')) : Prop where
  caused :
    ∀ rid callId,
      .invoked (.request rid) callId ∈ l.server.log →
        (∃ i, Executes setup l i rid) ∨
          ∃ request, l.server.requests[rid]? = some request ∧
            ¬ Clean setup.server.limits l.server.done
              request.ord ∧
            l.server.writeChannel.isOpen = false ∧
            l.server.queuedReplies rid = []
  atMost :
    ∀ i rid rid', Executes setup l i rid →
      Executes setup l i rid' → rid = rid'
  once : (history.map Prod.fst).Nodup
  returned :
    ∀ (i : Nat) (call : PendingCall) (buffer : Buffer),
      l.client.calls[i]? = some call →
        call.pc = .returned buffer →
          ∃ rid request w, Executes setup l i rid ∧
            l.server.requests[rid]? = some request ∧
            (rid, w) ∈ history ∧
            Session.handlerAnswer setup.server w request =
              .response buffer

/- A request that has been handled was spawned. -/
theorem invocations_of_invoked
    {l : Link}
    (hJoined : Joined setup l)
    {rid : Nat}
    {callId : UInt64}
    (hMem : .invoked (.request rid) callId ∈ l.server.log) :
    ∃ request, l.server.requests[rid]? = some request ∧
      request.verdict = .spawned ∧
      invocations l.server.log rid =
        [.invoked (.request rid) request.header.callId] := by
  have hAmong :
      .invoked (.request rid) callId ∈
        invocations l.server.log rid := by
    simp [invocations, handling, Event.concerns, hMem]
  have hHandled := Session.handledInv hJoined.server rid
  cases hRequest : l.server.requests[rid]? with
  | none =>
      rw [hRequest] at hHandled
      have hNone : handling l.server.log rid = [] := hHandled
      simp [invocations, hNone] at hAmong
  | some request =>
      rw [hRequest] at hHandled
      rcases Session.invocations_cases hHandled with
        hNone | ⟨hVerdict, -, -, -, -, -, hOne⟩
      · rw [hNone] at hAmong
        cases hAmong
      · exact ⟨request, rfl, hVerdict, hOne⟩

theorem executedOnce
    (setup : Setup ω ω')
    (l : Link)
    (history : List (Nat × ω'))
    (hRan : Ran setup l history) :
    ExecutedOnce setup l history := by
  have hJoined :=
    joined (Transition.reachableBy_of_observed hRan)
  have hServer := server_ran hRan
  constructor
  case caused =>
    intro rid callId hMem
    rcases invocations_of_invoked hJoined hMem with
      ⟨request, hRequest, hVerdict, hOne⟩
    by_cases hClean :
        Clean setup.server.limits l.server.done request.ord
    · left
      rcases serves_of_clean hJoined hRequest hClean with
        ⟨i, call, hCall, hServes, -, hId, hBody⟩
      exact ⟨i, hServes, call, request, hCall, hRequest,
        hBody hVerdict, by rw [hOne, hId]⟩
    · right
      rcases ((Session.requestsInv (fun _ _ h => h)
          hJoined.server).each rid request hRequest).clean with
        hWithin | ⟨hShut, hNone⟩
      · exact absurd hWithin hClean
      · refine ⟨request, hRequest, hClean, hShut, ?_⟩
        have hSublist := l.server.queuedReplies_sublist rid
        rw [hNone] at hSublist
        exact List.sublist_nil.mp hSublist
  case atMost =>
    exact fun i rid rid' hFirst hSecond =>
      serves_unique hJoined hFirst.1 hSecond.1
  case once => exact (Session.ranOnce hServer).once
  case returned =>
    intro i call buffer hCall hPc
    rcases reply_of_result hJoined hCall hPc with
      ⟨reply, hReply, hType, hToken, hBuffer⟩
    rcases earned_of_token hJoined hServer hCall hReply
        (.inl hType) hToken with
      ⟨rid, request, answer, hRequest, hServes, hId, hBody,
        hAnswer, hEarned⟩
    have hResponse : answer = .response buffer := by
      rw [hAnswer] at hType
      rw [Answer.eq_response hType, ← hBuffer, hAnswer]
      rfl
    rw [hResponse] at hEarned
    rcases hEarned with ⟨hInvoked, w, hFinished, hProduced⟩
    rcases invocations_of_invoked hJoined hInvoked with
      ⟨request', hRequest', hVerdict, hOne⟩
    obtain rfl : request = request' :=
      Option.some.inj (hRequest.symm.trans hRequest')
    refine ⟨rid, request, w, ⟨hServes, call, request, hCall,
      hRequest, hBody hVerdict, ?_⟩, hRequest, hFinished,
      hProduced⟩
    rw [hOne, hId]

/- One call of `wipe`, from its token to its return. -/
def wipeMoves : List (Move Unit Unit) :=
  [.client (.generateToken (literal "wipe") Buffer.empty),
    .client (.registerOperation 0),
    .client (.queueCall 0),
    .client (.armTimer 0),
    .client (.receiveReply 0),
    .client .writerReceive,
    .client .writerTake,
    .client (.writerWrite (wipeRequest.bytes .little) []),
    .server (.deliver (wipeRequest.bytes .little)),
    .server (.readHeader 1),
    .server (.readBody wipeRequest.header .request),
    .server (.startHandler 0 wipeRequest.header ()),
    .server (.finishHandler 0 ()),
    .server (.sendReply 0 wipeRequest.header
      (.response Session.wiped)),
    .server .writerReceive,
    .server .writerTake,
    .server (.writerWrite (wipeResponse.bytes .little) []),
    .client (.deliver (wipeResponse.bytes .little)),
    .client (.readHeader 1),
    .client (.readBody wipeResponse.header .response),
    .client (.findOperation 1
      { ec := none, buffer := Session.wiped, frame := 0 }),
    .client (.sendResult 0
      { ec := none, buffer := Session.wiped, frame := 0 }),
    .client (.resumeCall 0)]

/- The call has returned and its handler has run. -/
theorem executedOnce_wipe :
    ∃ l : Link, Ran wiping l [(0, ())] ∧
      (∃ call ∈ l.client.calls,
        call.pc = .returned Session.wiped) ∧
      ExecutedOnce wiping l [(0, ())] := by
  obtain ⟨⟨l, history⟩, hRan, hRun⟩ :=
    Transition.exists_of_runBy
      (Transition.observed (step wiping) handlerRun)
      (fun x m => Orderly x.1 m) (start wiping, []) wipeMoves
      (fun x =>
        decide (x.2 = [(0, ())] ∧ ∃ call ∈ x.1.client.calls,
          call.pc = .returned Session.wiped))
      (by decide +kernel)
  rcases of_decide_eq_true hRun with ⟨hHistory, hReturned⟩
  obtain rfl : history = [(0, ())] := hHistory
  exact ⟨l, hRan, hReturned,
    executedOnce wiping l [(0, ())] hRan⟩

end Link

end GrlxRpc
