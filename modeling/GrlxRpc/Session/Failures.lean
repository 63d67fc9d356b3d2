import GrlxRpc.Session.Replies
import GrlxRpc.Lib.Observed

/-
  What a peer learns of a request that failed.

  A run is watched for the reason of each failure. Whatever
  the reason, the request can only be answered by the error
  frame of its call id and token from then on.

  Main declarations:
    * `Failure` and `Session.failedAt`
    * `FailedInv` and `Session.failedInv`
    * `failureFrame`
    * `Session.failuresAlike`
-/

------------------------------------------------------------
-- Failures
------------------------------------------------------------

namespace GrlxRpc

/-
  Why a request failed: the rate limit, an exception of the
  lookup or of `enforce_auth`, or one of the handler.
-/
inductive Failure
  | rateLimited
  | refused (e : Exn)
  | threw (e : Exn)
  deriving DecidableEq

/- The exception that an outcome is, if it is one. -/
def thrown {α : Type*} : Except Exn α → Option Exn
  | .ok _ => none
  | .error e => some e

/- The frame of a failure: nothing but call id and token. -/
def failureFrame (callId token : UInt64) : Frame :=
  (frameHeader .error callId token Buffer.empty, [])

/- Can the handling still end in an error frame only? -/
def RequestPc.failing : RequestPc → Bool
  | rejecting => true
  | spawned => false
  | running => false
  | answering (.response _) => false
  | answering .error => true
  | sending (.response _) => false
  | sending .error => true
  | done => true

/- A failed request and what the queue has for it. -/
def FailedInv
    (channel : Channel WriteItem)
    (rid : Nat) : Option Request → Prop
  | none => False
  | some request =>
      request.pc.failing = true ∧
        ∀ item ∈ replies channel.admitted rid,
          item = .respond .error request.header Buffer.empty rid

namespace FailedInv

variable {channel channel' : Channel WriteItem}
variable {rid : Nat}
variable {request : Request}

/- What others queue does not matter. -/
theorem frame
    {request : Option Request}
    (hInv : FailedInv channel rid request)
    (hSame :
      replies channel'.admitted rid =
        replies channel.admitted rid) :
    FailedInv channel' rid request := by
  cases request with
  | none => exact hInv
  | some request => exact ⟨hInv.1, hSame ▸ hInv.2⟩

/- The handling goes on to another point of failure. -/
theorem move
    (hInv : FailedInv channel rid (some request))
    {pc : RequestPc}
    (hFailing : pc.failing = true) :
    FailedInv channel rid (some { request with pc := pc }) :=
  ⟨hFailing, hInv.2⟩

/- A request that nobody has answered fails here. -/
theorem start
    (hNone : replies channel.admitted rid = [])
    (hFailing : request.pc.failing = true) :
    FailedInv channel rid (some request) :=
  ⟨hFailing, by simp [hNone]⟩

/- Its error frame is offered to the queue. -/
theorem offer
    (hInv : FailedInv channel rid (some request)) :
    FailedInv
      (channel.asyncSend
        (.respond .error request.header Buffer.empty rid))
      rid
      (some
        { request with
          pc := Session.afterOffer channel.isOpen .error }) := by
  constructor
  · cases channel.isOpen <;> rfl
  · intro item hMem
    rw [Session.asyncSend_admits, replies_append] at hMem
    rcases List.mem_append.mp hMem with hOld | hNew
    · exact hInv.2 item hOld
    · cases hOpen : channel.isOpen with
      | true => simpa [hOpen] using hNew
      | false => simp [hOpen, itemsOf] at hNew

end FailedInv

------------------------------------------------------------
-- Every Run
------------------------------------------------------------

namespace Session

variable {ω : Type}
variable {cfg : Config ω}
variable {s : Session}
variable {a : Action ω}

/- The request that fails in a step, and why. -/
def failedAt
    (cfg : Config ω)
    (s : Session) : Action ω → Option (Nat × Failure)
  | .readBody _ .limited =>
      some (s.requests.length, .rateLimited)
  | .startHandler rid header w =>
      (thrown (s.gate cfg header w).2).map fun e =>
        (rid, .refused e)
  | .finishHandler rid w =>
      s.requests[rid]?.bind fun request =>
        (thrown
          (cfg.dispatcher.handled cfg.order w
            request.header.callId request.body).result).map
          fun e => (rid, .threw e)
  | _ => none

/- Sessions of any run with the failures in it. -/
abbrev Failed
    (cfg : Config ω)
    (s : Session)
    (history : List (Nat × Failure)) : Prop :=
  Transition.Reachable
    (Transition.observed (step cfg) (failedAt cfg))
    (start cfg, []) (s, history)

/- A step in which the request was bound to fail already. -/
theorem failedInv_update
    (hReach : Reachable cfg s)
    (hEnabled : s.Enabled a)
    {rid : Nat}
    (hInv : FailedInv s.writeChannel rid s.requests[rid]?) :
    FailedInv (s.update cfg a).writeChannel rid
      (s.update cfg a).requests[rid]? := by
  have hFrame :
      producer a ≠ some (.reply rid) →
        FailedInv (s.update cfg a).writeChannel rid
          s.requests[rid]? := by
    intro hOther
    apply hInv.frame
    have hNone : replies (s.admits cfg a) rid = [] :=
      itemsOf_admits cfg s a hOther
    rw [admitted_update, replies_append, hNone,
      List.append_nil]
  have hAppend :
      ∀ more : List Request,
        FailedInv s.writeChannel rid
          (s.requests ++ more)[rid]? := by
    intro more
    cases hGet : s.requests[rid]? with
    | none =>
        rw [hGet] at hInv
        exact hInv.elim
    | some request =>
        rw [Records.getElem?_mono (List.prefix_append _ _)
          hGet]
        exact hGet ▸ hInv
  have hMoves :
      ∀ (i : Nat) (request : Request)
        (pc : Request → RequestPc),
        s.requests[i]? = some request →
        (request.pc.failing = true →
          (pc request).failing = true) →
        FailedInv s.writeChannel rid
          (s.requests.modify i fun request =>
            { request with pc := pc request })[rid]? := by
    intro i request pc hGet hFails
    by_cases hSame : i = rid
    · subst hSame
      rw [hGet] at hInv
      rw [List.getElem?_modify_eq, hGet]
      exact hInv.move (hFails hInv.1)
    · rw [List.getElem?_modify_ne _ _ hSame]
      exact hInv
  have hOffers :
      ∀ (i : Nat) (request : Request) (answer : Answer),
        producer a = some (.reply i) →
        s.requests[i]? = some request →
        (request.pc.failing = true → answer = .error) →
        (s.update cfg a).writeChannel =
          s.writeChannel.asyncSend
            (.respond answer.type request.header answer.body
              i) →
        (s.update cfg a).requests =
          s.requests.modify i (fun request =>
            { request with
              pc := afterOffer s.writeChannel.isOpen answer }) →
        FailedInv (s.update cfg a).writeChannel rid
          (s.update cfg a).requests[rid]? := by
    intro i request answer hProducer hGet hFails hQueue hMove
    rw [hMove]
    by_cases hSame : i = rid
    · subst hSame
      rw [hGet] at hInv
      obtain rfl := hFails hInv.1
      rw [List.getElem?_modify_eq, hGet, hQueue]
      exact hInv.offer
    · rw [List.getElem?_modify_ne _ _ hSame]
      apply hFrame
      rw [hProducer]
      simpa using hSame
  cases a with
  | readHeader now | readBody header use => exact hAppend _
  | rejectRequest i header closes =>
      have hReject := (replyInv hReach).2
      have hAt : s.reader = .rejecting i header closes :=
        hEnabled
      rw [hAt] at hReject
      rcases hReject with ⟨request, hGet, rfl, -, -⟩
      exact hOffers i request .error rfl hGet (fun _ => rfl)
        rfl rfl
  | resumeReject i closes =>
      have hReject := (replyInv hReach).2
      rw [hEnabled.1] at hReject
      rcases hReject with ⟨request, hGet, -, -⟩
      exact hMoves i request (fun _ => .done) hGet
        fun _ => rfl
  | startHandler i header w =>
      rcases hEnabled with ⟨request, hGet, -, hPc⟩
      refine hMoves i request _ hGet fun hFailing => ?_
      simp [hPc, RequestPc.failing] at hFailing
  | finishHandler i w =>
      rcases hEnabled with ⟨request, hGet, hPc⟩
      refine hMoves i request
        (fun request =>
          .answering (handlerAnswer cfg w request))
        hGet fun hFailing => ?_
      simp [hPc, RequestPc.failing] at hFailing
  | sendReply i header answer =>
      rcases hEnabled with ⟨request, hGet, rfl, hPc⟩
      refine hOffers i request answer rfl hGet ?_ rfl rfl
      intro hFailing
      rw [hPc] at hFailing
      cases answer with
      | response body => cases hFailing
      | error => rfl
  | resumeReply i =>
      rcases hEnabled with ⟨⟨request, hGet, -, -⟩, -⟩
      exact hMoves i request (fun _ => .done) hGet
        fun _ => rfl
  | _ => exact hFrame (by simp [producer])

/- A request that fails in a step has no reply yet. -/
theorem failedInv_failedAt
    (hReach : Reachable cfg s)
    (hEnabled : s.Enabled a)
    {rid : Nat}
    {failure : Failure}
    (hFails : failedAt cfg s a = some (rid, failure)) :
    FailedInv (s.update cfg a).writeChannel rid
      (s.update cfg a).requests[rid]? := by
  have hReply := (replyInv hReach).1 rid
  cases a with
  | readBody header use =>
      cases use with
      | limited =>
          obtain ⟨rfl, -⟩ := Prod.mk.inj (Option.some.inj hFails)
          have hOut := List.getElem?_length (l := s.requests)
          rw [hOut] at hReply
          simp only [update, readRequest,
            List.getElem?_concat_length]
          exact FailedInv.start hReply rfl
      | _ => cases hFails
  | startHandler i header w =>
      rcases hEnabled with ⟨request, hGet, -, hPc⟩
      cases hGate : (s.gate cfg header w).2 with
      | ok entry => simp [failedAt, hGate, thrown] at hFails
      | error e =>
          simp only [failedAt, hGate, thrown,
            Option.map_some, Option.some.injEq,
            Prod.mk.injEq] at hFails
          obtain ⟨rfl, -⟩ := hFails
          rw [Option.mem_def.mp hGet] at hReply
          simp only [ReplyInv, hPc] at hReply
          have hAfter :
              afterGate (s.gate cfg header w) =
                .answering .error := by
            rw [← Prod.mk.eta (p := s.gate cfg header w),
              hGate]
            rfl
          simp only [update, hAfter, List.getElem?_modify_eq,
            Option.mem_def.mp hGet]
          exact FailedInv.start hReply rfl
  | finishHandler i w =>
      rcases hEnabled with ⟨request, hGet, hPc⟩
      rw [Option.mem_def] at hGet
      cases hResult :
          (cfg.dispatcher.handled cfg.order w
            request.header.callId request.body).result with
      | ok body =>
          simp [failedAt, hGet, hResult, thrown] at hFails
      | error e =>
          simp only [failedAt, hGet, Option.bind_some, hResult,
            thrown, Option.map_some, Option.some.injEq,
            Prod.mk.injEq] at hFails
          obtain ⟨rfl, -⟩ := hFails
          rw [hGet] at hReply
          simp only [ReplyInv, hPc] at hReply
          have hAnswer :
              handlerAnswer cfg w request = .error := by
            rw [handlerAnswer, hResult]
            rfl
          simp only [update, List.getElem?_modify_eq, hGet]
          apply FailedInv.start hReply
          simp [hAnswer, RequestPc.failing]
  | _ => cases hFails

theorem failedInv
    {history : List (Nat × Failure)}
    (hReach : Failed cfg s history) :
    ∀ rid failure, (rid, failure) ∈ history →
      FailedInv s.writeChannel rid s.requests[rid]? := by
  refine Transition.observedInvariant
    (fun s history =>
      ∀ rid failure, (rid, failure) ∈ history →
        FailedInv s.writeChannel rid s.requests[rid]?)
    (by simp) ?_ hReach
  intro s history a s' hPrior hInv _ hStep rid failure hMem
  rcases (step_eq_some_iff cfg s s' a).mp hStep with
    ⟨hEnabled, rfl⟩
  have hSession := Transition.reachable_of_observed hPrior
  rcases History.mem_append_toList.mp hMem with hOld | hNew
  · exact failedInv_update hSession hEnabled
      (hInv rid failure hOld)
  · exact failedInv_failedAt hSession hEnabled hNew

------------------------------------------------------------
-- All Failures Look Alike
------------------------------------------------------------

/- What a failed request's replies are, byte for byte. -/
theorem failure_reply
    {history : List (Nat × Failure)}
    (hReach : Failed cfg s history)
    {rid : Nat}
    {failure : Failure}
    (hFailed : (rid, failure) ∈ history)
    {request : Request}
    (hRequest : s.requests[rid]? = some request) :
    ∀ item ∈ s.queuedReplies rid,
      item.frame =
          failureFrame request.header.callId
            request.header.userToken ∧
        ∀ order,
          item.bytes order =
            (failureFrame request.header.callId
              request.header.userToken).1.toBytes order := by
  intro item hMem
  have hInv := failedInv hReach rid failure hFailed
  rw [hRequest] at hInv
  have hSublist := s.queuedReplies_sublist rid
  obtain rfl := hInv.2 item (hSublist.subset hMem)
  exact ⟨rfl, fun order => List.append_nil _⟩

/-
  Two runs of any two sessions in which requests with one
  call id and token failed, for whatever reasons: their
  replies are the same bytes, and once both are handled on
  open channels each has exactly one.
-/
theorem failuresAlike
    {ω ω' : Type}
    (cfg : Config ω)
    (cfg' : Config ω')
    (s s' : Session)
    (history history' : List (Nat × Failure))
    (hReach : Failed cfg s history)
    (hReach' : Failed cfg' s' history')
    (rid rid' : Nat)
    (failure failure' : Failure)
    (hFailed : (rid, failure) ∈ history)
    (hFailed' : (rid', failure') ∈ history')
    (request request' : Request)
    (hRequest : s.requests[rid]? = some request)
    (hRequest' : s'.requests[rid']? = some request')
    (hCallId :
      request.header.callId = request'.header.callId)
    (hToken :
      request.header.userToken = request'.header.userToken) :
    (∀ item ∈ s.queuedReplies rid,
      ∀ item' ∈ s'.queuedReplies rid',
        item.frame = item'.frame ∧
          ∀ order, item.bytes order = item'.bytes order) ∧
      (request.pc = .done →
        request'.pc = .done →
        s.writeChannel.isOpen = true →
        s'.writeChannel.isOpen = true →
        (s.queuedReplies rid).map WriteItem.frame =
            [failureFrame request.header.callId
              request.header.userToken] ∧
          (s'.queuedReplies rid').map WriteItem.frame =
            [failureFrame request.header.callId
              request.header.userToken]) := by
  have hOne := failure_reply hReach hFailed hRequest
  have hTwo := failure_reply hReach' hFailed' hRequest'
  rw [← hCallId, ← hToken] at hTwo
  constructor
  · intro item hMem item' hMem'
    rcases hOne item hMem with ⟨hFrame, hBytes⟩
    rcases hTwo item' hMem' with ⟨hFrame', hBytes'⟩
    refine ⟨hFrame.trans hFrame'.symm, fun order => ?_⟩
    rw [hBytes order, hBytes' order]
  · intro hDone hDone' hOpen hOpen'
    have hSession := Transition.reachable_of_observed hReach
    have hSession' := Transition.reachable_of_observed hReach'
    rcases queuedReplies_of_done hSession hRequest hDone
        hOpen with ⟨answer, hQueued⟩
    rcases queuedReplies_of_done hSession' hRequest' hDone'
        hOpen' with ⟨answer', hQueued'⟩
    rw [hQueued] at hOne ⊢
    rw [hQueued'] at hTwo ⊢
    simp only [List.map_cons, List.map_nil,
      (hOne _ List.mem_cons_self).1,
      (hTwo _ List.mem_cons_self).1, and_self]

/- One request for the admin method fails at its gate. -/
def failedRequest : List (Action Unit) :=
  [.deliver ((wipeHeader 1).toBytes .little),
    .readHeader 1,
    .readBody (wipeHeader 1) .request,
    .startHandler 0 (wipeHeader 1) (),
    .sendReply 0 (wipeHeader 1) .error,
    .resumeReply 0]

/- Its handling is over and the channel is open. -/
def isAnswered (s : Session) : Prop :=
  s.writeChannel.isOpen = true ∧
    ∃ request ∈ s.requests[0]?,
      request.header = wipeHeader 1 ∧ request.pc = .done

instance (s : Session) : Decidable s.isAnswered :=
  inferInstanceAs (Decidable (_ ∧ ∃ request ∈ _, _))

/- A method that is unknown and one that is denied. -/
theorem failuresAlike_unknown_denied :
    ∃ s s' : Session,
      Reachable ({} : Config Unit) s ∧
        Reachable (guarded false) s' ∧
        (s.queuedReplies 0).map WriteItem.frame =
          [failureFrame wipeId 1] ∧
        (s'.queuedReplies 0).map WriteItem.frame =
          [failureFrame wipeId 1] := by
  obtain ⟨⟨s, history⟩, hReach, hRun⟩ :=
    Transition.exists_of_run
      (Transition.observed (step ({} : Config Unit))
        (failedAt {}))
      (start ({} : Config Unit), []) failedRequest
      (fun x =>
        decide (x.1.isAnswered ∧ 0 ∈ x.2.map Prod.fst))
      (by decide +kernel)
  obtain ⟨⟨s', history'⟩, hReach', hRun'⟩ :=
    Transition.exists_of_run
      (Transition.observed (step (guarded false))
        (failedAt (guarded false)))
      (start (guarded false), []) failedRequest
      (fun x =>
        decide (x.1.isAnswered ∧
          x.2 = [(0, .refused
            (.dispatchDenied (literal "denied")))]))
      (by decide +kernel)
  rcases of_decide_eq_true hRun with
    ⟨⟨hOpen, request, hRequest, hHeader, hDone⟩, hMem⟩
  rcases List.mem_map.mp hMem with
    ⟨⟨rid, failure⟩, hFailed, rfl⟩
  rcases of_decide_eq_true hRun' with
    ⟨⟨hOpen', request', hRequest', hHeader', hDone'⟩, rfl⟩
  have hSame : request.header = request'.header :=
    hHeader.trans hHeader'.symm
  have hFrames :=
    (failuresAlike {} (guarded false) s s' history _ hReach
      hReach' _ 0 failure _ hFailed List.mem_cons_self request
      request' hRequest hRequest'
      (congrArg Header.callId hSame)
      (congrArg Header.userToken hSame)).2
      hDone hDone' hOpen hOpen'
  have hFrame :
      failureFrame request.header.callId
          request.header.userToken =
        failureFrame wipeId 1 := by
    rw [hHeader]
    rfl
  rw [hFrame] at hFrames
  exact ⟨s, s', Transition.reachable_of_observed hReach,
    Transition.reachable_of_observed hReach', hFrames⟩

end Session

end GrlxRpc
