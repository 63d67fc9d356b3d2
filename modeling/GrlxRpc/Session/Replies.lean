import GrlxRpc.Lib.Records
import GrlxRpc.Session.Auth
import GrlxRpc.Session.Writer

/-
  One reply per request.

  A request record moves from its reader or its coroutine
  into the write queue once; the only way to offer a second
  frame is after the queue refused the first.

  Main declarations:
    * `ReplyInv` and `Session.replyInv`
    * `HandledInv` and `Session.handledInv`
    * `RepliedOnce` and `Session.repliedOnce_of_record`
-/

------------------------------------------------------------
-- Replies Among Items
------------------------------------------------------------

namespace GrlxRpc

/- The items that answer request `rid`. -/
abbrev replies
    (items : List WriteItem)
    (rid : Nat) : List WriteItem :=
  itemsOf (.reply rid) items

theorem replies_append
    (first second : List WriteItem)
    (rid : Nat) :
    replies (first ++ second) rid =
      replies first rid ++ replies second rid :=
  itemsOf_append (.reply rid) first second

@[simp] theorem replies_respond
    (type : MsgType)
    (header : Header)
    (body : Buffer)
    (rid : Nat) :
    replies [.respond type header body rid] rid =
      [.respond type header body rid] := by
  simp [itemsOf, WriteItem.respond]

/- The reply that `answer` is to a request header. -/
def Answer.item
    (answer : Answer)
    (header : Header)
    (rid : Nat) : WriteItem :=
  .respond answer.type header answer.body rid

/-
  How many replies a request has in the queue, by the point
  its handling is at. `none` is a request yet to come.
-/
def ReplyInv
    (channel : Channel WriteItem)
    (rid : Nat) : Option Request → Prop
  | none => replies channel.admitted rid = []
  | some request =>
      match request.pc with
      | .rejecting | .spawned | .running | .answering _ =>
          replies channel.admitted rid = []
      | .sending _ =>
          ∃ answer : Answer,
            replies channel.admitted rid =
              [answer.item request.header rid]
      | .done =>
          (∃ answer : Answer,
              replies channel.admitted rid =
                [answer.item request.header rid] ∧
              replies channel.senders rid = []) ∨
            (channel.isOpen = false ∧
              replies channel.admitted rid = [])

namespace ReplyInv

variable {channel channel' : Channel WriteItem}
variable {rid : Nat}
variable {request : Option Request}

/- A request that was not answered has no reply queued. -/
theorem unanswered
    {slot : Option Request}
    {request : Request}
    (hInv : ReplyInv channel rid slot)
    (hGet : slot = some request)
    (hSending : ∀ answer, request.pc ≠ .sending answer)
    (hDone : request.pc ≠ .done) :
    replies channel.admitted rid = [] := by
  subst hGet
  unfold ReplyInv at hInv
  cases hPc : request.pc with
  | sending answer => exact absurd hPc (hSending answer)
  | done => exact absurd hPc hDone
  | rejecting | spawned | running | answering answer =>
      simpa only [hPc] using hInv

/- What others do to the queue does not matter. -/
theorem frame
    (hInv : ReplyInv channel rid request)
    (hAdmitted :
      replies channel'.admitted rid =
        replies channel.admitted rid)
    (hSenders :
      replies channel.senders rid = [] →
        replies channel'.senders rid = [])
    (hClosed :
      channel.isOpen = false → channel'.isOpen = false) :
    ReplyInv channel' rid request := by
  cases request with
  | none => exact hAdmitted.trans hInv
  | some request =>
      unfold ReplyInv at hInv ⊢
      dsimp only at hInv ⊢
      cases hPc : request.pc with
      | done =>
          rw [hPc] at hInv
          rcases hInv with
            ⟨answer, hOne, hNone⟩ | ⟨hShut, hNone⟩
          · exact .inl
              ⟨answer, hAdmitted.trans hOne, hSenders hNone⟩
          · exact .inr
              ⟨hClosed hShut, hAdmitted.trans hNone⟩
      | sending answer =>
          rw [hPc] at hInv
          rcases hInv with ⟨answer, hOne⟩
          exact ⟨answer, hAdmitted.trans hOne⟩
      | rejecting =>
          rw [hPc] at hInv
          exact hAdmitted.trans hInv
      | spawned =>
          rw [hPc] at hInv
          exact hAdmitted.trans hInv
      | running =>
          rw [hPc] at hInv
          exact hAdmitted.trans hInv
      | answering answer =>
          rw [hPc] at hInv
          exact hAdmitted.trans hInv

/- A request never has two replies. -/
theorem length_le_one
    (hInv : ReplyInv channel rid request) :
    (replies channel.admitted rid).length ≤ 1 := by
  cases request with
  | none => simp [show replies channel.admitted rid = [] from hInv]
  | some request =>
      unfold ReplyInv at hInv
      dsimp only at hInv
      cases hPc : request.pc <;> rw [hPc] at hInv
      case done =>
        rcases hInv with ⟨answer, hOne, -⟩ | ⟨-, hNone⟩
        · simp [hOne]
        · simp [hNone]
      case sending answer =>
        rcases hInv with ⟨answer, hOne⟩
        simp [hOne]
      all_goals
        simp [show replies channel.admitted rid = [] from hInv]

/- Every reply echoes the request's call id and token. -/
theorem echoes
    {request : Request}
    (hInv : ReplyInv channel rid (some request))
    {item : WriteItem}
    (hMem : item ∈ replies channel.admitted rid) :
    ∃ answer : Answer, item = answer.item request.header rid := by
  unfold ReplyInv at hInv
  dsimp only at hInv
  cases hPc : request.pc <;> rw [hPc] at hInv
  case done =>
    rcases hInv with ⟨answer, hOne, -⟩ | ⟨-, hNone⟩
    · exact ⟨answer, by simpa [hOne] using hMem⟩
    · simp [hNone] at hMem
  case sending answer =>
    rcases hInv with ⟨answer, hOne⟩
    exact ⟨answer, by simpa [hOne] using hMem⟩
  all_goals
    simp [show replies channel.admitted rid = [] from hInv]
      at hMem

end ReplyInv

------------------------------------------------------------
-- Requests The Reader Answers
------------------------------------------------------------

/- The request a rejecting reader is about. -/
def RejectInv
    (requests : List Request) : ReaderPc → Prop
  | .rejecting rid header _ =>
      ∃ request, requests[rid]? = some request ∧
        request.header = header ∧
        request.verdict ≠ .spawned ∧
        request.pc = .rejecting
  | .rejected rid _ =>
      ∃ request, requests[rid]? = some request ∧
        request.verdict ≠ .spawned ∧
        request.pc = .sending .error
  | _ => True

namespace RejectInv

variable {requests : List Request}
variable {reader : ReaderPc}

/- New records do not disturb it. -/
theorem append
    (hInv : RejectInv requests reader)
    (more : List Request) :
    RejectInv (requests ++ more) reader := by
  cases reader with
  | rejecting rid header closes =>
      rcases hInv with ⟨request, hGet, hRest⟩
      exact ⟨request, Records.getElem?_mono
        (List.prefix_append _ _) hGet, hRest⟩
  | rejected rid closes =>
      rcases hInv with ⟨request, hGet, hRest⟩
      exact ⟨request, Records.getElem?_mono
        (List.prefix_append _ _) hGet, hRest⟩
  | _ => trivial

/- Nor does a step of a request that was spawned. -/
theorem modify
    (hInv : RejectInv requests reader)
    {i : Nat}
    {request : Request}
    (hGet : requests[i]? = some request)
    (hSpawned :
      request.verdict = .spawned ∨
        (request.pc ≠ .rejecting ∧
          request.pc ≠ .sending .error))
    (f : Request → Request) :
    RejectInv (requests.modify i f) reader := by
  cases reader with
  | rejecting rid header closes =>
      rcases hInv with
        ⟨other, hOther, hHeader, hVerdict, hPc⟩
      refine ⟨other,
        Records.getElem?_modify_of_ne hOther hGet ?_,
        hHeader, hVerdict, hPc⟩
      rintro rfl
      rcases hSpawned with hSpawned | hNot
      · exact hVerdict hSpawned
      · exact hNot.1 hPc
  | rejected rid closes =>
      rcases hInv with ⟨other, hOther, hVerdict, hPc⟩
      refine ⟨other,
        Records.getElem?_modify_of_ne hOther hGet ?_,
        hVerdict, hPc⟩
      rintro rfl
      rcases hSpawned with hSpawned | hNot
      · exact hVerdict hSpawned
      · exact hNot.2 hPc
  | _ => trivial

end RejectInv

------------------------------------------------------------
-- Every Run
------------------------------------------------------------

namespace Session

variable {ω : Type}
variable {cfg : Config ω}

/- A request that is not answered here keeps its count. -/
theorem replyInv_frame
    (cfg : Config ω)
    (s : Session)
    (a : Action ω)
    {rid : Nat}
    {request : Option Request}
    (hInv : ReplyInv s.writeChannel rid request)
    (hOther : producer a ≠ some (.reply rid)) :
    ReplyInv (s.update cfg a).writeChannel rid request := by
  have hNone : replies (s.admits cfg a) rid = [] :=
    itemsOf_admits cfg s a hOther
  refine hInv.frame ?_ ?_ (s.isOpen_update cfg a)
  · rw [admitted_update, replies_append, hNone,
      List.append_nil]
  · intro hSenders
    rw [itemsOf_eq_nil_iff] at hSenders hNone ⊢
    intro item hMem
    rcases s.mem_senders_update cfg a hMem with hOld | hNew
    · exact hSenders item hOld
    · exact hNone item hNew

/- A record that has just been added has no reply yet. -/
theorem replyInv_append
    {channel : Channel WriteItem}
    {requests : List Request}
    {rid : Nat}
    (hInv : ReplyInv channel rid requests[rid]?)
    {more : List Request}
    (hMore :
      ∀ request ∈ more,
        request.pc = .rejecting ∨ request.pc = .spawned) :
    ReplyInv channel rid (requests ++ more)[rid]? := by
  apply Records.lookup_append hInv
  intro request hMem hNone
  rcases hMore request hMem with hPc | hPc
  · simpa only [ReplyInv, hPc] using hNone
  · simpa only [ReplyInv, hPc] using hNone

/- The records that the reader adds. -/
theorem oversizedRequest_pc
    (ord : Nat)
    (header : Header)
    (kind : Intake) :
    ∀ request ∈ oversizedRequest ord header kind,
      request.pc = .rejecting ∨ request.pc = .spawned := by
  cases kind <;> simp [oversizedRequest]

theorem readRequest_pc
    (ord : Nat)
    (header : Header)
    (body : Buffer)
    (use : BodyUse) :
    ∀ request ∈ readRequest ord header body use,
      request.pc = .rejecting ∨ request.pc = .spawned := by
  cases use <;> simp [readRequest]

/- Offering a reply for request `rid`. -/
theorem replyInv_offer
    (s : Session)
    {rid : Nat}
    {header : Header}
    {request : Request}
    (hNone :
      replies s.writeChannel.admitted rid = [])
    (answer : Answer)
    (hHeader : request.header = header) :
    ReplyInv
      (s.writeChannel.asyncSend (answer.item header rid)) rid
      (some
        { request with
          pc := afterOffer s.writeChannel.isOpen answer }) := by
  have hAdmitted :=
    asyncSend_admits s.writeChannel (answer.item header rid)
  cases hOpen : s.writeChannel.isOpen with
  | true =>
      refine ⟨answer, ?_⟩
      rw [hAdmitted, replies_append, hNone, hOpen]
      simp [Answer.item, hHeader]
  | false =>
      have hStill :
          replies (s.writeChannel.asyncSend
            (answer.item header rid)).admitted rid = [] := by
        rw [hAdmitted, replies_append, hNone, hOpen]
        rfl
      cases answer with
      | response body => exact hStill
      | error =>
          exact .inr ⟨by simpa using hOpen, hStill⟩

theorem replyInv
    {ok : Session → Action ω → Prop}
    {s : Session}
    (hReach : ReachableBy cfg ok s) :
    (∀ rid, ReplyInv s.writeChannel rid s.requests[rid]?) ∧
      RejectInv s.requests s.reader := by
  refine invariant
    (fun s =>
      (∀ rid, ReplyInv s.writeChannel rid s.requests[rid]?) ∧
        RejectInv s.requests s.reader) ?_ ?_ hReach
  · exact ⟨fun rid => rfl, trivial⟩
  · intro s a _ hInv _ hEnabled
    rcases hInv with ⟨hReplies, hReject⟩
    have hFrame :
        ∀ {rid : Nat}, producer a ≠ some (.reply rid) →
          ReplyInv (s.update cfg a).writeChannel rid
            s.requests[rid]? :=
      fun hOther => replyInv_frame cfg s a (hReplies _) hOther
    cases a with
    | readHeader now =>
        refine ⟨fun rid => replyInv_append (hReplies rid)
          (oversizedRequest_pc _ _ _), ?_⟩
        simp only [update]
        cases hKind : s.nextIntake cfg now with
        | oversizedRequest =>
            exact ⟨_, List.getElem?_concat_length, rfl, (by simp),
              rfl⟩
        | _ => trivial
    | readBody header use =>
        refine ⟨fun rid => replyInv_append (hReplies rid)
          (readRequest_pc _ _ _ _), ?_⟩
        simp only [update]
        cases use with
        | limited =>
            exact ⟨_, List.getElem?_concat_length, rfl, (by simp),
              rfl⟩
        | _ => trivial
    | sendPong =>
        exact ⟨fun rid => hFrame (by simp [producer]), trivial⟩
    | readFail => exact ⟨hReplies, trivial⟩
    | findOperation token result =>
        refine ⟨hReplies, ?_⟩
        simp only [update]
        cases s.channels.lookup token <;> trivial
    | sendResult i result =>
        refine ⟨hReplies, ?_⟩
        simp only [update]
        split <;> trivial
    | resumeResult i => exact ⟨hReplies, trivial⟩
    | readerClose again =>
        refine ⟨hReplies, ?_⟩
        simp only [update]
        split
        · trivial
        · cases again <;> trivial
    | readerClosed again =>
        refine ⟨hReplies, ?_⟩
        cases again <;> trivial
    | rejectRequest rid header closes =>
        have hAt : s.reader = .rejecting rid header closes :=
          hEnabled
        rw [hAt] at hReject
        rcases hReject with
          ⟨request, hGet, hHeader, hVerdict, hPc⟩
        have hNone := (hReplies rid).unanswered hGet
          (by simp [hPc]) (by simp [hPc])
        constructor
        · refine Records.forall_lookup_modify
            (Q := ReplyInv (s.writeChannel.asyncSend
              (.respond .error header Buffer.empty rid)))
            hGet ?_ ?_
          · exact replyInv_offer s hNone .error hHeader
          · exact fun rid' hNe =>
              hFrame (by simpa [producer] using hNe)
        · simp only [update]
          cases hOpen : s.writeChannel.isOpen with
          | true =>
              exact ⟨{ request with pc := .sending .error },
                by simp [hGet], hVerdict, rfl⟩
          | false => trivial
    | resumeReject rid closes =>
        rcases hEnabled with ⟨hAt, hResume⟩
        rw [hAt] at hReject
        rcases hReject with ⟨request, hGet, hVerdict, hPc⟩
        have hOne := hReplies rid
        simp only [hGet, ReplyInv, hPc] at hOne
        constructor
        · refine Records.forall_lookup_modify
            (Q := ReplyInv s.writeChannel) hGet ?_
            fun rid' _ => hReplies rid'
          rcases hOne with ⟨answer, hOne⟩
          exact .inl ⟨answer, hOne,
            (itemsOf_eq_nil_iff _ _).mpr hResume⟩
        · simp only [update]
          split <;> trivial
    | startHandler rid header w =>
        rcases hEnabled with ⟨request, hGet, hHeader, hPc⟩
        have hNone := (hReplies rid).unanswered hGet
          (by simp [hPc]) (by simp [hPc])
        constructor
        · refine Records.forall_lookup_modify
            (Q := ReplyInv s.writeChannel) hGet ?_
            fun rid' _ => hReplies rid'
          rcases s.gate cfg header w with
            ⟨consulted, e | entry⟩
          · exact hNone
          · exact hNone
        · exact hReject.modify hGet
            (.inr (by simp [hPc])) _
    | finishHandler rid w =>
        rcases hEnabled with ⟨request, hGet, hPc⟩
        have hNone := (hReplies rid).unanswered hGet
          (by simp [hPc]) (by simp [hPc])
        constructor
        · exact Records.forall_lookup_modify
            (Q := ReplyInv s.writeChannel) hGet hNone
            fun rid' _ => hReplies rid'
        · exact hReject.modify hGet
            (.inr (by simp [hPc])) _
    | sendReply rid header answer =>
        rcases hEnabled with ⟨request, hGet, hHeader, hPc⟩
        have hNone := (hReplies rid).unanswered hGet
          (by simp [hPc]) (by simp [hPc])
        constructor
        · refine Records.forall_lookup_modify
            (Q := ReplyInv (s.writeChannel.asyncSend
              (answer.item header rid))) hGet ?_ ?_
          · exact replyInv_offer s hNone answer hHeader
          · exact fun rid' hNe =>
              hFrame (by simpa [producer] using hNe)
        · exact hReject.modify hGet
            (.inr (by simp [hPc])) _
    | resumeReply rid =>
        rcases hEnabled with
          ⟨⟨request, hGet, hVerdict, hSending⟩, hResume⟩
        have hOne := hReplies rid
        rw [Option.mem_def.mp hGet] at hOne
        constructor
        · refine Records.forall_lookup_modify
            (Q := ReplyInv s.writeChannel) hGet ?_
            fun rid' _ => hReplies rid'
          cases hPc : request.pc with
          | sending answer =>
              simp only [ReplyInv, hPc] at hOne
              rcases hOne with ⟨answer, hOne⟩
              exact .inl ⟨answer, hOne,
                (itemsOf_eq_nil_iff _ _).mpr hResume⟩
          | _ => simp [hPc, RequestPc.isSending] at hSending
        · exact hReject.modify hGet (.inl hVerdict) _
    | _ => exact ⟨fun rid => hFrame (by simp [producer]), hReject⟩

end Session

------------------------------------------------------------
-- What A Request Did To The Application
------------------------------------------------------------

/- Is the event about request `rid`? -/
def Event.concerns (rid : Nat) : Event → Bool
  | .authCalled rid' _ => rid' = rid
  | .invoked (.request rid') _ => rid' = rid
  | .invoked .notification _ => false
  | .stamped _ => false
  | .notified _ _ => false

/- The events of a log that are about request `rid`. -/
def handling
    (log : List Event)
    (rid : Nat) : List Event :=
  log.filter (Event.concerns rid)

/- The handler runs among them. -/
def invocations
    (log : List Event)
    (rid : Nat) : List Event :=
  (handling log rid).filter fun event =>
    match event with
    | .invoked _ _ => true
    | _ => false

@[simp] theorem handling_append
    (first second : List Event)
    (rid : Nat) :
    handling (first ++ second) rid =
      handling first rid ++ handling second rid := by
  simp [handling]

/-
  Only a spawned request that has left its first point has
  met the gate, and it met it once.
-/
def HandledInv
    {ω : Type}
    (cfg : Config ω)
    (log : List Event)
    (rid : Nat) : Option Request → Prop
  | none => handling log rid = []
  | some request =>
      (request.verdict ≠ .spawned ∧ request.pc ≠ .spawned ∧
          handling log rid = []) ∨
        (request.verdict = .spawned ∧ request.pc = .spawned ∧
          handling log rid = []) ∨
        (request.verdict = .spawned ∧ request.pc ≠ .spawned ∧
          request.pc ≠ .rejecting ∧
          ∃ w ctx,
            handling log rid =
              Session.startEvents rid request.header.callId
                (cfg.dispatcher.enter w request.header.callId
                  ctx))

namespace HandledInv

variable {ω : Type}
variable {cfg : Config ω}
variable {log : List Event}
variable {rid : Nat}

/- A request that moves on stays as it was handled. -/
theorem advance
    {request : Request}
    (hInv : HandledInv cfg log rid (some request))
    (hFrom : request.pc ≠ .spawned)
    {pc : RequestPc}
    (hSpawned : pc ≠ .spawned)
    (hRejecting : pc ≠ .rejecting) :
    HandledInv cfg log rid (some { request with pc := pc }) := by
  rcases hInv with hNot | hStart | hDone
  · exact .inl ⟨hNot.1, hSpawned, hNot.2.2⟩
  · exact absurd hStart.2.1 hFrom
  · exact .inr (.inr
      ⟨hDone.1, hSpawned, hRejecting, hDone.2.2.2⟩)

/- Events about others do not matter. -/
theorem append
    {request : Option Request}
    (hInv : HandledInv cfg log rid request)
    {events : List Event}
    (hOther : handling events rid = []) :
    HandledInv cfg (log ++ events) rid request := by
  cases request <;>
    simpa only [HandledInv, handling_append, hOther,
      List.append_nil] using hInv

end HandledInv

namespace Session

variable {ω : Type}
variable {cfg : Config ω}

/- All that a start emits is about its own request. -/
theorem handling_startEvents
    (rid rid' : Nat)
    (callId : UInt64)
    (gated : Option AuthCall × Except Exn (MethodEntry ω)) :
    handling (startEvents rid callId gated) rid' =
      if rid = rid' then startEvents rid callId gated
      else [] := by
  rcases gated with ⟨consulted, e | entry⟩ <;>
    cases consulted <;>
      by_cases hSame : rid = rid' <;>
        simp [startEvents, handling, Event.concerns, hSame]

theorem handling_notificationEvents
    (w : ω)
    (callId : UInt64)
    (body : Buffer)
    (rid : Nat) :
    handling (notificationEvents cfg w callId body) rid = [] := by
  unfold notificationEvents
  split
  · rfl
  · cases (cfg.dispatcher.dispatch cfg.order w callId
      body).invoked <;> rfl

/- A new record has met no gate. -/
theorem handledInv_append
    {log : List Event}
    {requests : List Request}
    {rid : Nat}
    (hInv : HandledInv cfg log rid requests[rid]?)
    {more : List Request}
    (hMore :
      ∀ request ∈ more,
        (request.verdict ≠ .spawned ∧
            request.pc ≠ .spawned) ∨
          (request.verdict = .spawned ∧
            request.pc = .spawned)) :
    HandledInv cfg log rid (requests ++ more)[rid]? := by
  apply Records.lookup_append hInv
  intro request hMem hNone
  rcases hMore request hMem with
    ⟨hVerdict, hPc⟩ | ⟨hVerdict, hPc⟩
  · exact .inl ⟨hVerdict, hPc, hNone⟩
  · exact .inr (.inl ⟨hVerdict, hPc, hNone⟩)

/- One record moves on, the others stay. -/
theorem handledInv_modify
    {log : List Event}
    {requests : List Request}
    (hInv :
      ∀ rid, HandledInv cfg log rid requests[rid]?)
    {i : Nat}
    {request : Request}
    (hGet : requests[i]? = some request)
    (hFrom : request.pc ≠ .spawned)
    (f : Request → Request)
    (hStep :
      ∃ pc, f request = { request with pc := pc } ∧
        pc ≠ .spawned ∧ pc ≠ .rejecting) :
    ∀ rid,
      HandledInv cfg log rid (requests.modify i f)[rid]? := by
  rcases hStep with ⟨pc, hEq, hSpawned, hRejecting⟩
  have hOld := hInv i
  rw [hGet] at hOld
  refine Records.forall_lookup_modify
    (Q := HandledInv cfg log) hGet ?_ fun rid _ => hInv rid
  rw [hEq]
  exact hOld.advance hFrom hSpawned hRejecting

theorem handledInv
    {ok : Session → Action ω → Prop}
    {s : Session}
    (hReach : ReachableBy cfg ok s) :
    ∀ rid, HandledInv cfg s.log rid s.requests[rid]? := by
  refine invariant
    (fun s =>
      ∀ rid, HandledInv cfg s.log rid s.requests[rid]?)
    (fun rid => rfl) ?_ hReach
  intro s a hPrior hInv _ hEnabled
  cases a with
  | stamp identity => exact fun rid => (hInv rid).append rfl
  | runNotification callId body w =>
      exact fun rid =>
        (hInv rid).append
          (handling_notificationEvents w callId body rid)
  | readHeader now =>
      refine fun rid => handledInv_append (hInv rid) ?_
      cases s.nextIntake cfg now <;> simp [oversizedRequest]
  | readBody header use =>
      refine fun rid => handledInv_append (hInv rid) ?_
      cases use <;> simp [readRequest]
  | rejectRequest rid header closes =>
      have hAt : s.reader = .rejecting rid header closes :=
        hEnabled
      have hReject := (replyInv hPrior).2
      rw [hAt] at hReject
      rcases hReject with ⟨request, hGet, -, -, hPc⟩
      refine handledInv_modify hInv hGet (by simp [hPc]) _ ?_
      exact ⟨_, rfl, by split <;> simp, by split <;> simp⟩
  | resumeReject rid closes =>
      have hReject := (replyInv hPrior).2
      rw [hEnabled.1] at hReject
      rcases hReject with ⟨request, hGet, -, hPc⟩
      exact handledInv_modify hInv hGet (by simp [hPc]) _
        ⟨.done, rfl, by simp, by simp⟩
  | startHandler rid header w =>
      rcases hEnabled with ⟨request, hGet, rfl, hPc⟩
      intro rid'
      have hOld := hInv rid'
      have hEvents :=
        handling_startEvents rid rid' request.header.callId
          (s.gate cfg request.header w)
      by_cases hSame : rid = rid'
      · subst hSame
        rw [Option.mem_def.mp hGet] at hOld
        simp only [update, List.getElem?_modify_eq,
          Option.mem_def.mp hGet, Option.map_eq_map,
          Option.map_some]
        rcases hOld with hNot | hStart | hDone
        · exact absurd hPc hNot.2.1
        · refine .inr (.inr ⟨hStart.1, ?_, ?_, w,
            cfg.clientContext s.identity, ?_⟩)
          · rcases s.gate cfg request.header w with
              ⟨consulted, e | entry⟩ <;> simp [afterGate]
          · rcases s.gate cfg request.header w with
              ⟨consulted, e | entry⟩ <;> simp [afterGate]
          · rw [handling_append, hStart.2.2, hEvents,
              if_pos rfl]
            rfl
        · exact absurd hPc hDone.2.1
      · simp only [update, List.getElem?_modify_ne _ _ hSame]
        exact hOld.append (by rw [hEvents, if_neg hSame])
  | finishHandler rid w =>
      rcases hEnabled with ⟨request, hGet, hPc⟩
      exact handledInv_modify hInv hGet (by simp [hPc]) _
        ⟨_, rfl, by simp, by simp⟩
  | sendReply rid header answer =>
      rcases hEnabled with ⟨request, hGet, -, hPc⟩
      refine handledInv_modify hInv hGet (by simp [hPc]) _ ?_
      refine ⟨_, rfl, ?_, ?_⟩ <;>
        cases s.writeChannel.isOpen <;> cases answer <;>
          simp [afterOffer]
  | resumeReply rid =>
      rcases hEnabled with ⟨⟨request, hGet, -, hSending⟩, -⟩
      refine handledInv_modify hInv hGet ?_ _
        ⟨.done, rfl, by simp, by simp⟩
      intro hPc
      simp [hPc, RequestPc.isSending] at hSending
  | _ => exact hInv

------------------------------------------------------------
-- Exactly One Reply
------------------------------------------------------------

/- The replies the write queue accepted for request `rid`. -/
def queuedReplies
    (s : Session)
    (rid : Nat) : List WriteItem :=
  replies s.writeChannel.accepted rid

end Session

/-
  One request: at most one reply, which echoes it; exactly
  one when its handling is over and the channel is open; and
  at most one run of its handler, none unless it was spawned,
  found and allowed.
-/
structure RepliedOnce
    {ω : Type}
    (cfg : Config ω)
    (s : Session)
    (rid : Nat)
    (request : Request) : Prop where
  atMostOne : (s.queuedReplies rid).length ≤ 1
  echoes :
    ∀ item ∈ s.queuedReplies rid,
      (item.header.incomingType = some .response ∨
          item.header.incomingType = some .error) ∧
        item.header.callId = request.header.callId ∧
        item.header.userToken = request.header.userToken
  exactlyOne :
    request.pc = .done → s.writeChannel.isOpen = true →
      (s.queuedReplies rid).length = 1
  runsOnce : (invocations s.log rid).length ≤ 1
  rejectedUnrun :
    request.verdict ≠ .spawned → invocations s.log rid = []
  unknownUnrun :
    cfg.dispatcher.dispatchTable.lookup
        request.header.callId = none →
      invocations s.log rid = []
  deniedUnrun :
    ∀ entry call,
      cfg.dispatcher.dispatchTable.lookup
          request.header.callId = some entry →
      .authCalled rid call ∈ s.log →
      Dispatcher.permits entry.vis call.result = false →
      invocations s.log rid = []

namespace Session

variable {ω : Type}
variable {cfg : Config ω}

/- What is accepted is what is admitted and not waiting. -/
theorem queuedReplies_sublist
    (s : Session)
    (rid : Nat) :
    (s.queuedReplies rid).Sublist
      (replies s.writeChannel.admitted rid) := by
  rw [Channel.admitted, replies_append]
  exact List.sublist_append_left _ _

/- A handled request has its reply, if the channel is open. -/
theorem queuedReplies_of_done
    {ok : Session → Action ω → Prop}
    {s : Session}
    (hReach : ReachableBy cfg ok s)
    {rid : Nat}
    {request : Request}
    (hRequest : s.requests[rid]? = some request)
    (hDone : request.pc = .done)
    (hOpen : s.writeChannel.isOpen = true) :
    ∃ answer : Answer,
      s.queuedReplies rid =
        [answer.item request.header rid] := by
  have hReply := (replyInv hReach).1 rid
  rw [hRequest] at hReply
  simp only [ReplyInv, hDone] at hReply
  rcases hReply with ⟨answer, hOne, hNone⟩ | ⟨hShut, -⟩
  · rw [Channel.admitted, replies_append, hNone,
      List.append_nil] at hOne
    exact ⟨answer, hOne⟩
  · simp [hOpen] at hShut

/- The gate invokes at most once. -/
theorem startEvents_invocations
    (rid : Nat)
    (callId : UInt64)
    (gated : Option AuthCall × Except Exn (MethodEntry ω)) :
    ((startEvents rid callId gated).filter fun event =>
        match event with
        | .invoked _ _ => true
        | _ => false) =
      match gated.2 with
      | .error _ => []
      | .ok _ => [.invoked (.request rid) callId] := by
  rcases gated with ⟨consulted, e | entry⟩ <;>
    cases consulted <;> rfl

/- The gate a spawned request met, if it met one. -/
theorem invocations_cases
    {log : List Event}
    {rid : Nat}
    {request : Request}
    (hInv : HandledInv cfg log rid (some request)) :
    invocations log rid = [] ∨
      (request.verdict = .spawned ∧
        ∃ w ctx entry,
          handling log rid =
            startEvents rid request.header.callId
              (cfg.dispatcher.enter w request.header.callId
                ctx) ∧
          (cfg.dispatcher.enter w request.header.callId
            ctx).2 = .ok entry ∧
          invocations log rid =
            [.invoked (.request rid)
              request.header.callId]) := by
  rcases hInv with hNot | hStart | hDone
  · exact .inl (by simp [invocations, hNot.2.2])
  · exact .inl (by simp [invocations, hStart.2.2])
  · rcases hDone with ⟨hVerdict, -, -, w, ctx, hEvents⟩
    cases hPassed :
        (cfg.dispatcher.enter w request.header.callId
          ctx).2 with
    | error e =>
        left
        rw [invocations, hEvents, startEvents_invocations,
          hPassed]
    | ok entry =>
        refine .inr ⟨hVerdict, w, ctx, entry, hEvents,
          hPassed, ?_⟩
        rw [invocations, hEvents, startEvents_invocations,
          hPassed]

theorem repliedOnce_of_record
    (cfg : Config ω)
    (s : Session)
    (hReach : Reachable cfg s)
    (rid : Nat)
    (request : Request)
    (hRequest : s.requests[rid]? = some request) :
    RepliedOnce cfg s rid request := by
  have hReply := (replyInv hReach).1 rid
  have hHandled := handledInv hReach rid
  rw [hRequest] at hReply hHandled
  have hSublist := s.queuedReplies_sublist rid
  constructor
  case atMostOne =>
    exact hSublist.length_le.trans hReply.length_le_one
  case echoes =>
    intro item hMem
    rcases hReply.echoes (hSublist.subset hMem) with
      ⟨answer, rfl⟩
    refine ⟨?_, rfl, rfl⟩
    cases answer with
    | response body => exact .inl (incomingType_frameHeader ..)
    | error => exact .inr (incomingType_frameHeader ..)
  case exactlyOne =>
    intro hDone hOpen
    rcases queuedReplies_of_done hReach hRequest hDone
        hOpen with ⟨answer, hOne⟩
    simp [hOne]
  case runsOnce =>
    rcases invocations_cases hHandled with
      hNone | ⟨-, _, _, _, -, -, hOne⟩
    · simp [hNone]
    · simp [hOne]
  case rejectedUnrun =>
    intro hVerdict
    rcases invocations_cases hHandled with
      hNone | ⟨hSpawned, -⟩
    · exact hNone
    · exact absurd hSpawned hVerdict
  case unknownUnrun =>
    intro hMissing
    rcases invocations_cases hHandled with
      hNone | ⟨-, w, ctx, entry, -, hPassed, -⟩
    · exact hNone
    · rcases cfg.dispatcher.enter_missing w request.header.callId
          ctx hMissing with ⟨e, hEnter⟩
      rw [hEnter] at hPassed
      cases hPassed
  case deniedUnrun =>
    intro entry call hFound hCalled hDenied
    rcases invocations_cases hHandled with
      hNone | ⟨-, w, ctx, entry', hEvents, hPassed, -⟩
    · exact hNone
    · -- A gate that passed did not hear this answer.
      exfalso
      have hMem : .authCalled rid call ∈ handling s.log rid := by
        simp [handling, Event.concerns, hCalled]
      have hEnter :=
        cfg.dispatcher.enter_found w request.header.callId ctx
          hFound
      rw [hEvents, hEnter] at hMem
      rw [hEnter] at hPassed
      cases hAuth :
          (cfg.dispatcher.enforceAuth w entry ctx).2 with
      | error e => simp [hAuth, Except.map] at hPassed
      | ok passed =>
          rw [hAuth] at hMem
          have hConsulted :
              (cfg.dispatcher.enforceAuth w entry ctx).1 =
                some call := by
            simpa [Except.map, startEvents] using hMem
          rcases cfg.dispatcher.enforceAuth_asked w entry ctx
              hConsulted with ⟨callback, hSome, rfl⟩
          have hOpen :=
            (cfg.dispatcher.enforceAuth_passes_iff w entry
              ctx).mp hAuth
          refine hOpen ⟨?_, callback, hSome, hDenied⟩
          intro hPublic
          simp [Dispatcher.enforceAuth, hPublic] at hConsulted

------------------------------------------------------------
-- Reply Frames
------------------------------------------------------------

/- Every reply frame in the queue answers a request. -/
theorem reply_source
    {ok : Session → Action ω → Prop}
    {s : Session}
    (hReach : ReachableBy cfg ok s)
    {item : WriteItem}
    (hMem : item ∈ s.writeChannel.admitted)
    (hType :
      item.header.incomingType = some .response ∨
        item.header.incomingType = some .error) :
    ∃ rid request, s.requests[rid]? = some request ∧
      item ∈ replies s.writeChannel.admitted rid := by
  cases produced hReach item hMem with
  | reply answer header rid =>
      have hReply :
          .respond answer.type header answer.body rid ∈
            replies s.writeChannel.admitted rid :=
        mem_itemsOf.mpr ⟨hMem, rfl⟩
      cases hRequest : s.requests[rid]? with
      | none =>
          have hInv := (replyInv hReach).1 rid
          rw [hRequest] at hInv
          rw [show replies s.writeChannel.admitted rid = []
            from hInv] at hReply
          cases hReply
      | some request =>
          exact ⟨rid, request, hRequest, hReply⟩
  | request => simp [WriteItem.request] at hType
  | notify => simp [WriteItem.notify] at hType
  | tryNotify => simp [WriteItem.tryNotify] at hType
  | ping => simp [WriteItem.ping] at hType
  | pong => simp [WriteItem.pong] at hType

end Session

end GrlxRpc
