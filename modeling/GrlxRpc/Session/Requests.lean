import GrlxRpc.Session.Origin
import GrlxRpc.Session.Replies
import GrlxRpc.Lib.Observed

/-
  Where the requests a session handles come from, and the
  request frames its own calls queue.

  Each request body that the reader reads leaves one record,
  which is answered once.

  Main declarations:
    * `RequestInv`, `RequestsInv` and `Session.requestsInv`
    * `Session.requestRead` and `Session.recordedInv`
    * `Session.repliedOnce`
    * `OwnInv` and `Session.ownInv`
-/

------------------------------------------------------------
-- Requests
------------------------------------------------------------

namespace GrlxRpc

/-
  One request: its frame, and that it is clean unless it will
  never be answered because the queue is closed.
-/
structure RequestInv
    (limits : SessionLimits)
    (frames : List Frame)
    (channel : Channel WriteItem)
    (rid : Nat)
    (request : Request) : Prop where
  source :
    ∃ body, frames[request.ord]? = some (request.header, body)
  magic : request.header.magic = magicHeaderNumber
  type : request.header.incomingType = some .request
  clean :
    Clean limits frames request.ord ∨
      (channel.isOpen = false ∧
        replies channel.admitted rid = [])

namespace RequestInv

variable {limits : SessionLimits}
variable {frames frames' : List Frame}
variable {channel channel' : Channel WriteItem}
variable {rid : Nat}
variable {request : Request}

theorem ord_lt
    (hInv : RequestInv limits frames channel rid request) :
    request.ord < frames.length := by
  rcases hInv.source with ⟨body, hGet⟩
  exact (List.getElem?_eq_some_iff.mp hGet).1

theorem mono
    (hInv : RequestInv limits frames channel rid request)
    (hPrefix : frames <+: frames')
    (hClosed :
      channel.isOpen = false →
        channel'.isOpen = false ∧
          channel'.admitted = channel.admitted) :
    RequestInv limits frames' channel' rid request where
  source := by
    rcases hInv.source with ⟨body, hGet⟩
    rcases hPrefix with ⟨rest, rfl⟩
    refine ⟨body, ?_⟩
    rw [List.getElem?_append_left hInv.ord_lt, hGet]
  magic := hInv.magic
  type := hInv.type
  clean := by
    rcases hInv.clean with hClean | ⟨hShut, hNone⟩
    · exact .inl (hClean.mono hPrefix hInv.ord_lt.le)
    · rcases hClosed hShut with ⟨hStill, hSame⟩
      exact .inr ⟨hStill, hSame ▸ hNone⟩

/- The coroutine of the request moves on. -/
theorem move
    (hInv : RequestInv limits frames channel rid request)
    (pc : RequestPc) :
    RequestInv limits frames channel rid
      { request with pc := pc } :=
  { hInv with }

end RequestInv

structure RequestsInv
    (limits : SessionLimits)
    (frames : List Frame)
    (channel : Channel WriteItem)
    (requests : List Request) : Prop where
  each :
    ∀ (rid : Nat) (request : Request),
      requests[rid]? = some request →
        RequestInv limits frames channel rid request
  distinct : (requests.map Request.ord).Nodup

namespace RequestsInv

variable {limits : SessionLimits}
variable {frames frames' : List Frame}
variable {channel channel' : Channel WriteItem}
variable {requests : List Request}

theorem mono
    (hInv : RequestsInv limits frames channel requests)
    (hPrefix : frames <+: frames')
    (hClosed :
      channel.isOpen = false →
        channel'.isOpen = false ∧
          channel'.admitted = channel.admitted) :
    RequestsInv limits frames' channel' requests where
  each := fun rid request hGet =>
    (hInv.each rid request hGet).mono hPrefix hClosed
  distinct := hInv.distinct

/- The coroutine of one request moves on. -/
theorem modify
    (hInv : RequestsInv limits frames channel requests)
    (rid : Nat)
    (pc : Request → RequestPc) :
    RequestsInv limits frames channel
      (requests.modify rid fun request =>
        { request with pc := pc request }) where
  each :=
    Records.forall_getElem?_modify
      (fun j request hGet _ => hInv.each j request hGet)
      fun request hGet =>
        (hInv.each rid request hGet).move (pc request)
  distinct := by
    have hSame :
        (requests.modify rid fun request =>
            { request with pc := pc request }).map
            Request.ord =
          requests.map Request.ord := by
      refine List.ext_getElem? fun j => ?_
      rw [List.getElem?_map, List.getElem?_map]
      by_cases hAt : rid = j
      · subst hAt
        rw [List.getElem?_modify_eq]
        cases requests[rid]? <;> rfl
      · rw [List.getElem?_modify_ne _ _ hAt]
    rw [hSame]
    exact hInv.distinct

/- The reader adds a request for the frame after those done. -/
theorem add
    (hInv : RequestsInv limits frames channel requests)
    {request : Request}
    {body : List UInt8}
    (hOrd : request.ord = frames.length)
    (hNew :
      RequestInv limits
        (frames ++ [(request.header, body)]) channel
        requests.length request) :
    RequestsInv limits (frames ++ [(request.header, body)])
      channel (requests ++ [request]) where
  each := by
    intro rid other hGet
    by_cases hOld : rid < requests.length
    · rw [List.getElem?_append_left hOld] at hGet
      exact (hInv.each rid other hGet).mono
        (List.prefix_append _ _) fun h => ⟨h, rfl⟩
    · have hLe := Nat.le_of_not_lt hOld
      rw [List.getElem?_append_right hLe,
        List.getElem?_singleton] at hGet
      split at hGet
      · rcases Option.some.inj hGet with rfl
        obtain rfl : rid = requests.length := by omega
        exact hNew
      · cases hGet
  distinct := by
    have hFresh : request.ord ∉ requests.map Request.ord := by
      intro hMem
      rcases List.mem_map.mp hMem with ⟨other, hOther, hSame⟩
      rcases List.getElem?_of_mem hOther with ⟨rid, hGet⟩
      have hLt := (hInv.each rid other hGet).ord_lt
      omega
    simpa using List.Nodup.concat hFresh hInv.distinct

end RequestsInv

namespace Session

variable {ω : Type}
variable {cfg : Config ω}

/- A new request is clean, or the queue is closed by now. -/
theorem clean_or_unanswered
    {ok : Session → Action ω → Prop}
    (hSettles :
      ∀ s a, ok s a → Settles Teardown.hasClosed s a)
    {s : Session}
    (hReach : ReachableBy cfg ok s)
    (hReader : s.reader.shuts = false)
    (frame : Frame) :
    Clean cfg.limits (s.done ++ [frame]) s.done.length ∨
      (s.writeChannel.isOpen = false ∧
        replies s.writeChannel.admitted
          s.requests.length = []) := by
  rcases clean_or_passed (headInv (latch_hasClosed cfg)
    hSettles hReach) hReader s.done.length with
    hClean | hClosed
  · left
    have hTake := List.prefix_iff_eq_take.mp
      s.done_prefix_taken
    rw [Clean, ← hTake] at hClean
    rwa [Clean, List.take_left]
  · refine .inr ⟨by rw [isOpen_eq hReach, hClosed]; rfl, ?_⟩
    have hReply := (replyInv hReach).1 s.requests.length
    rwa [List.getElem?_eq_none_iff.mpr le_rfl] at hReply

/- The reader adds a request record. -/
theorem requestsInv_add
    {ok : Session → Action ω → Prop}
    (hSettles :
      ∀ s a, ok s a → Settles Teardown.hasClosed s a)
    {s : Session}
    (hReach : ReachableBy cfg ok s)
    (hInv :
      RequestsInv cfg.limits s.done s.writeChannel s.requests)
    (hReader : s.reader.shuts = false)
    (request : Request)
    (body : List UInt8)
    (hOrd : request.ord = s.done.length)
    (hMagic : request.header.magic = magicHeaderNumber)
    (hType : request.header.incomingType = some .request) :
    RequestsInv cfg.limits
      (s.done ++ [(request.header, body)]) s.writeChannel
      (s.requests ++ [request]) := by
  refine hInv.add hOrd ?_
  exact
    { source := ⟨body, hOrd ▸ List.getElem?_concat_length⟩
      magic := hMagic
      type := hType
      clean := hOrd ▸
        clean_or_unanswered hSettles hReach hReader _ }

theorem requestsInv
    {ok : Session → Action ω → Prop}
    (hSettles :
      ∀ s a, ok s a → Settles Teardown.hasClosed s a)
    {s : Session}
    (hReach : ReachableBy cfg ok s) :
    RequestsInv cfg.limits s.done s.writeChannel
      s.requests := by
  refine invariant
    (fun s =>
      RequestsInv cfg.limits s.done s.writeChannel
        s.requests) ⟨by simp [start], by simp [start]⟩ ?_
    hReach
  intro s a hPrior hInv _ hEnabled
  have hLater :
      ∀ {requests : List Request},
        RequestsInv cfg.limits s.done s.writeChannel
          requests →
        RequestsInv cfg.limits (s.update cfg a).done
          (s.update cfg a).writeChannel requests := by
    intro requests hOld
    refine hOld.mono (done_prefix_update hPrior hEnabled)
      fun hClosed => ⟨s.isOpen_update cfg a hClosed, ?_⟩
    rw [admitted_update, admits_of_closed cfg s a hClosed,
      List.append_nil]
  cases a with
  | readHeader now =>
      have hHead := nextIntake_head cfg s now
      have hDone := done_eq_taken (s := s)
        (by rw [hEnabled.1]; rfl)
      cases hKind : s.nextIntake cfg now with
      | oversizedRequest =>
          rw [hKind] at hHead
          have hNew := requestsInv_add hSettles hPrior hInv
            (by rw [hEnabled.1]; rfl)
            { header := s.nextHeader cfg
              ord := s.taken.length
              body := Buffer.empty
              verdict := .oversized
              pc := .rejecting } [] (by rw [hDone])
            hHead.1 hHead.2
          rw [hDone] at hNew
          rw [done_eq_taken (by
            simp [update, hKind, afterHeader,
              ReaderPc.inBody])]
          simpa [update, hKind, oversizedRequest] using hNew
      | _ =>
          have hRequests :
              (s.update cfg (.readHeader now)).requests =
                s.requests := by
            simp [update, hKind, oversizedRequest]
          rw [hRequests]
          exact hLater hInv
  | readBody header use =>
      have hReading := readerInv hPrior
      have hHeads := headInv (latch_hasClosed cfg) hSettles
        hPrior
      rcases body_header hReading hHeads hEnabled.1 with
        ⟨hMagic, hType, hLength⟩
      have hNew :
          ∀ verdict pc,
            use.type = .request →
              RequestsInv cfg.limits
                (s.done ++
                  [(header, (s.nextBody header).bytes)])
                s.writeChannel
                (s.requests ++
                  [{ header := header
                     ord := s.taken.length - 1
                     body := s.nextBody header
                     verdict := verdict
                     pc := pc }]) := by
        intro verdict pc hUse
        exact requestsInv_add hSettles hPrior hInv
          (by rw [hEnabled.1]; rfl)
          { header := header
            ord := s.taken.length - 1
            body := s.nextBody header
            verdict := verdict
            pc := pc } (s.nextBody header).bytes hLength.symm
          hMagic (by rw [hType, hUse])
      have hSame :
          readRequest (s.taken.length - 1) header
              (s.nextBody header) use = [] →
            RequestsInv cfg.limits
              (s.update cfg (.readBody header use)).done
              (s.update cfg (.readBody header use)).writeChannel
              (s.update cfg
                (.readBody header use)).requests := by
        intro hNone
        have hRequests :
            (s.update cfg (.readBody header use)).requests =
              s.requests := by
          simp [update, hNone]
        rw [hRequests]
        exact hLater hInv
      cases use with
      | limited =>
          rw [done_readBody hReading hEnabled.1]
          exact hNew .limited .rejecting rfl
      | request =>
          rw [done_readBody hReading hEnabled.1]
          exact hNew .spawned .spawned rfl
      | response => exact hSame rfl
      | notification => exact hSame rfl
      | error => exact hSame rfl
  | rejectRequest rid header closes =>
      exact hLater (hInv.modify rid _)
  | resumeReject rid closes => exact hLater (hInv.modify rid _)
  | startHandler rid header w =>
      exact hLater (hInv.modify rid _)
  | finishHandler rid w => exact hLater (hInv.modify rid _)
  | sendReply rid header answer =>
      exact hLater (hInv.modify rid _)
  | resumeReply rid => exact hLater (hInv.modify rid _)
  | _ => exact hLater hInv

end Session

------------------------------------------------------------
-- Requests That Were Read
------------------------------------------------------------

namespace Session

variable {ω : Type}
variable {cfg : Config ω}

/- The request frame whose body an action has read. -/
def requestRead
    (s : Session) : Action ω → Option (Header × Buffer)
  | .readBody header _ =>
      if header.incomingType = some .request then
        some (header, s.nextBody header)
      else
        none
  | _ => none

/- Sessions of runs with the request frames that were read. -/
abbrev Reading
    (cfg : Config ω)
    (s : Session)
    (history : List (Header × Buffer)) : Prop :=
  Transition.Reachable
    (Transition.observed (step cfg) requestRead)
    (start cfg, []) (s, history)

/- The frames of the requests whose bodies were read. -/
def readRequests
    (requests : List Request) : List (Header × Buffer) :=
  (requests.filter fun request =>
    request.verdict ≠ .oversized).map fun request =>
      (request.header, request.body)

theorem readRequests_append
    (requests requests' : List Request) :
    readRequests (requests ++ requests') =
      readRequests requests ++ readRequests requests' := by
  simp [readRequests]

/- A request that moves on keeps its frame. -/
theorem readRequests_modify
    (requests : List Request)
    (rid : Nat)
    (pc : Request → RequestPc) :
    readRequests
        (requests.modify rid fun request =>
          { request with pc := pc request }) =
      readRequests requests := by
  induction requests generalizing rid with
  | nil => cases rid <;> rfl
  | cons request rest ih =>
      cases rid with
      | zero =>
          simp only [List.modify_zero_cons, readRequests,
            List.filter_cons]
          split <;> rfl
      | succ rid =>
          have hRest := ih rid
          simp only [readRequests] at hRest
          simp only [List.modify_succ_cons, readRequests,
            List.filter_cons]
          split <;> simp only [List.map_cons, hRest]

/- What a header leaves on record was not read. -/
theorem readRequests_oversized
    (ord : Nat)
    (header : Header)
    (kind : Intake) :
    readRequests (oversizedRequest ord header kind) = [] := by
  cases kind <;> rfl

/-
  The records of requests that were not oversized are the
  request frames that the reader has read, one for each.
-/
theorem recordedInv
    {s : Session}
    {history : List (Header × Buffer)}
    (hReach : Reading cfg s history) :
    readRequests s.requests = history := by
  refine Transition.observedInvariant
    (fun s history => readRequests s.requests = history) rfl ?_
    hReach
  rintro s history a s' hPrior hInv - hStep
  rcases (step_eq_some_iff cfg s s' a).mp hStep with
    ⟨hEnabled, rfl⟩
  have hSame :
      ∀ {requests : List Request},
        readRequests requests = readRequests s.requests →
          readRequests requests = history ++ [] := by
    intro requests hKept
    rw [hKept, hInv, List.append_nil]
  cases a with
  | readHeader now =>
      refine hSame ?_
      simp only [update, readRequests_append,
        readRequests_oversized, List.append_nil]
  | readBody header use =>
      have hLatch : Latch cfg fun _ => true :=
        ⟨rfl, fun _ _ _ h => h⟩
      have hType :=
        (headInv hLatch (fun _ _ _ _ => .inr rfl)
          (Transition.reachable_of_observed hPrior)).reading
            header use hEnabled.1
      simp only [requestRead, hType, update,
        readRequests_append, hInv]
      cases use <;> rfl
  | rejectRequest rid header closes =>
      exact hSame (readRequests_modify _ _ _)
  | resumeReject rid closes =>
      exact hSame (readRequests_modify _ _ _)
  | startHandler rid header w =>
      exact hSame (readRequests_modify _ _ _)
  | finishHandler rid w =>
      exact hSame (readRequests_modify _ _ _)
  | sendReply rid header answer =>
      exact hSame (readRequests_modify _ _ _)
  | resumeReply rid => exact hSame (readRequests_modify _ _ _)
  | _ => exact hSame rfl

/-
  Each request frame whose body was read has one record, in
  the order of the frames, and is answered once.
-/
structure HandledOnce
    (cfg : Config ω)
    (s : Session)
    (history : List (Header × Buffer)) : Prop where
  recorded : readRequests s.requests = history
  replied :
    ∀ (rid : Nat) (request : Request),
      s.requests[rid]? = some request →
        RepliedOnce cfg s rid request

theorem repliedOnce
    (cfg : Config ω)
    (s : Session)
    (history : List (Header × Buffer))
    (hReach : Reading cfg s history) :
    HandledOnce cfg s history where
  recorded := recordedInv hReach
  replied := fun rid request hRequest =>
    repliedOnce_of_record cfg s
      (Transition.reachable_of_observed hReach) rid request
      hRequest

/- A request whose handler ran and whose reply was queued. -/
theorem repliedOnce_guarded_request :
    ∃ (s : Session) (history : List (Header × Buffer)),
      Reading (guarded true) s history ∧
        history = [(wipeHeader 1, Buffer.empty)] ∧
        s.requests.map (·.pc) = [.done] ∧
        HandledOnce (guarded true) s history := by
  obtain ⟨⟨s, history⟩, hReach, hRun⟩ :=
    Transition.exists_of_run
      (Transition.observed (step (guarded true)) requestRead)
      (start (guarded true), [])
      [.deliver ((wipeHeader 1).toBytes .little),
        .readHeader 1,
        .readBody (wipeHeader 1) .request,
        .startHandler 0 (wipeHeader 1) (),
        .finishHandler 0 (),
        .sendReply 0 (wipeHeader 1) (.response wiped),
        .resumeReply 0]
      (fun x =>
        decide (x.2 = [(wipeHeader 1, Buffer.empty)] ∧
          x.1.requests.map (·.pc) = [.done]))
      (by decide +kernel)
  rcases of_decide_eq_true hRun with ⟨hHistory, hDone⟩
  exact ⟨s, history, hReach, hHistory, hDone,
    repliedOnce (guarded true) s history hReach⟩

end Session

------------------------------------------------------------
-- Own Frames
------------------------------------------------------------

/- The request frames of one call in the queue. -/
def OwnInv
    (charSigned : Bool)
    (items : List WriteItem)
    (i : Nat) : Option PendingCall → Prop
  | none => itemsOf (.call i) items = []
  | some call =>
      (call.pc = .created ∨ call.pc = .registered →
          itemsOf (.call i) items = []) ∧
        (itemsOf (.call i) items = [] ∨
          itemsOf (.call i) items =
            [.request charSigned i call.callName call.token
              call.reqBuffer])

namespace OwnInv

variable {charSigned : Bool}
variable {items items' : List WriteItem}
variable {i : Nat}
variable {call : PendingCall}

theorem frame
    {call : Option PendingCall}
    (hInv : OwnInv charSigned items i call)
    (hSame : itemsOf (.call i) items' = itemsOf (.call i) items) :
    OwnInv charSigned items' i call := by
  cases call <;> simpa only [OwnInv, hSame] using hInv

/- The call moves on, and has not sent before it is sending. -/
theorem move
    (hInv : OwnInv charSigned items i (some call))
    {call' : PendingCall}
    (hName : call'.callName = call.callName)
    (hToken : call'.token = call.token)
    (hBuffer : call'.reqBuffer = call.reqBuffer)
    (hPc :
      call'.pc = .created ∨ call'.pc = .registered →
        call.pc = .created ∨ call.pc = .registered) :
    OwnInv charSigned items i (some call') := by
  refine ⟨fun h => hInv.1 (hPc h), ?_⟩
  rw [hName, hToken, hBuffer]
  exact hInv.2

/- The call offers its request, which a closed queue refuses. -/
theorem queue
    (hInv : OwnInv charSigned items i (some call))
    (hPc : call.pc = .registered)
    (isOpen : Bool)
    (hItems :
      itemsOf (.call i) items' =
        itemsOf (.call i) items ++
          if isOpen then
            [.request charSigned i call.callName call.token
              call.reqBuffer]
          else
            []) :
    OwnInv charSigned items' i
      (some
        { call with
          pc :=
            if isOpen then .sending
            else .threw .queueClosed }) := by
  rw [hInv.1 (.inr hPc), List.nil_append] at hItems
  cases isOpen with
  | true => exact ⟨by simp, .inr hItems⟩
  | false => exact ⟨by simp, .inl hItems⟩

theorem length_le_one
    {call : Option PendingCall}
    (hInv : OwnInv charSigned items i call) :
    (itemsOf (.call i) items).length ≤ 1 := by
  cases call with
  | none => simp [show itemsOf (.call i) items = [] from hInv]
  | some call =>
      rcases hInv.2 with hNone | hOne
      · simp [hNone]
      · simp [hOne]

end OwnInv

namespace Session

variable {ω : Type}
variable {cfg : Config ω}

theorem ownInv
    {ok : Session → Action ω → Prop}
    {s : Session}
    (hReach : ReachableBy cfg ok s) :
    ∀ i, OwnInv cfg.charSigned s.writeChannel.admitted i
      s.calls[i]? := by
  refine invariant
    (fun s =>
      ∀ i, OwnInv cfg.charSigned s.writeChannel.admitted i
        s.calls[i]?) (fun i => rfl) ?_ hReach
  intro s a _ hInv _ hEnabled
  have hFrame :
      ∀ {i : Nat} {call : Option PendingCall},
        producer a ≠ some (.call i) →
        OwnInv cfg.charSigned s.writeChannel.admitted i call →
        OwnInv cfg.charSigned
          (s.update cfg a).writeChannel.admitted i call := by
    intro i call hOther hOld
    refine hOld.frame ?_
    rw [admitted_update, itemsOf_append,
      itemsOf_admits cfg s a hOther, List.append_nil]
  -- One call moves on without sending.
  have hModify :
      ∀ {i : Nat} {f : PendingCall → PendingCall},
        (∀ call, s.calls[i]? = some call →
          OwnInv cfg.charSigned s.writeChannel.admitted i
              (some call) →
            OwnInv cfg.charSigned s.writeChannel.admitted i
              (some (f call))) →
        ∀ j, OwnInv cfg.charSigned s.writeChannel.admitted j
          (s.calls.modify i f)[j]? :=
    Records.forall_lookup_modify_of_forall hInv
  cases a with
  | generateToken callName reqBuffer =>
      intro i
      apply Records.lookup_append (hInv i)
      exact fun call _ hNone => ⟨fun _ => hNone, .inl hNone⟩
  | registerOperation i =>
      rcases hEnabled with ⟨call, hGet, hPc⟩
      exact hModify fun call' hGet' hOld =>
        hOld.move rfl rfl rfl fun _ => .inl (by
          rw [← hPc, Option.some.inj (hGet'.symm.trans hGet)])
  | queueCall i =>
      rcases hEnabled with ⟨call, hGet, hPc⟩
      have hCall : s.calls[i]? = some call := hGet
      refine Records.forall_lookup_modify
        (Q := OwnInv cfg.charSigned
          (s.update cfg (.queueCall i)).writeChannel.admitted)
        hCall ?_ ?_
      · have hOld := hInv i
        rw [hCall] at hOld
        apply hOld.queue hPc s.writeChannel.isOpen
        rw [admitted_update, itemsOf_append]
        simp only [admits, hCall, Option.elim_some]
        split <;> simp [itemsOf, WriteItem.request]
      · intro j hNe
        exact hFrame (by simpa [producer] using hNe) (hInv j)
  | armTimer i =>
      exact hModify fun call hGet hOld =>
        hOld.move rfl rfl rfl (by simp)
  | receiveReply i =>
      exact hModify fun call hGet hOld =>
        hOld.move rfl rfl rfl (by simp)
  | resumeCall i =>
      rcases hEnabled with ⟨call, hGet, -, hDone⟩
      refine hModify fun call' hGet' hOld => ?_
      obtain rfl : call = call' :=
        Option.some.inj (hGet.symm.trans hGet')
      have hFinished := call.isFinished_resume hDone
      refine hOld.move (by simp) (by simp) (by simp) ?_
      rintro (hPc | hPc) <;>
        simp [hPc, CallPc.isFinished] at hFinished
  | timerFire i =>
      exact hModify fun call hGet hOld =>
        hOld.move rfl rfl rfl id
  | timerStore i =>
      exact hModify fun call hGet hOld =>
        hOld.move rfl rfl rfl id
  | timerCancel i =>
      exact hModify fun call hGet hOld =>
        hOld.move rfl rfl rfl id
  | cancelChannel i =>
      exact hModify fun call hGet hOld =>
        hOld.move rfl rfl rfl id
  | closeChannel i =>
      exact hModify fun call hGet hOld =>
        hOld.move rfl rfl rfl id
  | sendResult i result =>
      exact hModify fun call hGet hOld =>
        hOld.move rfl rfl rfl id
  | _ => exact fun i => hFrame (by simp [producer]) (hInv i)

end Session

end GrlxRpc
