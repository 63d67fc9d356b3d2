import GrlxRpc.Session.Requests

/-
  What a queued reply tells about its request, and what the
  handler of a request was given.

  A response was encoded from what the one run of the
  request's handler returned. An error stands for a request
  that the reader refused, that the gate turned away, or
  whose handler threw.

  Main declarations:
    * `Session.handlerRun` and `Session.ranOnce`
    * `Earned` and `EarnedInv`
    * `Session.earnedInv`
    * `Session.earned_of_queued`
    * `Session.bodyInv`
-/

------------------------------------------------------------
-- Handler Runs
------------------------------------------------------------

namespace GrlxRpc

namespace Session

variable {ω : Type}
variable {cfg : Config ω}
variable {s : Session}

/- A handler that an action finishes, and in which world. -/
def handlerRun (_ : Session) : Action ω → Option (Nat × ω)
  | .finishHandler rid w => some (rid, w)
  | _ => none

/- Sessions of runs with the handlers that finished. -/
abbrev Ran
    (cfg : Config ω)
    (s : Session)
    (history : List (Nat × ω)) : Prop :=
  Transition.Reachable
    (Transition.observed (step cfg) handlerRun)
    (start cfg, []) (s, history)

/- A handler that finished has a request that is past it. -/
structure RanInv
    (requests : List Request)
    (history : List (Nat × ω)) : Prop where
  past :
    ∀ run ∈ history, ∃ request,
      requests[run.1]? = some request ∧
        request.pc ≠ .spawned ∧ request.pc ≠ .running
  once : (history.map Prod.fst).Nodup

namespace RanInv

variable {requests : List Request}
variable {history : List (Nat × ω)}

theorem append
    (hInv : RanInv requests history)
    (more : List Request) :
    RanInv (requests ++ more) history where
  past := by
    intro run hMem
    rcases hInv.past run hMem with ⟨request, hGet, hPc⟩
    exact ⟨request, Records.getElem?_mono
      (List.prefix_append _ _) hGet, hPc⟩
  once := hInv.once

/- A request moves on, not back to its handler. -/
theorem modify
    (hInv : RanInv requests history)
    {rid : Nat}
    {pc : Request → RequestPc}
    (hPc :
      ∀ request, requests[rid]? = some request →
        request.pc ≠ .spawned → request.pc ≠ .running →
          pc request ≠ .spawned ∧ pc request ≠ .running) :
    RanInv
      (requests.modify rid fun request =>
        { request with pc := pc request }) history where
  past := by
    intro run hMem
    rcases hInv.past run hMem with
      ⟨request, hGet, hSpawned, hRunning⟩
    by_cases hSame : rid = run.1
    · subst hSame
      refine ⟨{ request with pc := pc request }, ?_,
        hPc request hGet hSpawned hRunning⟩
      rw [List.getElem?_modify_eq, hGet]
      rfl
    · refine ⟨request, ?_, hSpawned, hRunning⟩
      rw [List.getElem?_modify_ne _ _ hSame, hGet]
  once := hInv.once

end RanInv

/- No request's handler finishes twice. -/
theorem ranOnce
    {history : List (Nat × ω)}
    (hReach : Ran cfg s history) :
    RanInv s.requests history := by
  refine Transition.observedInvariant
    (fun s history => RanInv s.requests history)
    ⟨by simp, by simp⟩ ?_ hReach
  rintro s history a s' - hInv - hStep
  rcases (step_eq_some_iff cfg s s' a).mp hStep with
    ⟨hEnabled, rfl⟩
  -- Only the end of a handler is noted.
  have hQuiet :
      handlerRun s a = none →
        RanInv (s.update cfg a).requests history →
          RanInv (s.update cfg a).requests
            (history ++ (handlerRun s a).toList) := by
    intro hNone hMoved
    rw [History.append_unseen hNone]
    exact hMoved
  cases a with
  | finishHandler rid w =>
      rcases hEnabled with ⟨request, hGet, hRunning⟩
      have hGet := Option.mem_def.mp hGet
      -- The handler was running, so it had not finished.
      have hFresh : rid ∉ history.map Prod.fst := by
        intro hMem
        rcases List.mem_map.mp hMem with ⟨run, hRun, rfl⟩
        rcases hInv.past run hRun with
          ⟨request', hGet', -, hNot⟩
        rw [Option.some.inj (hGet'.symm.trans hGet)] at hNot
        exact hNot hRunning
      have hMoved :
          RanInv (s.update cfg (.finishHandler rid w)).requests
            history :=
        hInv.modify (by simp)
      constructor
      case past =>
        intro run hMem
        rcases List.mem_append.mp hMem with hOld | hNew
        · exact hMoved.past run hOld
        · rw [List.mem_singleton.mp hNew]
          refine ⟨{ request with
            pc := .answering (handlerAnswer cfg w request) },
            ?_, by simp, by simp⟩
          simp only [update]
          rw [List.getElem?_modify_eq, hGet]
          rfl
      case once =>
        rw [List.map_append]
        simpa [handlerRun, List.nodup_append] using
          ⟨hInv.once, fun run w hRun hSame => hFresh
            (List.mem_map.mpr ⟨(run, w), hRun, hSame⟩)⟩
  | readHeader now => exact hQuiet rfl (hInv.append _)
  | readBody header use => exact hQuiet rfl (hInv.append _)
  | rejectRequest rid header closes =>
      exact hQuiet rfl <| hInv.modify fun request _ _ _ => by
        split <;> simp
  | resumeReject rid closes =>
      exact hQuiet rfl <| hInv.modify fun request _ _ _ => by
        simp
  | startHandler rid header w =>
      rcases hEnabled with ⟨request, hGet, -, hSpawned⟩
      refine hQuiet rfl <| hInv.modify
        fun request' hGet' hNot _ => ?_
      rw [Option.some.inj
        (hGet'.symm.trans (Option.mem_def.mp hGet))] at hNot
      exact absurd hSpawned hNot
  | sendReply rid header answer =>
      refine hQuiet rfl <| hInv.modify fun request _ _ _ => ?_
      unfold afterOffer
      split
      · simp
      · cases answer <;> simp
  | resumeReply rid =>
      exact hQuiet rfl <| hInv.modify fun request _ _ _ => by
        simp
  | _ => exact hQuiet rfl hInv

end Session

------------------------------------------------------------
-- Earned Answers
------------------------------------------------------------

/-
  What must have happened before a request has an answer:
  the gate's log and the handlers that finished tell it.
-/
def Earned
    {ω : Type}
    (cfg : Config ω)
    (log : List Event)
    (history : List (Nat × ω))
    (rid : Nat)
    (request : Request) : Answer → Prop
  | .response body =>
      .invoked (.request rid) request.header.callId ∈ log ∧
        ∃ w, (rid, w) ∈ history ∧
          Session.handlerAnswer cfg w request =
            .response body
  | .error =>
      request.verdict ≠ .spawned ∨
        (∃ w identity e,
          (cfg.dispatcher.enter w request.header.callId
            (cfg.clientContext identity)).2 = .error e) ∨
        ∃ w, (rid, w) ∈ history ∧
          Session.handlerAnswer cfg w request = .error

theorem Earned.mono
    {ω : Type}
    {cfg : Config ω}
    {log log' : List Event}
    {history history' : List (Nat × ω)}
    {rid : Nat}
    {request : Request}
    {answer : Answer}
    (hEarned : Earned cfg log history rid request answer)
    (hLog : log <+: log')
    (hHistory : history <+: history') :
    Earned cfg log' history' rid request answer := by
  cases answer with
  | response body =>
      rcases hEarned with ⟨hInvoked, w, hRan, hAnswer⟩
      exact ⟨hLog.subset hInvoked, w, hHistory.subset hRan,
        hAnswer⟩
  | error =>
      rcases hEarned with hRefused | hDenied |
        ⟨w, hRan, hAnswer⟩
      · exact .inl hRefused
      · exact .inr (.inl hDenied)
      · exact .inr (.inr ⟨w, hHistory.subset hRan, hAnswer⟩)

/-
  One request: its answer is earned before it is queued, or
  is the error that replaces a response nobody will send.
-/
structure Earns
    {ω : Type}
    (cfg : Config ω)
    (log : List Event)
    (history : List (Nat × ω))
    (channel : Channel WriteItem)
    (rid : Nat)
    (request : Request) : Prop where
  running :
    request.pc = .running →
      .invoked (.request rid) request.header.callId ∈ log
  answering :
    ∀ answer, request.pc = .answering answer →
      Earned cfg log history rid request answer ∨
        (answer = .error ∧ channel.isOpen = false)
  queued :
    ∀ answer : Answer,
      answer.item request.header rid ∈ channel.admitted →
        Earned cfg log history rid request answer

def EarnedInv
    {ω : Type}
    (cfg : Config ω)
    (log : List Event)
    (history : List (Nat × ω))
    (channel : Channel WriteItem)
    (rid : Nat) : Option Request → Prop
  | none => replies channel.admitted rid = []
  | some request => Earns cfg log history channel rid request

/- The queued item tells the answer. -/
theorem Answer.item_injective
    {header : Header}
    {rid : Nat}
    {answer answer' : Answer}
    (hItem :
      answer.item header rid = answer'.item header rid) :
    answer = answer' := by
  have hType := congrArg (·.header.incomingType) hItem
  have hBody := congrArg WriteItem.body hItem
  cases answer <;> cases answer' <;>
    simp_all [Answer.item, WriteItem.respond, Answer.type,
      Answer.body]

/- No reply is queued of which there is none. -/
theorem not_mem_of_replies_eq_nil
    {items : List WriteItem}
    {rid : Nat}
    (hNone : replies items rid = [])
    (answer : Answer)
    (header : Header) :
    answer.item header rid ∉ items := by
  intro hMem
  exact (itemsOf_eq_nil_iff _ _).mp hNone _ hMem rfl

namespace Earns

variable {ω : Type}
variable {cfg : Config ω}
variable {log log' : List Event}
variable {history history' : List (Nat × ω)}
variable {channel channel' : Channel WriteItem}
variable {rid : Nat}
variable {request : Request}

/- What others do to the queue and the log does not matter. -/
theorem frame
    (hEarns : Earns cfg log history channel rid request)
    (hLog : log <+: log')
    (hHistory : history <+: history')
    (hReplies :
      replies channel'.admitted rid =
        replies channel.admitted rid)
    (hClosed :
      channel.isOpen = false → channel'.isOpen = false) :
    Earns cfg log' history' channel' rid request where
  running := fun hPc => hLog.subset (hEarns.running hPc)
  answering := fun answer hPc =>
    (hEarns.answering answer hPc).imp
      (fun h => h.mono hLog hHistory)
      fun h => ⟨h.1, hClosed h.2⟩
  queued := by
    intro answer hMem
    have hAmong :
        answer.item request.header rid ∈
          replies channel'.admitted rid :=
      mem_itemsOf.mpr ⟨hMem, rfl⟩
    rw [hReplies] at hAmong
    exact (hEarns.queued answer
      (mem_itemsOf.mp hAmong).1).mono hLog hHistory

/- A record that has no reply yet, at a point before one. -/
theorem ofUnanswered
    (hNone : replies channel.admitted rid = [])
    (hRunning : request.pc ≠ .running)
    (hAnswering :
      ∀ answer, request.pc ≠ .answering answer) :
    Earns cfg log history channel rid request where
  running := fun hPc => absurd hPc hRunning
  answering := fun answer hPc =>
    absurd hPc (hAnswering answer)
  queued := fun answer hMem =>
    absurd hMem
      (not_mem_of_replies_eq_nil hNone answer
        request.header)

/- The request moves on to a point that promises nothing. -/
theorem move
    (hEarns : Earns cfg log history channel rid request)
    {pc : RequestPc}
    (hRunning : pc ≠ .running)
    (hAnswering : ∀ answer, pc ≠ .answering answer) :
    Earns cfg log history channel rid
      { request with pc := pc } where
  running := fun hPc => absurd hPc hRunning
  answering := fun answer hPc =>
    absurd hPc (hAnswering answer)
  queued := fun answer hMem => by
    have hOld := hEarns.queued answer hMem
    cases answer <;> exact hOld

/- The gate lets the handler run, or turns it away. -/
theorem start
    (hEarns : Earns cfg log history channel rid request)
    (identity : Identity)
    (w : ω) :
    Earns cfg
      (log ++
        Session.startEvents rid request.header.callId
          (cfg.dispatcher.enter w request.header.callId
            (cfg.clientContext identity)))
      history channel rid
      { request with
        pc :=
          Session.afterGate
            (cfg.dispatcher.enter w request.header.callId
              (cfg.clientContext identity)) } := by
  have hLater := hEarns.frame
    (List.prefix_append log
      (Session.startEvents rid request.header.callId
        (cfg.dispatcher.enter w request.header.callId
          (cfg.clientContext identity))))
    (List.prefix_refl _) rfl fun h => h
  rcases hGate :
      cfg.dispatcher.enter w request.header.callId
        (cfg.clientContext identity) with
    ⟨consulted, e | entry⟩
  · -- Turned away: the error is earned by the gate.
    rw [hGate] at hLater
    constructor
    case running =>
      intro hPc
      simp [Session.afterGate] at hPc
    case answering =>
      intro answer hPc
      rcases RequestPc.answering.inj hPc with rfl
      exact .inl (.inr (.inl ⟨w, identity, e, by rw [hGate]⟩))
    case queued =>
      intro answer hMem
      have hOld := hLater.queued answer hMem
      cases answer <;> exact hOld
  · rw [hGate] at hLater
    constructor
    case running =>
      intro _
      simp [Session.startEvents]
    case answering =>
      intro answer hPc
      simp [Session.afterGate] at hPc
    case queued =>
      intro answer hMem
      have hOld := hLater.queued answer hMem
      cases answer <;> exact hOld

/- The handler returned or threw. -/
theorem finish
    (hEarns : Earns cfg log history channel rid request)
    (hPc : request.pc = .running)
    (w : ω) :
    Earns cfg log (history ++ [(rid, w)]) channel rid
      { request with
        pc :=
          .answering
            (Session.handlerAnswer cfg w request) } := by
  have hRan : (rid, w) ∈ history ++ [(rid, w)] := by simp
  constructor
  case running =>
    intro hRunning
    cases hRunning
  case answering =>
    intro answer hAnswering
    have hAnswer := RequestPc.answering.inj hAnswering
    left
    cases answer with
    | response body =>
        exact ⟨hEarns.running hPc, w, hRan, hAnswer⟩
    | error => exact .inr (.inr ⟨w, hRan, hAnswer⟩)
  case queued =>
    intro answer hMem
    have hOld :=
      (hEarns.queued answer hMem).mono (List.prefix_refl _)
        (List.prefix_append history [(rid, w)])
    cases answer <;> exact hOld

/- An earned answer is offered to the queue. -/
theorem offer
    (hNone : replies channel.admitted rid = [])
    {answer : Answer}
    (hEarned :
      Earned cfg log history rid request answer ∨
        (answer = .error ∧ channel.isOpen = false)) :
    Earns cfg log history
      (channel.asyncSend (answer.item request.header rid)) rid
      { request with
        pc := Session.afterOffer channel.isOpen answer } := by
  have hAdmitted :=
    Session.asyncSend_admits channel
      (answer.item request.header rid)
  constructor
  case running =>
    intro hPc
    cases hOpen : channel.isOpen <;> cases answer <;>
      simp [Session.afterOffer, hOpen] at hPc
  case answering =>
    intro answer' hPc
    cases hOpen : channel.isOpen with
    | true => simp [Session.afterOffer, hOpen] at hPc
    | false =>
        cases answer with
        | error => simp [Session.afterOffer, hOpen] at hPc
        | response body =>
            simp only [Session.afterOffer, hOpen,
              Bool.false_eq_true, if_false,
              RequestPc.answering.injEq] at hPc
            exact .inr ⟨hPc.symm, by simpa using hOpen⟩
  case queued =>
    intro answer' hMem
    have hOld :=
      not_mem_of_replies_eq_nil hNone answer' request.header
    rw [hAdmitted, List.mem_append] at hMem
    rcases hMem with hBefore | hNew
    · exact absurd hBefore hOld
    · cases hOpen : channel.isOpen with
      | false => simp [hOpen] at hNew
      | true =>
          have hItem :
              answer'.item request.header rid =
                answer.item request.header rid := by
            simpa [hOpen] using hNew
          have hSame : answer' = answer :=
            Answer.item_injective hItem
          rw [hSame]
          rcases hEarned with hEarned | ⟨-, hShut⟩
          · cases answer <;> exact hEarned
          · rw [hShut] at hOpen
            cases hOpen

end Earns

------------------------------------------------------------
-- Every Run
------------------------------------------------------------

namespace Session

variable {ω : Type}
variable {cfg : Config ω}

/- The log only grows. -/
theorem log_prefix_update
    (cfg : Config ω)
    (s : Session)
    (a : Action ω) :
    s.log <+: (s.update cfg a).log := by
  rw [log_update]
  exact List.prefix_append _ _

/- A request that is not answered here keeps its record. -/
theorem earnedInv_frame
    (cfg : Config ω)
    (s : Session)
    (a : Action ω)
    {history history' : List (Nat × ω)}
    (hHistory : history <+: history')
    {rid : Nat}
    {request : Option Request}
    (hInv :
      EarnedInv cfg s.log history s.writeChannel rid request)
    (hOther : producer a ≠ some (.reply rid)) :
    EarnedInv cfg (s.update cfg a).log history'
      (s.update cfg a).writeChannel rid request := by
  have hNothing : replies (s.admits cfg a) rid = [] :=
    itemsOf_admits cfg s a hOther
  have hReplies :
      replies (s.update cfg a).writeChannel.admitted rid =
        replies s.writeChannel.admitted rid := by
    rw [admitted_update, replies_append, hNothing,
      List.append_nil]
  cases request with
  | none => exact hReplies.trans hInv
  | some request =>
      exact Earns.frame hInv (s.log_prefix_update cfg a)
        hHistory hReplies (s.isOpen_update cfg a)

/- A record that has just been added has no reply yet. -/
theorem earnedInv_append
    {log : List Event}
    {history : List (Nat × ω)}
    {channel : Channel WriteItem}
    {requests : List Request}
    {rid : Nat}
    (hInv :
      EarnedInv cfg log history channel rid requests[rid]?)
    {more : List Request}
    (hMore :
      ∀ request ∈ more,
        request.pc = .rejecting ∨ request.pc = .spawned) :
    EarnedInv cfg log history channel rid
      (requests ++ more)[rid]? := by
  apply Records.lookup_append hInv
  intro request hMem hNone
  rcases hMore request hMem with hPc | hPc
  · exact Earns.ofUnanswered hNone (by simp [hPc])
      (by simp [hPc])
  · exact Earns.ofUnanswered hNone (by simp [hPc])
      (by simp [hPc])

theorem earnedInv
    {s : Session}
    {history : List (Nat × ω)}
    (hReach : Ran cfg s history) :
    ∀ rid,
      EarnedInv cfg s.log history s.writeChannel rid
        s.requests[rid]? := by
  refine Transition.observedInvariant
    (fun s history =>
      ∀ rid,
        EarnedInv cfg s.log history s.writeChannel rid
          s.requests[rid]?) (by intro rid; rfl) ?_ hReach
  rintro s history a s' hPrior hInv - hStep
  rcases (step_eq_some_iff cfg s s' a).mp hStep with
    ⟨hEnabled, rfl⟩
  rcases replyInv (Transition.reachable_of_observed hPrior)
    with ⟨hReplies, hReject⟩
  have hGrows :
      history <+: history ++ (handlerRun s a).toList :=
    List.prefix_append _ _
  have hFrame :
      ∀ {rid : Nat}, producer a ≠ some (.reply rid) →
        EarnedInv cfg (s.update cfg a).log
          (history ++ (handlerRun s a).toList)
          (s.update cfg a).writeChannel rid
          s.requests[rid]? :=
    fun hOther => earnedInv_frame cfg s a hGrows (hInv _)
      hOther
  -- An action that is no handler's end notes nothing.
  have hQuiet :
      handlerRun s a = none →
        (∀ rid,
          EarnedInv cfg (s.update cfg a).log history
            (s.update cfg a).writeChannel rid
            (s.update cfg a).requests[rid]?) →
          ∀ rid,
            EarnedInv cfg (s.update cfg a).log
              (history ++ (handlerRun s a).toList)
              (s.update cfg a).writeChannel rid
              (s.update cfg a).requests[rid]? := by
    intro hNone hMoved
    rw [History.append_unseen hNone]
    exact hMoved
  cases a with
  | readHeader now =>
      exact hQuiet rfl fun rid => earnedInv_append (hInv rid)
        (oversizedRequest_pc _ _ _)
  | readBody header use =>
      exact hQuiet rfl fun rid => earnedInv_append (hInv rid)
        (readRequest_pc _ _ _ _)
  | rejectRequest rid header closes =>
      have hAt : s.reader = .rejecting rid header closes :=
        hEnabled
      rw [hAt] at hReject
      rcases hReject with
        ⟨request, hGet, rfl, hVerdict, hPc⟩
      have hNone := (hReplies rid).unanswered hGet
        (by simp [hPc]) (by simp [hPc])
      refine Records.forall_lookup_modify hGet ?_
        fun rid' hNe => hFrame (by simpa [producer] using hNe)
      have hRefused :
          Earned cfg s.log history rid request .error :=
        .inl hVerdict
      have hOffer := Earns.offer hNone (.inl hRefused)
      simp only [handlerRun, Option.toList_none,
        List.append_nil]
      cases hOpen : s.writeChannel.isOpen <;>
        · rw [hOpen] at hOffer
          exact hOffer
  | resumeReject rid closes =>
      rw [hEnabled.1] at hReject
      rcases hReject with ⟨request, hGet, -, -⟩
      have hOld := hInv rid
      rw [hGet] at hOld
      refine hQuiet rfl (Records.forall_lookup_modify hGet ?_
        fun rid' _ => hInv rid')
      exact Earns.move hOld (by simp) (by simp)
  | startHandler rid header w =>
      rcases hEnabled with ⟨request, hGet, rfl, -⟩
      have hOld := hInv rid
      rw [Option.mem_def.mp hGet] at hOld
      refine Records.forall_lookup_modify hGet ?_
        fun rid' hNe => hFrame (by simp [producer])
      simp only [handlerRun, Option.toList_none,
        List.append_nil]
      exact Earns.start hOld s.identity w
  | finishHandler rid w =>
      rcases hEnabled with ⟨request, hGet, hPc⟩
      have hOld := hInv rid
      rw [Option.mem_def.mp hGet] at hOld
      refine Records.forall_lookup_modify hGet ?_
        fun rid' hNe => hFrame (by simp [producer])
      exact Earns.finish hOld hPc w
  | sendReply rid header answer =>
      rcases hEnabled with ⟨request, hGet, rfl, hPc⟩
      have hNone := (hReplies rid).unanswered hGet
        (by simp [hPc]) (by simp [hPc])
      have hOld := hInv rid
      rw [Option.mem_def.mp hGet] at hOld
      refine Records.forall_lookup_modify hGet ?_
        fun rid' hNe => hFrame (by simpa [producer] using hNe)
      simp only [handlerRun, Option.toList_none,
        List.append_nil]
      exact Earns.offer hNone (hOld.answering answer hPc)
  | resumeReply rid =>
      rcases hEnabled with ⟨⟨request, hGet, -, -⟩, -⟩
      have hOld := hInv rid
      rw [Option.mem_def.mp hGet] at hOld
      refine hQuiet rfl (Records.forall_lookup_modify hGet ?_
        fun rid' _ => hInv rid')
      exact Earns.move hOld (by simp) (by simp)
  | _ => exact fun rid => hFrame (by simp [producer])

/- A queued reply is an answer that was earned. -/
theorem earned_of_queued
    {s : Session}
    {history : List (Nat × ω)}
    (hReach : Ran cfg s history)
    {rid : Nat}
    {request : Request}
    (hRequest : s.requests[rid]? = some request)
    {item : WriteItem}
    (hMem : item ∈ replies s.writeChannel.admitted rid) :
    ∃ answer : Answer,
      item = answer.item request.header rid ∧
        Earned cfg s.log history rid request answer := by
  have hReply :=
    (replyInv (Transition.reachable_of_observed hReach)).1 rid
  have hEarned := earnedInv hReach rid
  rw [hRequest] at hReply hEarned
  rcases hReply.echoes hMem with ⟨answer, rfl⟩
  exact ⟨answer, rfl,
    hEarned.queued answer (mem_itemsOf.mp hMem).1⟩

end Session

------------------------------------------------------------
-- The Bodies Of Requests
------------------------------------------------------------

/- A request that was spawned has its frame's whole body. -/
def BodyInv
    (frames : List Frame)
    (request : Request) : Prop :=
  request.verdict = .spawned →
    frames[request.ord]? =
        some (request.header, request.body.bytes) ∧
      request.body.bytes.length =
        request.header.msgSize.toNat

theorem BodyInv.mono
    {frames frames' : List Frame}
    {request : Request}
    (hInv : BodyInv frames request)
    (hPrefix : frames <+: frames') :
    BodyInv frames' request := fun hVerdict =>
  ⟨Records.getElem?_mono hPrefix (hInv hVerdict).1,
    (hInv hVerdict).2⟩

namespace Session

variable {ω : Type}
variable {cfg : Config ω}

theorem bodyInv
    {ok : Session → Action ω → Prop}
    {s : Session}
    (hReach : ReachableBy cfg ok s) :
    ∀ request ∈ s.requests, BodyInv s.done request := by
  refine invariant
    (fun s => ∀ request ∈ s.requests, BodyInv s.done request)
    (by simp [start]) ?_ hReach
  intro s a hPrior hInv _ hEnabled
  have hGrows :=
    done_prefix_update hPrior hEnabled
  have hLater :
      ∀ request ∈ s.requests,
        BodyInv (s.update cfg a).done request :=
    fun request hMem => (hInv request hMem).mono hGrows
  -- The coroutine of one request moves on.
  have hModify :
      ∀ (rid : Nat) (pc : Request → RequestPc),
        ∀ request ∈ s.requests.modify rid fun request =>
            { request with pc := pc request },
          BodyInv (s.update cfg a).done request := by
    intro rid pc request hMem
    rcases Records.mem_of_mem_modify hMem with
      hOld | ⟨old, hGet, rfl⟩
    · exact hLater request hOld
    · exact hLater old (List.mem_of_getElem? hGet)
  cases a with
  | readHeader now =>
      intro request hMem
      rcases List.mem_append.mp hMem with hOld | hNew
      · exact hLater request hOld
      · intro hVerdict
        cases hKind : s.nextIntake cfg now <;>
          simp_all [oversizedRequest]
  | readBody header use =>
      intro request hMem
      rcases List.mem_append.mp hMem with hOld | hNew
      · exact hLater request hOld
      · intro hVerdict
        have hLength : s.done.length = s.taken.length - 1 :=
          length_done_of_inBody (by rw [hEnabled.1]; rfl)
        have hBody := s.nextBody_length header hEnabled.2
        rw [done_readBody (readerInv hPrior) hEnabled.1]
        cases use with
        | request =>
            rcases List.mem_singleton.mp hNew with rfl
            refine ⟨?_, hBody⟩
            simp only [← hLength]
            exact List.getElem?_concat_length
        | limited =>
            rcases List.mem_singleton.mp hNew with rfl
            cases hVerdict
        | response => cases hNew
        | notification => cases hNew
        | error => cases hNew
  | rejectRequest rid header closes => exact hModify rid _
  | resumeReject rid closes => exact hModify rid _
  | startHandler rid header w => exact hModify rid _
  | finishHandler rid w => exact hModify rid _
  | sendReply rid header answer => exact hModify rid _
  | resumeReply rid => exact hModify rid _
  | _ => exact hLater

end Session

end GrlxRpc
