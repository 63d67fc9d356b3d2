import GrlxRpc.Session.Reader

/-
  Authorization over the whole wire protocol.

  Every path from the wire to a handler ends in an event of
  the log, so the gate is a property of the log: before a
  gated handler runs for a request, the callback was asked
  about it in that session's context and allowed it. The one
  path without a gate is a notification frame that names a
  synchronous method.

  Main declarations:
    * `Session.emits` and `Session.log_update`
    * `Gated`
    * `Session.gated_of_noGatedNotification`
    * `Session.runNotification_not_gated`
-/

------------------------------------------------------------
-- What Each Action Does To The Application
------------------------------------------------------------

namespace GrlxRpc

namespace Session

variable {ω : Type}
variable {cfg : Config ω}

/- The events an action adds to the log. -/
def emits
    (cfg : Config ω)
    (s : Session) : Action ω → List Event
  | .stamp identity => [.stamped identity]
  | .startHandler rid header w =>
      startEvents rid header.callId (s.gate cfg header w)
  | .runNotification callId body w =>
      notificationEvents cfg w callId body
  | _ => []

theorem log_update
    (cfg : Config ω)
    (s : Session)
    (a : Action ω) :
    (s.update cfg a).log = s.log ++ s.emits cfg a := by
  cases a with
  | stamp identity => rfl
  | startHandler rid header w => rfl
  | runNotification callId body w => rfl
  | _ => exact (List.append_nil _).symm

end Session

------------------------------------------------------------
-- Gated Logs
------------------------------------------------------------

/- The identity that the last stamp of a log left. -/
def identityAt (log : List Event) : Identity :=
  log.foldl
    (fun identity event =>
      match event with
      | .stamped identity' => identity'
      | _ => identity) {}

/-
  The callback was asked for request `rid` about `entry`, in
  the session's context of that moment, and let it run.
-/
structure Approved
    {ω : Type}
    (cfg : Config ω)
    (before : List Event)
    (rid : Nat)
    (entry : MethodEntry ω)
    (call : AuthCall) : Prop where
  asked :
    ∃ n, before[n]? = some (.authCalled rid call) ∧
      call.ctx = cfg.clientContext (identityAt (before.take n))
  named : call.methodName = entry.name
  answered :
    ∃ callback w, cfg.dispatcher.authCallback = some callback ∧
      call.result = callback w call.ctx entry.name
  allowed : call.result.allow = true
  privileged :
    entry.vis = .admin → call.result.isAdmin = true

/- An invocation of a gated method that was approved. -/
def Justified
    {ω : Type}
    (cfg : Config ω)
    (before : List Event)
    (caller : Caller)
    (callId : UInt64) : Prop :=
  ∀ entry, cfg.dispatcher.dispatchTable.lookup callId =
      some entry →
    entry.vis ≠ .public_ →
    ∃ rid call, caller = .request rid ∧
      Approved cfg before rid entry call

/- Every invocation in the log was justified. -/
def Gated
    {ω : Type}
    (cfg : Config ω)
    (log : List Event) : Prop :=
  ∀ n caller callId,
    log[n]? = some (.invoked caller callId) →
      Justified cfg (log.take n) caller callId

/- A log stays gated when its new events are justified. -/
theorem Gated.append
    {ω : Type}
    {cfg : Config ω}
    {log events : List Event}
    (hGated : Gated cfg log)
    (hEvents :
      ∀ n caller callId,
        events[n]? = some (.invoked caller callId) →
          Justified cfg (log ++ events.take n) caller callId) :
    Gated cfg (log ++ events) := by
  intro n caller callId hEvent
  by_cases hOld : n < log.length
  · rw [List.getElem?_append_left hOld] at hEvent
    rw [List.take_append_of_le_length (Nat.le_of_lt hOld)]
    exact hGated n caller callId hEvent
  · have hLe : log.length ≤ n := Nat.le_of_not_lt hOld
    rw [List.getElem?_append_right hLe] at hEvent
    rw [List.take_append, List.take_of_length_le hLe]
    exact hEvents (n - log.length) caller callId hEvent

------------------------------------------------------------
-- Requests
------------------------------------------------------------

namespace Session

variable {ω : Type}
variable {cfg : Config ω}

/- What a request's gate emits is justified by itself. -/
theorem startEvents_justified
    (s : Session)
    (hIdentity : s.identity = identityAt s.log)
    (hCallback : cfg.dispatcher.authCallback.isSome = true)
    (rid : Nat)
    (header : Header)
    (w : ω)
    (n : Nat)
    (caller : Caller)
    (callId : UInt64)
    (hEvent :
      (startEvents rid header.callId
        (s.gate cfg header w))[n]? =
          some (.invoked caller callId)) :
    Justified cfg
      (s.log ++
        (startEvents rid header.callId
          (s.gate cfg header w)).take n) caller callId := by
  rcases Option.isSome_iff_exists.mp hCallback with
    ⟨callback, hSome⟩
  intro entry hFound hGated
  cases hLookup :
      cfg.dispatcher.dispatchTable.lookup header.callId with
  | none =>
      rcases cfg.dispatcher.enter_missing w header.callId
          (cfg.clientContext s.identity) hLookup with
        ⟨e, hEnter⟩
      simp [gate, hEnter, startEvents] at hEvent
  | some entry' =>
      have hEnter :=
        cfg.dispatcher.enter_found w header.callId
          (cfg.clientContext s.identity) hLookup
      rw [gate, hEnter] at hEvent ⊢
      cases hPassed :
          (cfg.dispatcher.enforceAuth w entry'
            (cfg.clientContext s.identity)).2 with
      | error e =>
          simp [hPassed, Except.map, startEvents] at hEvent
      | ok passed =>
          rw [hPassed] at hEvent
          simp only [Except.map, startEvents] at hEvent ⊢
          -- The invoked method is the one of the header.
          have hSame :
              caller = .request rid ∧
                callId = header.callId := by
            have hMem := List.mem_of_getElem? hEvent
            simpa using hMem
          rcases hSame with ⟨rfl, rfl⟩
          obtain rfl : entry' = entry :=
            Option.some.inj (hLookup.symm.trans hFound)
          have hConsulted :=
            cfg.dispatcher.enforceAuth_consulted w entry'
              (cfg.clientContext s.identity) hGated hSome
          have hPermits :
              Dispatcher.permits entry'.vis
                (callback w (cfg.clientContext s.identity)
                  entry'.name) = true := by
            have hOpen :=
              (cfg.dispatcher.enforceAuth_passes_iff w entry'
                (cfg.clientContext s.identity)).mp hPassed
            by_contra hClosed
            exact hOpen
              ⟨hGated, callback, hSome, by simpa using hClosed⟩
          rw [hConsulted] at hEvent ⊢
          -- The consultation comes first, the handler second.
          obtain rfl : n = 1 := by
            match n with
            | 0 => simp at hEvent
            | 1 => rfl
            | n + 2 => simp at hEvent
          simp only [Dispatcher.permits, Bool.and_eq_true,
            Bool.or_eq_true, bne_iff_ne, ne_eq] at hPermits
          refine
            ⟨rid,
              { ctx := cfg.clientContext s.identity
                methodName := entry'.name
                result :=
                  callback w (cfg.clientContext s.identity)
                    entry'.name }, rfl, ?_⟩
          exact
            { asked := by
                refine ⟨s.log.length, by simp, ?_⟩
                simp [hIdentity]
              named := rfl
              answered := ⟨callback, w, hSome, rfl⟩
              allowed := hPermits.1
              privileged := fun hAdmin =>
                hPermits.2.resolve_left (fun h => h hAdmin) }

------------------------------------------------------------
-- Notifications
------------------------------------------------------------

/- A synchronous method that the gate is meant to guard. -/
def GatedSync
    (cfg : Config ω)
    (callId : UInt64) : Prop :=
  ∃ entry ∈ cfg.dispatcher.dispatchTable.lookup callId,
    entry.vis ≠ .public_ ∧ entry.handler.isAsync = false

instance
    (cfg : Config ω)
    (callId : UInt64) : Decidable (GatedSync cfg callId) :=
  inferInstanceAs (Decidable (∃ entry ∈ _, _))

/- The method that a notification frame read here names. -/
def notificationRead : Action ω → Option UInt64
  | .readBody header .notification => some header.callId
  | _ => none

/- The step reads no notification naming such a method. -/
def NoGatedNotification
    (cfg : Config ω)
    (_ : Session)
    (a : Action ω) : Prop :=
  ∀ callId ∈ notificationRead a, ¬ GatedSync cfg callId

instance
    (cfg : Config ω)
    (s : Session)
    (a : Action ω) :
    Decidable (NoGatedNotification cfg s a) :=
  Option.decidableForallMem (notificationRead a)

/- A notification invokes synchronous methods only. -/
theorem notificationEvents_invoked
    (w : ω)
    (id : UInt64)
    (body : Buffer)
    {caller : Caller}
    {callId : UInt64}
    (hEvent :
      .invoked caller callId ∈
        notificationEvents cfg w id body) :
    caller = .notification ∧ callId = id ∧
      ∃ entry, cfg.dispatcher.dispatchTable.lookup id =
          some entry ∧
        entry.handler.isAsync = false := by
  unfold notificationEvents at hEvent
  split at hEvent
  · simp at hEvent
  · rcases List.mem_map.mp hEvent with
      ⟨invocation, hInvoked, hEq⟩
    obtain ⟨rfl, rfl⟩ :
        Caller.notification = caller ∧ id = callId := by
      simpa using hEq
    refine ⟨rfl, rfl, ?_⟩
    cases hLookup :
        cfg.dispatcher.dispatchTable.lookup id with
    | none =>
        simp [Dispatcher.dispatch,
          Dispatcher.findEntryOrThrow, hLookup,
          Dispatcher.threw] at hInvoked
    | some entry =>
        refine ⟨entry, rfl, ?_⟩
        cases hAsync : entry.handler.isAsync with
        | false => rfl
        | true =>
            simp [Dispatcher.dispatch,
              Dispatcher.findEntryOrThrow, hLookup,
              Dispatcher.ran, Call.dispatch, hAsync]
              at hInvoked

------------------------------------------------------------
-- Every Run
------------------------------------------------------------

/- The stamps in the log are the session's identity. -/
theorem identity_eq
    {ok : Session → Action ω → Prop}
    {s : Session}
    (hReach : ReachableBy cfg ok s) :
    s.identity = identityAt s.log := by
  refine invariant (fun s => s.identity = identityAt s.log)
    rfl ?_ hReach
  intro s a _ hInv _ _
  cases a with
  | stamp identity => simp [update, identityAt]
  | startHandler rid header w =>
      simp only [update]
      rw [hInv, identityAt, identityAt, List.foldl_append]
      rcases s.gate cfg header w with ⟨consulted, entry | e⟩ <;>
        cases consulted <;> rfl
  | runNotification callId body w =>
      simp only [update]
      rw [hInv, identityAt, identityAt, List.foldl_append]
      unfold notificationEvents
      split
      · rfl
      · cases (cfg.dispatcher.dispatch cfg.order w callId
          body).invoked <;> rfl
  | _ => exact hInv

/- No posted notification names a gated synchronous method. -/
theorem notifications_ungated
    {s : Session}
    (hReach : ReachableBy cfg (NoGatedNotification cfg) s) :
    ∀ posted ∈ s.notifications,
      ¬ GatedSync cfg posted.1 := by
  refine invariant
    (fun s => ∀ posted ∈ s.notifications,
      ¬ GatedSync cfg posted.1) ?_ ?_ hReach
  · simp [start]
  · intro s a _ hInv hOk _
    cases a with
    | readBody header use =>
        intro posted hMem
        simp only [update, List.mem_append] at hMem
        rcases hMem with hOld | hNew
        · exact hInv posted hOld
        · cases use with
          | notification =>
              obtain rfl :
                  posted =
                    (header.callId, s.nextBody header) := by
                simpa [postedNotification] using hNew
              exact hOk header.callId rfl
          | limited => simp [postedNotification] at hNew
          | request => simp [postedNotification] at hNew
          | response => simp [postedNotification] at hNew
          | error => simp [postedNotification] at hNew
    | runNotification callId body w =>
        intro posted hMem
        exact hInv posted (List.mem_of_mem_tail hMem)
    | _ => exact hInv

/-
  In a run whose notification frames name no gated
  synchronous method, every invocation was approved.
-/
theorem gated_of_noGatedNotification
    (cfg : Config ω)
    (hCallback : cfg.dispatcher.authCallback.isSome = true)
    (s : Session)
    (hReach : ReachableBy cfg (NoGatedNotification cfg) s) :
    Gated cfg s.log := by
  refine invariant (fun s => Gated cfg s.log) ?_ ?_ hReach
  · simp [Gated, start]
  · intro s a hPrior hInv _ hEnabled
    rw [log_update]
    refine hInv.append ?_
    cases a with
    | stamp identity =>
        intro n caller callId hEvent
        have hMem := List.mem_of_getElem? hEvent
        simp [emits] at hMem
    | startHandler rid header w =>
        exact s.startEvents_justified (identity_eq hPrior)
          hCallback rid header w
    | runNotification callId body w =>
        intro n caller callId' hEvent entry hFound hGated
        rcases notificationEvents_invoked w callId body
            (List.mem_of_getElem? hEvent) with
          ⟨-, rfl, entry', hLookup, hSync⟩
        obtain rfl : entry' = entry :=
          Option.some.inj (hLookup.symm.trans hFound)
        have hHead :
            s.notifications.head? = some (callId', body) :=
          hEnabled
        exact absurd ⟨entry', hFound, hGated, hSync⟩
          (notifications_ungated hPrior (callId', body)
            (List.mem_of_head? hHead))
    | _ =>
        intro n caller callId hEvent
        simp [emits] at hEvent

/- A void result is encoded as the byte order alone. -/
def wiped : Buffer :=
  .ofStream [1] 1

/- An admin method without arguments or result. -/
def wipe : Call Unit where
  Args := Unit
  Ret := Unit
  isAsync := false
  initial := ()
  load := .unit
  encode := fun _ => some wiped
  theCall := fun _ _ => .ok ()

def wipeId : UInt64 := shash64 true (literal "wipe")

/- A request for it. -/
def wipeHeader (token : UInt64) : Header :=
  frameHeader .request wipeId token Buffer.empty

/- A server that attached it and always gives one answer. -/
def guarded (answer : Bool) : Config Unit where
  dispatcher :=
    (({} : Dispatcher Unit).attach true (literal "wipe")
      .admin wipe).setAuthCallback fun _ _ _ =>
        { allow := answer, isAdmin := answer }

/- A request for it that the callback allows is gated. -/
theorem gated_guarded_request :
    ∃ s : Session, Reachable (guarded true) s ∧
      s.log.length = 2 ∧ Gated (guarded true) s.log := by
  obtain ⟨s, hReach, hRun⟩ :=
    Transition.exists_of_runBy (step (guarded true))
      (NoGatedNotification (guarded true))
      (start (guarded true))
      [.deliver ((wipeHeader 1).toBytes .little),
        .readHeader 1,
        .readBody (wipeHeader 1) .request,
        .startHandler 0 (wipeHeader 1) ()]
      (fun s => decide (s.log.length = 2))
      (by decide +kernel)
  exact ⟨s, hReach.reachable, of_decide_eq_true hRun,
    gated_of_noGatedNotification (guarded true) rfl s hReach⟩

/- A notification runs it although the callback denies all. -/
theorem notification_bypasses_gate :
    ∃ s : Session, Reachable (guarded false) s ∧
      s.log = [.invoked .notification wipeId] ∧
      ¬ Gated (guarded false) s.log := by
  obtain ⟨s, hReach, hRun⟩ :=
    Transition.exists_of_run (step (guarded false))
      (start (guarded false))
      [.deliver ((frameHeader .notification wipeId 0
          Buffer.empty).toBytes .little),
        .readHeader 1,
        .readBody
          (frameHeader .notification wipeId 0 Buffer.empty)
          .notification,
        .runNotification wipeId Buffer.empty ()]
      (fun s =>
        decide (s.log = [.invoked .notification wipeId]))
      (by decide +kernel)
  have hLog : s.log = [.invoked .notification wipeId] :=
    of_decide_eq_true hRun
  refine ⟨s, hReach, hLog, fun hGated => ?_⟩
  rw [hLog] at hGated
  rcases hGated 0 .notification wipeId rfl
      { name := literal "wipe", vis := .admin, handler := wipe }
      (AList.lookup_insert _) (by simp) with
    ⟨rid, call, hCaller, -⟩
  cases hCaller

/- A run that calls a gated handler has no justification. -/
theorem runNotification_not_gated
    (cfg : Config ω)
    (hServer : cfg.notificationCallback = false)
    (s : Session)
    (callId : UInt64)
    (body : Buffer)
    (w : ω)
    (hGated : GatedSync cfg callId) :
    ¬ Gated cfg
        (s.update cfg (.runNotification callId body w)).log := by
  intro hAll
  rcases hGated with ⟨entry, hFound, hVis, hSync⟩
  have hEvents :
      notificationEvents cfg w callId body =
        [.invoked .notification callId] := by
    have hLookup :
        cfg.dispatcher.dispatchTable.lookup callId =
          some entry := hFound
    simp [notificationEvents, hServer, Dispatcher.dispatch,
      Dispatcher.findEntryOrThrow, hLookup, Dispatcher.ran,
      Call.dispatch_eq_apply, hSync, Call.apply]
  rcases hAll s.log.length .notification callId
      (by simp [update, hEvents]) entry hFound hVis with
    ⟨rid, call, hCaller, -⟩
  cases hCaller

end Session

end GrlxRpc
