import GrlxRpc.Dispatch.Encoder
import GrlxRpc.Dispatch.Security
import GrlxRpc.Wire.StringHash
import Mathlib.Data.List.AList

/-
  The dispatcher: attached handlers, the authorization gate,
  and what the coroutine of one request does with them.

  Applications are arbitrary. A handler is a function of the
  application's state `ω` at the moment it runs, and so is
  the authorization callback.

  Main declarations:
    * `Call`, `Call.dispatchSync`, `Call.dispatchAsyncImpl`
    * `Dispatcher` and `Dispatcher.enforceAuth`
    * `Dispatcher.requestCoroutine`
    * `Dispatcher.decodedOnly_iff`
    * `NotificationHandler.wrapper_invoked_iff`
-/

------------------------------------------------------------
-- Exceptions
------------------------------------------------------------

namespace GrlxRpc

/- What a handler or the dispatcher may throw. -/
inductive Exn
  | std (what : StdString)
  | other
  deriving DecidableEq

/- `dispatch_denied_error` -/
def Exn.dispatchDenied (reason : StdString) : Exn :=
  .std (literal "dispatch denied: " ++ reason)

------------------------------------------------------------
-- Calls
------------------------------------------------------------

/-
  A `call<SignatureT>`: the argument tuple with its initial
  value and its loader, and the function. `isAsync` holds of
  the specialization for `awaitable<T>(ArgsT...)`.
-/
structure Call (ω : Type) where
  Args : Type
  Ret : Type
  isAsync : Bool
  initial : Args
  load : Load Args
  encode : Ret → Option Buffer
  theCall : ω → Args → Except Exn Ret

namespace Call

variable {ω : Type}

/- What one dispatch did, and how it ended. -/
structure Run (call : Call ω) where
  invoked : Option call.Args
  result : Except Exn Buffer

/-
  The body that both implementations share. What `decode`
  returns is discarded, and so is what `encode` returns: a
  failed `encode` leaves the response buffer empty.
-/
def apply
    (order : ByteOrder)
    (call : Call ω)
    (w : ω)
    (reqBuffer : Buffer) : Run call :=
  let (args, _) :=
    decode order call.load reqBuffer call.initial
  { invoked := some args
    result :=
      (call.theCall w args).map fun ret =>
        (call.encode ret).getD Buffer.empty }

def dispatchSync
    (order : ByteOrder)
    (call : Call ω)
    (w : ω)
    (reqBuffer : Buffer) : Run call :=
  apply order call w reqBuffer

def dispatchAsyncImpl
    (order : ByteOrder)
    (call : Call ω)
    (w : ω)
    (reqBuffer : Buffer) : Run call :=
  apply order call w reqBuffer

/- The virtual `dispatch` of either specialization. -/
def dispatch
    (order : ByteOrder)
    (call : Call ω)
    (w : ω)
    (reqBuffer : Buffer) : Run call :=
  if call.isAsync then
    { invoked := none
      result :=
        .error
          (.std (literal
            "Synchronous dispatch called on async function")) }
  else
    dispatchSync order call w reqBuffer

/- The virtual `dispatch_async` of either specialization. -/
def dispatchAsync
    (order : ByteOrder)
    (call : Call ω)
    (w : ω)
    (reqBuffer : Buffer) : Run call :=
  if call.isAsync then
    dispatchAsyncImpl order call w reqBuffer
  else
    dispatchSync order call w reqBuffer

@[simp] theorem dispatchAsync_eq_apply
    (order : ByteOrder)
    (call : Call ω)
    (w : ω)
    (reqBuffer : Buffer) :
    dispatchAsync order call w reqBuffer =
      apply order call w reqBuffer := by
  unfold dispatchAsync
  split <;> rfl

theorem dispatch_eq_apply
    (order : ByteOrder)
    (call : Call ω)
    (w : ω)
    (reqBuffer : Buffer)
    (hSync : call.isAsync = false) :
    dispatch order call w reqBuffer =
      apply order call w reqBuffer := by
  simp [dispatch, hSync, dispatchSync]

end Call

------------------------------------------------------------
-- The Dispatch Table
------------------------------------------------------------

structure MethodEntry (ω : Type) where
  name : StdString
  vis : Visibility
  handler : Call ω

structure Dispatcher (ω : Type) where
  dispatchTable : AList fun _ : UInt64 => MethodEntry ω := ∅
  authCallback : Option (AuthCallback ω) := none

/- One consultation of the authorization callback. -/
structure AuthCall where
  ctx : ClientContext
  methodName : StdString
  result : AuthResult
  deriving DecidableEq

/- What one dispatch through the dispatcher did. -/
structure Dispatched (ω : Type) where
  authCall : Option AuthCall
  invoked : Option (Σ call : Call ω, call.Args)
  result : Except Exn Buffer

/- The frame that answers a request. -/
inductive Answer
  | response (body : Buffer)
  | error
  deriving DecidableEq

/- Both `catch` clauses of the coroutine send an error. -/
def Answer.ofResult : Except Exn Buffer → Answer
  | .ok body => .response body
  | .error _ => .error

namespace Dispatcher

variable {ω : Type}

def attach
    (charSigned : Bool)
    (d : Dispatcher ω)
    (funcName : StdString)
    (vis : Visibility)
    (handler : Call ω) : Dispatcher ω :=
  { d with
    dispatchTable :=
      d.dispatchTable.insert (shash64 charSigned funcName)
        { name := funcName, vis := vis, handler := handler } }

def setAuthCallback
    (d : Dispatcher ω)
    (callback : AuthCallback ω) : Dispatcher ω :=
  { d with authCallback := some callback }

def findEntryOrThrow
    (d : Dispatcher ω)
    (funcIndex : UInt64) : Except Exn (MethodEntry ω) :=
  match d.dispatchTable.lookup funcIndex with
  | some entry => .ok entry
  | none =>
      .error
        (.std
          (literal "Handler not found: " ++
            literal (toString funcIndex.toNat) ++
            literal " table has " ++
            literal (toString d.dispatchTable.entries.length) ++
            literal " entries"))

def isAsync
    (d : Dispatcher ω)
    (funcIndex : UInt64) : Bool :=
  match d.dispatchTable.lookup funcIndex with
  | some entry => entry.handler.isAsync
  | none => false

------------------------------------------------------------
-- The Gate
------------------------------------------------------------

/- Does the callback's answer let this method run? -/
def permits
    (vis : Visibility)
    (result : AuthResult) : Bool :=
  result.allow && (vis != .admin || result.isAdmin)

/-
  The gate: whether it consulted the callback, and whether
  it let the call through.
-/
def enforceAuth
    (d : Dispatcher ω)
    (w : ω)
    (entry : MethodEntry ω)
    (ctx : ClientContext) :
    Option AuthCall × Except Exn Unit :=
  if entry.vis = .public_ then
    (none, .ok ())
  else
    match d.authCallback with
    | none => (none, .ok ())
    | some callback =>
        let result := callback w ctx entry.name
        let consulted :=
          some
            { ctx := ctx
              methodName := entry.name
              result := result }
        if result.allow = false then
          (consulted,
            .error
              (.dispatchDenied
                (if result.denyReason = [] then
                  literal "denied"
                else
                  result.denyReason)))
        else if entry.vis = .admin ∧ result.isAdmin = false then
          (consulted,
            .error
              (.dispatchDenied
                (literal "admin required for '" ++
                  entry.name ++ literal "'")))
        else
          (consulted, .ok ())

/- The entry a context may run: found, and let through. -/
def enter
    (d : Dispatcher ω)
    (w : ω)
    (funcIndex : UInt64)
    (ctx : ClientContext) :
    Option AuthCall × Except Exn (MethodEntry ω) :=
  match d.findEntryOrThrow funcIndex with
  | .error e => (none, .error e)
  | .ok entry =>
      let (consulted, passed) := d.enforceAuth w entry ctx
      (consulted, passed.map fun _ => entry)

------------------------------------------------------------
-- The Four Dispatch Overloads
------------------------------------------------------------

/- Report a handler's run as a dispatch. -/
def ran
    (consulted : Option AuthCall)
    {call : Call ω}
    (run : call.Run) : Dispatched ω where
  authCall := consulted
  invoked := run.invoked.map fun args => ⟨call, args⟩
  result := run.result

/- A dispatch that ended before its handler. -/
def threw
    (consulted : Option AuthCall)
    (e : Exn) : Dispatched ω where
  authCall := consulted
  invoked := none
  result := .error e

/- `dispatch` without a context applies no gate. -/
def dispatch
    (order : ByteOrder)
    (d : Dispatcher ω)
    (w : ω)
    (funcIndex : UInt64)
    (reqBuffer : Buffer) : Dispatched ω :=
  match d.findEntryOrThrow funcIndex with
  | .error e => threw none e
  | .ok entry =>
      ran none (entry.handler.dispatch order w reqBuffer)

def dispatchCtx
    (order : ByteOrder)
    (d : Dispatcher ω)
    (w : ω)
    (funcIndex : UInt64)
    (reqBuffer : Buffer)
    (ctx : ClientContext) : Dispatched ω :=
  match d.enter w funcIndex ctx with
  | (consulted, .error e) => threw consulted e
  | (consulted, .ok entry) =>
      ran consulted (entry.handler.dispatch order w reqBuffer)

def dispatchAsync
    (order : ByteOrder)
    (d : Dispatcher ω)
    (w : ω)
    (funcIndex : UInt64)
    (reqBuffer : Buffer) : Dispatched ω :=
  match d.findEntryOrThrow funcIndex with
  | .error e => threw none e
  | .ok entry =>
      ran none (entry.handler.dispatchAsync order w reqBuffer)

def dispatchAsyncCtx
    (order : ByteOrder)
    (d : Dispatcher ω)
    (w : ω)
    (funcIndex : UInt64)
    (reqBuffer : Buffer)
    (ctx : ClientContext) : Dispatched ω :=
  match d.enter w funcIndex ctx with
  | (consulted, .error e) => threw consulted e
  | (consulted, .ok entry) =>
      ran consulted
        (entry.handler.dispatchAsync order w reqBuffer)

/-
  The coroutine that `dispatch_request` spawns, up to the
  frame it sends when nothing closes the write channel.
-/
def requestCoroutine
    (order : ByteOrder)
    (d : Dispatcher ω)
    (w : ω)
    (callId : UInt64)
    (reqBuffer : Buffer)
    (ctx : ClientContext) : Dispatched ω × Answer :=
  let dispatched :=
    if d.isAsync callId then
      d.dispatchAsyncCtx order w callId reqBuffer ctx
    else
      d.dispatchCtx order w callId reqBuffer ctx
  (dispatched, .ofResult dispatched.result)

/- The overload the coroutine picks, without its gate. -/
def handled
    (order : ByteOrder)
    (d : Dispatcher ω)
    (w : ω)
    (callId : UInt64)
    (reqBuffer : Buffer) : Dispatched ω :=
  if d.isAsync callId then
    d.dispatchAsync order w callId reqBuffer
  else
    d.dispatch order w callId reqBuffer

------------------------------------------------------------
-- What The Gate Decides
------------------------------------------------------------

/- The callback's answer forbids this method. -/
def Refuses
    (d : Dispatcher ω)
    (w : ω)
    (entry : MethodEntry ω)
    (ctx : ClientContext) : Prop :=
  entry.vis ≠ .public_ ∧
    ∃ callback ∈ d.authCallback,
      permits entry.vis (callback w ctx entry.name) = false

instance
    (d : Dispatcher ω)
    (w : ω)
    (entry : MethodEntry ω)
    (ctx : ClientContext) :
    Decidable (d.Refuses w entry ctx) :=
  inferInstanceAs (Decidable (_ ∧ _))

/-
  The gate passes exactly what the callback does not refuse.
-/
theorem enforceAuth_passes_iff
    (d : Dispatcher ω)
    (w : ω)
    (entry : MethodEntry ω)
    (ctx : ClientContext) :
    (d.enforceAuth w entry ctx).2 = .ok () ↔
      ¬ d.Refuses w entry ctx := by
  unfold enforceAuth Refuses
  by_cases hPublic : entry.vis = .public_
  · simp [hPublic]
  · cases hCallback : d.authCallback with
    | none => simp [hPublic]
    | some callback =>
        cases hAllow :
            (callback w ctx entry.name).allow <;>
          cases hAdmin :
              (callback w ctx entry.name).isAdmin <;>
            cases hVis : entry.vis <;>
              simp_all [permits]

/- A gate that passes a gated method has consulted. -/
theorem enforceAuth_consulted
    (d : Dispatcher ω)
    (w : ω)
    (entry : MethodEntry ω)
    (ctx : ClientContext)
    (hGated : entry.vis ≠ .public_)
    {callback : AuthCallback ω}
    (hCallback : d.authCallback = some callback) :
    (d.enforceAuth w entry ctx).1 =
      some
        { ctx := ctx
          methodName := entry.name
          result := callback w ctx entry.name } := by
  simp only [enforceAuth, hGated, hCallback, if_false]
  split
  · rfl
  · split <;> rfl

/- Whatever was consulted was asked about this entry. -/
theorem enforceAuth_asked
    (d : Dispatcher ω)
    (w : ω)
    (entry : MethodEntry ω)
    (ctx : ClientContext)
    {call : AuthCall}
    (hCall : (d.enforceAuth w entry ctx).1 = some call) :
    ∃ callback, d.authCallback = some callback ∧
      call =
        { ctx := ctx
          methodName := entry.name
          result := callback w ctx entry.name } := by
  by_cases hGated : entry.vis = .public_
  · simp [enforceAuth, hGated] at hCall
  · cases hCallback : d.authCallback with
    | none => simp [enforceAuth, hGated, hCallback] at hCall
    | some callback =>
        refine ⟨callback, rfl, ?_⟩
        rw [d.enforceAuth_consulted w entry ctx hGated
          hCallback] at hCall
        exact (Option.some.inj hCall).symm

/- What entering means: found, consulted, let through. -/
theorem enter_found
    (d : Dispatcher ω)
    (w : ω)
    (funcIndex : UInt64)
    (ctx : ClientContext)
    {entry : MethodEntry ω}
    (hFound : d.dispatchTable.lookup funcIndex = some entry) :
    d.enter w funcIndex ctx =
      ((d.enforceAuth w entry ctx).1,
        (d.enforceAuth w entry ctx).2.map fun _ => entry) := by
  simp [enter, findEntryOrThrow, hFound]

theorem enter_missing
    (d : Dispatcher ω)
    (w : ω)
    (funcIndex : UInt64)
    (ctx : ClientContext)
    (hMissing : d.dispatchTable.lookup funcIndex = none) :
    ∃ e, d.enter w funcIndex ctx = (none, .error e) := by
  simp [enter, findEntryOrThrow, hMissing]

/-
  The coroutine is the gate followed by the overload that
  applies none.
-/
theorem requestCoroutine_eq
    (order : ByteOrder)
    (d : Dispatcher ω)
    (w : ω)
    (callId : UInt64)
    (reqBuffer : Buffer)
    (ctx : ClientContext) :
    d.requestCoroutine order w callId reqBuffer ctx =
      match d.enter w callId ctx with
      | (consulted, .error e) =>
          (threw consulted e, .error)
      | (consulted, .ok _) =>
          let run := d.handled order w callId reqBuffer
          ({ run with authCall := consulted },
            .ofResult run.result) := by
  cases hLookup : d.dispatchTable.lookup callId with
  | none =>
      rcases d.enter_missing w callId ctx hLookup with
        ⟨e, hEnter⟩
      simp [requestCoroutine, dispatchCtx, dispatchAsyncCtx,
        hEnter, threw, Answer.ofResult]
  | some entry =>
      rw [requestCoroutine, dispatchCtx, dispatchAsyncCtx,
        d.enter_found w callId ctx hLookup]
      cases (d.enforceAuth w entry ctx).2 with
      | error e =>
          simp [Except.map, threw, Answer.ofResult]
      | ok passed =>
          cases hAsync : entry.handler.isAsync <;>
            simp [Except.map, handled, isAsync, dispatch,
              dispatchAsync, findEntryOrThrow, hLookup,
              hAsync, ran]

/- Ungated, the coroutine runs the entry on its body. -/
theorem handled_found
    (order : ByteOrder)
    (d : Dispatcher ω)
    (w : ω)
    (callId : UInt64)
    (reqBuffer : Buffer)
    {entry : MethodEntry ω}
    (hFound : d.dispatchTable.lookup callId = some entry) :
    d.handled order w callId reqBuffer =
      ran none
        (entry.handler.apply order w reqBuffer) := by
  cases hAsync : entry.handler.isAsync <;>
    simp [handled, isAsync, dispatch, dispatchAsync,
      findEntryOrThrow, hFound, hAsync,
      Call.dispatch_eq_apply]

------------------------------------------------------------
-- Decoded Arguments
------------------------------------------------------------

/-
  The handler saw exactly the decoded tuple, and a body that
  `decode` rejects reached no handler and got an error.
-/
structure DecodedOnly
    (order : ByteOrder)
    (call : Call ω)
    (reqBuffer : Buffer)
    (out : Dispatched ω × Answer) : Prop where
  onlyDecoded :
    ∀ invocation, out.1.invoked = some invocation →
      ∃ args, invocation = ⟨call, args⟩ ∧
        decode order call.load reqBuffer call.initial =
          (args, true)
  rejected :
    (decode order call.load reqBuffer call.initial).2 =
        false →
      out.1.invoked = none ∧
        (∃ e, out.1.result = .error e) ∧
        out.2 = .error

/-
  Because the value of `decode` is discarded, a request is
  handled as it should exactly when its body decodes or the
  gate stops it before the handler.
-/
theorem decodedOnly_iff
    (order : ByteOrder)
    (d : Dispatcher ω)
    (w : ω)
    (callId : UInt64)
    (entry : MethodEntry ω)
    (reqBuffer : Buffer)
    (ctx : ClientContext)
    (hFound : d.dispatchTable.lookup callId = some entry) :
    DecodedOnly order entry.handler reqBuffer
        (d.requestCoroutine order w callId reqBuffer ctx) ↔
      d.Refuses w entry ctx ∨
        (decode order entry.handler.load reqBuffer
          entry.handler.initial).2 = true := by
  have hGate := d.enforceAuth_passes_iff w entry ctx
  rw [requestCoroutine_eq,
    d.enter_found w callId ctx hFound,
    d.handled_found order w callId reqBuffer hFound]
  cases hPassed : (d.enforceAuth w entry ctx).2 with
  | error e =>
      -- The gate threw, so neither branch is reached.
      have hRefuses : d.Refuses w entry ctx := by
        by_contra hPass
        simp [hGate.mpr hPass] at hPassed
      refine ⟨fun _ => .inl hRefuses, fun _ => ?_⟩
      constructor
      · simp [Except.map, threw]
      · simp [Except.map, threw]
  | ok passed =>
      have hOpen : ¬ d.Refuses w entry ctx :=
        hGate.mp hPassed
      rcases hDecode : decode order entry.handler.load
          reqBuffer entry.handler.initial with ⟨args, accepted⟩
      constructor
      · intro hOnly
        cases accepted with
        | true => exact .inr rfl
        | false =>
            -- The handler ran on a tuple that was rejected.
            have hNone :=
              (hOnly.rejected (by rw [hDecode])).1
            simp [Except.map, ran, Call.apply, hDecode]
              at hNone
      · rintro (hRefuses | hAccepted)
        · exact absurd hRefuses hOpen
        · obtain rfl : accepted = true := hAccepted
          constructor
          · intro invocation hInvoked
            refine ⟨args, ?_, hDecode⟩
            simpa [Except.map, ran, Call.apply, hDecode]
              using hInvoked.symm
          · intro hRejected
            simp [hDecode] at hRejected

/- A public method that returns the word it was given. -/
def echo : Call Unit where
  Args := UInt64
  Ret := UInt64
  isAsync := false
  initial := 0
  load := InputArchive.loadUInt64 .little
  encode := fun ret =>
    some (.ofStream (1 :: ByteOrder.little.encode ret) 9)
  theCall := fun _ word => .ok word

def echoDispatcher : Dispatcher Unit :=
  ({} : Dispatcher Unit).attach true (literal "echo")
    .public_ echo

def echoId : UInt64 := shash64 true (literal "echo")

def anonymous : ClientContext where
  peerFingerprint := []
  peerAddress := []
  peerIp := []
  logicalSessionId := []
  logicalDeviceId := []
  logicalRole := -1

/- A body that holds one word is handled as it should be. -/
theorem decodedOnly_echo_word :
    DecodedOnly .little echo ⟨[1, 7, 0, 0, 0, 0, 0, 0, 0],
        by decide⟩
      (echoDispatcher.requestCoroutine .little () echoId
        ⟨[1, 7, 0, 0, 0, 0, 0, 0, 0], by decide⟩
        anonymous) :=
  (decodedOnly_iff .little echoDispatcher () echoId
    ⟨literal "echo", .public_, echo⟩
    ⟨[1, 7, 0, 0, 0, 0, 0, 0, 0], by decide⟩ anonymous
    (AList.lookup_insert _)).mpr (.inr (by decide +kernel))

/- An empty body reaches the handler, which returns zero. -/
theorem echo_runs_on_empty_body :
    ¬ DecodedOnly .little echo Buffer.empty
        (echoDispatcher.requestCoroutine .little () echoId
          Buffer.empty anonymous) := by
  intro hOnly
  have hNone := (hOnly.rejected rfl).1
  have hRan :
      (echoDispatcher.requestCoroutine .little () echoId
        Buffer.empty anonymous).1.invoked.isSome = true := by
    decide +kernel
  rw [hNone] at hRan
  cases hRan

end Dispatcher

------------------------------------------------------------
-- Notification Handlers Of The Client
------------------------------------------------------------

namespace NotificationHandler

/-
  The wrapper of `register_notification_handler`: the tuple
  it applies the handler to, if it applies it.
-/
def wrapper
    {α : Type}
    (order : ByteOrder)
    (load : Load α)
    (initial : α)
    (buffer : Buffer) : Option α :=
  let (args, decoded) := decode order load buffer initial
  if decoded then some args else none

/-
  The wrapper checks what the two dispatch implementations
  discard.
-/
theorem wrapper_invoked_iff
    {α : Type}
    (order : ByteOrder)
    (load : Load α)
    (initial : α)
    (buffer : Buffer)
    (args : α) :
    wrapper order load initial buffer = some args ↔
      decode order load buffer initial = (args, true) := by
  rcases hDecode : decode order load buffer initial with
    ⟨args', decoded⟩
  cases decoded <;> simp [wrapper, hDecode]

end NotificationHandler

end GrlxRpc
