import GrlxRpc.Client
import GrlxRpc.Link.Executions
import GrlxRpc.Message.Accepted

/-
  `invoke_with_timeout` over everything below it: a client
  that connects, disconnects and reconnects, the sessions at
  the other ends of its connections, and any number of
  invocations that are under way at once.

  An invocation loads `client_session_` once. It then makes
  its one `call()` on the session it loaded, whatever the
  client holds by then.

  Main declarations:
    * `Signature` and `Signature.call`
    * `InvokePc`, `TypedInvocation` and `Invoker`
    * `Invoker.Enabled`, `Invoker.update` and `Invoker.step`
    * `Invoker.link_reachable`
-/

------------------------------------------------------------
-- Signatures
------------------------------------------------------------

namespace GrlxRpc

deriving instance DecidableEq for Arithmetic
deriving instance DecidableEq for WireType

/- What a method takes and what it returns. -/
structure Signature where
  args : List WireType
  ret : Option WireType
  deriving DecidableEq

namespace Signature

/- `message_request<ArgsT...>` -/
def request (sig : Signature) : Message :=
  .request sig.args

/- `message_response<ReturnT>` -/
def response (sig : Signature) : Message :=
  .response sig.ret

abbrev Args (sig : Signature) : Type :=
  sig.request.body.Val

abbrev Ret (sig : Signature) : Type :=
  sig.response.body.Val

/- Every container element occupies a byte on the wire. -/
structure Backed (sig : Signature) : Prop where
  args : sig.request.body.Backed
  ret : sig.response.body.Backed

/- `call<ReturnT(ArgsT...)>` on a machine of this order. -/
def call
    {ω : Type}
    (order : ByteOrder)
    (sig : Signature)
    (isAsync : Bool)
    (theCall : ω → sig.Args → Except Exn sig.Ret) :
    Call ω where
  Args := sig.Args
  Ret := sig.Ret
  isAsync := isAsync
  initial := sig.request.body.initial
  load := .ofLoader (sig.request.body.load .bounded order)
  encode := encode order sig.response.body
  theCall := theCall

end Signature

------------------------------------------------------------
-- Invocations
------------------------------------------------------------

/- What an invocation throws. -/
inductive InvokeError
  | runtimeError (what : StdString)
  | call (error : CallError)
  deriving DecidableEq

namespace InvokeError

def notConnected : InvokeError :=
  .runtimeError (literal "not connected")

def encodeFailed : InvokeError :=
  .runtimeError (literal "Failed to encode request")

def decodeFailed : InvokeError :=
  .runtimeError (literal "Failed to decode response")

end InvokeError

/-
  Where an invocation is: about to load the session, about
  to encode its request for the session of attempt `c`, or
  inside call `i` of that session.
-/
inductive InvokePc (sig : Signature)
  | loading
  | encoding (c : Nat)
  | calling (c i : Nat)
  | returned (value : sig.Ret)
  | threw (error : InvokeError)

namespace InvokePc

variable {sig : Signature}

def isLoading : InvokePc sig → Bool
  | loading => true
  | encoding _ => false
  | calling _ _ => false
  | returned _ => false
  | threw _ => false

def isReturned : InvokePc sig → Bool
  | returned _ => true
  | loading => false
  | encoding _ => false
  | calling _ _ => false
  | threw _ => false

/- The session it has loaded and not yet called. -/
def loaded : InvokePc sig → Option Nat
  | encoding c => some c
  | loading => none
  | calling _ _ => none
  | returned _ => none
  | threw _ => none

/- The call it is inside. -/
def inside : InvokePc sig → Option (Nat × Nat)
  | calling c i => some (c, i)
  | loading => none
  | encoding _ => none
  | returned _ => none
  | threw _ => none

end InvokePc

/-
  One run of `invoke_with_timeout`. `place` names the call
  it made: a history variable.
-/
structure TypedInvocation where
  sig : Signature
  funcName : StdString
  args : sig.Args
  pc : InvokePc sig
  place : Option (Nat × Nat)

namespace TypedInvocation

/- The request buffer, if the arguments could be encoded. -/
def reqBuffer
    (order : ByteOrder)
    (inv : TypedInvocation) : Option Buffer :=
  encode order inv.sig.request.body inv.args

/- Decode what the call returned. -/
def decoded
    (order : ByteOrder)
    (inv : TypedInvocation)
    (rspBuffer : Buffer) : InvokePc inv.sig :=
  let (response, ok) :=
    decodeMessage .bounded order inv.sig.response rspBuffer
      inv.sig.response.body.initial
  if ok then .returned response else .threw .decodeFailed

/- Go on from where the call ended. -/
def resumed
    (order : ByteOrder)
    (inv : TypedInvocation) : CallPc → InvokePc inv.sig
  | .returned rspBuffer => inv.decoded order rspBuffer
  | .threw error => .threw (.call error)
  | .created => inv.pc
  | .registered => inv.pc
  | .sending => inv.pc
  | .armed => inv.pc
  | .receiving => inv.pc

/- Decoding ends the invocation. -/
theorem decoded_eq
    (order : ByteOrder)
    (inv : TypedInvocation)
    (rspBuffer : Buffer) :
    (∃ value,
        inv.decoded order rspBuffer = .returned value) ∨
      inv.decoded order rspBuffer = .threw .decodeFailed := by
  unfold decoded
  split
  split
  · exact .inl ⟨_, rfl⟩
  · exact .inr rfl

/- A call that has ended ends its invocation. -/
theorem resumed_eq
    (order : ByteOrder)
    (inv : TypedInvocation)
    {ended : CallPc}
    (hFinished : ended.isFinished = true) :
    (∃ value, inv.resumed order ended = .returned value) ∨
      ∃ error, inv.resumed order ended = .threw error := by
  cases ended with
  | returned rspBuffer =>
      exact (inv.decoded_eq order rspBuffer).imp id
        fun hFailed => ⟨_, hFailed⟩
  | threw error => exact .inr ⟨_, rfl⟩
  | created => cases hFinished
  | registered => cases hFinished
  | sending => cases hFinished
  | armed => cases hFinished
  | receiving => cases hFinished

/- Where the invocation was before does not matter. -/
theorem resumed_congr
    (order : ByteOrder)
    (inv : TypedInvocation)
    (pc : InvokePc inv.sig)
    (place : Option (Nat × Nat))
    {ended : CallPc}
    (hFinished : ended.isFinished = true) :
    ({ inv with pc := pc, place := place } :
        TypedInvocation).resumed order ended =
      inv.resumed order ended := by
  cases ended with
  | returned rspBuffer => rfl
  | threw error => rfl
  | created => cases hFinished
  | registered => cases hFinished
  | sending => cases hFinished
  | armed => cases hFinished
  | receiving => cases hFinished

theorem isLoading_resumed
    (order : ByteOrder)
    (inv : TypedInvocation)
    {ended : CallPc}
    (hFinished : ended.isFinished = true) :
    (inv.resumed order ended).isLoading = false := by
  rcases inv.resumed_eq order hFinished with
    ⟨value, hEnd⟩ | ⟨error, hEnd⟩ <;>
    rw [hEnd] <;> rfl

theorem loaded_resumed
    (order : ByteOrder)
    (inv : TypedInvocation)
    {ended : CallPc}
    (hFinished : ended.isFinished = true) :
    (inv.resumed order ended).loaded = none := by
  rcases inv.resumed_eq order hFinished with
    ⟨value, hEnd⟩ | ⟨error, hEnd⟩ <;>
    rw [hEnd] <;> rfl

theorem inside_resumed
    (order : ByteOrder)
    (inv : TypedInvocation)
    {ended : CallPc}
    (hFinished : ended.isFinished = true) :
    (inv.resumed order ended).inside = none := by
  rcases inv.resumed_eq order hFinished with
    ⟨value, hEnd⟩ | ⟨error, hEnd⟩ <;>
    rw [hEnd] <;> rfl

end TypedInvocation

------------------------------------------------------------
-- The System
------------------------------------------------------------

/- The sessions the client's attempts have made. -/
def Client.sessions (s : Client) : List Session :=
  s.attempts.map Attempt.session

/-
  A client, the session at the other end of each of its
  attempts, and its invocations.
-/
structure Invoker where
  client : Client
  peers : List Session
  invocations : List TypedInvocation

inductive InvokerAction (ω ω' : Type)
  -- the client, its sessions, and those who call them
  | client (a : ClientAction ω)
  -- the other end of attempt `c`
  | peer (c : Nat) (a : Action ω')
  -- `invoke_with_timeout`
  | invoke
      (sig : Signature) (funcName : StdString)
      (args : sig.Args)
  | load (k : Nat)
  | encodeFail (k : Nat)
  | call
      (k c : Nat) (funcName : StdString) (reqBuffer : Buffer)
  | resume (k : Nat) (ended : CallPc)

namespace Invoker

variable {ω ω' : Type}

/- What a connection is built with at its two ends. -/
def linkSetup
    (setup : Link.Setup ω ω') : Link.Setup ω ω' where
  client := Client.sessionConfig setup.client
  server := setup.server

def start : Invoker where
  client := .start
  peers := []
  invocations := []

/- The call that a session's next `call()` will be. -/
def nextCall
    (s : Invoker)
    (c : Nat) : Nat :=
  s.client.sessions[c]?.elim 0 fun session =>
    session.calls.length

/- Delivered bytes are the next that the peer wrote. -/
def CarriesTo
    (s : Invoker) : ClientAction ω → Prop
  | .session c a =>
      ∃ session ∈ s.client.sessions[c]?,
        ∃ peer ∈ s.peers[c]?, Link.Carries session peer a
  | _ => True

instance
    (s : Invoker)
    (a : ClientAction ω) : Decidable (s.CarriesTo a) := by
  unfold CarriesTo
  split <;> infer_instance

def Enabled
    (setup : Link.Setup ω ω')
    (s : Invoker) : InvokerAction ω ω' → Prop
  | .client a => s.client.Enabled a ∧ s.CarriesTo a
  | .peer c a =>
      ∃ session ∈ s.client.sessions[c]?,
        ∃ peer ∈ s.peers[c]?,
          Link.Carries peer session a ∧ peer.Enabled a
  | .invoke _ _ _ => True
  | .load k =>
      ∃ inv ∈ s.invocations[k]?, inv.pc.isLoading = true
  | .encodeFail k =>
      ∃ inv ∈ s.invocations[k]?,
        inv.pc.loaded.isSome = true ∧
          inv.reqBuffer setup.client.order = none
  | .call k c funcName reqBuffer =>
      ∃ inv ∈ s.invocations[k]?,
        inv.pc.loaded = some c ∧
          inv.funcName = funcName ∧
          inv.reqBuffer setup.client.order = some reqBuffer
  | .resume k ended =>
      ended.isFinished = true ∧
        ∃ inv ∈ s.invocations[k]?,
          ∃ place ∈ inv.pc.inside,
            ∃ session ∈ s.client.sessions[place.1]?,
              ∃ call ∈ session.calls[place.2]?,
                call.pc = ended

instance
    (setup : Link.Setup ω ω')
    (s : Invoker) :
    (a : InvokerAction ω ω') → Decidable (s.Enabled setup a)
  | .client _ => inferInstanceAs (Decidable (_ ∧ _))
  | .peer _ _ =>
      inferInstanceAs (Decidable (∃ session ∈ _, _))
  | .invoke _ _ _ => instDecidableTrue
  | .load _ => inferInstanceAs (Decidable (∃ inv ∈ _, _))
  | .encodeFail _ =>
      inferInstanceAs (Decidable (∃ inv ∈ _, _))
  | .call _ _ _ _ =>
      inferInstanceAs (Decidable (∃ inv ∈ _, _))
  | .resume _ _ => inferInstanceAs (Decidable (_ ∧ _))

/- A new attempt comes with the session at its other end. -/
def peersAfter
    (setup : Link.Setup ω ω')
    (peers : List Session) : ClientAction ω → List Session
  | .connect => peers ++ [.start setup.server]
  | _ => peers

def update
    (setup : Link.Setup ω ω')
    (s : Invoker) : InvokerAction ω ω' → Invoker
  | .client a =>
      { s with
        client := s.client.update setup.client a
        peers := peersAfter setup s.peers a }
  | .peer c a =>
      { s with
        peers :=
          s.peers.modify c fun peer =>
            peer.update setup.server a }
  | .invoke sig funcName args =>
      { s with
        invocations :=
          s.invocations ++
            [{ sig := sig
               funcName := funcName
               args := args
               pc := .loading
               place := none }] }
  | .load k =>
      { s with
        invocations :=
          s.invocations.modify k fun inv =>
            { inv with
              pc :=
                match s.client.clientSession with
                | none => .threw .notConnected
                | some c => .encoding c } }
  | .encodeFail k =>
      { s with
        invocations :=
          s.invocations.modify k fun inv =>
            { inv with pc := .threw .encodeFailed } }
  | .call k c funcName reqBuffer =>
      { s with
        client :=
          s.client.update setup.client
            (.session c (.generateToken funcName reqBuffer))
        invocations :=
          s.invocations.modify k fun inv =>
            { inv with
              pc := .calling c (s.nextCall c)
              place := some (c, s.nextCall c) } }
  | .resume k ended =>
      { s with
        invocations :=
          s.invocations.modify k fun inv =>
            { inv with
              pc := inv.resumed setup.client.order ended } }

def step
    (setup : Link.Setup ω ω')
    (s : Invoker)
    (a : InvokerAction ω ω') : Option Invoker :=
  if s.Enabled setup a then some (s.update setup a) else none

theorem step_eq_some_iff
    (setup : Link.Setup ω ω')
    (s s' : Invoker)
    (a : InvokerAction ω ω') :
    step setup s a = some s' ↔
      s.Enabled setup a ∧ s' = s.update setup a := by
  simp [step, eq_comm]

/- Every connection is used as `Link.Orderly` asks. -/
def Orderly
    (s : Invoker) : InvokerAction ω ω' → Prop
  | .client (.session c a) =>
      ∀ session ∈ s.client.sessions[c]?, session.Correlates a
  | .call _ c funcName reqBuffer =>
      ∀ session ∈ s.client.sessions[c]?,
        session.FewCalls
          (.generateToken funcName reqBuffer : Action ω)
  | .peer c a =>
      ∀ peer ∈ s.peers[c]?,
        peer.Settles Teardown.hasClosed a
  | _ => True

instance
    (s : Invoker)
    (a : InvokerAction ω ω') : Decidable (s.Orderly a) := by
  unfold Orderly
  split <;> infer_instance

abbrev ReachableBy
    (setup : Link.Setup ω ω')
    (ok : Invoker → InvokerAction ω ω' → Prop)
    (s : Invoker) : Prop :=
  Transition.ReachableBy (step setup) ok start s

/- The invariant rule for invokers. -/
theorem invariant
    {setup : Link.Setup ω ω'}
    {ok : Invoker → InvokerAction ω ω' → Prop}
    (inv : Invoker → Prop)
    (hStart : inv start)
    (hUpdate :
      ∀ s a,
        ReachableBy setup ok s →
        inv s →
        ok s a →
        s.Enabled setup a →
        inv (s.update setup a))
    {s : Invoker}
    (hReach : ReachableBy setup ok s) :
    inv s :=
  hReach.invariant_of_guarded (step_eq_some_iff setup) hStart
    hUpdate

end Invoker

------------------------------------------------------------
-- Sessions Of A Client
------------------------------------------------------------

namespace Client

variable {ω : Type}

/- The sessions of a client after one of its steps. -/
def sessionsAfter
    (cfg : Config ω)
    (sessions : List Session) : ClientAction ω → List Session
  | .connect => sessions ++ [.start (sessionConfig cfg)]
  | .session c a =>
      sessions.modify c fun session =>
        session.update (sessionConfig cfg) a
  | .close _ c =>
      sessions.modify c fun session =>
        session.update (sessionConfig cfg) .close
  | _ => sessions

theorem sessions_update
    (cfg : Config ω)
    (s : Client)
    (a : ClientAction ω) :
    (s.update cfg a).sessions =
      sessionsAfter cfg s.sessions a := by
  have hSame :
      ∀ (c : Nat) (f : Attempt → Attempt),
        (∀ attempt, (f attempt).session = attempt.session) →
          (s.attempts.modify c f).map Attempt.session =
            s.attempts.map Attempt.session :=
    fun c f hView => Records.map_modify_of_eq hView
  cases a with
  | connect => simp [update, sessions, sessionsAfter, attempt]
  | session c a =>
      exact Records.map_modify fun attempt => rfl
  | close d c =>
      exact Records.map_modify fun attempt => rfl
  | disconnect => rfl
  | exchange d => rfl
  | closed d c => rfl
  | _ => exact hSame _ _ fun attempt => rfl

theorem length_sessionsAfter_le
    (cfg : Config ω)
    (sessions : List Session)
    (a : ClientAction ω) :
    sessions.length ≤ (sessionsAfter cfg sessions a).length := by
  cases a <;> simp [sessionsAfter]

/- Only `publish` makes the client hold another session. -/
theorem clientSession_update
    (cfg : Config ω)
    {s : Client}
    {a : ClientAction ω}
    (hEnabled : s.Enabled a)
    {c : Nat}
    (hHeld : (s.update cfg a).clientSession = some c) :
    s.clientSession = some c ∨ c < s.sessions.length := by
  cases a with
  | publish c' =>
      right
      rcases hEnabled with ⟨attempt, hGet, -⟩
      obtain rfl : c' = c := Option.some.inj hHeld
      rw [sessions, List.length_map]
      exact (List.getElem?_eq_some_iff.mp hGet).1
  | storeNull c' => cases hHeld
  | exchange d => cases hHeld
  | complete c' =>
      left
      simp only [update] at hHeld
      split at hHeld
      · cases hHeld
      · exact hHeld
  | _ => exact .inl hHeld

end Client

------------------------------------------------------------
-- Connections As Links
------------------------------------------------------------

namespace Invoker

variable {ω ω' : Type}
variable {setup : Link.Setup ω ω'}

/-
  Each attempt and its other end are a link that a run of
  orderly moves reaches, and what the client holds is one of
  its attempts.
-/
structure Connected
    (setup : Link.Setup ω ω')
    (s : Invoker) : Prop where
  paired : s.peers.length = s.client.sessions.length
  held :
    ∀ c, s.client.clientSession = some c →
      c < s.client.sessions.length
  loaded :
    ∀ (k : Nat) (inv : TypedInvocation),
      s.invocations[k]? = some inv →
        ∀ c, inv.pc.loaded = some c →
          c < s.client.sessions.length
  links :
    ∀ (c : Nat) (session peer : Session),
      s.client.sessions[c]? = some session →
        s.peers[c]? = some peer →
          Link.ReachableBy (linkSetup setup) Link.Orderly
            { client := session, server := peer }

namespace Connected

variable {s : Invoker}

/- A session that makes an orderly step of its own. -/
theorem sessionStep
    (hInv : Connected setup s)
    {c : Nat}
    {session peer : Session}
    (hSession : s.client.sessions[c]? = some session)
    (hPeer : s.peers[c]? = some peer)
    {a : Action ω}
    (hCarries : Link.Carries session peer a)
    (hOk : session.Correlates a)
    (hEnabled : session.Enabled a) :
    Link.ReachableBy (linkSetup setup) Link.Orderly
      { client :=
          session.update
            (Client.sessionConfig setup.client) a
        server := peer } := by
  refine (hInv.links c session peer hSession hPeer).next
    (a := .client a) hOk ?_
  simp only [Link.step, hCarries, if_true]
  rw [(Session.step_eq_some_iff _ _ _ _).mpr ⟨hEnabled, rfl⟩]
  rfl

theorem peerStep
    (hInv : Connected setup s)
    {c : Nat}
    {session peer : Session}
    (hSession : s.client.sessions[c]? = some session)
    (hPeer : s.peers[c]? = some peer)
    {a : Action ω'}
    (hCarries : Link.Carries peer session a)
    (hOk : peer.Settles Teardown.hasClosed a)
    (hEnabled : peer.Enabled a) :
    Link.ReachableBy (linkSetup setup) Link.Orderly
      { client := session
        server := peer.update setup.server a } := by
  refine (hInv.links c session peer hSession hPeer).next
    (a := .server a) hOk ?_
  exact Link.step_server (linkSetup setup) _ hCarries hEnabled

/- A session that all sessions of the client but one keep. -/
theorem modifySession
    (hInv : Connected setup s)
    {c : Nat}
    {f : Session → Session}
    (hAt :
      ∀ session peer, s.client.sessions[c]? = some session →
        s.peers[c]? = some peer →
          Link.ReachableBy (linkSetup setup) Link.Orderly
            { client := f session, server := peer }) :
    ∀ (c' : Nat) (session peer : Session),
      (s.client.sessions.modify c f)[c']? = some session →
        s.peers[c']? = some peer →
          Link.ReachableBy (linkSetup setup) Link.Orderly
            { client := session, server := peer } := by
  intro c' session peer hSession hPeer
  rcases Records.getElem?_modify_eq_some.mp hSession with
    ⟨-, hOld⟩ | ⟨rfl, old, hOld, rfl⟩
  · exact hInv.links c' session peer hOld hPeer
  · exact hAt old peer hOld hPeer

/- A client step. -/
theorem client
    (hInv : Connected setup s)
    {a : ClientAction ω}
    (hOk : s.Orderly (.client a : InvokerAction ω ω'))
    (hEnabled : s.Enabled setup (.client a)) :
    Connected setup (s.update setup (.client a)) := by
  have hSessions :
      (s.update setup (.client a)).client.sessions =
        Client.sessionsAfter setup.client s.client.sessions
          a :=
    s.client.sessions_update setup.client a
  have hGrows :=
    Client.length_sessionsAfter_le setup.client
      s.client.sessions a
  constructor
  case paired =>
    rw [hSessions]
    have hPaired := hInv.paired
    cases a <;>
      simp [update, peersAfter, Client.sessionsAfter, hPaired]
  case held =>
    intro c hHeld
    rw [hSessions]
    rcases Client.clientSession_update setup.client
        hEnabled.1 hHeld with hOld | hNew
    · exact Nat.lt_of_lt_of_le (hInv.held c hOld) hGrows
    · exact Nat.lt_of_lt_of_le hNew hGrows
  case loaded =>
    intro k inv hGet c hLoaded
    rw [hSessions]
    exact Nat.lt_of_lt_of_le
      (hInv.loaded k inv hGet c hLoaded) hGrows
  case links =>
    rw [hSessions]
    cases a with
    | connect =>
        intro c session peer hSession hPeer
        have hPaired := hInv.paired
        rcases Records.getElem?_concat_eq_some.mp hSession with
          hOld | ⟨rfl, rfl⟩
        · have hLt := (List.getElem?_eq_some_iff.mp hOld).1
          rcases Records.getElem?_concat_eq_some.mp hPeer with
            hOther | ⟨rfl, -⟩
          · exact hInv.links c session peer hOld hOther
          · omega
        · rcases Records.getElem?_concat_eq_some.mp hPeer with
            hOther | ⟨-, rfl⟩
          · have hLt :=
              (List.getElem?_eq_some_iff.mp hOther).1
            omega
          · exact .start
    | session c a =>
        rcases hEnabled with ⟨⟨attempt, hGet, -, -, hRun⟩,
          session, hSession, peer, hPeer, hCarries⟩
        refine hInv.modifySession ?_
        intro session' peer' hSession' hPeer'
        obtain rfl : session = session' :=
          Option.some.inj (hSession.symm.trans hSession')
        obtain rfl : peer = peer' :=
          Option.some.inj (hPeer.symm.trans hPeer')
        have hSame : attempt.session = session := by
          have hAt : s.client.attempts[c]? = some attempt :=
            hGet
          have hView : s.client.sessions[c]? = some session :=
            hSession
          rw [Client.sessions, List.getElem?_map, hAt] at hView
          exact Option.some.inj hView
        exact hInv.sessionStep hSession' hPeer' hCarries
          (hOk session hSession) (hSame ▸ hRun)
    | close d c =>
        refine hInv.modifySession ?_
        intro session peer hSession hPeer
        refine hInv.sessionStep hSession hPeer trivial ?_
          trivial
        exact ⟨Bool.noConfusion, Bool.noConfusion⟩
    | _ => exact hInv.links

/- An invocation makes its call. -/
theorem generate
    (hInv : Connected setup s)
    {c : Nat}
    {funcName : StdString}
    {reqBuffer : Buffer}
    (hFew :
      ∀ session ∈ s.client.sessions[c]?,
        session.FewCalls
          (.generateToken funcName reqBuffer : Action ω)) :
    Connected setup
      { s with
        client :=
          s.client.update setup.client
            (.session c
              (.generateToken funcName reqBuffer)) } := by
  have hSessions :=
    s.client.sessions_update setup.client
      (.session c (.generateToken funcName reqBuffer))
  constructor
  case paired =>
    rw [hSessions]
    simpa [Client.sessionsAfter] using hInv.paired
  case held =>
    intro c' hHeld
    rw [hSessions]
    simpa [Client.sessionsAfter] using hInv.held c' hHeld
  case loaded =>
    intro k inv hGet c' hLoaded
    rw [hSessions]
    simpa [Client.sessionsAfter] using
      hInv.loaded k inv hGet c' hLoaded
  case links =>
    rw [hSessions]
    refine hInv.modifySession ?_
    intro session peer hSession hPeer
    refine hInv.sessionStep hSession hPeer trivial ?_ trivial
    exact ⟨hFew session hSession, Bool.noConfusion⟩

end Connected

theorem connected
    {s : Invoker}
    (hReach : ReachableBy setup Orderly s) :
    Connected setup s := by
  refine invariant (Connected setup) ?_ ?_ hReach
  · constructor <;> simp [start, Client.start, Client.sessions]
  intro s a _ hInv hOk hEnabled
  cases a with
  | client a => exact hInv.client hOk hEnabled
  | peer c a =>
      rcases hEnabled with
        ⟨session, hSession, peer, hPeer, hCarries, hRun⟩
      constructor
      case paired => simpa [update] using hInv.paired
      case held => exact hInv.held
      case loaded => exact hInv.loaded
      case links =>
        intro c' session' peer' hSession' hPeer'
        rcases Records.getElem?_modify_eq_some.mp hPeer' with
          ⟨-, hOld⟩ | ⟨rfl, old, hOld, rfl⟩
        · exact hInv.links c' session' peer' hSession' hOld
        · obtain rfl : peer = old :=
            Option.some.inj (hPeer.symm.trans hOld)
          obtain rfl : session = session' :=
            Option.some.inj (hSession.symm.trans hSession')
          exact hInv.peerStep hSession hPeer hCarries
            (hOk peer hPeer) hRun
  | invoke sig funcName args =>
      refine { hInv with loaded := ?_ }
      exact Records.forall_getElem?_concat hInv.loaded
        fun c hLoaded => by cases hLoaded
  | load k =>
      refine { hInv with loaded := ?_ }
      refine Records.forall_getElem?_modify_of_forall
        hInv.loaded fun inv hGet _ c hLoaded => ?_
      cases hHeld : s.client.clientSession with
      | none => simp [hHeld, InvokePc.loaded] at hLoaded
      | some c' =>
          simp only [hHeld, InvokePc.loaded,
            Option.some.injEq] at hLoaded
          exact hLoaded ▸ hInv.held c' hHeld
  | encodeFail k =>
      refine { hInv with loaded := ?_ }
      exact Records.forall_getElem?_modify_of_forall
        hInv.loaded fun inv hGet _ c hLoaded => by
          cases hLoaded
  | call k c funcName reqBuffer =>
      have hCalled := hInv.generate hOk
      refine { hCalled with loaded := ?_ }
      exact Records.forall_getElem?_modify_of_forall
        hCalled.loaded fun inv hGet _ c' hLoaded => by
          cases hLoaded
  | resume k ended =>
      refine { hInv with loaded := ?_ }
      refine Records.forall_getElem?_modify_of_forall
        hInv.loaded fun inv hGet _ c hLoaded => ?_
      have hNone :=
        inv.loaded_resumed setup.client.order hEnabled.1
      rw [hNone] at hLoaded
      cases hLoaded

/- The two ends of a connection are a reachable link. -/
theorem link_reachable
    {s : Invoker}
    (hReach : ReachableBy setup Orderly s)
    {c : Nat}
    {session : Session}
    (hSession : s.client.sessions[c]? = some session) :
    ∃ peer, s.peers[c]? = some peer ∧
      Link.ReachableBy (linkSetup setup) Link.Orderly
        { client := session, server := peer } := by
  have hConnected := connected hReach
  have hLt := (List.getElem?_eq_some_iff.mp hSession).1
  have hPeer := List.getElem?_eq_getElem
    (hConnected.paired.symm ▸ hLt)
  exact ⟨_, hPeer, hConnected.links c session _ hSession hPeer⟩

end Invoker

end GrlxRpc
