import GrlxRpc.Server.Admission
import GrlxRpc.Server.Connections
import GrlxRpc.Lib.Observed

/-
  The session hooks.

  A session token is the address of the session object. A
  coroutine holds its object from its handshake to the end of
  its completion handler, so two connections between their
  two hooks have different tokens, and the calls for one
  token alternate.

  Main declarations:
    * `ServerEvent.Paired` and `ServerEvent.Alternating`
    * `Server.distinctTokens`
    * `Server.HooksInv` and `Server.hooksInv`
    * `Server.HooksPaired` and `Server.hooksPaired`
-/

------------------------------------------------------------
-- Calls Of The Hooks
------------------------------------------------------------

namespace GrlxRpc

namespace ServerEvent

def isHook : ServerEvent → Bool
  | sessionOpen _ _ => true
  | sessionClose _ _ => true
  | filtered _ _ => false
  | dropped _ => false
  | completionStarted _ => false
  | completionReturned _ => false
  | queryStarted _ => false
  | snapshot _ _ => false
  | closeAllStarted => false
  | closeAllRan => false

/- A call of either hook with this token. -/
def isHookOf
    (token : UInt64) : ServerEvent → Bool
  | sessionOpen _ info => info.sessionToken = token
  | sessionClose _ info => info.sessionToken = token
  | _ => false

/- A call of either hook for this connection. -/
def isHookFor
    (i : Nat) : ServerEvent → Bool
  | sessionOpen j _ => j = i
  | sessionClose j _ => j = i
  | _ => false

theorem isHook_of_isHookOf
    {token : UInt64}
    {event : ServerEvent}
    (hOf : event.isHookOf token = true) :
    event.isHook = true := by
  cases event <;> simp_all [isHookOf, isHook]

theorem isHook_of_isHookFor
    {i : Nat}
    {event : ServerEvent}
    (hFor : event.isHookFor i = true) :
    event.isHook = true := by
  cases event <;> simp_all [isHookFor, isHook]

/-
  Opens and closes in turn, each close with the connection
  and the identity of the open before it.
-/
inductive Paired : List ServerEvent → Prop
  | nil : Paired []
  | next
      {calls : List ServerEvent}
      (i : Nat)
      (info : SessionInfo) :
      Paired calls →
      Paired
        (calls ++ [sessionOpen i info, sessionClose i info])

/- The last open may not have been closed yet. -/
def Alternating (calls : List ServerEvent) : Prop :=
  Paired calls ∨
    ∃ before i info, Paired before ∧
      calls = before ++ [sessionOpen i info]

end ServerEvent

/- Has the open hook been called and the close hook not? -/
def ConnectionPc.isOpened : ConnectionPc → Bool
  | serve => true
  | serving => true
  | releaseGlobal => true
  | releaseIp => true
  | closeHook => true
  | handshaking => false
  | releaseSlot => false
  | admitGlobal => false
  | admitIp => false
  | postInsert => false
  | openHook => false
  | postErase => false
  | .over => false

namespace Connection

/- What the open hook was told and the close hook was not. -/
def openInfo (conn : Connection) : Option SessionInfo :=
  if conn.pc.isOpened then conn.session.map (·.info) else none

/- The address that the coroutine keeps taken. -/
def heldToken (conn : Connection) : Option UInt64 :=
  if conn.pc = .over then none
  else conn.session.map (·.token)

/- The calls of both hooks for connection `i` so far. -/
def hookCalls
    (i : Nat)
    (conn : Connection) : List ServerEvent :=
  match conn.session with
  | none => []
  | some object =>
      match conn.pc with
      | .handshaking => []
      | .releaseSlot => []
      | .admitGlobal => []
      | .admitIp => []
      | .postInsert => []
      | .openHook => []
      | .serve => [.sessionOpen i object.info]
      | .serving => [.sessionOpen i object.info]
      | .releaseGlobal => [.sessionOpen i object.info]
      | .releaseIp => [.sessionOpen i object.info]
      | .closeHook => [.sessionOpen i object.info]
      | .postErase =>
          [.sessionOpen i object.info,
            .sessionClose i object.info]
      | .over =>
          [.sessionOpen i object.info,
            .sessionClose i object.info]

@[simp] theorem openInfo_close (conn : Connection) :
    conn.close.openInfo = conn.openInfo := by
  cases hSession : conn.session <;>
    simp [openInfo, close, hSession, SessionObject.info]

@[simp] theorem heldToken_close (conn : Connection) :
    conn.close.heldToken = conn.heldToken := by
  cases hSession : conn.session <;>
    simp [heldToken, close, hSession]

@[simp] theorem hookCalls_close
    (i : Nat)
    (conn : Connection) :
    conn.close.hookCalls i = conn.hookCalls i := by
  rcases conn with ⟨endpoint, pc, session, hPeer⟩
  cases session <;> cases pc <;> rfl

end Connection

namespace Server

def openInfo
    (s : Server)
    (i : Nat) : Option SessionInfo :=
  s.connections[i]?.bind Connection.openInfo

def heldToken
    (s : Server)
    (i : Nat) : Option UInt64 :=
  s.connections[i]?.bind Connection.heldToken

/- The call of a hook that a step makes. -/
def hookEvent
    (cfg : ServerConfig)
    (s : Server) : ServerAction → Option ServerEvent
  | .openHook i =>
      (s.hookInfo cfg.onSessionOpen i).map (.sessionOpen i)
  | .closeHook i =>
      (s.hookInfo cfg.onSessionClose i).map (.sessionClose i)
  | _ => none

variable {cfg : ServerConfig}
variable {s : Server}
variable {a : ServerAction}
variable {i : Nat}

/- A step adds the call it makes to the calls of a kind. -/
theorem filter_log_update
    (cfg : ServerConfig)
    (s : Server)
    (a : ServerAction)
    {p : ServerEvent → Bool}
    (hHook : ∀ event, p event = true → event.isHook = true) :
    (s.update cfg a).log.filter p =
      s.log.filter p ++
        (hookEvent cfg s a).toList.filter p := by
  have hNil :
      ∀ event : ServerEvent, event.isHook = false →
        [event].filter p = [] := by
    intro event hNot
    rw [List.filter_singleton]
    cases hP : p event with
    | false => rfl
    | true =>
        rw [hHook event hP] at hNot
        cases hNot
  rw [log_update, List.filter_append]
  congr 1
  cases a with
  | probeGlobal endpoint =>
      simp only [logged]
      cases s.globalVerdict with
      | none => rfl
      | some rejection => exact hNil _ rfl
  | checkHandshakes endpoint =>
      simp only [logged]
      split
      · exact hNil _ rfl
      · rfl
  | runTask =>
      simp only [logged]
      cases s.strand with
      | nil => rfl
      | cons task rest =>
          cases task with
          | insert j => rfl
          | erase j => rfl
          | query q => exact hNil _ rfl
          | closeAll => exact hNil _ rfl
  | probeIp endpoint now => exact hNil _ rfl
  | complete j => exact hNil _ rfl
  | postErase j => exact hNil _ rfl
  | startQuery => exact hNil _ rfl
  | closeAllSessions => exact hNil _ rfl
  | _ => rfl

------------------------------------------------------------
-- Tokens
------------------------------------------------------------

end Server

namespace Connection

variable {i : Nat}
variable {conn conn' : Connection}
variable {a : ServerAction}

/- A coroutine takes an address when its handshake ends. -/
theorem Goes.heldToken
    {token : UInt64}
    (hGoes : conn.Goes i a conn')
    (hHeld : conn'.heldToken = some token) :
    conn.heldToken = some token ∨
      ∃ readable fingerprint,
        a = .finishHandshake i
          (.session readable fingerprint token) := by
  cases hGoes with
  | stays => exact .inl hHeld
  | closed =>
      rw [heldToken_close] at hHeld
      exact .inl hHeld
  | @finishHandshake result hPc =>
      right
      rcases result with _ | _ | ⟨_ | _, fingerprint, token'⟩ <;>
        simp_all [Connection.heldToken, finish,
          HandshakeResult.object]
  | releaseSlot hPc | admitGlobal hPc | admitIp hPc
  | postInsert hPc | openHook hPc | serve hPc | complete hPc
  | releaseGlobal hPc | releaseIp hPc | closeHook hPc
  | postErase hPc =>
      left
      simp only [Connection.heldToken,
        Option.ite_none_left_eq_some] at hHeld ⊢
      exact ⟨by simp [hPc], hHeld.2⟩

end Connection

namespace Server

variable {cfg : ServerConfig}
variable {s : Server}
variable {a : ServerAction}
variable {i : Nat}

/- A held address is the address of a live object. -/
theorem mem_liveTokens
    {token : UInt64}
    (hHeld : s.heldToken i = some token) :
    token ∈ s.liveTokens := by
  rcases Option.bind_eq_some_iff.mp hHeld with
    ⟨conn, hGet, hConn⟩
  simp only [Connection.heldToken,
    Option.ite_none_left_eq_some] at hConn
  rcases hConn with ⟨hPc, hToken⟩
  apply List.mem_filterMap.mpr
  refine ⟨(conn, i), ?_, ?_⟩
  · rw [List.mem_zipIdx_iff_getElem?]
    exact hGet
  · rw [if_pos (.inl hPc)]
    exact hToken

/- Two coroutines hold different addresses. -/
theorem distinctTokens
    {ok : Server → ServerAction → Prop}
    (hReach : ReachableBy cfg ok s) :
    ∀ i j token, i ≠ j → s.heldToken i = some token →
      s.heldToken j ≠ some token := by
  refine invariant
    (fun s =>
      ∀ i j token, i ≠ j → s.heldToken i = some token →
        s.heldToken j ≠ some token)
    (by simp [start, heldToken]) ?_ hReach
  intro s a _ hInv _ hEnabled i j token hNe hI hJ
  have hBefore :
      ∀ k, (s.update cfg a).heldToken k = some token →
        s.heldToken k = some token ∨
          ∃ readable fingerprint,
            a = .finishHandshake k
              (.session readable fingerprint token) := by
    intro k hHeld
    rcases Option.bind_eq_some_iff.mp hHeld with
      ⟨conn', hGet, hConn⟩
    rcases connection_cases cfg hEnabled hGet with
      ⟨conn, hOld, hGoes⟩ | ⟨_, endpoint, _, rfl⟩
    · rcases hGoes.heldToken hConn with hHeld | hNew
      · left
        rw [heldToken, hOld]
        exact hHeld
      · exact .inr hNew
    · cases hConn
  rcases hBefore i hI with hOldI | ⟨_, _, rfl⟩
  · rcases hBefore j hJ with hOldJ | ⟨_, _, rfl⟩
    · exact hInv i j token hNe hOldI hOldJ
    · exact hEnabled.2 (mem_liveTokens hOldI)
  · rcases hBefore j hJ with hOldJ | ⟨_, _, hEq⟩
    · exact hEnabled.2 (mem_liveTokens hOldJ)
    · injection hEq with hSame
      exact hNe hSame

------------------------------------------------------------
-- Between The Two Hooks
------------------------------------------------------------

end Server

namespace Connection

variable {i : Nat}
variable {conn conn' : Connection}
variable {a : ServerAction}

/- Only the two hooks change what is between them. -/
theorem Goes.openInfo
    (hGoes : conn.Goes i a conn')
    (hOpen : a ≠ .openHook i)
    (hClose : a ≠ .closeHook i) :
    conn'.openInfo = conn.openInfo := by
  cases hGoes with
  | stays => rfl
  | closed => exact conn.openInfo_close
  | openHook => exact absurd rfl hOpen
  | closeHook => exact absurd rfl hClose
  | releaseSlot hPc =>
      cases hSession : conn.session <;>
        simp [Connection.openInfo, hPc, Server.afterSlot,
          hSession, ConnectionPc.isOpened]
  | finishHandshake hPc | admitGlobal hPc | admitIp hPc
  | postInsert hPc | serve hPc | complete hPc
  | releaseGlobal hPc | releaseIp hPc | postErase hPc =>
      simp [Connection.openInfo, hPc, ConnectionPc.isOpened]

theorem Goes.openInfo_openHook
    (hGoes : conn.Goes i (.openHook i) conn') :
    conn.openInfo = none ∧
      conn'.openInfo = conn.session.map (·.info) := by
  cases hGoes with
  | stays hOther => exact absurd rfl hOther
  | closed hNone => cases hNone
  | openHook hPc =>
      simp [Connection.openInfo, hPc, ConnectionPc.isOpened]

theorem Goes.openInfo_closeHook
    (hGoes : conn.Goes i (.closeHook i) conn') :
    conn.openInfo = conn.session.map (·.info) ∧
      conn'.openInfo = none := by
  cases hGoes with
  | stays hOther => exact absurd rfl hOther
  | closed hNone => cases hNone
  | closeHook hPc =>
      simp [Connection.openInfo, hPc, ConnectionPc.isOpened]

theorem Goes.hookCalls
    (hGoes : conn.Goes i a conn')
    (hOpen : a ≠ .openHook i)
    (hClose : a ≠ .closeHook i) :
    conn'.hookCalls i = conn.hookCalls i := by
  cases hGoes with
  | stays => rfl
  | closed => exact conn.hookCalls_close i
  | openHook => exact absurd rfl hOpen
  | closeHook => exact absurd rfl hClose
  | releaseSlot hPc =>
      cases hSession : conn.session <;>
        simp [Connection.hookCalls, hPc, Server.afterSlot,
          hSession]
  | @finishHandshake result hPc =>
      cases hOld : conn.session <;>
        cases hNew : result.object conn.endpoint <;>
          simp [Connection.hookCalls, finish, hOld, hNew, hPc]
  | admitGlobal hPc | admitIp hPc | postInsert hPc | serve hPc
  | complete hPc | releaseGlobal hPc | releaseIp hPc
  | postErase hPc =>
      cases hSession : conn.session <;>
        simp [Connection.hookCalls, hPc, hSession]

theorem Goes.hookCalls_openHook
    (hGoes : conn.Goes i (.openHook i) conn') :
    conn'.hookCalls i =
      conn.hookCalls i ++
        (conn.session.map fun object =>
          .sessionOpen i object.info).toList := by
  cases hGoes with
  | stays hOther => exact absurd rfl hOther
  | closed hNone => cases hNone
  | openHook hPc =>
      cases hSession : conn.session <;>
        simp [Connection.hookCalls, hPc, hSession]

theorem Goes.hookCalls_closeHook
    (hGoes : conn.Goes i (.closeHook i) conn') :
    conn'.hookCalls i =
      conn.hookCalls i ++
        (conn.session.map fun object =>
          .sessionClose i object.info).toList := by
  cases hGoes with
  | stays hOther => exact absurd rfl hOther
  | closed hNone => cases hNone
  | closeHook hPc =>
      cases hSession : conn.session <;>
        simp [Connection.hookCalls, hPc, hSession]

/- Between its hooks a coroutine holds its token. -/
theorem heldToken_of_openInfo
    {info : SessionInfo}
    (hInfo : conn.openInfo = some info) :
    conn.heldToken = some info.sessionToken := by
  cases hPc : conn.pc <;> cases hSession : conn.session <;>
    simp_all [Connection.openInfo, heldToken,
      ConnectionPc.isOpened, SessionObject.info]
  all_goals rw [← hInfo]

end Connection

namespace Server

variable {cfg : ServerConfig}
variable {s : Server}
variable {a : ServerAction}
variable {i : Nat}

theorem heldToken_of_openInfo
    {info : SessionInfo}
    (hInfo : s.openInfo i = some info) :
    s.heldToken i = some info.sessionToken := by
  rcases Option.bind_eq_some_iff.mp hInfo with
    ⟨conn, hGet, hConn⟩
  rw [heldToken, hGet]
  exact Connection.heldToken_of_openInfo hConn

/- What a step does to one connection's own quantities. -/
theorem bind_update
    {β : Type}
    (cfg : ServerConfig)
    (hEnabled : s.Enabled a)
    (f : Connection → Option β)
    (hSpawn : ∀ endpoint, f (.spawn endpoint) = none)
    (hSame :
      ∀ conn conn', s.connections[i]? = some conn →
        conn.Goes i a conn' → f conn' = f conn) :
    (s.update cfg a).connections[i]?.bind f =
      s.connections[i]?.bind f := by
  cases hGet : s.connections[i]? with
  | some conn =>
      rcases goes_update cfg hEnabled hGet with
        ⟨conn', hGet', hGoes⟩
      rw [hGet']
      exact hSame conn conn' hGet hGoes
  | none =>
      cases hGet' : (s.update cfg a).connections[i]? with
      | none => rfl
      | some conn' =>
          rcases eq_spawn_of_none cfg hEnabled hGet hGet' with
            ⟨endpoint, rfl⟩
          exact hSpawn endpoint

theorem openInfo_update
    (cfg : ServerConfig)
    (hEnabled : s.Enabled a)
    (hOpen : a ≠ .openHook i)
    (hClose : a ≠ .closeHook i) :
    (s.update cfg a).openInfo i = s.openInfo i :=
  bind_update cfg hEnabled _ (fun _ => rfl)
    fun _ _ _ hGoes => hGoes.openInfo hOpen hClose

------------------------------------------------------------
-- Calls For One Token
------------------------------------------------------------

/- The calls of both hooks with this token. -/
def tokenCalls
    (s : Server)
    (token : UInt64) : List ServerEvent :=
  s.log.filter (ServerEvent.isHookOf token)

/- The calls of both hooks for this connection. -/
def callsFor
    (s : Server)
    (i : Nat) : List ServerEvent :=
  s.log.filter (ServerEvent.isHookFor i)

/-
  The calls for a token are paired, but for the open of the
  one connection that is between its hooks with this token.
-/
structure HooksInv (s : Server) : Prop where
  opened :
    ∀ i info, s.openInfo i = some info →
      ∃ before, ServerEvent.Paired before ∧
        s.tokenCalls info.sessionToken =
          before ++ [.sessionOpen i info]
  settled :
    ∀ token,
      (∀ i info, s.openInfo i = some info →
        info.sessionToken ≠ token) →
      ServerEvent.Paired (s.tokenCalls token)

theorem tokenCalls_update
    (cfg : ServerConfig)
    (s : Server)
    (a : ServerAction)
    (token : UInt64) :
    (s.update cfg a).tokenCalls token =
      s.tokenCalls token ++
        (hookEvent cfg s a).toList.filter
          (ServerEvent.isHookOf token) :=
  filter_log_update cfg s a fun _ =>
    ServerEvent.isHook_of_isHookOf

/- What an installed hook is told of a connection. -/
theorem hookInfo_eq
    {conn : Connection}
    (hGet : s.connections[i]? = some conn) :
    s.hookInfo true i = conn.session.map (·.info) := by
  rw [hookInfo, if_pos rfl, hGet]
  rfl

namespace HooksInv

/- A step that calls no hook. -/
theorem other
    (hInv : HooksInv s)
    (hEnabled : s.Enabled a)
    (hOpen : ∀ i, a ≠ .openHook i)
    (hClose : ∀ i, a ≠ .closeHook i) :
    HooksInv (s.update cfg a) := by
  have hNone : hookEvent cfg s a = none := by
    cases a with
    | openHook j => exact absurd rfl (hOpen j)
    | closeHook j => exact absurd rfl (hClose j)
    | _ => rfl
  have hCalls :
      ∀ token, (s.update cfg a).tokenCalls token =
        s.tokenCalls token := by
    intro token
    rw [tokenCalls_update, hNone]
    exact List.append_nil _
  have hInfo :
      ∀ i, (s.update cfg a).openInfo i = s.openInfo i :=
    fun i => openInfo_update cfg hEnabled (hOpen i) (hClose i)
  constructor
  case opened =>
    intro i info hOpened
    rw [hInfo] at hOpened
    rw [hCalls]
    exact hInv.opened i info hOpened
  case settled =>
    intro token hToken
    rw [hCalls]
    apply hInv.settled
    intro i info hOpened
    exact hToken i info (by rw [hInfo, hOpened])

/- The open hook is called, and no other is open with it. -/
theorem openHook
    (hInv : HooksInv s)
    (hDistinct :
      ∀ i j token, i ≠ j → s.heldToken i = some token →
        s.heldToken j ≠ some token)
    (hInstalled : cfg.onSessionOpen = true)
    {conn : Connection}
    (hGet : s.connections[i]? = some conn)
    (hPc : conn.pc = .openHook)
    {object : SessionObject}
    (hSession : conn.session = some object) :
    HooksInv (s.update cfg (.openHook i)) := by
  have hEnabled : s.Enabled (.openHook i) := ⟨conn, hGet, hPc⟩
  have hEvent :
      hookEvent cfg s (.openHook i) =
        some (.sessionOpen i object.info) := by
    rw [hookEvent, hInstalled, hookInfo_eq hGet, hSession]
    rfl
  have hHeld : s.heldToken i = some object.token := by
    rw [heldToken, hGet]
    simp [Connection.heldToken, hPc, hSession]
  have hOther :
      ∀ j, j ≠ i →
        (s.update cfg (.openHook i)).openInfo j =
          s.openInfo j :=
    fun j hNe => openInfo_update cfg hEnabled
      (fun hEq => hNe (ServerAction.openHook.inj hEq).symm)
      (by simp)
  have hOwn :
      s.openInfo i = none ∧
        (s.update cfg (.openHook i)).openInfo i =
          some object.info := by
    rcases goes_update cfg hEnabled hGet with
      ⟨conn', hGet', hGoes⟩
    rcases hGoes.openInfo_openHook with ⟨hBefore, hAfter⟩
    rw [openInfo, openInfo, hGet, hGet']
    rw [hSession] at hAfter
    exact ⟨hBefore, hAfter⟩
  -- No connection is open with this token before the call.
  have hFree :
      ∀ j info, s.openInfo j = some info →
        info.sessionToken ≠ object.token := by
    intro j info hOpened hSame
    by_cases hEq : j = i
    · rw [hEq, hOwn.1] at hOpened
      cases hOpened
    · apply hDistinct i j object.token (Ne.symm hEq) hHeld
      rw [← hSame]
      exact heldToken_of_openInfo hOpened
  have hCalls :
      ∀ token, token ≠ object.token →
        (s.update cfg (.openHook i)).tokenCalls token =
          s.tokenCalls token := by
    intro token hNe
    rw [tokenCalls_update, hEvent]
    simp [ServerEvent.isHookOf, SessionObject.info,
      Ne.symm hNe]
  constructor
  case opened =>
    intro j info hOpened
    by_cases hEq : j = i
    · rw [hEq] at hOpened ⊢
      rcases Option.some.inj (hOwn.2.symm.trans hOpened) with
        rfl
      refine ⟨s.tokenCalls object.token,
        hInv.settled _ hFree, ?_⟩
      rw [tokenCalls_update, hEvent]
      simp [ServerEvent.isHookOf, SessionObject.info]
    · rw [hOther j hEq] at hOpened
      rw [hCalls _ (hFree j info hOpened)]
      exact hInv.opened j info hOpened
  case settled =>
    intro token hToken
    have hNe := hToken i object.info hOwn.2
    rw [hCalls token (Ne.symm hNe)]
    apply hInv.settled
    intro j info hOpened
    by_cases hEq : j = i
    · rw [hEq, hOwn.1] at hOpened
      cases hOpened
    · exact hToken j info (by rw [hOther j hEq, hOpened])

/- The close hook is called for the one that is open. -/
theorem closeHook
    (hInv : HooksInv s)
    (hDistinct :
      ∀ i j token, i ≠ j → s.heldToken i = some token →
        s.heldToken j ≠ some token)
    (hInstalled : cfg.onSessionClose = true)
    {conn : Connection}
    (hGet : s.connections[i]? = some conn)
    (hPc : conn.pc = .closeHook)
    {object : SessionObject}
    (hSession : conn.session = some object) :
    HooksInv (s.update cfg (.closeHook i)) := by
  have hEnabled : s.Enabled (.closeHook i) := ⟨conn, hGet, hPc⟩
  have hEvent :
      hookEvent cfg s (.closeHook i) =
        some (.sessionClose i object.info) := by
    rw [hookEvent, hInstalled, hookInfo_eq hGet, hSession]
    rfl
  have hOther :
      ∀ j, j ≠ i →
        (s.update cfg (.closeHook i)).openInfo j =
          s.openInfo j :=
    fun j hNe => openInfo_update cfg hEnabled (by simp)
      (fun hEq => hNe (ServerAction.closeHook.inj hEq).symm)
  have hOwn :
      s.openInfo i = some object.info ∧
        (s.update cfg (.closeHook i)).openInfo i = none := by
    rcases goes_update cfg hEnabled hGet with
      ⟨conn', hGet', hGoes⟩
    rcases hGoes.openInfo_closeHook with ⟨hBefore, hAfter⟩
    rw [openInfo, openInfo, hGet, hGet']
    rw [hSession] at hBefore
    exact ⟨hBefore, hAfter⟩
  have hFree :
      ∀ j info, j ≠ i → s.openInfo j = some info →
        info.sessionToken ≠ object.token := by
    intro j info hNe hOpened hSame
    apply hDistinct i j object.token (Ne.symm hNe)
      (heldToken_of_openInfo hOwn.1)
    rw [← hSame]
    exact heldToken_of_openInfo hOpened
  have hCalls :
      ∀ token, token ≠ object.token →
        (s.update cfg (.closeHook i)).tokenCalls token =
          s.tokenCalls token := by
    intro token hNe
    rw [tokenCalls_update, hEvent]
    simp [ServerEvent.isHookOf, SessionObject.info,
      Ne.symm hNe]
  constructor
  case opened =>
    intro j info hOpened
    have hNe : j ≠ i := by
      rintro rfl
      rw [hOwn.2] at hOpened
      cases hOpened
    rw [hOther j hNe] at hOpened
    rw [hCalls _ (hFree j info hNe hOpened)]
    exact hInv.opened j info hOpened
  case settled =>
    intro token hToken
    by_cases hSame : token = object.token
    · rcases hInv.opened i object.info hOwn.1 with
        ⟨before, hPaired, hEq⟩
      have hNow :
          (s.update cfg (.closeHook i)).tokenCalls token =
            before ++ [.sessionOpen i object.info,
              .sessionClose i object.info] := by
        rw [tokenCalls_update, hEvent, hSame]
        simp only [SessionObject.info] at hEq
        simp [ServerEvent.isHookOf, SessionObject.info, hEq]
      rw [hNow]
      exact hPaired.next i object.info
    · rw [hCalls token hSame]
      apply hInv.settled
      intro j info hOpened
      by_cases hEq : j = i
      · rw [hEq, hOwn.1] at hOpened
        rcases Option.some.inj hOpened with rfl
        exact fun hHere => hSame hHere.symm
      · exact hToken j info (by rw [hOther j hEq, hOpened])

end HooksInv

theorem hooksInv
    (hOpen : cfg.onSessionOpen = true)
    (hClose : cfg.onSessionClose = true)
    {ok : Server → ServerAction → Prop}
    (hReach : ReachableBy cfg ok s) :
    HooksInv s := by
  refine invariant HooksInv ?_ ?_ hReach
  · constructor
    · simp [start, openInfo]
    · exact fun _ _ => .nil
  · intro s a hReach hInv _ hEnabled
    have hDistinct := distinctTokens hReach
    have hSession :
        ∀ (i : Nat) (conn : Connection),
          s.connections[i]? = some conn →
            conn.pc.hasSession = true →
              ∃ object, conn.session = some object :=
      fun i conn hGet hPc => Option.isSome_iff_exists.mp
        (session_isSome hReach i conn hGet hPc)
    cases a with
    | openHook i =>
        rcases hEnabled with ⟨conn, hGet, hPc⟩
        rcases hSession i conn hGet (by rw [hPc]; rfl) with
          ⟨object, hObject⟩
        exact hInv.openHook hDistinct hOpen hGet hPc hObject
    | closeHook i =>
        rcases hEnabled with ⟨conn, hGet, hPc⟩
        rcases hSession i conn hGet (by rw [hPc]; rfl) with
          ⟨object, hObject⟩
        exact hInv.closeHook hDistinct hClose hGet hPc hObject
    | _ => exact hInv.other hEnabled (by simp) (by simp)

------------------------------------------------------------
-- Calls For One Connection
------------------------------------------------------------

/- What a hook call of this step adds for connection `i`. -/
theorem callsFor_update
    (cfg : ServerConfig)
    (s : Server)
    (a : ServerAction)
    (i : Nat) :
    (s.update cfg a).callsFor i =
      s.callsFor i ++
        (hookEvent cfg s a).toList.filter
          (ServerEvent.isHookFor i) :=
  filter_log_update cfg s a fun _ =>
    ServerEvent.isHook_of_isHookFor

/- The calls for a connection are those that are due. -/
theorem callsFor_eq
    (hOpen : cfg.onSessionOpen = true)
    (hClose : cfg.onSessionClose = true)
    {ok : Server → ServerAction → Prop}
    (hReach : ReachableBy cfg ok s) :
    ∀ i, s.callsFor i =
      s.connections[i]?.elim [] (Connection.hookCalls i) := by
  refine invariant
    (fun s =>
      ∀ i, s.callsFor i =
        s.connections[i]?.elim [] (Connection.hookCalls i))
    (fun _ => rfl) ?_ hReach
  intro s a _ hInv _ hEnabled i
  rw [callsFor_update, hInv i]
  cases hGet : s.connections[i]? with
  | none =>
      have hNone :
          (s.update cfg a).connections[i]?.elim []
            (Connection.hookCalls i) = [] := by
        cases hGet' : (s.update cfg a).connections[i]? with
        | none => rfl
        | some conn' =>
            rcases eq_spawn_of_none cfg hEnabled hGet hGet'
              with ⟨endpoint, rfl⟩
            rfl
      have hAt : ∀ {j : Nat} {pc : ConnectionPc},
          s.At j pc → j ≠ i := by
        rintro j pc ⟨conn, hOther, _⟩ rfl
        rw [Option.mem_def.mp hOther] at hGet
        cases hGet
      rw [hNone]
      cases a with
      | openHook j =>
          have hNe := hAt hEnabled
          simp only [hookEvent]
          cases s.hookInfo cfg.onSessionOpen j <;>
            simp [ServerEvent.isHookFor, hNe]
      | closeHook j =>
          have hNe := hAt hEnabled
          simp only [hookEvent]
          cases s.hookInfo cfg.onSessionClose j <;>
            simp [ServerEvent.isHookFor, hNe]
      | _ => simp [hookEvent]
  | some conn =>
      rcases goes_update cfg hEnabled hGet with
        ⟨conn', hGet', hGoes⟩
      rw [hGet']
      simp only [Option.elim_some]
      by_cases hOwnOpen : a = .openHook i
      · subst hOwnOpen
        rw [hGoes.hookCalls_openHook, hookEvent, hOpen,
          hookInfo_eq hGet]
        cases conn.session <;> simp [ServerEvent.isHookFor]
      · by_cases hOwnClose : a = .closeHook i
        · subst hOwnClose
          rw [hGoes.hookCalls_closeHook, hookEvent, hClose,
            hookInfo_eq hGet]
          cases conn.session <;> simp [ServerEvent.isHookFor]
        · rw [hGoes.hookCalls hOwnOpen hOwnClose]
          cases a with
          | openHook j =>
              have hNe : j ≠ i := fun hEq =>
                hOwnOpen (by rw [hEq])
              simp only [hookEvent]
              cases s.hookInfo cfg.onSessionOpen j <;>
                simp [ServerEvent.isHookFor, hNe]
          | closeHook j =>
              have hNe : j ≠ i := fun hEq =>
                hOwnClose (by rw [hEq])
              simp only [hookEvent]
              cases s.hookInfo cfg.onSessionClose j <;>
                simp [ServerEvent.isHookFor, hNe]
          | _ => simp [hookEvent]

theorem eq_of_logged_completionReturned
    (hLogged :
      logged cfg s a = some (.completionReturned i)) :
    a = .postErase i := by
  cases a with
  | postErase j => simpa [logged] using hLogged
  | runTask =>
      rcases Option.bind_eq_some_iff.mp hLogged with
        ⟨task, _, hTask⟩
      cases task <;> simp [loggedTask] at hTask
  | _ => simp [logged] at hLogged

/- A completion handler that returned is that of a session. -/
theorem returned
    {ok : Server → ServerAction → Prop}
    (hReach : ReachableBy cfg ok s) :
    ∀ i, .completionReturned i ∈ s.log →
      ∃ conn ∈ s.connections[i]?, conn.pc = .over ∧
        conn.session.isSome = true := by
  refine invariant
    (fun s =>
      ∀ i, .completionReturned i ∈ s.log →
        ∃ conn ∈ s.connections[i]?, conn.pc = .over ∧
          conn.session.isSome = true)
    (by simp [start]) ?_ hReach
  intro s a hReach hInv _ hEnabled i hMem
  rw [log_update] at hMem
  rcases History.mem_append_toList.mp hMem with hOld | hNew
  · rcases hInv i hOld with ⟨conn, hGet, hPc, hSome⟩
    rcases goes_update cfg hEnabled hGet with
      ⟨conn', hGet', hGoes⟩
    refine ⟨conn', hGet', ?_, ?_⟩
    · cases hGoes <;> simp_all
    · rw [hGoes.session_isSome (by simp [hPc]), hSome]
  · rcases eq_of_logged_completionReturned hNew with rfl
    rcases hEnabled with ⟨conn, hGet, hPc⟩
    refine ⟨conn.goTo .over, ?_, rfl, ?_⟩
    · simp only [update, goTo, List.getElem?_modify_eq,
        Option.mem_def.mp hGet]
      rfl
    · exact session_isSome hReach i conn hGet (by rw [hPc]; rfl)

------------------------------------------------------------
-- Hooks In Pairs
------------------------------------------------------------

/-
  The calls for any token alternate. Those for a connection
  are one open from its open hook on, then one close from its
  close hook on, both with the identity of its session, and
  both were called when its completion handler has returned.
-/
structure HooksPaired (s : Server) : Prop where
  alternate :
    ∀ token, ServerEvent.Alternating (s.tokenCalls token)
  calls :
    ∀ (i : Nat) (conn : Connection),
      s.connections[i]? = some conn →
        s.callsFor i = conn.hookCalls i
  returned :
    ∀ i, .completionReturned i ∈ s.log →
      ∃ info,
        s.callsFor i = [.sessionOpen i info, .sessionClose i info]

theorem hooksPaired
    (cfg : ServerConfig)
    (hOpen : cfg.onSessionOpen = true)
    (hClose : cfg.onSessionClose = true)
    (s : Server)
    (hReach : Reachable cfg s) :
    HooksPaired s := by
  have hInv := hooksInv hOpen hClose hReach
  have hCalls :
      ∀ (i : Nat) (conn : Connection),
        s.connections[i]? = some conn →
          s.callsFor i = conn.hookCalls i := by
    intro i conn hGet
    rw [callsFor_eq hOpen hClose hReach i, hGet]
    rfl
  constructor
  case alternate =>
    intro token
    by_cases hOpened :
        ∃ i info, s.openInfo i = some info ∧
          info.sessionToken = token
    · rcases hOpened with ⟨i, info, hInfo, rfl⟩
      rcases hInv.opened i info hInfo with
        ⟨before, hPaired, hEq⟩
      exact .inr ⟨before, i, info, hPaired, hEq⟩
    · exact .inl (hInv.settled token fun i info hInfo hToken =>
        hOpened ⟨i, info, hInfo, hToken⟩)
  case calls => exact hCalls
  case returned =>
    intro i hMem
    rcases Server.returned hReach i hMem with
      ⟨conn, hGet, hPc, hSome⟩
    rcases Option.isSome_iff_exists.mp hSome with
      ⟨object, hSession⟩
    refine ⟨object.info, ?_⟩
    rw [hCalls i conn hGet]
    simp [Connection.hookCalls, hSession, hPc]

/- A server with both hooks installed. -/
def hooked : ServerConfig where
  onSessionOpen := true
  onSessionClose := true

/- From its seat to the end of its completion handler. -/
def live (i : Nat) : List ServerAction :=
  [.postInsert i, .openHook i, .serve i, .closeSession i,
    .complete i, .releaseGlobal i, .releaseIp i, .closeHook i,
    .postErase i]

/- Two sessions, one after the other at the same address. -/
theorem hooksPaired_reused :
    ∃ s : Server, Reachable hooked s ∧
      (s.tokenCalls 4096).length = 4 ∧ HooksPaired s := by
  rcases Transition.exists_of_run (step hooked) (start hooked)
      (handOver 1000 1 ++ seat 0 4096 ++ live 0 ++
        [.runTask, .runTask] ++
        (handOver 2000 2 ++ seat 1 4096 ++ live 1))
      (fun s => decide ((s.tokenCalls 4096).length = 4))
      (by decide +kernel) with
    ⟨s, hReach, hRun⟩
  exact ⟨s, hReach, of_decide_eq_true hRun,
    hooksPaired hooked rfl rfl s hReach⟩

end Server

end GrlxRpc
