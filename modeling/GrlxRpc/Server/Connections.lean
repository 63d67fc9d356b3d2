import GrlxRpc.Server.Step
import GrlxRpc.Lib.Records

/-
  What one step does to one connection, and to the log.

  The coroutine of a connection moves in its own steps only.
  In the steps of others it stays where it is, and all that
  can happen to its session is that it is closed.

  Main declarations:
    * `ServerAction.mover`
    * `Connection.Goes`
    * `Server.goes_update` and `Server.connection_cases`
    * `Server.session_isSome`
    * `Server.logged` and `Server.log_update`
-/

namespace GrlxRpc

------------------------------------------------------------
-- Movers
------------------------------------------------------------

/- The connection whose coroutine or handler moves. -/
def ServerAction.mover : ServerAction → Option Nat
  | finishHandshake i _ => some i
  | releaseSlot i => some i
  | admitGlobal i => some i
  | admitIp i => some i
  | postInsert i => some i
  | openHook i => some i
  | serve i => some i
  | complete i => some i
  | releaseGlobal i => some i
  | releaseIp i => some i
  | closeHook i => some i
  | postErase i => some i
  | accept _ _ => none
  | probeGlobal _ => none
  | probeIp _ _ => none
  | checkHandshakes _ => none
  | spawnHandshake _ => none
  | closeSession _ => none
  | runTask => none
  | startQuery => none
  | closeAllSessions => none
  | setServerLimits _ => none

namespace Connection

/- How connection `i` goes on in a step. -/
inductive Goes
    (i : Nat)
    (conn : Connection) : ServerAction → Connection → Prop
  | stays {a : ServerAction} :
      a.mover ≠ some i → Goes i conn a conn
  | closed {a : ServerAction} :
      a.mover = none → Goes i conn a conn.close
  | finishHandshake {result : HandshakeResult} :
      conn.pc = .handshaking →
      Goes i conn (.finishHandshake i result)
        (conn.finish result)
  | releaseSlot :
      conn.pc = .releaseSlot →
      Goes i conn (.releaseSlot i)
        (conn.goTo (Server.afterSlot conn))
  | admitGlobal :
      conn.pc = .admitGlobal →
      Goes i conn (.admitGlobal i) (conn.goTo .admitIp)
  | admitIp :
      conn.pc = .admitIp →
      Goes i conn (.admitIp i) (conn.goTo .postInsert)
  | postInsert :
      conn.pc = .postInsert →
      Goes i conn (.postInsert i) (conn.goTo .openHook)
  | openHook :
      conn.pc = .openHook →
      Goes i conn (.openHook i) (conn.goTo .serve)
  | serve :
      conn.pc = .serve →
      Goes i conn (.serve i) (conn.goTo .serving)
  | complete :
      conn.pc = .serving →
      conn.session.any (·.isClosed) = true →
      Goes i conn (.complete i) (conn.goTo .releaseGlobal)
  | releaseGlobal :
      conn.pc = .releaseGlobal →
      Goes i conn (.releaseGlobal i) (conn.goTo .releaseIp)
  | releaseIp :
      conn.pc = .releaseIp →
      Goes i conn (.releaseIp i) (conn.goTo .closeHook)
  | closeHook :
      conn.pc = .closeHook →
      Goes i conn (.closeHook i) (conn.goTo .postErase)
  | postErase :
      conn.pc = .postErase →
      Goes i conn (.postErase i) (conn.goTo .over)

/- Closing twice is closing once. -/
@[simp] theorem close_close (conn : Connection) :
    conn.close.close = conn.close := by
  rcases conn with ⟨endpoint, pc, session, hPeer⟩
  cases session <;> simp [close]

end Connection

namespace Server

variable {s : Server}
variable {i : Nat}
variable {conn : Connection}

/- The connection that is about to do what `pc` names. -/
theorem At.pc_eq
    {pc : ConnectionPc}
    (hAt : s.At i pc)
    (hGet : s.connections[i]? = some conn) :
    conn.pc = pc := by
  rcases hAt with ⟨other, hOther, hPc⟩
  rw [← hPc, Option.some.inj (hGet.symm.trans hOther)]

theorem IsClosed.any_eq
    (hClosed : s.IsClosed i)
    (hGet : s.connections[i]? = some conn) :
    conn.session.any (·.isClosed) = true := by
  rcases hClosed with ⟨other, hOther, hAny⟩
  rw [Option.some.inj (hGet.symm.trans hOther)]
  exact hAny

/- Which connections `close()` on each of these closes. -/
theorem getElem?_closeSessions
    (todo : List Nat)
    (connections : List Connection)
    (i : Nat) :
    (closeSessions todo connections)[i]? =
      connections[i]?.map fun conn =>
        if i ∈ todo then conn.close else conn := by
  induction todo generalizing connections with
  | nil => simp [closeSessions]
  | cons j rest ih =>
      rw [closeSessions, ih]
      by_cases hSame : j = i
      · subst hSame
        rw [List.getElem?_modify_eq]
        cases connections[j]? <;> simp
      · rw [List.getElem?_modify_ne _ _ hSame]
        congr 1
        funext conn
        simp [Ne.symm hSame]

------------------------------------------------------------
-- One Step
------------------------------------------------------------

/- A step that moves connection `j` moves no other. -/
theorem goes_modify
    {a : ServerAction}
    {j : Nat}
    {f : Connection → Connection}
    (hMover : a.mover = some j)
    (hMoves :
      ∀ conn, s.connections[j]? = some conn →
        conn.Goes j a (f conn))
    (hGet : s.connections[i]? = some conn) :
    ∃ conn',
      (s.connections.modify j f)[i]? = some conn' ∧
        conn.Goes i a conn' := by
  by_cases hSame : j = i
  · subst hSame
    refine ⟨f conn, ?_, hMoves conn hGet⟩
    rw [List.getElem?_modify_eq, hGet]
    rfl
  · refine ⟨conn, ?_, .stays ?_⟩
    · rw [List.getElem?_modify_ne _ _ hSame, hGet]
    · rw [hMover]
      exact fun hEq => hSame (Option.some.inj hEq)

/- What a step makes of a connection. -/
theorem goes_update
    (cfg : ServerConfig)
    {a : ServerAction}
    (hEnabled : s.Enabled a)
    (hGet : s.connections[i]? = some conn) :
    ∃ conn',
      (s.update cfg a).connections[i]? = some conn' ∧
        conn.Goes i a conn' := by
  have hStays :
      ∀ {a : ServerAction}, a.mover = none →
        (s.update cfg a).connections = s.connections →
          ∃ conn',
            (s.update cfg a).connections[i]? = some conn' ∧
              conn.Goes i a conn' := by
    intro a hMover hSame
    exact ⟨conn, hSame ▸ hGet, .stays (by simp [hMover])⟩
  cases a with
  | finishHandshake j result =>
      exact goes_modify rfl
        (fun conn hGet =>
          .finishHandshake (hEnabled.1.pc_eq hGet)) hGet
  | releaseSlot j =>
      exact goes_modify rfl
        (fun conn hGet =>
          .releaseSlot (At.pc_eq hEnabled hGet)) hGet
  | admitGlobal j =>
      exact goes_modify rfl
        (fun conn hGet =>
          .admitGlobal (At.pc_eq hEnabled hGet)) hGet
  | admitIp j =>
      exact goes_modify rfl
        (fun conn hGet =>
          .admitIp (At.pc_eq hEnabled hGet)) hGet
  | postInsert j =>
      exact goes_modify rfl
        (fun conn hGet =>
          .postInsert (At.pc_eq hEnabled hGet)) hGet
  | openHook j =>
      exact goes_modify rfl
        (fun conn hGet =>
          .openHook (At.pc_eq hEnabled hGet)) hGet
  | serve j =>
      exact goes_modify rfl
        (fun conn hGet =>
          .serve (At.pc_eq hEnabled hGet)) hGet
  | complete j =>
      exact goes_modify rfl
        (fun conn hGet =>
          .complete (hEnabled.1.pc_eq hGet)
            (hEnabled.2.any_eq hGet)) hGet
  | releaseGlobal j =>
      exact goes_modify rfl
        (fun conn hGet =>
          .releaseGlobal (At.pc_eq hEnabled hGet)) hGet
  | releaseIp j =>
      exact goes_modify rfl
        (fun conn hGet =>
          .releaseIp (At.pc_eq hEnabled hGet)) hGet
  | closeHook j =>
      exact goes_modify rfl
        (fun conn hGet =>
          .closeHook (At.pc_eq hEnabled hGet)) hGet
  | postErase j =>
      exact goes_modify rfl
        (fun conn hGet =>
          .postErase (At.pc_eq hEnabled hGet)) hGet
  | closeSession j =>
      by_cases hSame : j = i
      · subst hSame
        refine ⟨conn.close, ?_, .closed rfl⟩
        simp only [update, List.getElem?_modify_eq, hGet]
        rfl
      · refine ⟨conn, ?_, .stays (by simp [
          ServerAction.mover])⟩
        simp only [update]
        rw [List.getElem?_modify_ne _ _ hSame, hGet]
  | runTask =>
      cases hStrand : s.strand with
      | nil => exact absurd hStrand hEnabled
      | cons task rest =>
          cases task with
          | closeAll =>
              have hGet' :
                  (s.update cfg .runTask).connections[i]? =
                    some (if i ∈ s.activeSessions then
                      conn.close else conn) := by
                simp only [update, runTask, hStrand]
                rw [getElem?_closeSessions, hGet]
                rfl
              refine ⟨_, hGet', ?_⟩
              split
              · exact .closed rfl
              · exact .stays (by simp [ServerAction.mover])
          | _ =>
              exact hStays rfl
                (by simp only [update, runTask, hStrand])
  | spawnHandshake endpoint =>
      exact ⟨conn, Records.getElem?_mono
        (List.prefix_append _ _) hGet,
        .stays (by simp [ServerAction.mover])⟩
  | probeGlobal endpoint =>
      apply hStays rfl
      simp only [update]
      split <;> rfl
  | checkHandshakes endpoint =>
      apply hStays rfl
      simp only [update]
      split <;> rfl
  | accept endpoint readable => exact hStays rfl rfl
  | probeIp endpoint now => exact hStays rfl rfl
  | startQuery => exact hStays rfl rfl
  | closeAllSessions => exact hStays rfl rfl
  | setServerLimits limits => exact hStays rfl rfl

theorem length_update
    (cfg : ServerConfig)
    (a : ServerAction) :
    (s.update cfg a).connections.length =
      s.connections.length +
        (match a with
          | .spawnHandshake _ => 1
          | _ => 0) := by
  have hClose :
      ∀ todo connections,
        (closeSessions todo connections).length =
          connections.length := by
    intro todo
    induction todo with
    | nil => exact fun _ => rfl
    | cons j rest ih =>
        intro connections
        rw [closeSessions, ih, List.length_modify]
  cases a with
  | spawnHandshake endpoint => simp [update]
  | runTask =>
      simp only [update, runTask]
      split <;> simp [hClose]
  | probeGlobal endpoint =>
      simp only [update]
      split <;> rfl
  | checkHandshakes endpoint =>
      simp only [update]
      split <;> rfl
  | _ => simp [update, goTo]

/- Where a connection comes from that a step leaves. -/
theorem connection_cases
    (cfg : ServerConfig)
    {a : ServerAction}
    (hEnabled : s.Enabled a)
    {conn' : Connection}
    (hGet : (s.update cfg a).connections[i]? = some conn') :
    (∃ conn, s.connections[i]? = some conn ∧
        conn.Goes i a conn') ∨
      (i = s.connections.length ∧
        ∃ endpoint, a = .spawnHandshake endpoint ∧
          conn' = .spawn endpoint) := by
  by_cases hOld : i < s.connections.length
  · left
    rcases goes_update cfg hEnabled
      (List.getElem?_eq_getElem hOld) with
      ⟨other, hOther, hGoes⟩
    rcases Option.some.inj (hGet.symm.trans hOther) with rfl
    exact ⟨_, List.getElem?_eq_getElem hOld, hGoes⟩
  · right
    have hLt := (List.getElem?_eq_some_iff.mp hGet).1
    rw [length_update] at hLt
    cases a with
    | spawnHandshake endpoint =>
        have hHere : i = s.connections.length := by
          simp only at hLt
          omega
        refine ⟨hHere, endpoint, rfl, ?_⟩
        simp only [update, hHere,
          List.getElem?_concat_length] at hGet
        exact (Option.some.inj hGet).symm
    | _ => exact absurd hLt (by simpa using hOld)

/- Behind the others comes a spawned one only. -/
theorem eq_spawn_of_none
    (cfg : ServerConfig)
    {a : ServerAction}
    (hEnabled : s.Enabled a)
    {conn' : Connection}
    (hNone : s.connections[i]? = none)
    (hGet : (s.update cfg a).connections[i]? = some conn') :
    ∃ endpoint, conn' = .spawn endpoint := by
  rcases connection_cases cfg hEnabled hGet with
    ⟨conn, hOld, _⟩ | ⟨_, endpoint, _, hSpawn⟩
  · rw [hNone] at hOld
    cases hOld
  · exact ⟨endpoint, hSpawn⟩

/- A count of connections that no coroutine changes. -/
theorem countP_update
    (cfg : ServerConfig)
    {a : ServerAction}
    (hEnabled : s.Enabled a)
    (hNot : ∀ endpoint, a ≠ .spawnHandshake endpoint)
    {p : Connection → Bool}
    (hSame :
      ∀ i conn conn', s.connections[i]? = some conn →
        conn.Goes i a conn' → p conn' = p conn) :
    (s.update cfg a).connections.countP p =
      s.connections.countP p := by
  have hMap :
      (s.update cfg a).connections.map p =
        s.connections.map p := by
    apply List.ext_getElem?
    intro i
    rw [List.getElem?_map, List.getElem?_map]
    cases hGet : s.connections[i]? with
    | some conn =>
        rcases goes_update cfg hEnabled hGet with
          ⟨conn', hGet', hGoes⟩
        rw [hGet', Option.map_some, Option.map_some,
          hSame i conn conn' hGet hGoes]
    | none =>
        have hLength :
            (s.update cfg a).connections.length =
              s.connections.length := by
          rw [length_update]
          cases a with
          | spawnHandshake endpoint =>
              exact absurd rfl (hNot endpoint)
          | _ => rfl
        rw [List.getElem?_eq_none_iff] at hGet
        rw [List.getElem?_eq_none (by omega)]
  have hCount :
      ∀ connections : List Connection,
        connections.countP p =
          (connections.map p).countP id := by
    intro connections
    rw [List.countP_map]
    rfl
  rw [hCount, hMap, ← hCount]

------------------------------------------------------------
-- Sessions
------------------------------------------------------------

end Server

/- Does only a coroutine with a session come here? -/
def ConnectionPc.hasSession : ConnectionPc → Bool
  | handshaking => false
  | releaseSlot => false
  | .over => false
  | admitGlobal => true
  | admitIp => true
  | postInsert => true
  | openHook => true
  | serve => true
  | serving => true
  | releaseGlobal => true
  | releaseIp => true
  | closeHook => true
  | postErase => true

namespace Connection

variable {i : Nat}
variable {conn conn' : Connection}
variable {a : ServerAction}

theorem session_isSome_afterSlot
    (hSession : (Server.afterSlot conn).hasSession = true) :
    conn.session.isSome = true := by
  cases hSome : conn.session.isSome with
  | true => rfl
  | false =>
      simp [Server.afterSlot, hSome, ConnectionPc.hasSession]
        at hSession

/- Past its handshake a coroutine keeps its session. -/
theorem Goes.session_isSome
    (hGoes : conn.Goes i a conn')
    (hPc : conn.pc ≠ .handshaking) :
    conn'.session.isSome = conn.session.isSome := by
  cases hGoes with
  | closed => exact conn.session_isSome_close
  | finishHandshake hHere => exact absurd hHere hPc
  | _ => rfl

theorem Goes.hasSession
    (hGoes : conn.Goes i a conn')
    (hOld :
      conn.pc.hasSession = true → conn.session.isSome = true)
    (hPc : conn'.pc.hasSession = true) :
    conn'.session.isSome = true := by
  cases hGoes with
  | stays => exact hOld hPc
  | closed =>
      rw [session_isSome_close]
      exact hOld hPc
  | finishHandshake => cases hPc
  | releaseSlot => exact session_isSome_afterSlot hPc
  | postErase => cases hPc
  | admitGlobal hHere | admitIp hHere | postInsert hHere
  | openHook hHere | serve hHere | complete hHere
  | releaseGlobal hHere | releaseIp hHere
  | closeHook hHere =>
      apply hOld
      rw [hHere]
      rfl

end Connection

namespace Server

/- An admitted connection has a session. -/
theorem session_isSome
    {cfg : ServerConfig}
    {ok : Server → ServerAction → Prop}
    {s : Server}
    (hReach : ReachableBy cfg ok s) :
    ∀ (i : Nat) (conn : Connection),
      s.connections[i]? = some conn →
        conn.pc.hasSession = true →
          conn.session.isSome = true := by
  refine invariant
    (fun s =>
      ∀ (i : Nat) (conn : Connection),
        s.connections[i]? = some conn →
          conn.pc.hasSession = true →
            conn.session.isSome = true)
    (by simp [start]) ?_ hReach
  intro s a _ hInv _ hEnabled i conn' hGet hPc
  rcases connection_cases cfg hEnabled hGet with
    ⟨conn, hOld, hGoes⟩ | ⟨_, endpoint, _, rfl⟩
  · exact hGoes.hasSession (hInv i conn hOld) hPc
  · cases hPc

------------------------------------------------------------
-- The Log
------------------------------------------------------------

/- What the strand logs when it runs a task. -/
def loggedTask
    (sessions : List Nat) : StrandTask → Option ServerEvent
  | .insert _ => none
  | .erase _ => none
  | .query q => some (.snapshot q sessions)
  | .closeAll => some .closeAllRan

/- What a step logs: one event at most. -/
def logged
    (cfg : ServerConfig)
    (s : Server) : ServerAction → Option ServerEvent
  | .probeGlobal endpoint =>
      s.globalVerdict.map fun rejection =>
        .filtered endpoint.address (some rejection)
  | .probeIp endpoint now =>
      some
        (.filtered endpoint.address
          (s.ipVerdict endpoint.address now))
  | .checkHandshakes endpoint =>
      if s.limits.maxConcurrentHandshakes ≤
          s.handshakesInFlight then
        some (.dropped endpoint)
      else
        none
  | .openHook i =>
      (s.hookInfo cfg.onSessionOpen i).map (.sessionOpen i)
  | .complete i => some (.completionStarted i)
  | .closeHook i =>
      (s.hookInfo cfg.onSessionClose i).map (.sessionClose i)
  | .postErase i => some (.completionReturned i)
  | .runTask => s.strand.head?.bind (loggedTask s.activeSessions)
  | .startQuery => some (.queryStarted s.queries)
  | .closeAllSessions => some .closeAllStarted
  | _ => none

theorem log_update
    (cfg : ServerConfig)
    (s : Server)
    (a : ServerAction) :
    (s.update cfg a).log =
      s.log ++ (logged cfg s a).toList := by
  cases a with
  | probeGlobal endpoint =>
      simp only [update, logged]
      cases s.globalVerdict <;> simp
  | checkHandshakes endpoint =>
      simp only [update, logged]
      split <;> simp
  | openHook i =>
      simp only [update, logged]
      cases s.hookInfo cfg.onSessionOpen i <;> rfl
  | closeHook i =>
      simp only [update, logged]
      cases s.hookInfo cfg.onSessionClose i <;> rfl
  | runTask =>
      simp only [update, runTask, logged]
      cases s.strand with
      | nil => simp
      | cons task rest =>
          cases task <;> simp [loggedTask]
  | _ => simp [update, logged]

end Server

end GrlxRpc
