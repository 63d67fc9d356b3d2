import GrlxRpc.Server.Registry

/-
  `stop()`: which of the connections accepted before it are
  closed when it has completed.

  `stop()` closes the sessions that are registered when its
  task runs. A connection that is then still on its way to
  the registry is missed, and goes on to be served.

  Main declarations:
    * `Server.StopRan` and `Server.AcceptedAfter`
    * `Server.NoneMissed` and `Server.InsertsFirst`
    * `Server.noneMissed`
    * `Server.missed_of_late_insert`
    * `Server.stop_misses_handshake`
-/

open scoped List

------------------------------------------------------------
-- Stopping
------------------------------------------------------------

namespace GrlxRpc

/- Has the handshake coroutine run to its end? -/
def ConnectionPc.isHandedOver : ConnectionPc → Bool
  | serving => true
  | releaseGlobal => true
  | releaseIp => true
  | closeHook => true
  | postErase => true
  | .over => true
  | handshaking => false
  | releaseSlot => false
  | admitGlobal => false
  | admitIp => false
  | postInsert => false
  | openHook => false
  | serve => false

/- Is its session closed, if it has one? -/
def Connection.isShut (conn : Connection) : Bool :=
  conn.session.all (·.isClosed)

namespace Server

/-
  The `stop()` called at place `k` of the history has run its
  task: the strand has run one `close_all_sessions` more than
  were called before it.
-/
def StopRan
    (history : List RegistryEvent)
    (k : Nat) : Prop :=
  history[k]? = some .closeAllStarted ∧
    (history.take k).count .closeAllStarted <
      history.count .closeAllRan

instance
    (history : List RegistryEvent)
    (k : Nat) : Decidable (StopRan history k) :=
  inferInstanceAs (Decidable (_ ∧ _))

/-
  The connection was accepted behind place `k`: the accept
  loop got it and spawned its handshake since then.
-/
def AcceptedAfter
    (history : List RegistryEvent)
    (k i : Nat) : Prop :=
  [.accepted, .spawned i] <+ history.drop k

instance
    (history : List RegistryEvent)
    (k i : Nat) : Decidable (AcceptedAfter history k i) :=
  inferInstanceAs (Decidable (_ <+ _))

/-
  When a `stop()` has run its task, each connection accepted
  before it whose coroutine and registry tasks have run has
  no session, or a closed one that is not registered.
-/
def NoneMissed
    (s : Server)
    (history : List RegistryEvent) : Prop :=
  ∀ (k i : Nat) (conn : Connection),
    StopRan history k →
      s.connections[i]? = some conn →
        ¬ AcceptedAfter history k i →
          conn.pc.isHandedOver = true →
            .insert i ∉ s.strand →
              .erase i ∉ s.strand →
                conn.session = none ∨
                  s.IsClosed i ∧ i ∉ s.activeSessions

/-
  A `stop()` called when connection `i` had been accepted has
  run its task.
-/
def StoppedSince
    (history : List RegistryEvent)
    (i : Nat) : Prop :=
  ∃ k < history.length,
    StopRan history k ∧ ¬ AcceptedAfter history k i

instance
    (history : List RegistryEvent)
    (i : Nat) : Decidable (StoppedSince history i) :=
  inferInstanceAs (Decidable (∃ k < _, _))

end Server

/- The connection whose session a task registers. -/
def StrandTask.inserts : StrandTask → Option Nat
  | insert i => some i
  | erase _ => none
  | query _ => none
  | closeAll => none

namespace Server

/-
  No session is registered when a `stop()` called since its
  connection was accepted has run its task, unless its erase
  already waits behind the insert.
-/
def InsertsFirst
    (x : Server × List RegistryEvent) : ServerAction → Prop
  | .runTask =>
      ∀ i ∈ x.1.strand.head?.bind StrandTask.inserts,
        StoppedSince x.2 i → .erase i ∈ x.1.strand
  | _ => True

instance
    (x : Server × List RegistryEvent)
    (a : ServerAction) : Decidable (InsertsFirst x a) := by
  unfold InsertsFirst
  split <;> infer_instance

------------------------------------------------------------
-- One Step
------------------------------------------------------------

variable {cfg : ServerConfig}
variable {s : Server}
variable {history : List RegistryEvent}
variable {a : ServerAction}
variable {i k : Nat}

theorem count_ran (history : List RegistryEvent) :
    (ran history).count .closeAll =
      history.count .closeAllRan := by
  induction history with
  | nil => rfl
  | cons event rest ih =>
      cases event <;>
        simp_all [ran, RegistryEvent.task, List.filterMap_cons]

theorem mem_ran_append
    {task : StrandTask}
    (hMem :
      task ∈ ran (history ++ (s.registryEvent a).toList)) :
    task ∈ ran history ∨
      a = .runTask ∧ s.strand.head? = some task := by
  rw [ran_append] at hMem
  rcases History.mem_append_toList.mp hMem with hOld | hNew
  · exact .inl hOld
  · right
    rcases Option.bind_eq_some_iff.mp hNew with
      ⟨event, hEvent, hTask⟩
    rcases eq_of_task hEvent hTask with ⟨hRun, hHead, _⟩
    exact ⟨hRun, hHead⟩

/- Only a `close_all_sessions` that runs completes a stop. -/
theorem stopRan_append
    {event : Option RegistryEvent}
    (hCalls :
      history.count .closeAllRan ≤
        history.count .closeAllStarted)
    (hRan : StopRan (history ++ event.toList) k) :
    StopRan history k ∨ event = some .closeAllRan := by
  cases event with
  | none =>
      simp only [Option.toList_none, List.append_nil] at hRan
      exact .inl hRan
  | some event =>
      simp only [Option.toList_some] at hRan
      rcases hRan with ⟨hAt, hLess⟩
      rcases Nat.lt_trichotomy k history.length with
        hOld | rfl | hBeyond
      · rw [List.getElem?_append_left hOld] at hAt
        rw [List.take_append_of_le_length (Nat.le_of_lt hOld),
          List.count_append] at hLess
        by_cases hEvent : event = .closeAllRan
        · exact .inr (congrArg some hEvent)
        · have hOther :
              [event].count .closeAllRan = 0 :=
            List.count_eq_zero_of_not_mem
              (by simpa using Ne.symm hEvent)
          rw [hOther] at hLess
          exact .inl ⟨hAt, hLess⟩
      · -- The call itself has not run its task.
        rw [List.getElem?_concat_length] at hAt
        rcases Option.some.inj hAt with rfl
        rw [List.take_left', List.count_append] at hLess
        · simp at hLess
          omega
        · rfl
      · rw [List.getElem?_eq_none (by simp; omega)] at hAt
        cases hAt

theorem acceptedAfter_append
    (event : Option RegistryEvent)
    (hAfter : AcceptedAfter history k i) :
    AcceptedAfter (history ++ event.toList) k i :=
  hAfter.trans ((List.sublist_append_left _ _).drop k)

/- What leaves the set is erased or cleared. -/
theorem removed_cases
    (hEnabled : s.Enabled a)
    (hMem : i ∈ s.activeSessions)
    (hRemoved : i ∉ (s.update cfg a).activeSessions) :
    a = .runTask ∧
      (s.strand.head? = some (.erase i) ∨
        s.strand.head? = some .closeAll) := by
  cases a with
  | runTask =>
      cases hStrand : s.strand with
      | nil => exact absurd hStrand hEnabled
      | cons task rest =>
          simp only [update, runTask, hStrand] at hRemoved
          cases task with
          | insert j =>
              exact absurd (List.mem_insert_of_mem hMem)
                hRemoved
          | erase j =>
              by_cases hSame : i = j
              · subst hSame
                exact ⟨rfl, .inl rfl⟩
              · exact absurd
                  ((List.mem_erase_of_ne hSame).mpr hMem)
                  hRemoved
          | query q => exact absurd hMem hRemoved
          | closeAll => exact ⟨rfl, .inr rfl⟩
  | probeGlobal endpoint =>
      simp only [update] at hRemoved
      split at hRemoved <;> exact absurd hMem hRemoved
  | checkHandshakes endpoint =>
      simp only [update] at hRemoved
      split at hRemoved <;> exact absurd hMem hRemoved
  | _ => exact absurd hMem hRemoved

/- What enters the set is inserted. -/
theorem added_cases
    (hEnabled : s.Enabled a)
    (hNot : i ∉ s.activeSessions)
    (hAdded : i ∈ (s.update cfg a).activeSessions) :
    a = .runTask ∧ s.strand.head? = some (.insert i) := by
  cases a with
  | runTask =>
      cases hStrand : s.strand with
      | nil => exact absurd hStrand hEnabled
      | cons task rest =>
          simp only [update, runTask, hStrand] at hAdded
          cases task with
          | insert j =>
              rcases List.mem_insert_iff.mp hAdded with
                rfl | hMem
              · exact ⟨rfl, rfl⟩
              · exact absurd hMem hNot
          | erase j =>
              exact absurd (List.mem_of_mem_erase hAdded) hNot
          | query q => exact absurd hAdded hNot
          | closeAll => cases hAdded
  | probeGlobal endpoint =>
      simp only [update] at hAdded
      split at hAdded <;> exact absurd hAdded hNot
  | checkHandshakes endpoint =>
      simp only [update] at hAdded
      split at hAdded <;> exact absurd hAdded hNot
  | _ => exact absurd hAdded hNot

/- A task that waits goes on waiting or runs. -/
theorem strand_cases
    (cfg : ServerConfig)
    (hEnabled : s.Enabled a)
    {task : StrandTask}
    (hMem : task ∈ s.strand) :
    task ∈ (s.update cfg a).strand ∨
      a = .runTask ∧ s.strand.head? = some task := by
  by_cases hRun : a = .runTask
  · subst hRun
    cases hStrand : s.strand with
    | nil => exact absurd hStrand hEnabled
    | cons first rest =>
        rw [hStrand] at hMem
        rcases List.mem_cons.mp hMem with rfl | hRest
        · exact .inr ⟨rfl, rfl⟩
        · left
          cases first <;>
            simpa only [update, runTask, hStrand] using hRest
  · left
    rw [strand_update cfg s hRun]
    exact List.mem_append_left _ hMem

theorem mem_of_insert
    (cfg : ServerConfig)
    (hHead : s.strand.head? = some (.insert i)) :
    i ∈ (s.update cfg .runTask).activeSessions := by
  rcases List.head?_eq_some_iff.mp hHead with ⟨rest, hStrand⟩
  simp only [update, runTask, hStrand]
  exact List.mem_insert_self

theorem not_mem_of_closeAll
    (cfg : ServerConfig)
    (i : Nat)
    (hHead : s.strand.head? = some .closeAll) :
    i ∉ (s.update cfg .runTask).activeSessions := by
  rcases List.head?_eq_some_iff.mp hHead with ⟨rest, hStrand⟩
  simp only [update, runTask, hStrand]
  exact List.not_mem_nil

end Server

namespace Connection

variable {i : Nat}
variable {conn conn' : Connection}
variable {a : ServerAction}

@[simp] theorem isShut_close (conn : Connection) :
    conn.close.isShut = true := by
  cases hSession : conn.session <;>
    simp [isShut, close, hSession]

/- A closed session stays closed. -/
theorem Goes.isShut
    (hGoes : conn.Goes i a conn')
    (hPast : conn.pc.isAdmitting = false)
    (hShut : conn.isShut = true) :
    conn'.isShut = true := by
  cases hGoes with
  | closed => exact conn.isShut_close
  | finishHandshake hPc =>
      rw [hPc] at hPast
      cases hPast
  | _ => exact hShut

theorem isShut_of_any
    (hClosed : conn.session.any (·.isClosed) = true) :
    conn.isShut = true := by
  cases hSession : conn.session <;>
    simp_all [Connection.isShut]

/- A completion handler starts on a closed session. -/
theorem Goes.isShut_of_complete
    (hGoes : conn.Goes i (.complete i) conn') :
    conn'.isShut = true := by
  cases hGoes with
  | stays hOther => exact absurd rfl hOther
  | closed => exact conn.isShut_close
  | complete _ hClosed => exact isShut_of_any hClosed

theorem isAdmitting_of_isCompleting
    (hCompleting : conn.pc.isCompleting = true) :
    conn.pc.isAdmitting = false := by
  cases hPc : conn.pc <;>
    simp_all [ConnectionPc.isCompleting,
      ConnectionPc.isAdmitting]

end Connection

namespace Server

variable {cfg : ServerConfig}
variable {s : Server}
variable {history : List RegistryEvent}
variable {a : ServerAction}
variable {i k : Nat}

------------------------------------------------------------
-- Who Is Closed
------------------------------------------------------------

namespace RegistryInv

/- A task that waits has not run before. -/
theorem not_mem_ran
    (hInv : RegistryInv s history)
    {task : StrandTask}
    (hHead : s.strand.head? = some task)
    (hOther : task ≠ .closeAll) :
    task ∉ ran history := by
  intro hRan
  apply hInv.once task hOther
  have hWaits : [task] <+ s.strand :=
    List.singleton_sublist.mpr (List.mem_of_mem_head? hHead)
  exact (List.singleton_sublist.mpr hRan).append hWaits

/- The erase of a session leaves it out of the set. -/
theorem not_mem_of_erase
    (hInv : RegistryInv s history)
    (hHead : s.strand.head? = some (.erase i)) :
    i ∉ (s.update cfg .runTask).activeSessions := by
  have hEnabled : s.Enabled .runTask := by
    intro hNil
    rw [hNil] at hHead
    cases hHead
  have hNext :
      RegistryInv (s.update cfg .runTask)
        (history ++ (s.registryEvent .runTask).toList) :=
    hInv.update hEnabled
  apply hNext.unseen
  rcases List.head?_eq_some_iff.mp hHead with ⟨rest, hStrand⟩
  rw [ran_runTask history hStrand]
  exact List.mem_append_right _ List.mem_cons_self

end RegistryInv

/-
  A session whose completion handler runs is closed, and so
  is one that was registered and is no longer. A `stop()`
  that has run its task leaves nothing registered that was
  accepted before it, unless an erase is on its way.
-/
structure StopInv
    (s : Server)
    (history : List RegistryEvent) : Prop where
  calls :
    (posted s history).count .closeAll =
      history.count .closeAllStarted
  shut :
    ∀ i conn, s.connections[i]? = some conn →
      conn.pc.isCompleting = true ∨
          .erase i ∈ posted s history →
        conn.isShut = true
  removed :
    ∀ i conn, s.connections[i]? = some conn →
      .insert i ∈ ran history → i ∉ s.activeSessions →
        conn.isShut = true
  stopped :
    ∀ k i, StopRan history k → ¬ AcceptedAfter history k i →
      .insert i ∈ ran history →
        i ∉ s.activeSessions ∨ .erase i ∈ s.strand

namespace StopInv

theorem start (cfg : ServerConfig) :
    StopInv (Server.start cfg) [] := by
  constructor <;>
    simp [Server.start, posted, ran, StopRan]

/- No more have run than were called. -/
theorem ran_le_started
    (hInv : StopInv s history) :
    history.count .closeAllRan ≤
      history.count .closeAllStarted := by
  have hCalls := hInv.calls
  rw [posted, List.count_append, count_ran] at hCalls
  omega

theorem calls_update
    (hInv : StopInv s history)
    (hEnabled : s.Enabled a) :
    (posted (s.update cfg a)
        (history ++ (s.registryEvent a).toList)).count
          .closeAll =
      (history ++ (s.registryEvent a).toList).count
        .closeAllStarted := by
  have hNew :
      (s.posts a).toList.count .closeAll =
        (s.registryEvent a).toList.count .closeAllStarted := by
    cases a with
    | runTask =>
        cases hStrand : s.strand with
        | nil => exact absurd hStrand hEnabled
        | cons task rest =>
            cases task <;>
              simp [posts, registryEvent, hStrand,
                StrandTask.event]
    | accept endpoint readable =>
        cases readable <;> simp [posts, registryEvent]
    | probeIp endpoint now =>
        simp only [posts, registryEvent]
        split <;> simp
    | _ => simp [posts, registryEvent]
  rw [posted_update cfg history hEnabled, List.count_append,
    List.count_append, hInv.calls, hNew]

/- A new session's erase is posted by its handler. -/
theorem shut_update
    (hInv : StopInv s history)
    (hRegistry : RegistryInv s history)
    (hEnabled : s.Enabled a)
    (i : Nat)
    (conn' : Connection)
    (hGet : (s.update cfg a).connections[i]? = some conn')
    (hEnd :
      conn'.pc.isCompleting = true ∨
        .erase i ∈ posted s history ++ (s.posts a).toList) :
    conn'.isShut = true := by
  rcases connection_cases cfg hEnabled hGet with
    ⟨conn, hOld, hGoes⟩ | ⟨_, endpoint, _, rfl⟩
  · have hKeeps :
        conn.pc.isCompleting = true → conn'.isShut = true :=
      fun hCompleting =>
        hGoes.isShut
          (Connection.isAdmitting_of_isCompleting hCompleting)
          (hInv.shut i conn hOld (.inl hCompleting))
    rcases hEnd with hCompleting | hErase
    · rcases hGoes.isCompleting hCompleting with
        hBefore | rfl
      · exact hKeeps hBefore
      · exact hGoes.isShut_of_complete
    · rcases History.mem_append_toList.mp hErase with
        hBefore | hNew
      · have hOver : conn.pc = .over :=
          (hRegistry.erased i hBefore).1.pc_eq hOld
        apply hGoes.isShut (by rw [hOver]; rfl)
        exact hInv.shut i conn hOld (.inr hBefore)
      · rcases eq_of_posts_erase hNew with rfl
        have hPc : conn.pc = .postErase :=
          At.pc_eq hEnabled hOld
        exact hKeeps (by rw [hPc]; rfl)
  · rfl

/- What was registered and is not was closed. -/
theorem removed_update
    (hInv : StopInv s history)
    (hRegistry : RegistryInv s history)
    (hEnabled : s.Enabled a)
    (i : Nat)
    (conn' : Connection)
    (hGet : (s.update cfg a).connections[i]? = some conn')
    (hRan :
      .insert i ∈ ran (history ++ (s.registryEvent a).toList))
    (hNot : i ∉ (s.update cfg a).activeSessions) :
    conn'.isShut = true := by
  rcases connection_cases cfg hEnabled hGet with
    ⟨conn, hOld, hGoes⟩ | ⟨_, endpoint, _, rfl⟩
  · rcases mem_ran_append hRan with hBefore | ⟨rfl, hHead⟩
    · have hPast : conn.pc.isAdmitting = false := by
        rcases hRegistry.admitted i
          (List.mem_append_left _ hBefore) with
          ⟨other, hOther, hPast⟩
        rw [Option.some.inj (hOld.symm.trans hOther)]
        exact hPast
      apply Decidable.byCases (p := i ∈ s.activeSessions)
      · intro hMem
        rcases removed_cases hEnabled hMem hNot with
          ⟨rfl, hErase | hClear⟩
        · apply hGoes.isShut hPast
          apply hInv.shut i conn hOld
          right
          exact List.mem_append_right _
            (List.mem_of_mem_head? hErase)
        · -- The clear closes what it takes out.
          rcases List.head?_eq_some_iff.mp hClear with
            ⟨rest, hStrand⟩
          simp only [Server.update, runTask, hStrand] at hGet
          rw [getElem?_closeSessions, hOld] at hGet
          simp only [Option.map_some, hMem, if_true,
            Option.some.injEq] at hGet
          rw [← hGet]
          exact conn.isShut_close
      · intro hMem
        exact hGoes.isShut hPast
          (hInv.removed i conn hOld hBefore hMem)
    · exact absurd (mem_of_insert cfg hHead) hNot
  · rfl

/- What a stop has emptied stays empty of its sessions. -/
theorem stopped_update
    (hInv : StopInv s history)
    (hRegistry : RegistryInv s history)
    (hFirst : InsertsFirst (s, history) a)
    (hEnabled : s.Enabled a)
    (k i : Nat)
    (hStop :
      StopRan (history ++ (s.registryEvent a).toList) k)
    (hBefore :
      ¬ AcceptedAfter
        (history ++ (s.registryEvent a).toList) k i)
    (hRan :
      .insert i ∈ ran (history ++ (s.registryEvent a).toList)) :
    i ∉ (s.update cfg a).activeSessions ∨
      .erase i ∈ (s.update cfg a).strand := by
  rcases stopRan_append hInv.ran_le_started hStop with
    hOldStop | hClear
  · have hAccepted : ¬ AcceptedAfter history k i :=
      fun hAfter => hBefore (acceptedAfter_append _ hAfter)
    rcases mem_ran_append hRan with hOldRan | ⟨rfl, hHead⟩
    · rcases hInv.stopped k i hOldStop hAccepted hOldRan with
        hNot | hErase
      · left
        intro hMem
        rcases added_cases hEnabled hNot hMem with ⟨_, hHead⟩
        exact hRegistry.not_mem_ran hHead (by simp) hOldRan
      · rcases strand_cases cfg hEnabled hErase with
          hWaits | ⟨rfl, hHead⟩
        · exact .inr hWaits
        · exact .inl (hRegistry.not_mem_of_erase hHead)
    · -- It is registered late: its erase already waits.
      right
      have hErase : .erase i ∈ s.strand := by
        apply hFirst i
        · simp [hHead, StrandTask.inserts]
        · exact ⟨k,
            (List.getElem?_eq_some_iff.mp hOldStop.1).1,
            hOldStop, hAccepted⟩
      rcases List.head?_eq_some_iff.mp hHead with
        ⟨rest, hStrand⟩
      simp only [Server.update, runTask, hStrand]
      rw [hStrand] at hErase
      simpa using hErase
  · rcases eq_of_task hClear rfl with ⟨rfl, hHead, _⟩
    exact .inl (not_mem_of_closeAll cfg i hHead)

theorem update
    (hInv : StopInv s history)
    (hRegistry : RegistryInv s history)
    (hFirst : InsertsFirst (s, history) a)
    (hEnabled : s.Enabled a) :
    StopInv (s.update cfg a)
      (history ++ (s.registryEvent a).toList) := by
  constructor
  case calls => exact hInv.calls_update hEnabled
  case shut =>
    rw [posted_update cfg history hEnabled]
    exact hInv.shut_update hRegistry hEnabled
  case removed => exact hInv.removed_update hRegistry hEnabled
  case stopped =>
    exact hInv.stopped_update hRegistry hFirst hEnabled

end StopInv

theorem stopInv
    (hReach : WatchedBy cfg InsertsFirst s history) :
    StopInv s history :=
  watchedInvariant StopInv (.start cfg)
    (fun _ _ _ hReach hInv hFirst hEnabled =>
      hInv.update (registryInv hReach) hFirst hEnabled)
    hReach

/-
  `stop()` misses no session in a run in which no insert runs
  behind a `stop()` that its connection was accepted before.
-/
theorem noneMissed
    (cfg : ServerConfig)
    (s : Server)
    (history : List RegistryEvent)
    (hReach : WatchedBy cfg InsertsFirst s history) :
    NoneMissed s history := by
  intro k i conn hStop hGet hBefore hOver hInsert hErase
  have hRegistry := registryInv hReach
  have hInv := stopInv hReach
  cases hSession : conn.session with
  | none => exact .inl rfl
  | some object =>
      right
      have hInserted : conn.isInserted = true := by
        cases hPc : conn.pc <;>
          simp_all [Connection.isInserted,
            ConnectionPc.isHandedOver, ConnectionPc.isAdmitting]
      have hRan : .insert i ∈ ran history := by
        rcases List.mem_append.mp
          (hRegistry.inserted i conn hGet hInserted) with
          hRan | hWaits
        · exact hRan
        · exact absurd hWaits hInsert
      have hOut : i ∉ s.activeSessions := by
        rcases hInv.stopped k i hStop hBefore hRan with
          hOut | hWaits
        · exact hOut
        · exact absurd hWaits hErase
      have hShut := hInv.removed i conn hGet hRan hOut
      simp only [Connection.isShut, hSession, Option.all_some]
        at hShut
      exact ⟨⟨conn, hGet, by simp [hSession, hShut]⟩, hOut⟩

------------------------------------------------------------
-- Registered Too Late
------------------------------------------------------------

/-
  A stop that has run stays so, and who was accepted before
  it was not accepted since.
-/
theorem stoppedSince_append
    (hStopped : StoppedSince history i)
    {event : Option RegistryEvent}
    (hOther : event ≠ some (.spawned i)) :
    StoppedSince (history ++ event.toList) i := by
  rcases hStopped with ⟨k, hLt, ⟨hAt, hLess⟩, hBefore⟩
  refine ⟨k, ?_, ⟨?_, ?_⟩, ?_⟩
  · exact hLt.trans_le (by simp)
  · rw [List.getElem?_append_left hLt, hAt]
  · rw [List.take_append_of_le_length (Nat.le_of_lt hLt)]
    exact hLess.trans_le
      ((List.sublist_append_left _ _).count_le _)
  · intro hAfter
    rw [AcceptedAfter,
      List.drop_append_of_le_length (Nat.le_of_lt hLt)]
      at hAfter
    rcases History.pair_sublist hAfter with hOld | ⟨hNew, _⟩
    · exact hBefore hOld
    · exact hOther hNew

/- A session that is registered behind such a stop. -/
structure Late
    (s : Server)
    (history : List RegistryEvent)
    (i : Nat)
    (conn : Connection) : Prop where
  get : s.connections[i]? = some conn
  past : conn.pc.isAdmitting = false
  session : conn.session.isSome = true
  member : i ∈ s.activeSessions
  insert : .insert i ∉ s.strand
  erase : .erase i ∉ s.strand
  stopped : StoppedSince history i

namespace Late

variable {conn : Connection}

/- Its coroutine goes on, and it is still there. -/
theorem next
    (hLate : Late s history i conn)
    {pc : ConnectionPc}
    (hPast : pc.isAdmitting = false)
    (hConnections :
      (s.update cfg a).connections = s.goTo i pc)
    (hStrand : (s.update cfg a).strand = s.strand)
    (hActive :
      (s.update cfg a).activeSessions = s.activeSessions)
    (hEvent : s.registryEvent a ≠ some (.spawned i)) :
    Late (s.update cfg a)
      (history ++ (s.registryEvent a).toList) i
      (conn.goTo pc) := by
  constructor
  case get =>
    rw [hConnections, goTo, List.getElem?_modify_eq, hLate.get]
    rfl
  case past => exact hPast
  case session => exact hLate.session
  case member => exact hActive ▸ hLate.member
  case insert => exact hStrand ▸ hLate.insert
  case erase => exact hStrand ▸ hLate.erase
  case stopped => exact stoppedSince_append hLate.stopped hEvent

/- Once its coroutine has run it is one that was missed. -/
theorem missed
    (hLate : Late s history i conn)
    (hOver : conn.pc.isHandedOver = true) :
    ¬ NoneMissed s history := by
  intro hNone
  rcases hLate.stopped with ⟨k, _, hStop, hBefore⟩
  rcases hNone k i conn hStop hLate.get hBefore hOver
    hLate.insert hLate.erase with hNil | ⟨_, hOut⟩
  · have hSome := hLate.session
    rw [hNil] at hSome
    cases hSome
  · exact hOut hLate.member

/- Its coroutine can run to its end. -/
theorem exists_missed
    (cfg : ServerConfig)
    (hLate : Late s history i conn) :
    ∃ s' history',
      Transition.Reachable
          (Transition.observed (step cfg) registryEvent)
          (s, history) (s', history') ∧
        ¬ NoneMissed s' history' := by
  have hServe :
      ∀ {s : Server} {history : List RegistryEvent}
          {conn : Connection},
        Late s history i conn → conn.pc = .serve →
          ∃ s' history',
            Transition.Reachable
                (Transition.observed (step cfg) registryEvent)
                (s, history) (s', history') ∧
              ¬ NoneMissed s' history' := by
    intro s history conn hLate hPc
    have hNext :
        Late (s.update cfg (.serve i))
          (history ++ (s.registryEvent (.serve i)).toList) i
          (conn.goTo .serving) :=
      hLate.next rfl rfl rfl rfl (by simp [registryEvent])
    refine ⟨_, _, .next (a := .serve i) .start trivial ?_,
      hNext.missed rfl⟩
    exact Transition.observed_eq_some_iff.mpr
      ⟨(step_eq_some_iff _ _ _ _).mpr
        ⟨⟨conn, hLate.get, hPc⟩, rfl⟩, rfl⟩
  cases hPc : conn.pc with
  | openHook =>
      have hNext :
          Late (s.update cfg (.openHook i))
            (history ++ (s.registryEvent (.openHook i)).toList)
            i (conn.goTo .serve) :=
        hLate.next rfl rfl rfl rfl (by simp [registryEvent])
      rcases hServe hNext rfl with
        ⟨s', history', hRest, hMissed⟩
      refine ⟨s', history', .trans ?_ hRest, hMissed⟩
      refine .next (a := .openHook i) .start trivial ?_
      exact Transition.observed_eq_some_iff.mpr
        ⟨(step_eq_some_iff _ _ _ _).mpr
          ⟨⟨conn, hLate.get, hPc⟩, rfl⟩, rfl⟩
  | serve => exact hServe hLate hPc
  | serving | releaseGlobal | releaseIp | closeHook | postErase =>
      exact ⟨s, history, .start, hLate.missed (by rw [hPc]; rfl)⟩
  | «over» =>
      exact ⟨s, history, .start, hLate.missed (by rw [hPc]; rfl)⟩
  | handshaking | releaseSlot | admitGlobal | admitIp
  | postInsert =>
      have hPast := hLate.past
      rw [hPc] at hPast
      cases hPast

end Late

/- Only a connection with a session posts an insert. -/
theorem session_of_insert
    {ok : Server × List RegistryEvent → ServerAction → Prop}
    (hReach : WatchedBy cfg ok s history) :
    ∀ i, .insert i ∈ posted s history →
      ∃ conn ∈ s.connections[i]?,
        conn.session.isSome = true := by
  refine watchedInvariant
    (fun s history =>
      ∀ i, .insert i ∈ posted s history →
        ∃ conn ∈ s.connections[i]?,
          conn.session.isSome = true)
    (by simp [start, posted, ran]) ?_ hReach
  intro s history a hReach hInv _ hEnabled i hMem
  rw [posted_update cfg history hEnabled] at hMem
  rcases History.mem_append_toList.mp hMem with hOld | hNew
  · rcases hInv i hOld with ⟨conn, hGet, hSome⟩
    rcases goes_update cfg hEnabled hGet with
      ⟨conn', hGet', hGoes⟩
    have hPc : conn.pc ≠ .handshaking := by
      intro hPc
      rcases (registryInv hReach).admitted i hOld with
        ⟨other, hOther, hPast⟩
      rw [← Option.some.inj (hGet.symm.trans hOther), hPc]
        at hPast
      cases hPast
    exact ⟨conn', hGet', (hGoes.session_isSome hPc).trans hSome⟩
  · rcases eq_of_posts_insert hNew with rfl
    rcases hEnabled with ⟨conn, hGet, hPc⟩
    refine ⟨conn.goTo .openHook, ?_, ?_⟩
    · simp only [update, goTo, List.getElem?_modify_eq,
        Option.mem_def.mp hGet]
      rfl
    · exact session_isSome
        (Transition.reachable_of_observed hReach) i conn hGet
        (by rw [hPc]; rfl)

/-
  The condition is exact: an insert that breaks it leads to a
  session that was missed.
-/
theorem missed_of_late_insert
    (hReach : Watched cfg s history)
    (hHead : s.strand.head? = some (.insert i))
    (hStopped : StoppedSince history i)
    (hErase : .erase i ∉ s.strand) :
    ∃ s' history',
      Watched cfg s' history' ∧ ¬ NoneMissed s' history' := by
  have hRegistry := registryInv hReach
  rcases List.head?_eq_some_iff.mp hHead with ⟨rest, hStrand⟩
  have hWaits : .insert i ∈ s.strand :=
    List.mem_of_mem_head? hHead
  have hPosted : .insert i ∈ posted s history :=
    List.mem_append_right _ hWaits
  rcases hRegistry.admitted i hPosted with ⟨conn, hGet, hPast⟩
  have hSession : conn.session.isSome = true := by
    rcases session_of_insert hReach i hPosted with
      ⟨other, hOther, hSome⟩
    rw [Option.some.inj (hGet.symm.trans hOther)]
    exact hSome
  have hEnabled : s.Enabled .runTask := by
    simp [Enabled, hStrand]
  have hRest : (s.update cfg .runTask).strand = rest := by
    simp only [update, runTask, hStrand]
  have hLate :
      Late (s.update cfg .runTask)
        (history ++ (s.registryEvent .runTask).toList) i
        conn := by
    constructor
    case get =>
      simp only [update, runTask, hStrand]
      exact hGet
    case past => exact hPast
    case session => exact hSession
    case member => exact mem_of_insert cfg hHead
    case insert =>
      rw [hRest]
      intro hAgain
      apply hRegistry.once (.insert i) (by simp)
      rw [posted, hStrand]
      have hTwice : [.insert i, .insert i] <+ .insert i :: rest :=
        (List.singleton_sublist.mpr hAgain).cons_cons _
      exact hTwice.trans (List.sublist_append_right _ _)
    case erase =>
      rw [hRest]
      intro hMem
      exact hErase (by rw [hStrand]; exact .tail _ hMem)
    case stopped =>
      apply stoppedSince_append hStopped
      simp [registryEvent, hStrand, StrandTask.event]
  rcases hLate.exists_missed cfg with
    ⟨s', history', hAfter, hMissed⟩
  refine ⟨s', history', .trans ?_ hAfter, hMissed⟩
  refine .next (a := .runTask) hReach trivial ?_
  exact Transition.observed_eq_some_iff.mpr
    ⟨(step_eq_some_iff _ _ _ _).mpr ⟨hEnabled, rfl⟩, rfl⟩

/- A session that `stop()` closes. -/
theorem noneMissed_registered :
    ∃ (s : Server) (history : List RegistryEvent),
      WatchedBy {} InsertsFirst s history ∧
        StopRan history 4 ∧ s.IsClosed 0 ∧
          NoneMissed s history := by
  obtain ⟨⟨s, history⟩, hReach, hRun⟩ :=
    Transition.exists_of_runBy
      (Transition.observed (step {}) registryEvent)
      InsertsFirst (start {}, [])
      (handOver 1000 1 ++ seat 0 4096 ++
        [.postInsert 0, .runTask, .openHook 0, .serve 0,
          .closeAllSessions, .runTask])
      (fun x => decide (StopRan x.2 4 ∧ x.1.IsClosed 0))
      (by decide +kernel)
  rcases of_decide_eq_true hRun with ⟨hStop, hClosed⟩
  exact ⟨s, history, hReach, hStop, hClosed,
    noneMissed {} s history hReach⟩

/-
  A handshake is in flight when `stop()` is called and has
  run. Its session is registered afterwards, and served.
-/
theorem stop_misses_handshake :
    ∃ (s : Server) (history : List RegistryEvent),
      Watched {} s history ∧ s.At 0 .serving ∧
        ¬ s.IsClosed 0 ∧ ¬ NoneMissed s history := by
  obtain ⟨⟨s, history⟩, hReach, hRun⟩ :=
    Transition.exists_of_run
      (Transition.observed (step {}) registryEvent)
      (start {}, [])
      (handOver 1000 1 ++ [.closeAllSessions, .runTask] ++
        seat 0 4096 ++
        [.postInsert 0, .runTask, .openHook 0, .serve 0])
      (fun x =>
        decide (x.1.At 0 .serving ∧ ¬ x.1.IsClosed 0 ∧
          StopRan x.2 2 ∧ ¬ AcceptedAfter x.2 2 0 ∧
          x.1.strand = [] ∧
          (∃ conn : Connection, conn ∈ x.1.connections[0]? ∧
            conn.session.isSome = true)))
      (by decide +kernel)
  rcases of_decide_eq_true hRun with
    ⟨hAt, hOpen, hStop, hBefore, hStrand, conn, hGet, hSome⟩
  refine ⟨s, history, hReach, hAt, hOpen, fun hNone => ?_⟩
  have hOver : conn.pc.isHandedOver = true := by
    rw [hAt.pc_eq hGet]
    rfl
  have hEmpty : s.strand = [] := hStrand
  rcases hNone 2 0 conn hStop hGet hBefore hOver
    (by simp [hEmpty]) (by simp [hEmpty]) with
    hNil | ⟨hClosed, _⟩
  · rw [hNil] at hSome
    cases hSome
  · exact hOpen hClosed

end Server

end GrlxRpc
