import GrlxRpc.Server.Admission
import GrlxRpc.Server.Connections
import GrlxRpc.Lib.Observed
import GrlxRpc.Lib.Register

/-
  The registry of sessions: what its strand runs, in what
  order, and what the queries see of it.

  The strand runs what was posted in the order of posting,
  so the tasks that ran and those that wait are one list to
  which every step appends at most one task. An insert is
  posted before the open hook, an erase in the completion
  handler, and `active_sessions_` is what the tasks that ran
  make of the empty set.

  Main declarations:
    * `RegistryEvent` and `Server.registryEvent`
    * `Server.posted` and `Server.posted_update`
    * `Server.RegistryInv` and `Server.registryInv`
    * `Server.Registered` and `Server.registered`
    * `Server.unseen_after_closeAll`
-/

open scoped List

------------------------------------------------------------
-- What Happens To The Registry
------------------------------------------------------------

namespace GrlxRpc

/-
  `accepted` is the end of `accept_raw`, and `openBegan` the
  place of the open hook, whether one is installed or not.
-/
inductive RegistryEvent
  | accepted
  | spawned (i : Nat)
  | openBegan (i : Nat)
  | completionStarted (i : Nat)
  | completionReturned (i : Nat)
  | inserted (i : Nat)
  | erased (i : Nat)
  | queryStarted (q : Nat)
  | snapshot (q : Nat) (sessions : List Nat)
  | closeAllStarted
  | closeAllRan
  deriving DecidableEq

namespace StrandTask

/- What a task does to `active_sessions_`. -/
def op : StrandTask → SetOp Nat
  | insert i => .insert i
  | erase i => .erase i
  | query _ => .keep
  | closeAll => .clear

/- What is seen when the task runs on these sessions. -/
def event (sessions : List Nat) : StrandTask → RegistryEvent
  | insert i => .inserted i
  | erase i => .erased i
  | query q => .snapshot q sessions
  | closeAll => .closeAllRan

end StrandTask

/- The task that ran at an event. -/
def RegistryEvent.task : RegistryEvent → Option StrandTask
  | inserted i => some (.insert i)
  | erased i => some (.erase i)
  | snapshot q _ => some (.query q)
  | closeAllRan => some .closeAll
  | accepted => none
  | spawned _ => none
  | openBegan _ => none
  | completionStarted _ => none
  | completionReturned _ => none
  | queryStarted _ => none
  | closeAllStarted => none

@[simp] theorem StrandTask.task_event
    (task : StrandTask)
    (sessions : List Nat) :
    (task.event sessions).task = some task := by
  cases task <;> rfl

namespace Server

/- What happens to the registry in a step. -/
def registryEvent
    (s : Server) : ServerAction → Option RegistryEvent
  | .accept _ readable =>
      if readable then none else some .accepted
  | .probeIp endpoint now =>
      if s.ipVerdict endpoint.address now = none then
        some .accepted
      else
        none
  | .spawnHandshake _ => some (.spawned s.connections.length)
  | .openHook i => some (.openBegan i)
  | .complete i => some (.completionStarted i)
  | .postErase i => some (.completionReturned i)
  | .startQuery => some (.queryStarted s.queries)
  | .closeAllSessions => some .closeAllStarted
  | .runTask =>
      s.strand.head?.map (StrandTask.event s.activeSessions)
  | _ => none

/- The task that a step posts to `sessions_strand_`. -/
def posts
    (s : Server) : ServerAction → Option StrandTask
  | .postInsert i => some (.insert i)
  | .postErase i => some (.erase i)
  | .startQuery => some (.query s.queries)
  | .closeAllSessions => some .closeAll
  | _ => none

/- The tasks that the strand has run. -/
def ran (history : List RegistryEvent) : List StrandTask :=
  history.filterMap RegistryEvent.task

/- All tasks ever posted, in the order of posting. -/
def posted
    (s : Server)
    (history : List RegistryEvent) : List StrandTask :=
  ran history ++ s.strand

/- The servers of runs whose steps meet `ok`, with history. -/
abbrev WatchedBy
    (cfg : ServerConfig)
    (ok : Server × List RegistryEvent → ServerAction → Prop)
    (s : Server)
    (history : List RegistryEvent) : Prop :=
  Transition.ReachableBy
    (Transition.observed (step cfg) registryEvent) ok
    (start cfg, []) (s, history)

abbrev Watched
    (cfg : ServerConfig)
    (s : Server)
    (history : List RegistryEvent) : Prop :=
  WatchedBy cfg (fun _ _ => True) s history

/- The invariant rule for servers and their histories. -/
theorem watchedInvariant
    {cfg : ServerConfig}
    {ok : Server × List RegistryEvent → ServerAction → Prop}
    (inv : Server → List RegistryEvent → Prop)
    (hStart : inv (start cfg) [])
    (hUpdate :
      ∀ s history a,
        WatchedBy cfg ok s history →
        inv s history →
        ok (s, history) a →
        s.Enabled a →
        inv (s.update cfg a)
          (history ++ (s.registryEvent a).toList))
    {s : Server}
    {history : List RegistryEvent}
    (hReach : WatchedBy cfg ok s history) :
    inv s history := by
  refine Transition.observedInvariant inv hStart ?_ hReach
  intro s history a s' hReach hInv hOk hStep
  rcases (step_eq_some_iff cfg s s' a).mp hStep with
    ⟨hEnabled, rfl⟩
  exact hUpdate s history a hReach hInv hOk hEnabled

/- The history leaves no reachable server out. -/
theorem exists_watched
    {cfg : ServerConfig}
    {s : Server}
    (hReach : Reachable cfg s) :
    ∃ history, Watched cfg s history :=
  Transition.exists_history registryEvent hReach

variable {cfg : ServerConfig}
variable {s : Server}
variable {history : List RegistryEvent}
variable {a : ServerAction}
variable {i : Nat}

------------------------------------------------------------
-- One Step
------------------------------------------------------------

theorem ran_append
    (history : List RegistryEvent)
    (event : Option RegistryEvent) :
    ran (history ++ event.toList) =
      ran history ++ (event.bind RegistryEvent.task).toList := by
  rw [ran, List.filterMap_append]
  cases event with
  | none => rfl
  | some event =>
      cases hTask : event.task <;>
        simp [ran, hTask]

/- The strand runs the first task that waits. -/
theorem ran_runTask
    (history : List RegistryEvent)
    {task : StrandTask}
    {rest : List StrandTask}
    (hStrand : s.strand = task :: rest) :
    ran (history ++ (s.registryEvent .runTask).toList) =
      ran history ++ [task] := by
  have hTask :
      (s.registryEvent .runTask).bind RegistryEvent.task =
        some task := by
    simp [registryEvent, hStrand]
  rw [ran_append, hTask, Option.toList_some]

/- Only the strand's own step runs a task. -/
theorem event_task_eq_none
    (s : Server)
    (hNot : a ≠ .runTask) :
    (s.registryEvent a).bind RegistryEvent.task = none := by
  cases a with
  | runTask => exact absurd rfl hNot
  | accept endpoint readable => cases readable <;> rfl
  | probeIp endpoint now =>
      simp only [registryEvent]
      split <;> rfl
  | _ => rfl

theorem strand_update
    (cfg : ServerConfig)
    (s : Server)
    (hNot : a ≠ .runTask) :
    (s.update cfg a).strand =
      s.strand ++ (s.posts a).toList := by
  cases a with
  | runTask => exact absurd rfl hNot
  | probeGlobal endpoint =>
      simp only [update, posts]
      split <;> simp
  | checkHandshakes endpoint =>
      simp only [update, posts]
      split <;> simp
  | _ => simp [update, posts]

/- A step appends to the tasks what it posts. -/
theorem posted_update
    (cfg : ServerConfig)
    (history : List RegistryEvent)
    (hEnabled : s.Enabled a) :
    posted (s.update cfg a)
        (history ++ (s.registryEvent a).toList) =
      posted s history ++ (s.posts a).toList := by
  by_cases hRun : a = .runTask
  · subst hRun
    cases hStrand : s.strand with
    | nil => exact absurd hStrand hEnabled
    | cons task rest =>
        have hRest : (s.update cfg .runTask).strand = rest := by
          cases task <;>
            simp only [update, runTask, hStrand]
        rw [posted, ran_runTask history hStrand, hRest]
        simp [posted, hStrand, posts]
  · rw [posted, ran_append, event_task_eq_none s hRun,
      strand_update cfg s hRun]
    simp [posted]

/- The set is what the tasks that ran made of it. -/
theorem activeSessions_update
    (hMembers :
      s.activeSessions =
        register ((ran history).map StrandTask.op))
    (hEnabled : s.Enabled a) :
    (s.update cfg a).activeSessions =
      register
        ((ran (history ++ (s.registryEvent a).toList)).map
          StrandTask.op) := by
  by_cases hRun : a = .runTask
  · subst hRun
    cases hStrand : s.strand with
    | nil => exact absurd hStrand hEnabled
    | cons task rest =>
        rw [ran_runTask history hStrand, List.map_append]
        simp only [List.map_cons, List.map_nil]
        rw [Register.register_concat, ← hMembers]
        cases task <;>
          simp only [update, runTask, hStrand, StrandTask.op,
            SetOp.apply]
  · rw [ran_append, event_task_eq_none s hRun]
    simp only [Option.toList_none, List.append_nil]
    rw [← hMembers]
    cases a with
    | runTask => exact absurd rfl hRun
    | probeGlobal endpoint =>
        simp only [update]
        split <;> rfl
    | checkHandshakes endpoint =>
        simp only [update]
        split <;> rfl
    | _ => rfl

theorem queries_update
    (cfg : ServerConfig)
    (s : Server)
    (a : ServerAction) :
    s.queries ≤ (s.update cfg a).queries := by
  cases a with
  | runTask =>
      simp only [update, runTask]
      split <;> exact Nat.le_refl _
  | probeGlobal endpoint =>
      simp only [update]
      split <;> exact Nat.le_refl _
  | checkHandshakes endpoint =>
      simp only [update]
      split <;> exact Nat.le_refl _
  | startQuery => exact Nat.le_succ _
  | _ => exact Nat.le_refl _

------------------------------------------------------------
-- Which Step Makes An Event
------------------------------------------------------------

/- No task ran at the events of the other steps. -/
theorem ne_runTask
    {event : RegistryEvent}
    (hEvent : s.registryEvent a = some event)
    (hNone : event.task = none) :
    a ≠ .runTask := by
  rintro rfl
  simp only [registryEvent, Option.map_eq_some_iff] at hEvent
  rcases hEvent with ⟨first, _, rfl⟩
  rw [StrandTask.task_event] at hNone
  cases hNone

theorem eq_of_openBegan
    (hEvent : s.registryEvent a = some (.openBegan i)) :
    a = .openHook i := by
  cases a with
  | openHook j => simpa [registryEvent] using hEvent
  | runTask => exact absurd rfl (ne_runTask hEvent rfl)
  | _ => simp [registryEvent] at hEvent

theorem eq_of_completionReturned
    (hEvent :
      s.registryEvent a = some (.completionReturned i)) :
    a = .postErase i := by
  cases a with
  | postErase j => simpa [registryEvent] using hEvent
  | runTask => exact absurd rfl (ne_runTask hEvent rfl)
  | _ => simp [registryEvent] at hEvent

theorem eq_of_queryStarted
    {q : Nat}
    (hEvent : s.registryEvent a = some (.queryStarted q)) :
    a = .startQuery ∧ q = s.queries := by
  cases a with
  | startQuery =>
      simp only [registryEvent, Option.some.injEq,
        RegistryEvent.queryStarted.injEq] at hEvent
      exact ⟨rfl, hEvent.symm⟩
  | runTask => exact absurd rfl (ne_runTask hEvent rfl)
  | _ => simp [registryEvent] at hEvent

/- An event at which a task ran is the strand's step. -/
theorem eq_of_task
    {event : RegistryEvent}
    {task : StrandTask}
    (hEvent : s.registryEvent a = some event)
    (hTask : event.task = some task) :
    a = .runTask ∧ s.strand.head? = some task ∧
      event = task.event s.activeSessions := by
  by_cases hRun : a = .runTask
  · subst hRun
    simp only [registryEvent, Option.map_eq_some_iff] at hEvent
    rcases hEvent with ⟨first, hHead, rfl⟩
    rw [StrandTask.task_event] at hTask
    rcases Option.some.inj hTask with rfl
    exact ⟨rfl, hHead, rfl⟩
  · have hNone := event_task_eq_none s hRun
    rw [hEvent, Option.bind_some, hTask] at hNone
    cases hNone

/- Who posts a task. -/
theorem eq_of_posts_insert
    (hPosts : s.posts a = some (.insert i)) :
    a = .postInsert i := by
  cases a <;> simp_all [posts]

theorem eq_of_posts_erase
    (hPosts : s.posts a = some (.erase i)) :
    a = .postErase i := by
  cases a <;> simp_all [posts]

theorem eq_of_posts_query
    {q : Nat}
    (hPosts : s.posts a = some (.query q)) :
    a = .startQuery ∧ q = s.queries := by
  cases a <;> simp_all [posts]

end Server

------------------------------------------------------------
-- The Invariant
------------------------------------------------------------

/- Has the coroutine not yet posted its insert? -/
def ConnectionPc.isAdmitting : ConnectionPc → Bool
  | handshaking => true
  | releaseSlot => true
  | admitGlobal => true
  | admitIp => true
  | postInsert => true
  | openHook => false
  | serve => false
  | serving => false
  | releaseGlobal => false
  | releaseIp => false
  | closeHook => false
  | postErase => false
  | .over => false

/- Is the completion handler between its two ends? -/
def ConnectionPc.isCompleting : ConnectionPc → Bool
  | releaseGlobal => true
  | releaseIp => true
  | closeHook => true
  | postErase => true
  | handshaking => false
  | releaseSlot => false
  | admitGlobal => false
  | admitIp => false
  | postInsert => false
  | openHook => false
  | serve => false
  | serving => false
  | .over => false

namespace Connection

/- Has the insert of its session been posted? -/
def isInserted (conn : Connection) : Bool :=
  match conn.pc with
  | .over => conn.session.isSome
  | pc => !pc.isAdmitting

theorem Goes.isAdmitting
    {i : Nat}
    {conn conn' : Connection}
    {a : ServerAction}
    (hGoes : conn.Goes i a conn')
    (hPast : conn.pc.isAdmitting = false) :
    conn'.pc.isAdmitting = false := by
  cases hGoes with
  | stays => exact hPast
  | closed => exact hPast
  | finishHandshake hPc => simp [hPc, ConnectionPc.isAdmitting] at hPast
  | releaseSlot hPc => simp [hPc, ConnectionPc.isAdmitting] at hPast
  | admitGlobal hPc => simp [hPc, ConnectionPc.isAdmitting] at hPast
  | admitIp hPc => simp [hPc, ConnectionPc.isAdmitting] at hPast
  | _ => rfl

/- Only its own step makes an insert posted. -/
theorem Goes.isInserted
    {i : Nat}
    {conn conn' : Connection}
    {a : ServerAction}
    (hGoes : conn.Goes i a conn')
    (hInserted : conn'.isInserted = true) :
    conn.isInserted = true ∨ a = .postInsert i := by
  cases hGoes with
  | stays => exact .inl hInserted
  | closed =>
      left
      simpa [Connection.isInserted] using hInserted
  | releaseSlot hPc =>
      cases hSession : conn.session <;>
        simp [Connection.isInserted, Server.afterSlot,
          hSession, ConnectionPc.isAdmitting] at hInserted
  | postInsert => exact .inr rfl
  | finishHandshake | admitGlobal | admitIp =>
      simp [Connection.isInserted, ConnectionPc.isAdmitting]
        at hInserted
  | openHook hPc | serve hPc | complete hPc | releaseGlobal hPc
  | releaseIp hPc | closeHook hPc | postErase hPc =>
      left
      simp [Connection.isInserted, hPc,
        ConnectionPc.isAdmitting]

/- Only `dispatch_requests`' end starts the handler. -/
theorem Goes.isCompleting
    {i : Nat}
    {conn conn' : Connection}
    {a : ServerAction}
    (hGoes : conn.Goes i a conn')
    (hCompleting : conn'.pc.isCompleting = true) :
    conn.pc.isCompleting = true ∨ a = .complete i := by
  cases hGoes with
  | stays => exact .inl hCompleting
  | closed => exact .inl hCompleting
  | complete => exact .inr rfl
  | releaseGlobal hPc | releaseIp hPc | closeHook hPc =>
      left
      rw [hPc]
      rfl
  | releaseSlot hPc =>
      cases hSession : conn.session <;>
        simp [Server.afterSlot, hSession,
          ConnectionPc.isCompleting] at hCompleting
  | _ => simp [ConnectionPc.isCompleting] at hCompleting

/- A coroutine that is over stays so. -/
theorem Goes.over
    {i : Nat}
    {conn conn' : Connection}
    {a : ServerAction}
    (hGoes : conn.Goes i a conn')
    (hOver : conn.pc = .over) :
    conn'.pc = .over := by
  cases hGoes <;> simp_all

end Connection

namespace Server

variable {cfg : ServerConfig}
variable {s : Server}
variable {history : List RegistryEvent}
variable {a : ServerAction}
variable {i : Nat}

/-
  How the tasks posted so far, the coroutines and the history
  fit together. No task but `close_all_sessions` is posted
  twice, and no insert behind its erase.
-/
structure RegistryInv
    (s : Server)
    (history : List RegistryEvent) : Prop where
  members :
    s.activeSessions =
      register ((ran history).map StrandTask.op)
  admitted :
    ∀ i, .insert i ∈ posted s history →
      ∃ conn ∈ s.connections[i]?, conn.pc.isAdmitting = false
  inserted :
    ∀ i conn, s.connections[i]? = some conn →
      conn.isInserted = true → .insert i ∈ posted s history
  completing :
    ∀ i conn, s.connections[i]? = some conn →
      conn.pc.isCompleting = true →
        .completionStarted i ∈ history
  returned :
    ∀ i, .completionReturned i ∈ history →
      .erase i ∈ posted s history
  erased :
    ∀ i, .erase i ∈ posted s history →
      s.At i .over ∧ .completionStarted i ∈ history
  queries :
    ∀ q, .query q ∈ posted s history → q < s.queries
  once :
    ∀ task, task ≠ .closeAll →
      ¬ [task, task] <+ posted s history
  insertFirst :
    ∀ i, ¬ [.erase i, .insert i] <+ posted s history
  opened :
    ∀ i, .openBegan i ∈ history → .insert i ∈ posted s history
  askedOpen :
    ∀ i q, [.openBegan i, .queryStarted q] <+ history →
      [.insert i, .query q] <+ posted s history
  askedReturned :
    ∀ i q,
      [.completionReturned i, .queryStarted q] <+ history →
        [.erase i, .query q] <+ posted s history

namespace RegistryInv

theorem start (cfg : ServerConfig) :
    RegistryInv (Server.start cfg) [] := by
  constructor <;> simp [Server.start, posted, ran, register]

/- A coroutine past its insert stays past it. -/
theorem admitted_update
    (hInv : RegistryInv s history)
    (hEnabled : s.Enabled a)
    (i : Nat)
    (hMem : .insert i ∈ posted s history ++ (s.posts a).toList) :
    ∃ conn ∈ (s.update cfg a).connections[i]?,
      conn.pc.isAdmitting = false := by
  rcases History.mem_append_toList.mp hMem with hOld | hNew
  · rcases hInv.admitted i hOld with ⟨conn, hGet, hPast⟩
    rcases goes_update cfg hEnabled hGet with
      ⟨conn', hGet', hGoes⟩
    exact ⟨conn', hGet', hGoes.isAdmitting hPast⟩
  · rcases eq_of_posts_insert hNew with rfl
    rcases hEnabled with ⟨conn, hGet, hPc⟩
    refine ⟨conn.goTo .openHook, ?_, rfl⟩
    simp only [update, goTo, List.getElem?_modify_eq,
      Option.mem_def.mp hGet]
    rfl

theorem inserted_update
    (hInv : RegistryInv s history)
    (hEnabled : s.Enabled a)
    (i : Nat)
    (conn' : Connection)
    (hGet : (s.update cfg a).connections[i]? = some conn')
    (hInserted : conn'.isInserted = true) :
    .insert i ∈ posted s history ++ (s.posts a).toList := by
  rcases connection_cases cfg hEnabled hGet with
    ⟨conn, hOld, hGoes⟩ | ⟨_, endpoint, _, rfl⟩
  · rcases hGoes.isInserted hInserted with hBefore | rfl
    · exact History.mem_append_toList.mpr
        (.inl (hInv.inserted i conn hOld hBefore))
    · exact History.mem_append_toList.mpr (.inr rfl)
  · cases hInserted

theorem completing_update
    (hInv : RegistryInv s history)
    (hEnabled : s.Enabled a)
    (i : Nat)
    (conn' : Connection)
    (hGet : (s.update cfg a).connections[i]? = some conn')
    (hCompleting : conn'.pc.isCompleting = true) :
    .completionStarted i ∈
      history ++ (s.registryEvent a).toList := by
  rcases connection_cases cfg hEnabled hGet with
    ⟨conn, hOld, hGoes⟩ | ⟨_, endpoint, _, rfl⟩
  · rcases hGoes.isCompleting hCompleting with hBefore | rfl
    · exact History.mem_append_toList.mpr
        (.inl (hInv.completing i conn hOld hBefore))
    · exact History.mem_append_toList.mpr (.inr rfl)
  · cases hCompleting

theorem returned_update
    (hInv : RegistryInv s history)
    (i : Nat)
    (hMem :
      .completionReturned i ∈
        history ++ (s.registryEvent a).toList) :
    .erase i ∈ posted s history ++ (s.posts a).toList := by
  rcases History.mem_append_toList.mp hMem with hOld | hNew
  · exact History.mem_append_toList.mpr
      (.inl (hInv.returned i hOld))
  · rcases eq_of_completionReturned hNew with rfl
    exact History.mem_append_toList.mpr (.inr rfl)

theorem erased_update
    (hInv : RegistryInv s history)
    (hEnabled : s.Enabled a)
    (i : Nat)
    (hMem : .erase i ∈ posted s history ++ (s.posts a).toList) :
    (s.update cfg a).At i .over ∧
      .completionStarted i ∈
        history ++ (s.registryEvent a).toList := by
  rcases History.mem_append_toList.mp hMem with hOld | hNew
  · rcases hInv.erased i hOld with
      ⟨⟨conn, hGet, hPc⟩, hStarted⟩
    rcases goes_update cfg hEnabled hGet with
      ⟨conn', hGet', hGoes⟩
    exact ⟨⟨conn', hGet', hGoes.over hPc⟩,
      List.mem_append_left _ hStarted⟩
  · rcases eq_of_posts_erase hNew with rfl
    rcases hEnabled with ⟨conn, hGet, hPc⟩
    refine ⟨⟨conn.goTo .over, ?_, rfl⟩,
      List.mem_append_left _ (hInv.completing i conn hGet ?_)⟩
    · simp only [update, goTo, List.getElem?_modify_eq,
        Option.mem_def.mp hGet]
      rfl
    · rw [hPc]
      rfl

theorem queries_step
    (hInv : RegistryInv s history)
    (q : Nat)
    (hMem : .query q ∈ posted s history ++ (s.posts a).toList) :
    q < (s.update cfg a).queries := by
  rcases History.mem_append_toList.mp hMem with hOld | hNew
  · exact Nat.lt_of_lt_of_le (hInv.queries q hOld)
      (queries_update cfg s a)
  · rcases eq_of_posts_query hNew with ⟨rfl, rfl⟩
    exact Nat.lt_succ_self _

/- A task that is posted now was not posted before. -/
theorem not_mem_of_posts
    (hInv : RegistryInv s history)
    (hEnabled : s.Enabled a)
    {task : StrandTask}
    (hOther : task ≠ .closeAll)
    (hPosts : s.posts a = some task) :
    task ∉ posted s history := by
  intro hMem
  cases task with
  | insert i =>
      rcases eq_of_posts_insert hPosts with rfl
      rcases hInv.admitted i hMem with ⟨conn, hGet, hPast⟩
      rw [At.pc_eq hEnabled hGet] at hPast
      cases hPast
  | erase i =>
      rcases eq_of_posts_erase hPosts with rfl
      rcases (hInv.erased i hMem).1 with ⟨conn, hGet, hPc⟩
      rw [At.pc_eq hEnabled hGet] at hPc
      cases hPc
  | query q =>
      rcases eq_of_posts_query hPosts with ⟨rfl, rfl⟩
      exact Nat.lt_irrefl _ (hInv.queries _ hMem)
  | closeAll => exact hOther rfl

theorem once_update
    (hInv : RegistryInv s history)
    (hEnabled : s.Enabled a)
    (task : StrandTask)
    (hOther : task ≠ .closeAll) :
    ¬ [task, task] <+
      posted s history ++ (s.posts a).toList := by
  intro hSub
  rcases History.pair_sublist hSub with hOld | ⟨hNew, hOld⟩
  · exact hInv.once task hOther hOld
  · exact hInv.not_mem_of_posts hEnabled hOther hNew hOld

theorem insertFirst_update
    (hInv : RegistryInv s history)
    (hEnabled : s.Enabled a)
    (i : Nat) :
    ¬ [.erase i, .insert i] <+
      posted s history ++ (s.posts a).toList := by
  intro hSub
  rcases History.pair_sublist hSub with hOld | ⟨hNew, hOld⟩
  · exact hInv.insertFirst i hOld
  · rcases eq_of_posts_insert hNew with rfl
    rcases (hInv.erased i hOld).1 with ⟨conn, hGet, hPc⟩
    rw [At.pc_eq hEnabled hGet] at hPc
    cases hPc

theorem opened_update
    (hInv : RegistryInv s history)
    (hEnabled : s.Enabled a)
    (i : Nat)
    (hMem :
      .openBegan i ∈ history ++ (s.registryEvent a).toList) :
    .insert i ∈ posted s history := by
  rcases History.mem_append_toList.mp hMem with hOld | hNew
  · exact hInv.opened i hOld
  · rcases eq_of_openBegan hNew with rfl
    rcases hEnabled with ⟨conn, hGet, hPc⟩
    apply hInv.inserted i conn hGet
    simp [Connection.isInserted, hPc, ConnectionPc.isAdmitting]

/-
  What was posted before an event that precedes the start of
  a query is before that query.
-/
theorem asked_update
    {event : RegistryEvent}
    {task : StrandTask}
    {q : Nat}
    (hOld :
      [event, .queryStarted q] <+ history →
        [task, .query q] <+ posted s history)
    (hPosted : event ∈ history → task ∈ posted s history)
    (hSub :
      [event, .queryStarted q] <+
        history ++ (s.registryEvent a).toList) :
    [task, .query q] <+
      posted s history ++ (s.posts a).toList := by
  rcases History.pair_sublist hSub with
    hBefore | ⟨hNew, hEvent⟩
  · exact History.sublist_append (hOld hBefore) _
  · rcases eq_of_queryStarted hNew with ⟨rfl, rfl⟩
    exact History.pair_concat (hPosted hEvent)

/- Every step keeps the invariant. -/
theorem update
    (hInv : RegistryInv s history)
    (hEnabled : s.Enabled a) :
    RegistryInv (s.update cfg a)
      (history ++ (s.registryEvent a).toList) := by
  have hPosted := posted_update cfg history hEnabled
  constructor
  case members =>
    exact activeSessions_update hInv.members hEnabled
  case admitted =>
    rw [hPosted]
    exact hInv.admitted_update hEnabled
  case inserted =>
    rw [hPosted]
    exact hInv.inserted_update hEnabled
  case completing => exact hInv.completing_update hEnabled
  case returned =>
    rw [hPosted]
    exact hInv.returned_update
  case erased =>
    rw [hPosted]
    exact hInv.erased_update hEnabled
  case queries =>
    rw [hPosted]
    exact hInv.queries_step
  case once =>
    rw [hPosted]
    exact hInv.once_update hEnabled
  case insertFirst =>
    rw [hPosted]
    exact hInv.insertFirst_update hEnabled
  case opened =>
    rw [hPosted]
    exact fun i hMem => List.mem_append_left _
      (hInv.opened_update hEnabled i hMem)
  case askedOpen =>
    rw [hPosted]
    exact fun i q => asked_update (hInv.askedOpen i q)
      (hInv.opened i)
  case askedReturned =>
    rw [hPosted]
    exact fun i q => asked_update (hInv.askedReturned i q)
      (hInv.returned i)

end RegistryInv

theorem registryInv
    {ok : Server × List RegistryEvent → ServerAction → Prop}
    (hReach : WatchedBy cfg ok s history) :
    RegistryInv s history :=
  watchedInvariant RegistryInv (.start cfg)
    (fun _ _ _ _ hInv _ hEnabled => hInv.update hEnabled)
    hReach

------------------------------------------------------------
-- What Queries See
------------------------------------------------------------

/-
  A session is in the snapshot of every query started after
  its open hook began, unless its completion handler has
  started or a `close_all_sessions` ran behind its insert. It
  is in none that was started after its completion handler
  returned, and it is never inserted behind its erase.
-/
structure Registered (history : List RegistryEvent) : Prop where
  seen :
    ∀ i q sessions,
      [.openBegan i, .queryStarted q, .snapshot q sessions] <+
          history →
        i ∈ sessions ∨
          [.completionStarted i, .snapshot q sessions] <+
            history ∨
          [.inserted i, .closeAllRan, .snapshot q sessions] <+
            history
  unseen :
    ∀ i q sessions,
      [.completionReturned i, .queryStarted q,
          .snapshot q sessions] <+ history →
        i ∉ sessions
  insertFirst : ∀ i, ¬ [.erased i, .inserted i] <+ history

/- An insert before a clear was so when the two ran. -/
theorem inserted_closeAllRan
    (hSub :
      [.insert i, .clear] <+
        (ran history).map StrandTask.op) :
    [.inserted i, .closeAllRan] <+ history := by
  rw [ran, List.map_filterMap] at hSub
  rcases History.pair_of_filterMap hSub with
    ⟨first, last, hPair, hFirst, hLast⟩
  have hInserted : first = .inserted i := by
    cases first <;>
      simp_all [RegistryEvent.task, StrandTask.op]
  have hRan : last = .closeAllRan := by
    cases last <;>
      simp_all [RegistryEvent.task, StrandTask.op]
  exact hInserted ▸ hRan ▸ hPair

theorem erase_insert_of_ops
    (hSub :
      [.erase i, .insert i] <+
        (ran history).map StrandTask.op) :
    [.erase i, .insert i] <+ ran history := by
  rw [← List.filterMap_eq_map] at hSub
  rcases History.pair_of_filterMap hSub with
    ⟨first, last, hPair, hFirst, hLast⟩
  have hErase : first = .erase i := by
    cases first <;> simp_all [StrandTask.op]
  have hInsert : last = .insert i := by
    cases last <;> simp_all [StrandTask.op]
  exact hErase ▸ hInsert ▸ hPair

namespace RegistryInv

/- What was posted before a query ran before it. -/
theorem ran_before
    (hInv : RegistryInv s history)
    {task : StrandTask}
    {q : Nat}
    (hHead : s.strand.head? = some (.query q))
    (hBefore : [task, .query q] <+ posted s history) :
    task ∈ ran history := by
  rcases List.head?_eq_some_iff.mp hHead with ⟨rest, hStrand⟩
  have hOnce := hInv.once (.query q) (by simp)
  rw [posted, hStrand] at hBefore hOnce
  exact Register.mem_of_before hBefore hOnce

/- A query that runs sees the session, or why it does not. -/
theorem seen
    (hInv : RegistryInv s history)
    {q : Nat}
    (hHead : s.strand.head? = some (.query q))
    (hAsked : [.openBegan i, .queryStarted q] <+ history) :
    i ∈ s.activeSessions ∨
      .completionStarted i ∈ history ∨
      [.inserted i, .closeAllRan] <+ history := by
  have hRan : .insert i ∈ ran history :=
    hInv.ran_before hHead (hInv.askedOpen i q hAsked)
  have hOp : .insert i ∈ (ran history).map StrandTask.op :=
    List.mem_map_of_mem (f := StrandTask.op) hRan
  rw [hInv.members]
  rcases Register.mem_or_removed hOp with
    hMem | hErased | hCleared
  · exact .inl hMem
  · right; left
    have hErase :
        .erase i ∈ (ran history).map StrandTask.op :=
      hErased.subset (by simp)
    rcases List.mem_map.mp hErase with ⟨task, hTask, hOp⟩
    have hTask' : task = .erase i := by
      cases task <;> simp_all [StrandTask.op]
    rw [hTask'] at hTask
    exact (hInv.erased i (List.mem_append_left _ hTask)).2
  · right; right
    exact inserted_closeAllRan hCleared

theorem unseen
    (hInv : RegistryInv s history)
    (hErase : .erase i ∈ ran history) :
    i ∉ s.activeSessions := by
  rw [hInv.members]
  apply Register.not_mem_of_erase
  · exact List.mem_map_of_mem (f := StrandTask.op) hErase
  · intro hSub
    exact hInv.insertFirst i
      ((erase_insert_of_ops hSub).trans
        (List.sublist_append_left _ _))

end RegistryInv

/- The registry is ordered in every run. -/
theorem registered
    (cfg : ServerConfig)
    (s : Server)
    (history : List RegistryEvent)
    (hReach : Watched cfg s history) :
    Registered history := by
  refine watchedInvariant (fun _ => Registered) ?_ ?_ hReach
  · constructor <;> simp
  · intro s history a hReach hOld _ hEnabled
    have hInv := registryInv hReach
    constructor
    case seen =>
      intro i q sessions hSub
      rcases History.triple_sublist hSub with
        hBefore | ⟨hNew, hAsked⟩
      · rcases hOld.seen i q sessions hBefore with
          hMem | hStarted | hCleared
        · exact .inl hMem
        · exact .inr (.inl (History.sublist_append hStarted _))
        · exact .inr (.inr (History.sublist_append hCleared _))
      · rcases eq_of_task hNew rfl with ⟨rfl, hHead, hEvent⟩
        injection hEvent with _ hSessions
        subst hSessions
        rw [hNew]
        rcases hInv.seen hHead hAsked with
          hMem | hStarted | hCleared
        · exact .inl hMem
        · exact .inr (.inl (History.pair_concat hStarted))
        · exact .inr (.inr (History.sublist_concat hCleared))
    case unseen =>
      intro i q sessions hSub
      rcases History.triple_sublist hSub with
        hBefore | ⟨hNew, hAsked⟩
      · exact hOld.unseen i q sessions hBefore
      · rcases eq_of_task hNew rfl with ⟨rfl, hHead, hEvent⟩
        injection hEvent with _ hSessions
        rw [hSessions]
        apply hInv.unseen
        exact hInv.ran_before hHead
          (hInv.askedReturned i q hAsked)
    case insertFirst =>
      intro i hSub
      have hNext :
          RegistryInv (s.update cfg a)
            (history ++ (s.registryEvent a).toList) :=
        hInv.update hEnabled
      have hRan := hSub.filterMap RegistryEvent.task
      exact hNext.insertFirst i
        (hRan.trans (List.sublist_append_left _ _))

/-
  The insert has run and the strand clears the set before the
  coroutine comes to its open hook: the session is in no
  snapshot, although its completion handler has not started
  and no `close_all_sessions` ran since the hook began.
-/
def clearedBeforeHook : List ServerAction :=
  handOver 1000 1 ++ seat 0 4096 ++
    [.postInsert 0, .closeAllSessions, .runTask, .runTask,
      .openHook 0, .startQuery, .runTask]

theorem unseen_after_closeAll :
    ∃ (s : Server) (history : List RegistryEvent),
      Watched {} s history ∧
        [.openBegan 0, .queryStarted 0, .snapshot 0 []] <+
            history ∧
          .completionStarted 0 ∉ history ∧
          ¬ [.openBegan 0, .closeAllRan] <+ history := by
  obtain ⟨⟨s, history⟩, hReach, hRun⟩ :=
    Transition.exists_of_run
      (Transition.observed (step {}) registryEvent)
      (start {}, []) clearedBeforeHook
      (fun x =>
        decide
          ([.openBegan 0, .queryStarted 0, .snapshot 0 []] <+
              x.2 ∧
            .completionStarted 0 ∉ x.2 ∧
            ¬ [.openBegan 0, .closeAllRan] <+ x.2))
      (by decide +kernel)
  exact ⟨s, history, hReach, of_decide_eq_true hRun⟩

/- A session that a query sees. -/
theorem registered_seen :
    ∃ (s : Server) (history : List RegistryEvent),
      Watched {} s history ∧
        [.openBegan 0, .queryStarted 0, .snapshot 0 [0]] <+
            history ∧
          Registered history := by
  obtain ⟨⟨s, history⟩, hReach, hRun⟩ :=
    Transition.exists_of_run
      (Transition.observed (step {}) registryEvent)
      (start {}, [])
      (handOver 1000 1 ++ seat 0 4096 ++
        [.postInsert 0, .openHook 0, .startQuery, .runTask,
          .runTask])
      (fun x =>
        decide
          ([.openBegan 0, .queryStarted 0, .snapshot 0 [0]] <+
            x.2))
      (by decide +kernel)
  exact ⟨s, history, hReach, of_decide_eq_true hRun,
    registered {} s history hReach⟩

end Server

end GrlxRpc
