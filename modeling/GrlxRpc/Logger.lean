import GrlxRpc.Wire.Frame
import GrlxRpc.Lib.Transition

/-
  The asynchronous logger: `log()` queues entries on a
  strand, and one coroutine flushes them whenever its timer
  expires.

  An entry pushed into an empty queue sets the timer anew,
  which cancels the wait the coroutine is suspended in. The
  coroutine takes a cancelled wait for a shutdown and exits,
  and no later entry is flushed.

  Main declarations:
    * `AsyncLogger`, `LoggerAction`
    * `AsyncLogger.Ordered` and `AsyncLogger.ordered`
    * `AsyncLogger.KeepsWait`
    * `AsyncLogger.NothingLost` and `AsyncLogger.nothingLost`
    * `AsyncLogger.cancelled_loses`
-/

------------------------------------------------------------
-- Entries
------------------------------------------------------------

namespace GrlxRpc

inductive LogLevel
  | debug
  | info
  | warning
  | error
  deriving DecidableEq, Repr

namespace LogLevel

/- The value of the enumerator. -/
def value : LogLevel → Nat
  | debug => 0
  | info => 1
  | warning => 2
  | error => 3

theorem value_le_error (level : LogLevel) :
    level.value ≤ error.value := by
  cases level <;> decide

end LogLevel

structure LogEntry where
  level : LogLevel
  message : StdString
  deriving DecidableEq

/- The function of `spdlog` that writes an entry. -/
inductive SpdlogCall
  | debug (message : StdString)
  | info (message : StdString)
  | warn (message : StdString)
  | error (message : StdString)
  deriving DecidableEq

/- The `switch` of `flush_pending_logs`. -/
def LogEntry.emit (entry : LogEntry) : SpdlogCall :=
  match entry.level with
  | .debug => .debug entry.message
  | .info => .info entry.message
  | .warning => .warn entry.message
  | .error => .error entry.message

------------------------------------------------------------
-- The Logger
------------------------------------------------------------

/-
  Work posted to `strand_`: the coroutine of a `log()` call,
  that of a `flush()` call, or that of `log_error_async`,
  which calls `log()` on the strand itself.
-/
inductive LoggerTask
  | push (entry : LogEntry)
  | flush
  | logError (message : StdString)
  deriving DecidableEq

/- How an `async_wait` completed. -/
inductive WaitResult
  | expired
  | operationAborted
  | failed
  deriving DecidableEq, Repr

/-
  Where `log_worker` is. In `looping` it runs and is about
  to test `is_stopped_`.
-/
inductive LogWorker
  | unstarted
  | spawned
  | looping
  | waiting
  | woken (result : WaitResult)
  | exited
  deriving DecidableEq, Repr

namespace LogWorker

/- Cancel the wait on `flush_timer_`, if one is outstanding. -/
def cancelWait : LogWorker → LogWorker
  | waiting => woken .operationAborted
  | unstarted => unstarted
  | spawned => spawned
  | looping => looping
  | woken result => woken result
  | exited => exited

/- Is the worker in its loop, or about to enter it? -/
def stays : LogWorker → Bool
  | unstarted => true
  | spawned => true
  | looping => true
  | waiting => true
  | woken .expired => true
  | woken .failed => true
  | woken .operationAborted => false
  | exited => false

end LogWorker

/-
  `accepted` has the entries that were pushed, in order, and
  `emitted` what `spdlog` was called with: histories.
-/
structure AsyncLogger where
  minLevel : LogLevel
  strand : List LoggerTask
  pendingLogs : List LogEntry
  isStopped : Bool
  worker : LogWorker
  accepted : List LogEntry
  emitted : List SpdlogCall

inductive LoggerAction
  -- the interface, from any thread
  | start
  | log (level : LogLevel) (message : StdString)
  | logErrorAsync (message : StdString)
  | flush
  | stop
  -- the strand and the timer
  | runStrand (task : LoggerTask) (rest : List LoggerTask)
  | expire
  | waitFails
  -- `log_worker`
  | enter
  | testStopped
  | resume (result : WaitResult)
  deriving DecidableEq

/- Is this a step of the worker or of its timer? -/
def LoggerAction.isWorker : LoggerAction → Bool
  | expire => true
  | waitFails => true
  | enter => true
  | testStopped => true
  | resume _ => true
  | start => false
  | log _ _ => false
  | logErrorAsync _ => false
  | flush => false
  | stop => false
  | runStrand _ _ => false

namespace AsyncLogger

/- A logger as its constructor leaves it. -/
def make (minLevel : LogLevel) : AsyncLogger where
  minLevel := minLevel
  strand := []
  pendingLogs := []
  isStopped := false
  worker := .unstarted
  accepted := []
  emitted := []

/- The loop of `flush_pending_logs`. -/
def drain :
    List LogEntry → List SpdlogCall → List SpdlogCall
  | [], emitted => emitted
  | entry :: rest, emitted =>
      drain rest (emitted ++ [entry.emit])

theorem drain_eq
    (pendingLogs : List LogEntry)
    (emitted : List SpdlogCall) :
    drain pendingLogs emitted =
      emitted ++ pendingLogs.map LogEntry.emit := by
  induction pendingLogs generalizing emitted with
  | nil => simp [drain]
  | cons entry rest ih => simp [drain, ih]

def flushPendingLogs (s : AsyncLogger) : AsyncLogger :=
  { s with
    pendingLogs := []
    emitted := drain s.pendingLogs s.emitted }

/-
  The coroutine that `log()` spawns on the strand. The first
  entry of the queue sets the timer anew.
-/
def push
    (s : AsyncLogger)
    (entry : LogEntry) : AsyncLogger :=
  if s.isStopped then
    s
  else
    { s with
      pendingLogs := s.pendingLogs ++ [entry]
      accepted := s.accepted ++ [entry]
      worker :=
        if (s.pendingLogs ++ [entry]).length = 1 then
          s.worker.cancelWait
        else
          s.worker }

/- Does `log()` pass an entry of this level on? -/
def passes
    (s : AsyncLogger)
    (level : LogLevel) : Bool :=
  decide (s.minLevel.value ≤ level.value) && !s.isStopped

def runTask (s : AsyncLogger) : LoggerTask → AsyncLogger
  | .push entry => s.push entry
  | .flush => s.flushPendingLogs
  | .logError message =>
      if s.passes .error then
        s.push { level := .error, message := message }
      else
        s

------------------------------------------------------------
-- Steps
------------------------------------------------------------

/-
  The worker leaves the strand only where it is suspended:
  not while it loops.
-/
def Enabled (s : AsyncLogger) : LoggerAction → Prop
  | .start => s.worker = .unstarted
  | .log _ _ => True
  | .logErrorAsync _ => True
  | .flush => True
  | .stop => True
  | .runStrand task rest =>
      s.strand = task :: rest ∧ s.worker ≠ .looping
  | .expire => s.worker = .waiting
  | .waitFails => s.worker = .waiting
  | .enter => s.worker = .spawned
  | .testStopped => s.worker = .looping
  | .resume result => s.worker = .woken result

instance
    (s : AsyncLogger) :
    (a : LoggerAction) → Decidable (s.Enabled a)
  | .start => inferInstanceAs (Decidable (_ = _))
  | .log _ _ => instDecidableTrue
  | .logErrorAsync _ => instDecidableTrue
  | .flush => instDecidableTrue
  | .stop => instDecidableTrue
  | .runStrand _ _ => inferInstanceAs (Decidable (_ ∧ _))
  | .expire => inferInstanceAs (Decidable (_ = _))
  | .waitFails => inferInstanceAs (Decidable (_ = _))
  | .enter => inferInstanceAs (Decidable (_ = _))
  | .testStopped => inferInstanceAs (Decidable (_ = _))
  | .resume _ => inferInstanceAs (Decidable (_ = _))

def update (s : AsyncLogger) : LoggerAction → AsyncLogger
  | .start => { s with worker := .spawned }
  | .log level message =>
      if s.passes level then
        { s with
          strand :=
            s.strand ++
              [.push { level := level, message := message }] }
      else
        s
  | .logErrorAsync message =>
      { s with strand := s.strand ++ [.logError message] }
  | .flush => { s with strand := s.strand ++ [.flush] }
  | .stop =>
      { s with
        isStopped := true
        worker := s.worker.cancelWait }
  | .runStrand task rest =>
      { s with strand := rest }.runTask task
  | .expire => { s with worker := .woken .expired }
  | .waitFails => { s with worker := .woken .failed }
  | .enter => { s with worker := .looping }
  | .testStopped =>
      if s.isStopped then
        { s.flushPendingLogs with worker := .exited }
      else
        { s with worker := .waiting }
  | .resume .expired =>
      -- No wait is outstanding when the timer is set anew.
      if s.isStopped then
        { s with worker := .looping }
      else
        { s.flushPendingLogs with worker := .looping }
  | .resume .operationAborted =>
      { s.flushPendingLogs with worker := .exited }
  | .resume .failed => { s with worker := .looping }

def step
    (s : AsyncLogger)
    (a : LoggerAction) : Option AsyncLogger :=
  if s.Enabled a then some (s.update a) else none

theorem step_eq_some_iff
    (s s' : AsyncLogger)
    (a : LoggerAction) :
    step s a = some s' ↔ s.Enabled a ∧ s' = s.update a := by
  simp [step, eq_comm]

abbrev ReachableBy
    (minLevel : LogLevel)
    (ok : AsyncLogger → LoggerAction → Prop)
    (s : AsyncLogger) : Prop :=
  Transition.ReachableBy step ok (make minLevel) s

abbrev Reachable
    (minLevel : LogLevel)
    (s : AsyncLogger) : Prop :=
  Transition.Reachable step (make minLevel) s

/- The invariant rule for loggers. -/
theorem invariant
    {minLevel : LogLevel}
    {ok : AsyncLogger → LoggerAction → Prop}
    (inv : AsyncLogger → Prop)
    (hStart : inv (make minLevel))
    (hUpdate :
      ∀ s a, inv s → ok s a → s.Enabled a →
        inv (s.update a))
    {s : AsyncLogger}
    (hReach : ReachableBy minLevel ok s) :
    inv s :=
  hReach.invariant_of_guarded step_eq_some_iff hStart
    fun s a _ => hUpdate s a

------------------------------------------------------------
-- Order
------------------------------------------------------------

/-
  What was emitted and what is pending are the accepted
  entries, in order, and no entry is below the threshold.
-/
structure Ordered (s : AsyncLogger) : Prop where
  history :
    s.emitted ++ s.pendingLogs.map LogEntry.emit =
      s.accepted.map LogEntry.emit
  passing :
    ∀ entry ∈ s.accepted,
      s.minLevel.value ≤ entry.level.value
  queued :
    ∀ entry, LoggerTask.push entry ∈ s.strand →
      s.minLevel.value ≤ entry.level.value

namespace Ordered

variable {s : AsyncLogger}

theorem flushPendingLogs
    (hInv : s.Ordered) :
    s.flushPendingLogs.Ordered := by
  constructor
  case history =>
    simp [AsyncLogger.flushPendingLogs, drain_eq,
      hInv.history]
  case passing => exact hInv.passing
  case queued => exact hInv.queued

/- The worker's place is not part of the order. -/
theorem withWorker
    (hInv : s.Ordered)
    (worker : LogWorker) :
    { s with worker := worker }.Ordered :=
  ⟨hInv.history, hInv.passing, hInv.queued⟩

theorem push
    (hInv : s.Ordered)
    {entry : LogEntry}
    (hPasses : s.minLevel.value ≤ entry.level.value) :
    (s.push entry).Ordered := by
  unfold AsyncLogger.push
  split
  case isTrue => exact hInv
  case isFalse =>
    constructor
    case history =>
      simp only [List.map_append, List.map_cons,
        List.map_nil]
      rw [← List.append_assoc, hInv.history]
    case passing =>
      intro other hMem
      rcases List.mem_append.mp hMem with hOld | hNew
      · exact hInv.passing other hOld
      · rw [List.mem_singleton.mp hNew]
        exact hPasses
    case queued => exact hInv.queued

/- A task added to the strand, if a push, passes. -/
theorem post
    (hInv : s.Ordered)
    {task : LoggerTask}
    (hPasses :
      ∀ entry, task = .push entry →
        s.minLevel.value ≤ entry.level.value) :
    { s with strand := s.strand ++ [task] }.Ordered := by
  constructor
  case history => exact hInv.history
  case passing => exact hInv.passing
  case queued =>
    intro entry hMem
    rcases List.mem_append.mp hMem with hOld | hNew
    · exact hInv.queued entry hOld
    · exact hPasses entry (List.mem_singleton.mp hNew).symm

theorem runStrand
    (hInv : s.Ordered)
    {task : LoggerTask}
    {rest : List LoggerTask}
    (hStrand : s.strand = task :: rest) :
    ({ s with strand := rest }.runTask task).Ordered := by
  have hRest : { s with strand := rest }.Ordered :=
    { history := hInv.history
      passing := hInv.passing
      queued := fun entry hMem =>
        hInv.queued entry
          (hStrand ▸ List.mem_cons_of_mem _ hMem) }
  cases task with
  | push entry =>
      apply hRest.push
      exact hInv.queued entry (hStrand ▸ List.mem_cons_self)
  | flush => exact hRest.flushPendingLogs
  | logError message =>
      simp only [runTask]
      split
      · exact hRest.push (LogLevel.value_le_error _)
      · exact hRest

end Ordered

/- The order holds in every run, stopped or not. -/
theorem ordered
    {minLevel : LogLevel}
    {ok : AsyncLogger → LoggerAction → Prop}
    {s : AsyncLogger}
    (hReach : ReachableBy minLevel ok s) :
    s.Ordered := by
  apply invariant Ordered ⟨rfl, by simp [make], by simp [make]⟩
    _ hReach
  intro s a hInv _ hEnabled
  cases a with
  | start => exact hInv.withWorker _
  | log level message =>
      simp only [update]
      split
      case isTrue hPasses =>
        apply hInv.post
        intro entry hEntry
        injection hEntry with hEntry
        rw [← hEntry]
        rw [passes, Bool.and_eq_true] at hPasses
        exact of_decide_eq_true hPasses.1
      case isFalse => exact hInv
  | logErrorAsync message => exact hInv.post (by simp)
  | flush => exact hInv.post (by simp)
  | stop => exact ⟨hInv.history, hInv.passing, hInv.queued⟩
  | runStrand task rest => exact hInv.runStrand hEnabled.1
  | expire => exact hInv.withWorker _
  | waitFails => exact hInv.withWorker _
  | enter => exact hInv.withWorker _
  | testStopped =>
      simp only [update]
      split
      · exact hInv.flushPendingLogs.withWorker _
      · exact hInv.withWorker _
  | resume result =>
      cases result with
      | expired =>
          simp only [update]
          split
          · exact hInv.withWorker _
          · exact hInv.flushPendingLogs.withWorker _
      | operationAborted =>
          exact hInv.flushPendingLogs.withWorker _
      | failed => exact hInv.withWorker _

------------------------------------------------------------
-- The Worker Stays
------------------------------------------------------------

/- Does the action push an entry, as `log()` does? -/
def pushes (s : AsyncLogger) : LoggerAction → Bool
  | .runStrand (.push _) _ => !s.isStopped
  | .runStrand (.logError _) _ => !s.isStopped
  | .runStrand .flush _ => false
  | .start => false
  | .log _ _ => false
  | .logErrorAsync _ => false
  | .flush => false
  | .stop => false
  | .expire => false
  | .waitFails => false
  | .enter => false
  | .testStopped => false
  | .resume _ => false

/-
  No entry is pushed into an empty queue while the worker's
  wait is outstanding.
-/
def KeepsWait
    (s : AsyncLogger)
    (a : LoggerAction) : Prop :=
  s.pushes a = true →
    s.worker = .waiting →
      s.pendingLogs ≠ []

instance
    (s : AsyncLogger)
    (a : LoggerAction) : Decidable (s.KeepsWait a) :=
  inferInstanceAs (Decidable (_ → _ → _))

@[simp] theorem isStopped_push
    (s : AsyncLogger)
    (entry : LogEntry) :
    (s.push entry).isStopped = s.isStopped := by
  unfold push
  split <;> rfl

@[simp] theorem isStopped_runTask
    (s : AsyncLogger)
    (task : LoggerTask) :
    (s.runTask task).isStopped = s.isStopped := by
  cases task with
  | push entry => exact s.isStopped_push entry
  | flush => rfl
  | logError message =>
      simp only [runTask]
      split
      · exact s.isStopped_push _
      · rfl

@[simp] theorem strand_push
    (s : AsyncLogger)
    (entry : LogEntry) :
    (s.push entry).strand = s.strand := by
  unfold push
  split <;> rfl

@[simp] theorem strand_runTask
    (s : AsyncLogger)
    (task : LoggerTask) :
    (s.runTask task).strand = s.strand := by
  cases task with
  | push entry => exact s.strand_push entry
  | flush => rfl
  | logError message =>
      simp only [runTask]
      split
      · exact s.strand_push _
      · rfl

/- A push that keeps the wait leaves the worker alone. -/
theorem worker_push
    (s : AsyncLogger)
    (entry : LogEntry)
    (hKeeps : s.worker = .waiting → s.pendingLogs ≠ []) :
    (s.push entry).worker = s.worker := by
  unfold push
  split
  case isTrue => rfl
  case isFalse =>
    by_cases hFirst : s.pendingLogs = []
    · have hNot : s.worker ≠ .waiting :=
        fun hWaiting => hKeeps hWaiting hFirst
      cases hWorker : s.worker <;>
        simp_all [LogWorker.cancelWait]
    · simp [hFirst]

theorem worker_runTask
    (s : AsyncLogger)
    (task : LoggerTask)
    (rest : List LoggerTask)
    (hKeeps : s.KeepsWait (.runStrand task rest)) :
    (s.runTask task).worker = s.worker := by
  cases hStopped : s.isStopped with
  | true =>
      cases task <;>
        simp [runTask, push, passes, hStopped,
          flushPendingLogs]
  | false =>
      cases task with
      | push entry =>
          exact s.worker_push entry
            (hKeeps (by simp [pushes, hStopped]))
      | flush => rfl
      | logError message =>
          simp only [runTask]
          split
          · exact s.worker_push _
              (hKeeps (by simp [pushes, hStopped]))
          · rfl

/- Before `stop()` no wait of the worker is cancelled. -/
theorem stays
    {minLevel : LogLevel}
    {s : AsyncLogger}
    (hReach : ReachableBy minLevel KeepsWait s)
    (hRunning : s.isStopped = false) :
    s.worker.stays = true := by
  revert hRunning
  refine invariant
    (fun s =>
      s.isStopped = false → s.worker.stays = true)
    (fun _ => rfl) ?_ hReach
  intro s a hInv hKeeps hEnabled hRunning
  cases a with
  | start => rfl
  | log level message =>
      simp only [update] at hRunning ⊢
      split at hRunning <;> split <;> exact hInv hRunning
  | logErrorAsync message => exact hInv hRunning
  | flush => exact hInv hRunning
  | stop => cases hRunning
  | runStrand task rest =>
      rw [update, isStopped_runTask] at hRunning
      rw [update,
        worker_runTask { s with strand := rest } task rest hKeeps]
      exact hInv hRunning
  | expire => rfl
  | waitFails => rfl
  | enter => rfl
  | testStopped =>
      simp only [update] at hRunning ⊢
      split at hRunning
      case isTrue hStopped =>
        rw [show s.isStopped = false from hRunning]
          at hStopped
        cases hStopped
      case isFalse hNot =>
        rw [if_neg hNot]
        rfl
  | resume result =>
      cases result with
      | expired =>
          simp only [update]
          split <;> rfl
      | operationAborted =>
          have hWorker : s.worker = .woken .operationAborted :=
            hEnabled
          have hStays := hInv hRunning
          rw [hWorker] at hStays
          cases hStays
      | failed => rfl

------------------------------------------------------------
-- A Flush Is Scheduled
------------------------------------------------------------

/- The worker alone gets to emit all that is pending. -/
def FlushScheduled (s : AsyncLogger) : Prop :=
  ∃ actions, (∀ a ∈ actions, a.isWorker = true) ∧
    ∃ s', Transition.run step s actions = some s' ∧
      s'.emitted =
          s.emitted ++ s.pendingLogs.map LogEntry.emit ∧
        s'.pendingLogs = []

namespace FlushScheduled

variable {s : AsyncLogger}

/- A step of the worker that emits nothing comes first. -/
theorem cons
    {a : LoggerAction}
    (hWorker : a.isWorker = true)
    (hEnabled : s.Enabled a)
    (hEmitted : (s.update a).emitted = s.emitted)
    (hPending : (s.update a).pendingLogs = s.pendingLogs)
    (hNext : (s.update a).FlushScheduled) :
    s.FlushScheduled := by
  rcases hNext with ⟨actions, hAll, s', hRun, hAfter, hEmpty⟩
  refine ⟨a :: actions, ?_, s', ?_, ?_, hEmpty⟩
  · intro b hMem
    rcases List.mem_cons.mp hMem with rfl | hRest
    · exact hWorker
    · exact hAll b hRest
  · rw [Transition.run,
      (step_eq_some_iff s _ a).mpr ⟨hEnabled, rfl⟩]
    exact hRun
  · rw [hAfter, hEmitted, hPending]

/- A worker that resumes from its timer flushes. -/
theorem of_expired
    (hWorker : s.worker = .woken .expired)
    (hRunning : s.isStopped = false) :
    s.FlushScheduled := by
  refine ⟨[.resume .expired], by simp [LoggerAction.isWorker],
    s.update (.resume .expired), ?_, ?_, ?_⟩
  · rw [Transition.run,
      (step_eq_some_iff s _ (.resume .expired)).mpr
        ⟨hWorker, rfl⟩]
    rfl
  · simp [update, hRunning, flushPendingLogs, drain_eq]
  · simp [update, hRunning, flushPendingLogs]

theorem of_waiting
    (hWorker : s.worker = .waiting)
    (hRunning : s.isStopped = false) :
    s.FlushScheduled := by
  apply cons (a := .expire) rfl hWorker rfl rfl
  exact of_expired rfl hRunning

theorem of_looping
    (hWorker : s.worker = .looping)
    (hRunning : s.isStopped = false) :
    s.FlushScheduled := by
  have hUpdate :
      s.update .testStopped = { s with worker := .waiting } :=
    if_neg (by simp [hRunning])
  apply cons (a := .testStopped) rfl hWorker
  · rw [hUpdate]
  · rw [hUpdate]
  · rw [hUpdate]
    exact of_waiting rfl hRunning

theorem of_stays
    (hStays : s.worker.stays = true)
    (hStarted : s.worker ≠ .unstarted)
    (hRunning : s.isStopped = false) :
    s.FlushScheduled := by
  cases hWorker : s.worker with
  | unstarted => exact absurd hWorker hStarted
  | spawned =>
      apply cons (a := .enter) rfl hWorker rfl rfl
      exact of_looping rfl hRunning
  | looping => exact of_looping hWorker hRunning
  | waiting => exact of_waiting hWorker hRunning
  | woken result =>
      cases result with
      | expired => exact of_expired hWorker hRunning
      | operationAborted =>
          rw [hWorker] at hStays
          cases hStays
      | failed =>
          apply cons (a := .resume .failed) rfl hWorker rfl rfl
          exact of_looping rfl hRunning
  | exited =>
      rw [hWorker] at hStays
      cases hStays

end FlushScheduled

/-
  Pending entries have a worker that will flush them, and
  every accepted entry is emitted or pending, in order.
-/
structure NothingLost (s : AsyncLogger) : Prop where
  alive : s.pendingLogs ≠ [] → s.worker ≠ .exited
  scheduled : s.pendingLogs ≠ [] → s.FlushScheduled
  ordered : s.Ordered

/-
  No entry is lost between `start()` and `stop()`, in a run
  in which no push cancels the worker's wait.
-/
theorem nothingLost
    (minLevel : LogLevel)
    (s : AsyncLogger)
    (hReach : ReachableBy minLevel KeepsWait s)
    (hStarted : s.worker ≠ .unstarted)
    (hRunning : s.isStopped = false) :
    s.NothingLost := by
  have hStays := stays hReach hRunning
  constructor
  case alive =>
    intro _ hExited
    rw [hExited] at hStays
    cases hStays
  case scheduled =>
    intro _
    exact .of_stays hStays hStarted hRunning
  case ordered => exact ordered hReach

------------------------------------------------------------
-- A Cancelled Wait
------------------------------------------------------------

/- The worker has exited and nobody called `stop()`. -/
def Abandoned (s : AsyncLogger) : Prop :=
  s.worker = .exited ∧ s.isStopped = false

/- No task brings an exited worker back. -/
theorem Abandoned.runStrand
    {s : AsyncLogger}
    (hGone : s.Abandoned)
    (task : LoggerTask)
    (rest : List LoggerTask) :
    (s.update (.runStrand task rest)).Abandoned := by
  constructor
  · rw [update, worker_runTask { s with strand := rest } task
      rest]
    · exact hGone.1
    · intro _ hWaiting
      cases hGone.1.symm.trans hWaiting
  · rw [update, isStopped_runTask]
    exact hGone.2

/- The strand's work can run to its end. -/
theorem Abandoned.drainStrand
    {strand : List LoggerTask}
    {s : AsyncLogger}
    (hGone : s.Abandoned)
    (hStrand : s.strand = strand) :
    ∃ s', Transition.Reachable step s s' ∧
      s'.Abandoned ∧ s'.strand = [] := by
  induction strand generalizing s with
  | nil => exact ⟨s, .start, hGone, hStrand⟩
  | cons task rest ih =>
      have hEnabled : s.Enabled (.runStrand task rest) := by
        refine ⟨hStrand, ?_⟩
        rw [hGone.1]
        simp
      have hRest :
          (s.update (.runStrand task rest)).strand = rest := by
        rw [update, strand_runTask]
      rcases ih (hGone.runStrand task rest) hRest with
        ⟨s', hReach, hAfter⟩
      have hStep :=
        (step_eq_some_iff s _ _).mpr ⟨hEnabled, rfl⟩
      exact ⟨s',
        (Transition.ReachableBy.start.next trivial hStep).trans
          hReach, hAfter⟩

/- An entry pushed now is never flushed by the worker. -/
theorem Abandoned.push
    {s : AsyncLogger}
    (hGone : s.Abandoned)
    (entry : LogEntry) :
    ¬ (s.push entry).NothingLost := by
  intro hInv
  have hPushed : s.push entry =
      { s with
        pendingLogs := s.pendingLogs ++ [entry]
        accepted := s.accepted ++ [entry]
        worker := .exited } := by
    simp [AsyncLogger.push, hGone.1, hGone.2,
      LogWorker.cancelWait]
  apply hInv.alive
  · simp [hPushed]
  · simp [hPushed]

/- A push that cancels the worker's wait makes it exit. -/
theorem cancelled
    {s : AsyncLogger}
    {a : LoggerAction}
    (hNot : ¬ s.KeepsWait a) :
    (s.update a).worker = .woken .operationAborted ∧
      (s.update a).isStopped = false := by
  simp only [KeepsWait, Classical.not_imp, not_not] at hNot
  rcases hNot with ⟨hPushes, hWaiting, hEmpty⟩
  cases a with
  | runStrand task rest =>
      cases task with
      | push entry =>
          have hRunning : s.isStopped = false := by
            simpa [pushes] using hPushes
          simp [update, runTask, push, hRunning, hEmpty,
            hWaiting, LogWorker.cancelWait]
      | flush => cases hPushes
      | logError message =>
          have hRunning : s.isStopped = false := by
            simpa [pushes] using hPushes
          simp [update, runTask, passes, push, hRunning, hEmpty,
            hWaiting, LogWorker.cancelWait,
            LogLevel.value_le_error]
  | _ => cases hPushes

/-
  After a push that cancels the worker's wait, a later entry
  can be pending with no worker left.
-/
theorem cancelled_loses
    {s : AsyncLogger}
    {a : LoggerAction}
    (hNot : ¬ s.KeepsWait a) :
    ∃ s', Transition.Reachable step (s.update a) s' ∧
      s'.worker ≠ .unstarted ∧ s'.isStopped = false ∧
        ¬ s'.NothingLost := by
  rcases cancelled hNot with ⟨hWoken, hRunning⟩
  have hExit :=
    (step_eq_some_iff (s.update a) _
      (.resume .operationAborted)).mpr ⟨hWoken, rfl⟩
  have hGone :
      ((s.update a).update
        (.resume .operationAborted)).Abandoned :=
    ⟨rfl, hRunning⟩
  rcases hGone.drainStrand rfl with
    ⟨t, hDrained, hAfter, hEmpty⟩
  -- One more entry is logged, and its push is run.
  let entry : LogEntry := { level := .error, message := [] }
  have hLog :
      t.update (.log .error []) =
        { t with strand := [.push entry] } := by
    simp [update, passes, hAfter.2, hEmpty, entry,
      LogLevel.value_le_error]
  have hLogged :=
    (step_eq_some_iff t _ (.log .error [])).mpr
      ⟨trivial, hLog.symm⟩
  have hPush :=
    (step_eq_some_iff { t with strand := [.push entry] } _
      (.runStrand (.push entry) [])).mpr
      ⟨⟨rfl, by simp [hAfter.1]⟩, rfl⟩
  have hLast :
      { t with strand := [] }.Abandoned := hAfter
  refine ⟨{ t with strand := [] }.push entry, ?_, ?_, ?_,
    hLast.push entry⟩
  · exact (Transition.ReachableBy.start.next trivial
      hExit).trans (hDrained.trans
        ((Transition.ReachableBy.start.next trivial
          hLogged).next trivial hPush))
  · have hWorker := (hLast.runStrand (.push entry) []).1
    intro hStart
    cases hWorker.symm.trans hStart
  · rw [isStopped_push]
    exact hAfter.2

/- Entries pushed while the worker is between its waits. -/
theorem nothingLost_betweenWaits :
    ∃ s : AsyncLogger, Reachable .info s ∧
      s.pendingLogs ≠ [] ∧ s.NothingLost := by
  obtain ⟨s, hReach, hRun⟩ :=
    Transition.exists_of_runBy step KeepsWait
      (make .info)
      [.start,
        .enter,
        .testStopped,
        .log .error (literal "first"),
        .expire,
        .runStrand
          (.push
            { level := .error, message := literal "first" })
          []]
      (fun s =>
        decide (s.pendingLogs ≠ [] ∧
          s.worker ≠ .unstarted ∧ s.isStopped = false))
      (by decide +kernel)
  rcases of_decide_eq_true hRun with
    ⟨hPending, hStarted, hRunning⟩
  exact ⟨s, hReach.reachable, hPending,
    nothingLost .info s hReach hStarted hRunning⟩

/-
  Two entries are logged. The first ends the worker's wait
  and with it the worker; the second stays in the queue.
-/
theorem second_entry_lost :
    ∃ s : AsyncLogger, Reachable .info s ∧
      s.worker ≠ .unstarted ∧ s.isStopped = false ∧
        ¬ s.NothingLost := by
  obtain ⟨s, hReach, hRun⟩ :=
    Transition.exists_of_run step (make .info)
      [.start,
        .enter,
        .testStopped,
        .log .error (literal "first"),
        .runStrand
          (.push
            { level := .error, message := literal "first" })
          [],
        .resume .operationAborted,
        .log .error (literal "second"),
        .runStrand
          (.push
            { level := .error, message := literal "second" })
          []]
      (fun s =>
        decide (s.pendingLogs ≠ [] ∧ s.worker = .exited ∧
          s.isStopped = false))
      (by decide +kernel)
  rcases of_decide_eq_true hRun with
    ⟨hPending, hExited, hRunning⟩
  refine ⟨s, hReach, ?_, hRunning, ?_⟩
  · rw [hExited]
    simp
  · intro hInv
    exact hInv.alive hPending hExited

end AsyncLogger

end GrlxRpc
