import GrlxRpc.Feed.Order
import GrlxRpc.Session.Auth
import Mathlib.Data.List.Perm.Basic

/-
  A server with any number of sessions and any number of
  `notify` and `notify_session` calls in progress at a time.

  Each call copies the set of active sessions on the strand
  that owns it. It then goes through its copy, in whatever
  order the set has, while the sessions run, are stamped by
  the application, close, and others are accepted.

  Main declarations:
    * `ServedSession`, `NotifyTask` and `Visit`
    * `Broadcast`, `BroadcastMove` and `Broadcast.step`
    * `Broadcast.actionAt`
    * `Broadcast.TenantsApart` and `Broadcast.tenantsApart`
-/

------------------------------------------------------------
-- The State
------------------------------------------------------------

namespace GrlxRpc

/- An accepted session, with what it was made from. -/
structure ServedSession (ω : Type) where
  cfg : Config ω
  session : Session

/- What `try_notify` made of a payload, if it was asked. -/
inductive VisitFate
  | skipped
  | refused
  | accepted
  deriving DecidableEq, Repr

namespace ServedSession

variable {ω : Type}

def start (cfg : Config ω) : ServedSession ω where
  cfg := cfg
  session := .start cfg

/- The session after an action, if there is one. -/
def after
    (served : ServedSession ω)
    (action : Option (Action ω)) : ServedSession ω :=
  action.elim served fun a =>
    { served with session := served.session.update served.cfg a }

@[simp] theorem cfg_after
    (served : ServedSession ω)
    (action : Option (Action ω)) :
    (served.after action).cfg = served.cfg := by
  cases action <;> rfl

@[simp] theorem after_none (served : ServedSession ω) :
    served.after none = served :=
  rfl

@[simp] theorem session_after_some
    (served : ServedSession ω)
    (a : Action ω) :
    (served.after (some a)).session =
      served.session.update served.cfg a :=
  rfl

/- The body of the loop over the copied sessions. -/
def offer
    (payload : Payload)
    (served : ServedSession ω) : Option (Action ω) :=
  if payload.reaches served.session.identity then
    some (.tryNotify payload.funcName payload.buffer)
  else
    none

/- What comes of it. -/
def fate
    (payload : Payload)
    (served : ServedSession ω) : VisitFate :=
  if payload.reaches served.session.identity then
    if served.session.writeChannel.hasRoom then
      .accepted
    else
      .refused
  else
    .skipped

end ServedSession

/- Where a call is, and which of its copy it has before it. -/
inductive NotifyTaskPc
  | copying
  | visiting (todo : List Nat)
  deriving DecidableEq, Repr

def NotifyTaskPc.todo : NotifyTaskPc → List Nat
  | copying => []
  | visiting todo => todo

/-
  A call of `notify` or `notify_session`. One that returns
  at once has nothing to visit. `listed` is the copy that it
  was given.
-/
structure NotifyTask where
  payload : Payload
  pc : NotifyTaskPc
  listed : List Nat

namespace NotifyTask

/- `sessions_copy` arrives. -/
def copy
    (active : List Nat)
    (task : NotifyTask) : NotifyTask :=
  match task.pc with
  | .copying =>
      { task with pc := .visiting active, listed := active }
  | .visiting _ => task

/- One session of the copy is done. -/
def leave
    (j : Nat)
    (task : NotifyTask) : NotifyTask :=
  { task with pc := .visiting (task.pc.todo.erase j) }

@[simp] theorem payload_copy
    (active : List Nat)
    (task : NotifyTask) :
    (task.copy active).payload = task.payload := by
  unfold copy
  split <;> rfl

@[simp] theorem payload_leave
    (j : Nat)
    (task : NotifyTask) :
    (task.leave j).payload = task.payload :=
  rfl

end NotifyTask

/- Call `task` came to `session` with its payload. -/
structure Visit where
  task : Nat
  payload : Payload
  session : Nat
  fate : VisitFate

/- What is posted to `sessions_strand_`. -/
inductive StrandJob
  | insert (j : Nat)
  | erase (j : Nat)
  | closeAll
  | copy (t : Nat)
  deriving DecidableEq, Repr

/- `visits` is the history of the calls' loops. -/
structure Broadcast (ω : Type) where
  hasStrand : Bool
  sessions : List (ServedSession ω)
  active : List Nat
  strand : List StrandJob
  tasks : List NotifyTask
  visits : List Visit

inductive BroadcastMove (ω : Type)
  | start
  | admitSession (cfg : Config ω)
  -- a session's coroutines, its peer and the application
  | session (j : Nat) (a : Action ω)
  -- the strand and those who post to it
  | post (job : StrandJob)
  | runStrand
  -- the calls
  | notify (payload : Payload)
  | visit (t j : Nat)

------------------------------------------------------------
-- Steps
------------------------------------------------------------

/- Is it `try_notify`, which the server alone calls? -/
def Action.isTryNotify {ω : Type} : Action ω → Bool
  | tryNotify _ _ => true
  | _ => false

/- A session is inserted after it was made. -/
def StrandJob.IsPostable (n : Nat) : StrandJob → Prop
  | insert j => j < n
  | erase _ => True
  | closeAll => True
  | copy _ => False

instance
    (n : Nat)
    (job : StrandJob) : Decidable (job.IsPostable n) :=
  match job with
  | .insert j => inferInstanceAs (Decidable (j < n))
  | .erase _ => instDecidableTrue
  | .closeAll => instDecidableTrue
  | .copy _ => instDecidableFalse

namespace Broadcast

variable {ω : Type}

def start : Broadcast ω where
  hasStrand := false
  sessions := []
  active := []
  strand := []
  tasks := []
  visits := []

def Enabled (s : Broadcast ω) : BroadcastMove ω → Prop
  | .start => True
  | .admitSession _ => s.hasStrand = true
  | .session j a =>
      a.isTryNotify = false ∧
        ∃ served ∈ s.sessions[j]?, served.session.Enabled a
  | .post job =>
      s.hasStrand = true ∧ job.IsPostable s.sessions.length
  | .runStrand => s.strand ≠ []
  | .notify _ => True
  | .visit t j => ∃ task ∈ s.tasks[t]?, j ∈ task.pc.todo

def decidableEnabled
    (s : Broadcast ω) :
    (m : BroadcastMove ω) → Decidable (s.Enabled m)
  | .start => instDecidableTrue
  | .admitSession _ => inferInstanceAs (Decidable (_ = _))
  | .session _ _ => inferInstanceAs (Decidable (_ ∧ _))
  | .post _ => inferInstanceAs (Decidable (_ ∧ _))
  | .runStrand => inferInstanceAs (Decidable (_ ≠ _))
  | .notify _ => instDecidableTrue
  | .visit _ _ =>
      inferInstanceAs (Decidable (∃ task ∈ _, _))

instance
    (s : Broadcast ω)
    (m : BroadcastMove ω) : Decidable (s.Enabled m) :=
  s.decidableEnabled m

/-
  The next work of the strand. What a `close()` does after
  it has begun is left to the steps of its session.
-/
def runJob
    (s : Broadcast ω) : StrandJob → Broadcast ω
  | .insert j => { s with active := s.active.insert j }
  | .erase j => { s with active := s.active.erase j }
  | .closeAll =>
      { s with
        sessions :=
          s.sessions.mapIdx fun j served =>
            if j ∈ s.active then served.after (some .close)
            else served
        active := [] }
  | .copy t =>
      { s with
        tasks := s.tasks.modify t (NotifyTask.copy s.active) }

/- `notify` or `notify_session`, up to its `co_await`. -/
def begin
    (s : Broadcast ω)
    (payload : Payload) : Broadcast ω :=
  if s.hasStrand && !payload.isUntargetable then
    { s with
      tasks := s.tasks ++ [⟨payload, .copying, []⟩]
      strand := s.strand ++ [.copy s.tasks.length] }
  else
    { s with tasks := s.tasks ++ [⟨payload, .visiting [], []⟩] }

/- The loop of call `t` comes to session `j`. -/
def visit
    (s : Broadcast ω)
    (t j : Nat) : Broadcast ω :=
  match s.tasks[t]?, s.sessions[j]? with
  | some task, some served =>
      { s with
        sessions :=
          s.sessions.modify j fun served =>
            served.after (served.offer task.payload)
        tasks := s.tasks.modify t (NotifyTask.leave j)
        visits :=
          s.visits ++
            [⟨t, task.payload, j, served.fate task.payload⟩] }
  | _, _ => s

def update
    (s : Broadcast ω) : BroadcastMove ω → Broadcast ω
  | .start => { s with hasStrand := true }
  | .admitSession cfg =>
      { s with sessions := s.sessions ++ [.start cfg] }
  | .session j a =>
      { s with
        sessions :=
          s.sessions.modify j fun served =>
            served.after (some a) }
  | .post job => { s with strand := s.strand ++ [job] }
  | .runStrand =>
      match s.strand with
      | [] => s
      | job :: rest => { s with strand := rest }.runJob job
  | .notify payload => s.begin payload
  | .visit t j => s.visit t j

def step
    (s : Broadcast ω)
    (m : BroadcastMove ω) : Option (Broadcast ω) :=
  if s.Enabled m then some (s.update m) else none

theorem step_eq_some_iff
    (s s' : Broadcast ω)
    (m : BroadcastMove ω) :
    step s m = some s' ↔ s.Enabled m ∧ s' = s.update m := by
  simp [step, eq_comm]

abbrev Reachable (s : Broadcast ω) : Prop :=
  Transition.Reachable step start s

theorem invariant
    (inv : Broadcast ω → Prop)
    (hStart : inv start)
    (hUpdate :
      ∀ s m, Reachable s → inv s → s.Enabled m →
        inv (s.update m))
    {s : Broadcast ω}
    (hReach : Reachable s) :
    inv s :=
  hReach.invariant_of_guarded step_eq_some_iff hStart
    fun s m hPrior hInv _ hEnabled =>
      hUpdate s m hPrior hInv hEnabled

------------------------------------------------------------
-- One Session
------------------------------------------------------------

/- What a move makes session `j` do. -/
def actionAt
    (s : Broadcast ω)
    (j : Nat)
    (served : ServedSession ω) :
    BroadcastMove ω → Option (Action ω)
  | .session i a => if i = j then some a else none
  | .runStrand =>
      if s.strand.head? = some .closeAll ∧ j ∈ s.active then
        some .close
      else
        none
  | .visit t i =>
      if i = j then
        s.tasks[t]?.bind fun task => served.offer task.payload
      else
        none
  | .start => none
  | .admitSession _ => none
  | .post _ => none
  | .notify _ => none

/- The loops come to a session in their own moves. -/
def toured (s : Broadcast ω) : BroadcastMove ω → List Visit
  | .visit t j =>
      match s.tasks[t]?, s.sessions[j]? with
      | some task, some served =>
          [⟨t, task.payload, j, served.fate task.payload⟩]
      | _, _ => []
  | _ => []

@[simp] theorem sessions_begin
    (s : Broadcast ω)
    (payload : Payload) :
    (s.begin payload).sessions = s.sessions := by
  unfold begin
  split <;> rfl

@[simp] theorem visits_begin
    (s : Broadcast ω)
    (payload : Payload) :
    (s.begin payload).visits = s.visits := by
  unfold begin
  split <;> rfl

@[simp] theorem visits_runJob
    (s : Broadcast ω)
    (job : StrandJob) :
    (s.runJob job).visits = s.visits := by
  cases job <;> rfl

theorem visits_update
    (s : Broadcast ω)
    (m : BroadcastMove ω) :
    (s.update m).visits = s.visits ++ s.toured m := by
  cases m with
  | runStrand =>
      simp only [update]
      split <;> simp [toured]
  | visit t j =>
      simp only [update, visit, toured]
      split <;> simp
  | notify payload => simp [update, toured]
  | _ => exact (List.append_nil _).symm

/- One session goes its way in every move. -/
theorem getElem?_sessions_update
    {s : Broadcast ω}
    {j : Nat}
    {served : ServedSession ω}
    (hGet : s.sessions[j]? = some served)
    (m : BroadcastMove ω) :
    (s.update m).sessions[j]? =
      some (served.after (s.actionAt j served m)) := by
  -- A move of session `i` alone.
  have hModify :
      ∀ (i : Nat) (f : ServedSession ω → ServedSession ω),
        (s.sessions.modify i f)[j]? =
          some (if i = j then f served else served) := by
    intro i f
    rw [List.getElem?_modify, hGet]
    split <;> rfl
  cases m with
  | start => exact hGet
  | admitSession cfg =>
      exact Records.getElem?_mono (List.prefix_append _ _) hGet
  | session i a =>
      simp only [update, actionAt]
      rw [hModify]
      split <;> rfl
  | post job => exact hGet
  | notify payload =>
      simp only [update, sessions_begin]
      exact hGet
  | runStrand =>
      simp only [update, actionAt]
      cases hStrand : s.strand with
      | nil => simpa using hGet
      | cons job rest =>
          cases job with
          | closeAll =>
              simp only [runJob, List.getElem?_mapIdx, hGet,
                List.head?_cons, true_and, Option.map_some]
              split <;> rfl
          | _ => simpa [runJob] using hGet
  | visit t i =>
      simp only [update, visit, actionAt]
      cases hTask : s.tasks[t]? with
      | none => simpa using hGet
      | some task =>
          by_cases hSame : i = j
          · subst hSame
            simp only [hGet, if_true]
            rw [hModify, if_pos rfl]
            rfl
          · rw [if_neg hSame]
            split
            · rw [hModify, if_neg hSame]
              rfl
            · exact hGet

theorem length_update
    (s : Broadcast ω)
    (m : BroadcastMove ω) :
    (s.update m).sessions.length =
      s.sessions.length +
        (match m with
          | .admitSession _ => 1
          | _ => 0) := by
  cases m with
  | admitSession cfg => simp [update]
  | session j a => simp [update]
  | notify payload => simp [update]
  | runStrand =>
      simp only [update]
      split
      · rfl
      · next job rest _ => cases job <;> simp [runJob]
  | visit t j =>
      simp only [update, visit]
      split <;> simp
  | _ => rfl

/- Where a session comes from that a move leaves. -/
theorem session_cases
    {s : Broadcast ω}
    {m : BroadcastMove ω}
    {j : Nat}
    {served' : ServedSession ω}
    (hGet : (s.update m).sessions[j]? = some served') :
    (∃ cfg,
        m = .admitSession cfg ∧ j = s.sessions.length ∧
          served' = .start cfg) ∨
      ∃ served,
        s.sessions[j]? = some served ∧
          served' = served.after (s.actionAt j served m) := by
  cases hOld : s.sessions[j]? with
  | some served =>
      rw [getElem?_sessions_update hOld] at hGet
      exact .inr ⟨served, rfl, (Option.some.inj hGet).symm⟩
  | none =>
      have hLe := List.getElem?_eq_none_iff.mp hOld
      have hLt := (List.getElem?_eq_some_iff.mp hGet).1
      rw [length_update] at hLt
      cases m with
      | admitSession cfg =>
          have hNext : j < s.sessions.length + 1 := hLt
          obtain rfl : j = s.sessions.length := by omega
          simp only [update,
            List.getElem?_concat_length] at hGet
          exact .inl ⟨cfg, rfl, rfl,
            (Option.some.inj hGet).symm⟩
      | _ => exact absurd hLt (Nat.not_lt_of_le hLe)

/- What a session does here it may do. -/
theorem enabled_actionAt
    {s : Broadcast ω}
    {m : BroadcastMove ω}
    (hEnabled : s.Enabled m)
    {j : Nat}
    {served : ServedSession ω}
    (hGet : s.sessions[j]? = some served)
    {a : Action ω}
    (hAction : s.actionAt j served m = some a) :
    served.session.Enabled a := by
  cases m with
  | session i b =>
      rcases Option.ite_none_right_eq_some.mp hAction with
        ⟨rfl, hSame⟩
      rcases Option.some.inj hSame with rfl
      rcases hEnabled with ⟨-, other, hOther, hOk⟩
      obtain rfl : served = other :=
        Option.some.inj (hGet.symm.trans hOther)
      exact hOk
  | runStrand =>
      rcases Option.ite_none_right_eq_some.mp hAction with
        ⟨-, hSame⟩
      rcases Option.some.inj hSame with rfl
      trivial
  | visit t i =>
      rcases Option.ite_none_right_eq_some.mp hAction with
        ⟨-, hOffer⟩
      rcases Option.bind_eq_some_iff.mp hOffer with
        ⟨task, -, hTry⟩
      rcases Option.ite_none_right_eq_some.mp hTry with
        ⟨-, hSame⟩
      rcases Option.some.inj hSame with rfl
      trivial
  | start => cases hAction
  | admitSession cfg => cases hAction
  | post job => cases hAction
  | notify payload => cases hAction

/- Every session of a server is a session. -/
theorem session_reachable
    {s : Broadcast ω}
    (hReach : Reachable s) :
    ∀ (j : Nat) (served : ServedSession ω),
      s.sessions[j]? = some served →
        Session.Reachable served.cfg served.session := by
  refine invariant
    (fun s => ∀ (j : Nat) (served : ServedSession ω),
      s.sessions[j]? = some served →
        Session.Reachable served.cfg served.session)
    (by simp [start]) ?_ hReach
  intro s m _ hInv hEnabled j served' hGet
  rcases session_cases hGet with
    ⟨cfg, -, -, rfl⟩ | ⟨served, hOld, rfl⟩
  · exact .start
  · have hPrior := hInv j served hOld
    cases hAction : s.actionAt j served m with
    | none => exact hPrior
    | some a =>
        have hOk := enabled_actionAt hEnabled hOld hAction
        exact hPrior.next trivial
          ((Session.step_eq_some_iff _ _ _ _).mpr ⟨hOk, rfl⟩)

end Broadcast

------------------------------------------------------------
-- The Calls
------------------------------------------------------------

/- The sessions that call `t` came to, in its order. -/
def visitsOf (t : Nat) (visits : List Visit) : List Nat :=
  (visits.filter fun visit => visit.task = t).map
    Visit.session

@[simp] theorem visitsOf_append
    (t : Nat)
    (first second : List Visit) :
    visitsOf t (first ++ second) =
      visitsOf t first ++ visitsOf t second := by
  simp [visitsOf]

/-
  A call comes once to each session of its copy: it has done
  so, or has it before it. Only one that has somebody to
  reach asks for a copy.
-/
structure Tour
    (n : Nat)
    (visits : List Visit)
    (t : Nat)
    (task : NotifyTask) : Prop where
  visited :
    (visitsOf t visits ++ task.pc.todo).Perm task.listed
  nodup : task.listed.Nodup
  within : ∀ j ∈ task.listed, j < n
  copying : task.pc = .copying → task.listed = []
  targetable :
    task.pc = .copying ∨ task.listed ≠ [] →
      task.payload.isUntargetable = false

namespace Tour

variable {n n' : Nat}
variable {visits : List Visit}
variable {t : Nat}
variable {task : NotifyTask}

theorem mono
    (hTour : Tour n visits t task)
    (hLe : n ≤ n') :
    Tour n' visits t task :=
  { hTour with
    within := fun j hMem =>
      Nat.lt_of_lt_of_le (hTour.within j hMem) hLe }

/- Other calls come to sessions. -/
theorem others
    (hTour : Tour n visits t task)
    {visit : Visit}
    (hOther : visit.task ≠ t) :
    Tour n (visits ++ [visit]) t task := by
  refine { hTour with visited := ?_ }
  have hNone : visitsOf t [visit] = [] := by
    simp [visitsOf, hOther]
  rw [visitsOf_append, hNone, List.append_nil]
  exact hTour.visited

/- The copy arrives. -/
theorem copy
    (hTour : Tour n visits t task)
    {active : List Nat}
    (hNodup : active.Nodup)
    (hWithin : ∀ j ∈ active, j < n) :
    Tour n visits t (task.copy active) := by
  cases hPc : task.pc with
  | visiting todo =>
      have hSame : task.copy active = task := by
        simp [NotifyTask.copy, hPc]
      rw [hSame]
      exact hTour
  | copying =>
      have hCopied :
          task.copy active =
            { task with
              pc := .visiting active, listed := active } := by
        simp [NotifyTask.copy, hPc]
      have hNone : visitsOf t visits = [] := by
        have hPerm := hTour.visited
        rw [hTour.copying hPc] at hPerm
        exact (List.append_eq_nil_iff.mp hPerm.eq_nil).1
      rw [hCopied]
      constructor
      case visited =>
        rw [hNone]
        exact .refl _
      case nodup => exact hNodup
      case within => exact hWithin
      case copying => exact fun hNot => nomatch hNot
      case targetable =>
        exact fun _ => hTour.targetable (.inl hPc)

/- The loop comes to the next session. -/
theorem leave
    (hTour : Tour n visits t task)
    {visit : Visit}
    (hTask : visit.task = t)
    (hTodo : visit.session ∈ task.pc.todo) :
    Tour n (visits ++ [visit]) t
      (task.leave visit.session) := by
  have hOne : visitsOf t [visit] = [visit.session] := by
    simp [visitsOf, hTask]
  have hBusy : task.pc ≠ .copying := by
    intro hPc
    rw [hPc] at hTodo
    cases hTodo
  constructor
  case visited =>
    rw [visitsOf_append, hOne, List.append_assoc]
    refine .trans (.append_left _ ?_) hTour.visited
    exact (List.perm_cons_erase hTodo).symm
  case nodup => exact hTour.nodup
  case within => exact hTour.within
  case copying => exact fun hNot => nomatch hNot
  case targetable =>
    rintro (hNot | hListed)
    · cases hNot
    · exact hTour.targetable (.inr hListed)

/- A call begins. -/
theorem begin
    (payload : Payload)
    {pc : NotifyTaskPc}
    (hFresh : visitsOf t visits = [])
    (hTodo : pc.todo = [])
    (hTarget :
      pc = .copying → payload.isUntargetable = false) :
    Tour n visits t ⟨payload, pc, []⟩ := by
  constructor
  case visited =>
    rw [hFresh, hTodo]
    exact .refl _
  case nodup => exact .nil
  case within => exact fun _ hMem => nomatch hMem
  case copying => exact fun _ => rfl
  case targetable =>
    rintro (hPc | hListed)
    · exact hTarget hPc
    · exact absurd rfl hListed

/- Who was visited was in the copy. -/
theorem mem_listed
    (hTour : Tour n visits t task)
    {visit : Visit}
    (hMem : visit ∈ visits)
    (hTask : visit.task = t) :
    visit.session ∈ task.listed := by
  apply hTour.visited.subset
  apply List.mem_append_left
  exact List.mem_map_of_mem
    (List.mem_filter.mpr ⟨hMem, decide_eq_true hTask⟩)

end Tour

/- What the strand owns, and the calls that are made. -/
structure ToursInv {ω : Type} (s : Broadcast ω) : Prop where
  active_nodup : s.active.Nodup
  active_lt : ∀ j ∈ s.active, j < s.sessions.length
  posted_lt :
    ∀ j, .insert j ∈ s.strand → j < s.sessions.length
  tours :
    ∀ (t : Nat) (task : NotifyTask),
      s.tasks[t]? = some task →
        Tour s.sessions.length s.visits t task
  made :
    ∀ visit ∈ s.visits,
      (s.tasks.map NotifyTask.payload)[visit.task]? =
        some visit.payload

namespace ToursInv

variable {ω : Type}
variable {s s' : Broadcast ω}

theorem visitsOf_length
    (hInv : ToursInv s) :
    visitsOf s.tasks.length s.visits = [] := by
  simp only [visitsOf, List.map_eq_nil_iff,
    List.filter_eq_nil_iff, decide_eq_true_eq]
  intro visit hMem hTask
  have hLt :=
    (List.getElem?_eq_some_iff.mp (hInv.made visit hMem)).1
  rw [hTask, List.length_map] at hLt
  exact Nat.lt_irrefl _ hLt

/- A move that leaves the calls and the strand's set. -/
theorem frame
    (hInv : ToursInv s)
    (hLe : s.sessions.length ≤ s'.sessions.length)
    (hActive : s'.active = s.active)
    (hPosted :
      ∀ j, .insert j ∈ s'.strand →
        .insert j ∈ s.strand ∨ j < s'.sessions.length)
    (hTasks : s'.tasks = s.tasks)
    (hVisits : s'.visits = s.visits) :
    ToursInv s' := by
  constructor
  case active_nodup =>
    rw [hActive]
    exact hInv.active_nodup
  case active_lt =>
    rw [hActive]
    exact fun j hMem =>
      Nat.lt_of_lt_of_le (hInv.active_lt j hMem) hLe
  case posted_lt =>
    intro j hMem
    rcases hPosted j hMem with hOld | hNew
    · exact Nat.lt_of_lt_of_le (hInv.posted_lt j hOld) hLe
    · exact hNew
  case tours =>
    rw [hTasks, hVisits]
    exact fun t task hGet => (hInv.tours t task hGet).mono hLe
  case made =>
    rw [hTasks, hVisits]
    exact hInv.made

/- A call begins, and may ask the strand for a copy. -/
theorem begin
    (hInv : ToursInv s)
    (payload : Payload) :
    ToursInv (s.begin payload) := by
  have hTours :
      ∀ pc : NotifyTaskPc, pc.todo = [] →
        (pc = .copying → payload.isUntargetable = false) →
        ∀ (t : Nat) (task : NotifyTask),
          (s.tasks ++ [⟨payload, pc, []⟩])[t]? = some task →
            Tour s.sessions.length s.visits t task := by
    intro pc hTodo hTarget t task hGet
    rcases Records.getElem?_concat_eq_some.mp hGet with
      hOld | ⟨rfl, rfl⟩
    · exact hInv.tours t task hOld
    · exact .begin payload hInv.visitsOf_length hTodo hTarget
  have hMade :
      ∀ pc : NotifyTaskPc, ∀ visit ∈ s.visits,
        ((s.tasks ++ [NotifyTask.mk payload pc []]).map
            NotifyTask.payload)[visit.task]? =
          some visit.payload := by
    intro pc visit hMem
    rw [List.map_append]
    exact Records.getElem?_mono (List.prefix_append _ _)
      (hInv.made visit hMem)
  unfold Broadcast.begin
  split
  · next hGoes =>
      have hTarget : payload.isUntargetable = false := by
        simpa using ((Bool.and_eq_true _ _).mp hGoes).2
      refine ⟨hInv.active_nodup, hInv.active_lt, ?_,
        hTours _ rfl fun _ => hTarget, hMade _⟩
      intro j hMem
      exact hInv.posted_lt j (by simpa using hMem)
  · exact ⟨hInv.active_nodup, hInv.active_lt, hInv.posted_lt,
      hTours _ rfl (fun hNot => nomatch hNot), hMade _⟩

/- The strand runs its next work. -/
theorem runJob
    (hInv : ToursInv s)
    {job : StrandJob}
    (hJob : ∀ j, job = .insert j → j < s.sessions.length) :
    ToursInv (s.runJob job) := by
  cases job with
  | insert j =>
      refine { hInv with active_nodup := ?_, active_lt := ?_ }
      · exact hInv.active_nodup.insert
      · intro i hMem
        rcases List.mem_insert_iff.mp hMem with rfl | hOld
        · exact hJob i rfl
        · exact hInv.active_lt i hOld
  | erase j =>
      refine { hInv with active_nodup := ?_, active_lt := ?_ }
      · exact hInv.active_nodup.erase j
      · exact fun i hMem =>
          hInv.active_lt i (List.mem_of_mem_erase hMem)
  | closeAll =>
      constructor
      case active_nodup => exact .nil
      case active_lt => exact fun _ hMem => nomatch hMem
      all_goals simp only [Broadcast.runJob, List.length_mapIdx]
      case posted_lt => exact hInv.posted_lt
      case tours => exact hInv.tours
      case made => exact hInv.made
  | copy t =>
      refine { hInv with tours := ?_, made := ?_ }
      · exact Records.forall_getElem?_modify_of_forall
          hInv.tours fun task _ hTour =>
            hTour.copy hInv.active_nodup hInv.active_lt
      · simp only [Broadcast.runJob]
        rw [Records.map_modify_of_eq
          (NotifyTask.payload_copy s.active)]
        exact hInv.made

/- The loop of a call comes to a session. -/
theorem visit
    (hInv : ToursInv s)
    {t j : Nat}
    (hTodo : ∃ task ∈ s.tasks[t]?, j ∈ task.pc.todo) :
    ToursInv (s.visit t j) := by
  rcases hTodo with ⟨task, hTask, hMem⟩
  have hTour := hInv.tours t task hTask
  have hListed : j ∈ task.listed :=
    hTour.visited.subset (List.mem_append_right _ hMem)
  obtain ⟨served, hServed⟩ :
      ∃ served, s.sessions[j]? = some served :=
    ⟨_, List.getElem?_eq_getElem (hTour.within j hListed)⟩
  simp only [Broadcast.visit, Option.mem_def.mp hTask, hServed]
  constructor
  case active_nodup => exact hInv.active_nodup
  all_goals simp only [List.length_modify]
  case active_lt => exact hInv.active_lt
  case posted_lt => exact hInv.posted_lt
  case tours =>
    apply Records.forall_getElem?_modify
    · exact fun t' task' hGet hNe =>
        (hInv.tours t' task' hGet).others (Ne.symm hNe)
    · intro task' hGet
      obtain rfl : task = task' :=
        Option.some.inj (hTask.symm.trans hGet)
      exact hTour.leave rfl hMem
  case made =>
    rw [Records.map_modify_of_eq (NotifyTask.payload_leave j)]
    intro visit hVisit
    rcases List.mem_append.mp hVisit with hOld | hNew
    · exact hInv.made visit hOld
    · rcases List.mem_singleton.mp hNew with rfl
      rw [List.getElem?_map, Option.mem_def.mp hTask]
      rfl

/- The call that a visit is of, and its copy. -/
theorem found
    (hInv : ToursInv s)
    (visit : Visit)
    (hMem : visit ∈ s.visits) :
    ∃ task,
      s.tasks[visit.task]? = some task ∧
        task.payload = visit.payload ∧
        visit.session ∈ task.listed := by
  have hMade := hInv.made visit hMem
  rw [List.getElem?_map, Option.map_eq_some_iff] at hMade
  rcases hMade with ⟨task, hTask, hSame⟩
  exact ⟨task, hTask, hSame,
    (hInv.tours _ task hTask).mem_listed hMem rfl⟩

end ToursInv

namespace Broadcast

variable {ω : Type}

theorem toursInv
    {s : Broadcast ω}
    (hReach : Reachable s) :
    ToursInv s := by
  refine invariant ToursInv ?_ ?_ hReach
  · constructor <;> simp [start]
  · intro s m _ hInv hEnabled
    cases m with
    | start =>
        exact hInv.frame le_rfl rfl (fun _ => .inl) rfl rfl
    | admitSession cfg =>
        refine hInv.frame ?_ rfl (fun _ => .inl) rfl rfl
        simp [update]
    | session j a =>
        refine hInv.frame ?_ rfl (fun _ => .inl) rfl rfl
        simp [update]
    | post job =>
        refine hInv.frame le_rfl rfl ?_ rfl rfl
        intro j hMem
        rcases List.mem_append.mp hMem with hOld | hNew
        · exact .inl hOld
        · rw [← List.mem_singleton.mp hNew] at hEnabled
          exact .inr hEnabled.2
    | runStrand =>
        simp only [update]
        split
        · exact hInv
        · next job rest hStrand =>
            have hRest : ToursInv { s with strand := rest } := by
              refine hInv.frame le_rfl rfl ?_ rfl rfl
              intro j hMem
              rw [hStrand]
              exact .inl (List.mem_cons_of_mem _ hMem)
            refine hRest.runJob fun j hJob => ?_
            apply hInv.posted_lt
            rw [hStrand, hJob]
            exact List.mem_cons_self
    | notify payload => exact hInv.begin payload
    | visit t j => exact hInv.visit hEnabled

------------------------------------------------------------
-- What Reaches A Session
------------------------------------------------------------

/- The items that the calls left at session `j`, in order. -/
def delivered
    (charSigned : Bool)
    (j : Nat)
    (visits : List Visit) : List WriteItem :=
  (visits.filter fun visit =>
      visit.session = j ∧ visit.fate = .accepted).map
    fun visit => visit.payload.item charSigned

theorem delivered_append
    (charSigned : Bool)
    (j : Nat)
    (first second : List Visit) :
    delivered charSigned j (first ++ second) =
      delivered charSigned j first ++
        delivered charSigned j second := by
  simp [delivered]

theorem delivered_singleton
    (charSigned : Bool)
    (j : Nat)
    (visit : Visit) :
    delivered charSigned j [visit] =
      if visit.session = j ∧ visit.fate = .accepted then
        [visit.payload.item charSigned]
      else
        [] := by
  simp only [delivered, List.filter_cons, List.filter_nil,
    decide_eq_true_eq]
  split <;> rfl

theorem delivered_eq_nil
    {charSigned : Bool}
    {j : Nat}
    {visits : List Visit}
    (hOther : ∀ visit ∈ visits, visit.session ≠ j) :
    delivered charSigned j visits = [] := by
  simp only [delivered, List.map_eq_nil_iff,
    List.filter_eq_nil_iff, decide_eq_true_eq]
  exact fun visit hMem hAt => hOther visit hMem hAt.1

/- What an action other than a call's leaves at its queue. -/
theorem itemsOf_after
    (served : ServedSession ω)
    {a : Action ω}
    (hOther : a.isTryNotify = false) :
    itemsOf .tryNotify
        (served.after (some a)).session.writeChannel.admitted =
      itemsOf .tryNotify
        served.session.writeChannel.admitted := by
  have hProducer : Session.producer a ≠ some .tryNotify := by
    cases a with
    | tryNotify callName buffer => cases hOther
    | _ => simp [Session.producer]
  rw [ServedSession.session_after_some,
    Session.admitted_update, itemsOf_append,
    Session.itemsOf_admits _ _ _ hProducer, List.append_nil]

/- What a call leaves there. -/
theorem itemsOf_offer
    (served : ServedSession ω)
    (t j : Nat)
    (payload : Payload) :
    itemsOf .tryNotify
        (served.after
          (served.offer payload)).session.writeChannel.admitted =
      itemsOf .tryNotify served.session.writeChannel.admitted ++
        delivered served.cfg.charSigned j
          [⟨t, payload, j, served.fate payload⟩] := by
  rw [delivered_singleton]
  unfold ServedSession.offer ServedSession.fate
  split
  · rw [ServedSession.session_after_some,
      Session.admitted_update, itemsOf_append]
    simp only [Session.admits]
    split <;> simp [itemsOf, WriteItem.tryNotify, Payload.item]
  · simp

/- One move leaves at a session what its loops leave there. -/
theorem itemsOf_actionAt
    {s : Broadcast ω}
    {m : BroadcastMove ω}
    (hEnabled : s.Enabled m)
    {j : Nat}
    {served : ServedSession ω}
    (hGet : s.sessions[j]? = some served) :
    itemsOf .tryNotify
        (served.after
          (s.actionAt j served m)).session.writeChannel.admitted =
      itemsOf .tryNotify served.session.writeChannel.admitted ++
        delivered served.cfg.charSigned j (s.toured m) := by
  have hNone :
      itemsOf .tryNotify
          served.session.writeChannel.admitted =
        itemsOf .tryNotify
            served.session.writeChannel.admitted ++
          delivered served.cfg.charSigned j [] :=
    (List.append_nil _).symm
  cases m with
  | session i a =>
      simp only [actionAt]
      split
      · rw [itemsOf_after served hEnabled.1]
        exact hNone
      · exact hNone
  | runStrand =>
      simp only [actionAt]
      split
      · rw [itemsOf_after served rfl]
        exact hNone
      · exact hNone
  | visit t i =>
      rcases hEnabled with ⟨task, hTask, -⟩
      simp only [actionAt, toured, Option.mem_def.mp hTask,
        Option.bind_some]
      by_cases hSame : i = j
      · subst hSame
        simp only [hGet, if_true]
        exact itemsOf_offer served t i task.payload
      · have hOther :
            ∀ fate : VisitFate,
              delivered served.cfg.charSigned j
                [⟨t, task.payload, i, fate⟩] = [] := by
          intro fate
          apply delivered_eq_nil
          intro visit hMem
          rcases List.mem_singleton.mp hMem with rfl
          exact hSame
        rw [if_neg hSame]
        cases s.sessions[i]? with
        | none => exact hNone
        | some other =>
            simp only [hOther]
            exact hNone
  | start => exact hNone
  | admitSession cfg => exact hNone
  | post job => exact hNone
  | notify payload => exact hNone

/-
  A session's queue has from `try_notify` what the calls
  left there, in the order in which they came.
-/
theorem itemsOf_eq_delivered
    {s : Broadcast ω}
    (hReach : Reachable s) :
    ∀ (j : Nat) (served : ServedSession ω),
      s.sessions[j]? = some served →
        itemsOf .tryNotify
            served.session.writeChannel.admitted =
          delivered served.cfg.charSigned j s.visits := by
  refine invariant
    (fun s => ∀ (j : Nat) (served : ServedSession ω),
      s.sessions[j]? = some served →
        itemsOf .tryNotify
            served.session.writeChannel.admitted =
          delivered served.cfg.charSigned j s.visits)
    (by simp [start]) ?_ hReach
  intro s m hPrior hInv hEnabled j served' hGet
  rw [visits_update, delivered_append]
  rcases session_cases hGet with
    ⟨cfg, rfl, rfl, rfl⟩ | ⟨served, hOld, rfl⟩
  · have hTours := toursInv hPrior
    have hEarlier :
        ∀ visit ∈ s.visits,
          visit.session ≠ s.sessions.length := by
      intro visit hMem
      rcases hTours.found visit hMem with
        ⟨task, hTask, -, hListed⟩
      exact Nat.ne_of_lt
        ((hTours.tours _ task hTask).within _ hListed)
    rw [delivered_eq_nil hEarlier]
    rfl
  · rw [itemsOf_actionAt hEnabled hOld, hInv j served hOld,
      ServedSession.cfg_after]

------------------------------------------------------------
-- Tenants
------------------------------------------------------------

/- Only a stamp gives a session an identity. -/
theorem stamped_of_identityAt
    {log : List Event}
    (hNew : identityAt log ≠ {}) :
    .stamped (identityAt log) ∈ log := by
  induction log using List.reverseRecOn with
  | nil => exact absurd rfl hNew
  | append_singleton log event ih =>
      simp only [identityAt, List.foldl_append,
        List.foldl_cons, List.foldl_nil] at hNew ih ⊢
      cases event with
      | stamped identity => simp
      | _ => exact List.mem_append_left _ (ih hNew)

/- A session that has a tenant was stamped with it. -/
theorem stamped_of_tenant
    {cfg : Config ω}
    {session : Session}
    (hReach : Session.Reachable cfg session)
    (hTenant : session.identity.logicalSessionId ≠ []) :
    .stamped session.identity ∈ session.log := by
  have hIdentity := Session.identity_eq hReach
  have hNew : identityAt session.log ≠ {} := by
    intro hNone
    rw [hIdentity, hNone] at hTenant
    exact hTenant rfl
  rw [hIdentity]
  exact stamped_of_identityAt hNew

/- Session `j` was stamped as one of `target`. -/
def StampedFor
    (s : Broadcast ω)
    (j : Nat)
    (target : StdString) : Prop :=
  ∃ served identity,
    s.sessions[j]? = some served ∧
      .stamped identity ∈ served.session.log ∧
      identity.logicalSessionId = target

theorem StampedFor.update
    {s : Broadcast ω}
    {j : Nat}
    {target : StdString}
    (hStamped : s.StampedFor j target)
    (m : BroadcastMove ω) :
    (s.update m).StampedFor j target := by
  rcases hStamped with ⟨served, identity, hGet, hLog, hSame⟩
  refine ⟨_, identity, getElem?_sessions_update hGet m, ?_,
    hSame⟩
  cases s.actionAt j served m with
  | none => exact hLog
  | some a =>
      rw [ServedSession.session_after_some, Session.log_update]
      exact List.mem_append_left _ hLog

/- Who is offered a payload with a target is its tenant. -/
theorem stamped_of_fate
    {served : ServedSession ω}
    (hReach : Session.Reachable served.cfg served.session)
    {payload : Payload}
    (hTargetable : payload.isUntargetable = false)
    (hFate : served.fate payload ≠ .skipped)
    {target : StdString}
    (hTarget : payload.target = some target) :
    target ≠ [] ∧
      .stamped served.session.identity ∈ served.session.log ∧
      served.session.identity.logicalSessionId = target := by
  have hReaches :
      payload.reaches served.session.identity = true := by
    unfold ServedSession.fate at hFate
    split at hFate
    · assumption
    · exact absurd rfl hFate
  have hSame :
      served.session.identity.logicalSessionId = target := by
    simpa [Payload.reaches, hTarget] using hReaches
  have hNe : target ≠ [] := by
    simpa [Payload.isUntargetable, hTarget] using hTargetable
  refine ⟨hNe, stamped_of_tenant hReach ?_, hSame⟩
  rw [hSame]
  exact hNe

/- What is offered at a session it is told as a tenant. -/
theorem stamped_of_visit
    {s : Broadcast ω}
    (hReach : Reachable s) :
    ∀ visit ∈ s.visits, visit.fate ≠ .skipped →
      ∀ target, visit.payload.target = some target →
        target ≠ [] ∧ s.StampedFor visit.session target := by
  refine invariant
    (fun s => ∀ visit ∈ s.visits, visit.fate ≠ .skipped →
      ∀ target, visit.payload.target = some target →
        target ≠ [] ∧ s.StampedFor visit.session target)
    (by simp [start]) ?_ hReach
  intro s m hPrior hInv hEnabled visit hMem hFate target
    hTarget
  rw [visits_update] at hMem
  rcases List.mem_append.mp hMem with hOld | hNew
  · rcases hInv visit hOld hFate target hTarget with
      ⟨hNe, hStamped⟩
    exact ⟨hNe, hStamped.update m⟩
  · cases m with
    | visit t j =>
        rcases hEnabled with ⟨task, hTask, hTodo⟩
        have hTour := (toursInv hPrior).tours t task hTask
        have hListed : j ∈ task.listed :=
          hTour.visited.subset (List.mem_append_right _ hTodo)
        have hTargetable :=
          hTour.targetable (.inr (List.ne_nil_of_mem hListed))
        obtain ⟨served, hServed⟩ :
            ∃ served, s.sessions[j]? = some served :=
          ⟨_, List.getElem?_eq_getElem
            (hTour.within j hListed)⟩
        simp only [toured, Option.mem_def.mp hTask, hServed,
          List.mem_singleton] at hNew
        subst hNew
        rcases stamped_of_fate
            (session_reachable hPrior j served hServed)
            hTargetable hFate hTarget with
          ⟨hNe, hStamped, hSame⟩
        have hFor : s.StampedFor j target :=
          ⟨served, _, hServed, hStamped, hSame⟩
        exact ⟨hNe, hFor.update _⟩
    | _ => cases hNew

/- A payload without a target is offered to everyone. -/
theorem target_of_skipped
    {s : Broadcast ω}
    (hReach : Reachable s) :
    ∀ visit ∈ s.visits, visit.fate = .skipped →
      visit.payload.target ≠ none := by
  refine invariant
    (fun s => ∀ visit ∈ s.visits, visit.fate = .skipped →
      visit.payload.target ≠ none)
    (by simp [start]) ?_ hReach
  intro s m _ hInv _ visit hMem hFate hNone
  rw [visits_update] at hMem
  rcases List.mem_append.mp hMem with hOld | hNew
  · exact hInv visit hOld hFate hNone
  · cases m with
    | visit t j =>
        simp only [toured] at hNew
        split at hNew
        · next task served _ _ =>
            rcases List.mem_singleton.mp hNew with rfl
            have hReaches :
                task.payload.reaches
                  served.session.identity = true := by
              simp only at hNone
              simp [Payload.reaches, hNone]
            simp only [ServedSession.fate, hReaches,
              if_true] at hFate
            split at hFate <;> cases hFate
        · cases hNew
    | _ => cases hNew

------------------------------------------------------------
-- Every Run
------------------------------------------------------------

/-
  What the calls do to the sessions of a server. A session's
  queue holds what the calls left there and the wire carries
  that in order. What went to one tenant is at nobody's
  queue whom the application has not stamped with it, and a
  call comes once to each session of its copy.
-/
structure TenantsApart (s : Broadcast ω) : Prop where
  queued :
    ∀ (j : Nat) (served : ServedSession ω),
      s.sessions[j]? = some served →
        itemsOf .tryNotify
            served.session.writeChannel.admitted =
          delivered served.cfg.charSigned j s.visits
  written :
    ∀ (j : Nat) (served : ServedSession ω),
      s.sessions[j]? = some served →
        served.session.outbound <+:
            itemBytes served.cfg.order
              served.session.writeChannel.accepted ∧
          itemsOf .tryNotify
              served.session.writeChannel.accepted <+:
            delivered served.cfg.charSigned j s.visits
  tenant :
    ∀ visit ∈ s.visits, visit.fate = .accepted →
      ∀ target, visit.payload.target = some target →
        target ≠ [] ∧ s.StampedFor visit.session target
  everyone :
    ∀ visit ∈ s.visits, visit.payload.target = none →
      visit.fate ≠ .skipped
  once :
    ∀ (t : Nat) (task : NotifyTask),
      s.tasks[t]? = some task →
        task.listed.Nodup ∧
          (visitsOf t s.visits ++ task.pc.todo).Perm
            task.listed
  caused :
    ∀ visit ∈ s.visits,
      ∃ task,
        s.tasks[visit.task]? = some task ∧
          task.payload = visit.payload

theorem tenantsApart
    (s : Broadcast ω)
    (hReach : Reachable s) :
    TenantsApart s := by
  have hTours := toursInv hReach
  have hQueued := itemsOf_eq_delivered hReach
  constructor
  case queued => exact hQueued
  case written =>
    intro j served hGet
    refine ⟨Session.outbound_prefix_accepted
      (session_reachable hReach j served hGet), ?_⟩
    rw [← hQueued j served hGet]
    exact (Channel.accepted_prefix_admitted _).filter _
  case tenant =>
    intro visit hMem hAccepted
    apply stamped_of_visit hReach visit hMem
    rw [hAccepted]
    exact fun hNot => nomatch hNot
  case everyone =>
    exact fun visit hMem hNone hSkipped =>
      target_of_skipped hReach visit hMem hSkipped hNone
  case once =>
    exact fun t task hGet =>
      ⟨(hTours.tours t task hGet).nodup,
        (hTours.tours t task hGet).visited⟩
  case caused =>
    intro visit hMem
    rcases hTours.found visit hMem with
      ⟨task, hTask, hSame, -⟩
    exact ⟨task, hTask, hSame⟩

/- One tenant's update, and news for everyone. -/
def sync : Payload :=
  ⟨literal "sync", Buffer.empty, some (literal "a")⟩

def news : Payload :=
  ⟨literal "news", Buffer.empty, none⟩

/- Two tenants are served while both are sent. -/
def tenantMoves : List (BroadcastMove Unit) :=
  [.start,
    .admitSession {},
    .admitSession {},
    .post (.insert 0),
    .post (.insert 1),
    .runStrand,
    .runStrand,
    .session 0 (.stamp { logicalSessionId := literal "a" }),
    .session 1 (.stamp { logicalSessionId := literal "b" }),
    .notify sync,
    .notify news,
    .runStrand,
    .runStrand,
    .visit 0 1,
    .visit 1 1,
    .visit 0 0,
    .visit 1 0]

theorem tenantsApart_two :
    ∃ s : Broadcast Unit,
      delivered true 0 s.visits =
          [sync.item true, news.item true] ∧
        delivered true 1 s.visits = [news.item true] ∧
        TenantsApart s := by
  obtain ⟨s, hReach, hRun⟩ :=
    Transition.exists_of_run step start tenantMoves
      (fun s : Broadcast Unit =>
        decide
          (delivered true 0 s.visits =
              [sync.item true, news.item true] ∧
            delivered true 1 s.visits = [news.item true]))
      (by decide +kernel)
  have hDelivered := of_decide_eq_true hRun
  exact ⟨s, hDelivered.1, hDelivered.2, tenantsApart s hReach⟩

end Broadcast

end GrlxRpc
