import GrlxRpc.Dispatch.Dispatcher
import GrlxRpc.Lib.Locked
import GrlxRpc.Message.Accepted

/-
  The client's notification handlers.

  Any number of threads register, unregister, clear and ask,
  while notifications arrive. Each access to the map happens
  between lock and unlock and takes several steps there. The
  handler that a notification finds is copied out and runs
  after the unlock.

  Main declarations:
    * `NotificationHandler.run` and `invokeHandler`
    * `RegistryOp`, `Registry.body` and `Registry.apply`
    * `registeredLast`
    * `Notifications` and `Notifications.step`
    * `Notifications.Dispatched`
    * `Notifications.dispatched`
-/

------------------------------------------------------------
-- Handlers
------------------------------------------------------------

namespace GrlxRpc

/- A `std::function<void(ArgsT...)>` that was registered. -/
structure NotificationHandler (ω : Type) where
  args : List WireType
  handler :
    ω → (Message.request args).body.Val → Except Exn Unit

/-
  How a notification ends. What its handler throws is caught
  and logged.
-/
inductive NotificationOutcome
  | unhandled
  | undecodable
  | handled (result : Except Exn Unit)

/- The wrapper around a handler, called with a body. -/
def NotificationHandler.run
    {ω : Type}
    (order : ByteOrder)
    (h : NotificationHandler ω)
    (buffer : Buffer)
    (w : ω) : NotificationOutcome :=
  let message := Message.request h.args
  (wrapper order
      (.ofLoader (message.body.load .bounded order))
      message.body.initial buffer).elim
    .undecodable fun args => .handled (h.handler w args)

/- `handle_notification` after the unlock. -/
def invokeHandler
    {ω : Type}
    (order : ByteOrder)
    (found : Option (NotificationHandler ω))
    (buffer : Buffer)
    (w : ω) : NotificationOutcome :=
  match found with
  | none => .unhandled
  | some h => h.run order buffer w

------------------------------------------------------------
-- The Code Between Lock And Unlock
------------------------------------------------------------

/- `notification_handlers_`: a new entry's function is empty. -/
abbrev HandlerTable (ω : Type) : Type :=
  AList fun _ : UInt64 => Option (NotificationHandler ω)

/- `disconnect` ends with what `clear` does. -/
inductive RegistryOp (ω : Type)
  | registerNotificationHandler
      (name : StdString) (handler : NotificationHandler ω)
  | unregisterNotificationHandler (name : StdString)
  | clearNotificationHandlers
  | hasNotificationHandler (name : StdString)
  | notificationHandlerCount
  | handleNotification (callId : UInt64) (buffer : Buffer)

inductive RegistryRet (ω : Type)
  | registered (total : Nat)
  | done
  | has (found : Bool)
  | count (total : Nat)
  | found (handler : Option (NotificationHandler ω))

/- What is done next. -/
inductive RegistryPc (ω : Type)
  -- `notification_handlers_[hash_value] = std::move(wrapper)`
  | index (hash : UInt64) (handler : NotificationHandler ω)
  | assign (hash : UInt64) (handler : NotificationHandler ω)
  | total
  | erase (hash : UInt64)
  -- the entries are destroyed one by one
  | clear
  | test (hash : UInt64)
  | size
  | find (callId : UInt64)
  | copy (callId : UInt64)
  | answered (ret : RegistryRet ω)

namespace Registry

variable {ω : Type}

def enter
    (charSigned : Bool) : RegistryOp ω → RegistryPc ω
  | .registerNotificationHandler name handler =>
      .index (shash64 charSigned name) handler
  | .unregisterNotificationHandler name =>
      .erase (shash64 charSigned name)
  | .clearNotificationHandlers => .clear
  | .hasNotificationHandler name =>
      .test (shash64 charSigned name)
  | .notificationHandlerCount => .size
  | .handleNotification callId _ => .find callId

def advance
    (pc : RegistryPc ω)
    (table : HandlerTable ω) :
    RegistryPc ω × HandlerTable ω :=
  match pc with
  | .index hash handler =>
      (.assign hash handler,
        if (table.lookup hash).isSome then table
        else table.insert hash none)
  | .assign hash handler =>
      (.total, table.insert hash (some handler))
  | .total =>
      (.answered (.registered table.entries.length), table)
  | .erase hash => (.answered .done, table.erase hash)
  | .clear =>
      match table.entries with
      | [] => (.answered .done, table)
      | entry :: _ => (.clear, table.erase entry.1)
  | .test hash =>
      (.answered (.has (table.lookup hash).isSome), table)
  | .size => (.answered (.count table.entries.length), table)
  | .find callId =>
      if (table.lookup callId).isSome then
        (.copy callId, table)
      else
        (.answered (.found none), table)
  | .copy callId =>
      (.answered (.found (table.lookup callId).join), table)
  | .answered ret => (.answered ret, table)

def result : RegistryPc ω → Option (RegistryRet ω)
  | .answered ret => some ret
  | _ => none

def body
    (charSigned : Bool) :
    Locked.Body (RegistryOp ω) (RegistryRet ω)
      (HandlerTable ω) (RegistryPc ω) where
  enter := enter charSigned
  advance := advance
  result := result

/- The steps that are left. -/
def left
    (pc : RegistryPc ω)
    (table : HandlerTable ω) : Nat :=
  match pc with
  | .index _ _ => 3
  | .assign _ _ => 2
  | .total => 1
  | .erase _ => 1
  | .clear => table.entries.length + 1
  | .test _ => 1
  | .size => 1
  | .find _ => 2
  | .copy _ => 1
  | .answered _ => 0

------------------------------------------------------------
-- Its Purpose
------------------------------------------------------------

/- The same operations, each at once. -/
def apply
    (charSigned : Bool)
    (op : RegistryOp ω)
    (table : HandlerTable ω) :
    HandlerTable ω × RegistryRet ω :=
  match op with
  | .registerNotificationHandler name handler =>
      let table :=
        table.insert (shash64 charSigned name) (some handler)
      (table, .registered table.entries.length)
  | .unregisterNotificationHandler name =>
      (table.erase (shash64 charSigned name), .done)
  | .clearNotificationHandlers => (∅, .done)
  | .hasNotificationHandler name =>
      (table,
        .has (table.lookup (shash64 charSigned name)).isSome)
  | .notificationHandlerCount =>
      (table, .count table.entries.length)
  | .handleNotification callId _ =>
      (table, .found (table.lookup callId).join)

/-
  What is known at each point of an operation whose effect
  and answer are `goal`, about the table of that moment.
-/
def Stage
    (goal : HandlerTable ω × RegistryRet ω) :
    RegistryPc ω → HandlerTable ω → Prop
  | .index hash handler, now =>
      goal =
        (now.insert hash (some handler),
          .registered
            (now.insert hash (some handler)).entries.length)
  | .assign hash handler, now =>
      goal =
        (now.insert hash (some handler),
          .registered
            (now.insert hash (some handler)).entries.length)
  | .total, now =>
      goal = (now, .registered now.entries.length)
  | .erase hash, now => goal = (now.erase hash, .done)
  | .clear, _ => goal = (∅, .done)
  | .test hash, now =>
      goal = (now, .has (now.lookup hash).isSome)
  | .size, now => goal = (now, .count now.entries.length)
  | .find callId, now =>
      goal = (now, .found (now.lookup callId).join)
  | .copy callId, now =>
      goal = (now, .found (now.lookup callId).join)
  | .answered ret, now => goal = (now, ret)

theorem stage_enter
    (charSigned : Bool)
    (op : RegistryOp ω)
    (table : HandlerTable ω) :
    Stage (apply charSigned op table) (enter charSigned op)
      table := by
  cases op <;> rfl

theorem stage_advance
    {goal : HandlerTable ω × RegistryRet ω}
    {pc : RegistryPc ω}
    {now : HandlerTable ω}
    (hStage : Stage goal pc now) :
    Stage goal (advance pc now).1 (advance pc now).2 := by
  cases pc with
  | index hash handler =>
      simp only [advance]
      split
      · exact hStage
      · simp only [Stage, AList.insert_insert]
        exact hStage
  | clear =>
      simp only [advance]
      split
      · next hEmpty =>
          have hNow : now = ∅ := AList.ext hEmpty
          rw [hNow]
          exact hStage
      · exact hStage
  | find callId =>
      simp only [advance]
      split
      · exact hStage
      · next hNone =>
          have hMissing : now.lookup callId = none := by
            simpa using hNone
          simp only [Stage, hMissing, Option.join_none]
            at hStage ⊢
          exact hStage
  | assign hash handler => exact hStage
  | total => exact hStage
  | erase hash => exact hStage
  | test hash => exact hStage
  | size => exact hStage
  | copy callId => exact hStage
  | answered ret => exact hStage

theorem left_erase
    {table : HandlerTable ω}
    {entry : Sigma fun _ : UInt64 =>
      Option (NotificationHandler ω)}
    {rest : List (Sigma fun _ : UInt64 =>
      Option (NotificationHandler ω))}
    (hEntries : table.entries = entry :: rest) :
    (table.erase entry.1).entries.length <
      table.entries.length := by
  have hRest : (table.erase entry.1).entries = rest := by
    change List.kerase entry.1 table.entries = rest
    rw [hEntries, List.kerase_cons_eq rfl]
  rw [hRest, hEntries]
  exact Nat.lt_succ_self _

theorem implements (charSigned : Bool) :
    Locked.Implements (body charSigned)
      (apply (ω := ω) charSigned) id left := by
  constructor
  case correct =>
    intro op table pc now ret hProgress hResult
    have hStage : Stage (apply charSigned op table) pc now :=
      hProgress.invariant _ (stage_enter charSigned op table)
        fun _ _ _ => stage_advance
    cases pc with
    | answered ret' =>
        obtain rfl : ret' = ret := Option.some.inj hResult
        exact hStage
    | _ => cases hResult
  case decreases =>
    intro pc table hBusy
    cases pc with
    | clear =>
        simp only [body, advance]
        split
        · exact Nat.succ_pos _
        · next entry rest hEntries =>
            exact Nat.succ_lt_succ (left_erase hEntries)
    | find callId =>
        simp only [body, advance]
        split
        · exact Nat.lt_succ_self _
        · exact Nat.succ_pos _
    | answered ret => cases hBusy
    | _ => exact Nat.lt_succ_self _

------------------------------------------------------------
-- The Last Registration
------------------------------------------------------------

/- The handler of a hash after one operation. -/
def leaves
    (charSigned : Bool)
    (hash : UInt64)
    (held : Option (NotificationHandler ω)) :
    RegistryOp ω → Option (NotificationHandler ω)
  | .registerNotificationHandler name handler =>
      if shash64 charSigned name = hash then some handler
      else held
  | .unregisterNotificationHandler name =>
      if shash64 charSigned name = hash then none else held
  | .clearNotificationHandlers => none
  | .hasNotificationHandler _ => held
  | .notificationHandlerCount => held
  | .handleNotification _ _ => held

abbrev History (ω : Type) : Type :=
  List (Locked.Entry (RegistryOp ω) (RegistryRet ω))

/- The handler that a history of operations leaves. -/
def registeredLast
    (charSigned : Bool)
    (hash : UInt64)
    (log : History ω) : Option (NotificationHandler ω) :=
  log.foldl
    (fun held entry => leaves charSigned hash held entry.op)
    none

theorem lookup_apply
    (charSigned : Bool)
    (op : RegistryOp ω)
    (table : HandlerTable ω)
    (hash : UInt64) :
    ((apply charSigned op table).1.lookup hash).join =
      leaves charSigned hash (table.lookup hash).join op := by
  cases op with
  | registerNotificationHandler name handler =>
      simp only [apply, leaves]
      split
      · next hSame => rw [hSame, AList.lookup_insert]; rfl
      · next hOther =>
          rw [AList.lookup_insert_ne (Ne.symm hOther)]
  | unregisterNotificationHandler name =>
      simp only [apply, leaves]
      split
      · next hSame => rw [hSame, AList.lookup_erase]; rfl
      · next hOther =>
          rw [AList.lookup_erase_ne (Ne.symm hOther)]
  | clearNotificationHandlers => rfl
  | hasNotificationHandler name => rfl
  | notificationHandlerCount => rfl
  | handleNotification callId buffer => rfl

theorem lookup_of_replays
    {charSigned : Bool}
    {table last : HandlerTable ω}
    {log : History ω}
    (hReplays :
      Locked.Replays (apply charSigned) table log last)
    (hash : UInt64) :
    (last.lookup hash).join =
      log.foldl
        (fun held entry => leaves charSigned hash held entry.op)
        (table.lookup hash).join := by
  induction log generalizing table with
  | nil => rw [hReplays, List.foldl_nil]
  | cons entry rest ih =>
      rw [ih hReplays.2, List.foldl_cons, lookup_apply]

/- A notification finds what was registered last before it. -/
theorem found_eq_registeredLast
    {charSigned : Bool}
    {log : History ω}
    {last : HandlerTable ω}
    (hReplays : Locked.Replays (apply charSigned) ∅ log last)
    {p k : Nat}
    {callId : UInt64}
    {buffer : Buffer}
    {handler : Option (NotificationHandler ω)}
    (hEntry :
      log[p]? =
        some
          ⟨k, .handleNotification callId buffer,
            .found handler⟩) :
    handler =
      registeredLast charSigned callId (log.take p) := by
  rcases hReplays.found hEntry with ⟨table, hBefore, hFound⟩
  have hLookup := lookup_of_replays hBefore callId
  obtain rfl : (table.lookup callId).join = handler := by
    injection hFound
  exact hLookup

end Registry

------------------------------------------------------------
-- Dispatch
------------------------------------------------------------

/- What a lookup's handler did, and whose lookup it was. -/
structure NotificationRun where
  call : Nat
  outcome : NotificationOutcome

abbrev RegistryState (ω : Type) : Type :=
  Locked.State (RegistryOp ω) (RegistryRet ω)
    (HandlerTable ω) (RegistryPc ω)

/- `runs` is the history of the handlers that ran. -/
structure Notifications (ω : Type) where
  registry : RegistryState ω
  runs : List NotificationRun

inductive NotificationsMove (ω : Type)
  | registry (m : Locked.Move (RegistryOp ω))
  | run (k : Nat) (w : ω)

namespace Notifications

open Registry

variable {ω : Type}

def start : Notifications ω where
  registry := .start ∅
  runs := []

/-
  `handle_notification` goes on when its lookup returned, in
  the application's state of that moment.
-/
def step
    (charSigned : Bool)
    (order : ByteOrder)
    (s : Notifications ω) :
    NotificationsMove ω → Option (Notifications ω)
  | .registry m =>
      (Locked.step (body charSigned) s.registry m).map
        fun registry => { s with registry := registry }
  | .run k w =>
      match s.registry.calls[k]? with
      | some
          ⟨.handleNotification _ buffer,
            .returned (.found handler)⟩ =>
          if k ∈ s.runs.map NotificationRun.call then
            none
          else
            some
              { s with
                runs :=
                  s.runs ++
                    [⟨k, invokeHandler order handler buffer w⟩] }
      | _ => none

abbrev Reachable
    (charSigned : Bool)
    (order : ByteOrder)
    (s : Notifications ω) : Prop :=
  Transition.Reachable (step charSigned order) start s

variable {charSigned : Bool}
variable {order : ByteOrder}
variable {s : Notifications ω}

/- The registry is used by many and runs by itself. -/
theorem registry_run
    (hReach : Reachable charSigned order s) :
    Locked.Run (body charSigned) (.start ∅) s.registry := by
  induction hReach with
  | start => exact .start
  | @next s s' m _ _ hStep hRun =>
      cases m with
      | registry m =>
          rcases Option.map_eq_some_iff.mp hStep with
            ⟨registry, hMove, rfl⟩
          exact hRun.next trivial hMove
      | run k w =>
          simp only [step] at hStep
          split at hStep
          · rcases Option.ite_none_left_eq_some.mp hStep with
              ⟨-, hSame⟩
            rcases Option.some.inj hSame with rfl
            exact hRun
          · cases hStep

/- Run `run` is what the handler of a lookup did. -/
def RunOf
    (order : ByteOrder)
    (log : History ω)
    (run : NotificationRun) : Prop :=
  ∃ callId buffer handler w,
    ⟨run.call, .handleNotification callId buffer,
        .found handler⟩ ∈ log ∧
      run.outcome = invokeHandler order handler buffer w

theorem runs_inv
    (hReach : Reachable charSigned order s) :
    (s.runs.map NotificationRun.call).Nodup ∧
      ∀ run ∈ s.runs, RunOf order s.registry.log run := by
  induction hReach with
  | start => exact ⟨.nil, by simp [start]⟩
  | @next s s' m hPrior _ hStep hInv =>
      cases m with
      | registry m =>
          rcases Option.map_eq_some_iff.mp hStep with
            ⟨registry, hMove, rfl⟩
          have hGrows :
              s.registry.log <+: registry.log :=
            Locked.Run.log_mono (.next .start trivial hMove)
          refine ⟨hInv.1, fun run hMem => ?_⟩
          rcases hInv.2 run hMem with
            ⟨callId, buffer, handler, w, hEntry, hRest⟩
          exact ⟨callId, buffer, handler, w,
            hGrows.subset hEntry, hRest⟩
      | run k w =>
          simp only [step] at hStep
          split at hStep
          · next callId buffer handler hCall =>
              rcases Option.ite_none_left_eq_some.mp hStep with
                ⟨hNew, hSame⟩
              rcases Option.some.inj hSame with rfl
              have hLogged :=
                (Locked.linearizable_of_run
                  (implements charSigned)
                  (registry_run hPrior)).answered k _
                    (.found handler) hCall
              refine ⟨?_, fun run hMem => ?_⟩
              · rw [List.map_append]
                exact hInv.1.append (List.nodup_singleton _)
                  (List.disjoint_singleton.mpr hNew)
              · rcases List.mem_append.mp hMem with hOld | hLast
                · exact hInv.2 run hOld
                · rcases List.mem_singleton.mp hLast with rfl
                  exact ⟨callId, buffer, handler, w,
                    hLogged.mp rfl, rfl⟩
          · cases hStep

------------------------------------------------------------
-- Every Run
------------------------------------------------------------

/-
  The map is one whose operations happen at once. A handler
  runs at most once for a notification, it is the one that
  was registered last for the call id before the lookup, and
  what a server encoded for its parameters reaches it as it
  was.
-/
structure Dispatched
    (charSigned : Bool)
    (order : ByteOrder)
    (s : Notifications ω) : Prop where
  atomic :
    Locked.Linearizable (body charSigned) (apply charSigned)
      id ∅ s.registry
  once : (s.runs.map NotificationRun.call).Nodup
  current :
    ∀ run ∈ s.runs,
      ∃ p callId buffer w,
        let h :=
          registeredLast charSigned callId
            (s.registry.log.take p)
        s.registry.log[p]? =
            some
              ⟨run.call, .handleNotification callId buffer,
                .found h⟩ ∧
          run.outcome = invokeHandler order h buffer w
  intact :
    ∀ (k : Nat) (callId : UInt64) (buffer : Buffer)
        (h : NotificationHandler ω) (peer : ByteOrder)
        (args : (Message.request h.args).body.Val),
      ⟨k, .handleNotification callId buffer,
          .found (some h)⟩ ∈ s.registry.log →
        (Message.request h.args).body.Backed →
        encode peer (Message.request h.args).body args =
            some buffer →
          ∀ run ∈ s.runs, run.call = k →
            ∃ w, run.outcome = .handled (h.handler w args)

/- A handler is called with what was encoded for it. -/
theorem run_of_encode
    {h : NotificationHandler ω}
    (hBacked : (Message.request h.args).body.Backed)
    {peer : ByteOrder}
    {args : (Message.request h.args).body.Val}
    {buffer : Buffer}
    (hEncode :
      encode peer (Message.request h.args).body args =
        some buffer)
    (w : ω) :
    h.run order buffer w = .handled (h.handler w args) := by
  have hDecoded :=
    (NotificationHandler.wrapper_invoked_iff order _ _ _ _).mpr
      (decodeMessage_of_encode order hBacked hEncode
        (Message.request h.args).body.initial)
  simp only [NotificationHandler.run, hDecoded,
    Option.elim_some]

theorem dispatched
    (charSigned : Bool)
    (order : ByteOrder)
    (s : Notifications ω)
    (hReach : Reachable charSigned order s) :
    Dispatched charSigned order s := by
  have hLinearizable :=
    Locked.linearizable_of_run (implements charSigned)
      (registry_run hReach)
  rcases runs_inv hReach with ⟨hOnce, hRuns⟩
  constructor
  case atomic => exact hLinearizable
  case once => exact hOnce
  case current =>
    intro run hMem
    rcases hRuns run hMem with
      ⟨callId, buffer, handler, w, hEntry, hOutcome⟩
    rcases List.mem_iff_getElem?.mp hEntry with ⟨p, hPlace⟩
    rcases hLinearizable.sequential with ⟨last, hReplays, -⟩
    have hLast := found_eq_registeredLast hReplays hPlace
    rw [hLast] at hPlace hOutcome
    exact ⟨p, callId, buffer, w, hPlace, hOutcome⟩
  case intact =>
    intro k callId buffer h peer args hEntry hBacked hEncode
      run hMem hCall
    rcases hRuns run hMem with
      ⟨callId', buffer', handler, w, hEntry', hOutcome⟩
    have hSame :=
      List.inj_on_of_nodup_map hLinearizable.once hEntry'
        hEntry hCall
    injection hSame with _ hOp hRet
    injection hOp with _ hBuffer
    injection hRet with hFound
    refine ⟨w, ?_⟩
    rw [hOutcome, hFound, hBuffer]
    exact run_of_encode hBacked hEncode w

/- A handler of one 16-bit number. -/
def tick : NotificationHandler Unit where
  args := [.arithmetic (.number 2 Nat.two_pos)]
  handler := fun _ _ => .ok ()

def tickBody : Buffer :=
  ⟨[1, 5, 2], by decide⟩

/- It is found, the map is cleared, and then it runs. -/
def tickMoves : List (NotificationsMove Unit) :=
  [.registry
      (.invoke
        (.registerNotificationHandler (literal "tick") tick)),
    .registry (.lock 0),
    .registry (.advance 0),
    .registry
      (.invoke
        (.handleNotification (shash64 true (literal "tick"))
          tickBody)),
    .registry (.invoke .clearNotificationHandlers),
    .registry (.advance 0),
    .registry (.advance 0),
    .registry (.unlock 0),
    .registry (.lock 1),
    .registry (.advance 1),
    .registry (.advance 1),
    .registry (.unlock 1),
    .registry (.lock 2),
    .registry (.advance 2),
    .registry (.finish 1),
    .run 1 ()]

/- Has the second call's handler run? -/
def hasTicked (s : Notifications Unit) : Bool :=
  s.runs.any fun run =>
    match run.outcome with
    | .handled _ => decide (run.call = 1)
    | _ => false

theorem dispatched_tick :
    ∃ s : Notifications Unit,
      hasTicked s = true ∧ Dispatched true .little s := by
  obtain ⟨s, hReach, hRun⟩ :=
    Transition.exists_of_run (step true .little) start
      tickMoves hasTicked (by decide +kernel)
  exact ⟨s, hRun, dispatched true .little s hReach⟩

end Notifications

end GrlxRpc
