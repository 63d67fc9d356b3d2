import GrlxRpc.Lib.Channel
import GrlxRpc.Lib.Records
import GrlxRpc.Lib.Transition
import GrlxRpc.Manager.Tokens

/-
  The manager of asynchronous operations.

  An operation is started by `register_handler`, which
  spawns a coroutine that receives the result and invokes
  the handler, by `async_operation`, which goes through
  `register_handler`, or by `create_operation`, whose caller
  receives on the channel itself and may cancel it.

  The locked section of each function is one step, and what
  it does before and after the lock are steps of their own.

  Main declarations:
    * `Operation`, `Completion` and `Sweep`
    * `AsyncManager` and `ManagerAction`
    * `AsyncManager.step`
    * `AsyncManager.operation_cases`
    * `AsyncManager.history_update`
-/

------------------------------------------------------------
-- Operations
------------------------------------------------------------

namespace GrlxRpc

/- What a `boost::system::error_code` says. -/
inductive SystemErrorCode
  | success
  | operationAborted
  | channel (error : ChannelError)
  | other (value : Nat)
  deriving DecidableEq, Repr

/- What goes through a channel, with the call that sent it. -/
structure Sent (β : Type) where
  completion : Nat
  result : SystemErrorCode × β
  deriving DecidableEq

/- Who started an operation. -/
inductive OperationKind
  | handler
  | operation (token : UInt64)
  | awaited
  deriving DecidableEq, Repr

namespace OperationKind

/- Does a detached coroutine wait for the result? -/
def isHandled : OperationKind → Bool
  | .handler => true
  | .operation _ => true
  | .awaited => false

end OperationKind

inductive OperationPc
  | created
  | registered
  | receiving
  | finished
  deriving DecidableEq, Repr

structure Operation (β : Type) where
  token : UInt64
  kind : OperationKind
  pc : OperationPc
  channel : Channel (Sent β)

/- A handler that was invoked, and with what. -/
structure Invocation (β : Type) where
  operation : Nat
  outcome : Except ChannelError (Sent β)

/- The arguments that the handler gets. -/
def Invocation.args
    {β : Type}
    [Inhabited β]
    (inv : Invocation β) : SystemErrorCode × β :=
  match inv.outcome with
  | .ok sent => sent.result
  | .error error => (.channel error, default)

namespace Operation

variable {β : Type}

/- `generate_token` and `create_channel`. -/
def create
    (kind : OperationKind)
    (token : UInt64) : Operation β where
  token := token
  kind := kind
  pc := .created
  channel := .make 1

/- What its coroutine invokes the handler with. -/
def invokes
    (op : Operation β) : Option (Except ChannelError (Sent β)) :=
  if op.kind.isHandled then
    match op.channel.receiver with
    | .completed outcome => some outcome
    | .idle => none
    | .waiting => none
  else
    none

/- Handlers are invoked once; callers may receive again. -/
def resume (op : Operation β) : Operation β :=
  { op with
    pc := if op.kind.isHandled then .finished else .registered
    channel := op.channel.consume }

end Operation

------------------------------------------------------------
-- Completions And Cancellations
------------------------------------------------------------

inductive CompletionPc
  | missed
  | found
  | sending
  | returned
  | threw
  deriving DecidableEq, Repr

namespace CompletionPc

/- Where an `async_send` on the channel leaves its caller. -/
def ofSend {α : Type} (channel : Channel α) : CompletionPc :=
  if channel.isOpen then
    if channel.hasRoom then .returned else .sending
  else
    .threw

theorem ofSend_ne_found
    {α : Type}
    (channel : Channel α) :
    ofSend channel ≠ .found := by
  unfold ofSend
  split
  · split <;> simp
  · simp

end CompletionPc

/- A call of `complete_operation`, and what it found. -/
structure Completion (β : Type) where
  token : UInt64
  result : SystemErrorCode × β
  operation : Option Nat
  pc : CompletionPc

/- `complete_operation` looks its token up. -/
def Completion.find
    {β : Type}
    (channels : AList fun _ : UInt64 => Nat)
    (token : UInt64)
    (result : SystemErrorCode × β) : Completion β where
  token := token
  result := result
  operation := channels.lookup token
  pc :=
    if (channels.lookup token).isSome then .found
    else .missed

/-
  A call of `cancel_all_operations`: what it took from the
  table, what is left to do, and the channel that it has
  cancelled and closes next.
-/
structure Sweep where
  taken : List Nat
  todo : List Nat
  current : Option Nat
  todo_taken : todo ⊆ taken
  current_taken : ∀ i, current = some i → i ∈ taken

namespace Sweep

def make (taken : List Nat) : Sweep where
  taken := taken
  todo := taken
  current := none
  todo_taken := List.Subset.refl _
  current_taken := by simp

/- The loop goes on with the channel of operation `i`. -/
def begin
    (b : Sweep)
    (i : Nat)
    (hTodo : i ∈ b.todo) : Sweep :=
  { b with
    todo := b.todo.erase i
    current := some i
    todo_taken :=
      List.Subset.trans (List.erase_subset) b.todo_taken
    current_taken := by
      rintro _ ⟨rfl⟩
      exact b.todo_taken hTodo }

/- It is done with the channel, closed or not. -/
def finish (b : Sweep) : Sweep :=
  { b with
    current := none
    current_taken := by simp }

/- `cancel` or `close` threw, and the loop goes on. -/
def pass
    (b : Sweep)
    (i : Nat) : Sweep :=
  if b.current = some i then
    b.finish
  else if hTodo : i ∈ b.todo then
    (b.begin i hTodo).finish
  else
    b

/- The cancelled channel is closed next. -/
def cancelled
    (b : Sweep)
    (i : Nat) : Sweep :=
  if hTodo : i ∈ b.todo then b.begin i hTodo else b

@[simp] theorem taken_finish (b : Sweep) :
    b.finish.taken = b.taken := rfl

@[simp] theorem taken_cancelled
    (b : Sweep)
    (i : Nat) :
    (b.cancelled i).taken = b.taken := by
  unfold cancelled
  split <;> rfl

@[simp] theorem taken_pass
    (b : Sweep)
    (i : Nat) :
    (b.pass i).taken = b.taken := by
  unfold pass
  split
  · rfl
  · split <;> rfl

end Sweep

------------------------------------------------------------
-- The Manager
------------------------------------------------------------

/- `completions`, `sweeps` and `invocations` are histories. -/
structure AsyncManager (β : Type) where
  nextToken : UInt64
  channels : AList fun _ : UInt64 => Nat
  operations : List (Operation β)
  completions : List (Completion β)
  sweeps : List Sweep
  invocations : List (Invocation β)

inductive ManagerAction (β : Type)
  | generateToken (kind : OperationKind)
  | registerOperation (i : Nat)
  | receive (i : Nat)
  | resume (i : Nat)
  | cancelChannel (i : Nat)
  | completeOperation
      (token : UInt64)
      (ec : SystemErrorCode)
      (result : β)
  | sendResult (k i : Nat)
  | resumeSend (k i : Nat)
  | takeTable
  | cancelNext (b i : Nat)
  | closeNext (b i : Nat)
  | catchNext (b i : Nat)

namespace ManagerAction

variable {β : Type}

/- The overload of `complete_operation` without a code. -/
def completeWith
    (token : UInt64)
    (result : β) : ManagerAction β :=
  .completeOperation token .success result

def completeOperationWithError
    [Inhabited β]
    (token : UInt64)
    (ec : SystemErrorCode := .operationAborted) :
    ManagerAction β :=
  .completeOperation token ec default

end ManagerAction

namespace AsyncManager

variable {β : Type}

def start : AsyncManager β where
  nextToken := 1
  channels := ∅
  operations := []
  completions := []
  sweeps := []
  invocations := []

def hasOperation
    (s : AsyncManager β)
    (token : UInt64) : Bool :=
  (s.channels.lookup token).isSome

/- Change the channel of operation `i`. -/
def onChannel
    (s : AsyncManager β)
    (i : Nat)
    (f : Channel (Sent β) → Channel (Sent β)) :
    AsyncManager β :=
  { s with
    operations := s.operations.modify i fun op =>
      { op with channel := f op.channel } }

/- Call `k` of `complete_operation` starts its send. -/
def send
    (s : AsyncManager β)
    (k : Nat)
    (channel : Channel (Sent β)) : Channel (Sent β) :=
  (s.completions[k]?).elim channel fun c =>
    channel.asyncSend ⟨k, c.result⟩

/- Has the `async_send` of call `k` completed? -/
def isSent
    (s : AsyncManager β)
    (k i : Nat) : Bool :=
  (s.operations[i]?).any fun op =>
    op.channel.senders.all fun sent => sent.completion ≠ k

------------------------------------------------------------
-- Steps
------------------------------------------------------------

def Enabled
    (s : AsyncManager β) : ManagerAction β → Prop
  | .generateToken _ => True
  | .registerOperation i =>
      ∃ op ∈ s.operations[i]?, op.pc = .created
  | .receive i =>
      ∃ op ∈ s.operations[i]?, op.pc = .registered
  | .resume i =>
      ∃ op ∈ s.operations[i]?, op.pc = .receiving ∧
        op.channel.receiver.isCompleted = true
  | .cancelChannel i =>
      ∃ op ∈ s.operations[i]?, op.kind = .awaited ∧
        op.pc ≠ .created
  | .completeOperation _ _ _ => True
  | .sendResult k i =>
      ∃ c ∈ s.completions[k]?, c.pc = .found ∧
        c.operation = some i
  | .resumeSend k i =>
      (∃ c ∈ s.completions[k]?, c.pc = .sending ∧
        c.operation = some i) ∧ s.isSent k i = true
  | .takeTable => True
  | .cancelNext b i =>
      ∃ sweep ∈ s.sweeps[b]?, sweep.current = none ∧
        i ∈ sweep.todo
  | .closeNext b i =>
      ∃ sweep ∈ s.sweeps[b]?, sweep.current = some i
  | .catchNext b i =>
      ∃ sweep ∈ s.sweeps[b]?, sweep.current = some i ∨
        (sweep.current = none ∧ i ∈ sweep.todo)

instance
    (s : AsyncManager β) :
    (a : ManagerAction β) → Decidable (s.Enabled a)
  | .generateToken _ => instDecidableTrue
  | .registerOperation _ =>
      inferInstanceAs (Decidable (∃ op ∈ _, _))
  | .receive _ => inferInstanceAs (Decidable (∃ op ∈ _, _))
  | .resume _ => inferInstanceAs (Decidable (∃ op ∈ _, _))
  | .cancelChannel _ =>
      inferInstanceAs (Decidable (∃ op ∈ _, _))
  | .completeOperation _ _ _ => instDecidableTrue
  | .sendResult _ _ =>
      inferInstanceAs (Decidable (∃ c ∈ _, _))
  | .resumeSend _ _ => inferInstanceAs (Decidable (_ ∧ _))
  | .takeTable => instDecidableTrue
  | .cancelNext _ _ =>
      inferInstanceAs (Decidable (∃ sweep ∈ _, _))
  | .closeNext _ _ =>
      inferInstanceAs (Decidable (∃ sweep ∈ _, _))
  | .catchNext _ _ =>
      inferInstanceAs (Decidable (∃ sweep ∈ _, _))

def update
    (s : AsyncManager β) : ManagerAction β → AsyncManager β
  | .generateToken kind =>
      { s with
        nextToken := s.nextToken + 1
        operations :=
          s.operations ++ [.create kind s.nextToken] }
  | .registerOperation i =>
      { s with
        channels :=
          ((s.operations[i]?).map Operation.token).elim
            s.channels fun token => s.channels.insert token i
        operations := s.operations.modify i fun op =>
          { op with pc := .registered } }
  | .receive i =>
      { s with
        operations := s.operations.modify i fun op =>
          { op with
            pc := .receiving
            channel := op.channel.asyncReceive } }
  | .resume i =>
      { s with
        operations := s.operations.modify i Operation.resume
        invocations :=
          s.invocations ++
            (((s.operations[i]?).bind Operation.invokes).map
              (Invocation.mk i)).toList }
  | .cancelChannel i => s.onChannel i Channel.cancel
  | .completeOperation token ec result =>
      { s with
        channels := s.channels.erase token
        completions :=
          s.completions ++
            [.find s.channels token (ec, result)] }
  | .sendResult k i =>
      { s.onChannel i (s.send k) with
        completions := s.completions.modify k fun c =>
          { c with
            pc :=
              (s.operations[i]?).elim c.pc fun op =>
                .ofSend op.channel } }
  | .resumeSend k i =>
      { s with
        completions := s.completions.modify k fun c =>
          { c with
            pc :=
              if (s.operations[i]?).any fun op =>
                op.channel.accepted.any fun sent =>
                  sent.completion = k then
                .returned
              else
                .threw } }
  | .takeTable =>
      { s with
        channels := ∅
        sweeps :=
          s.sweeps ++
            [.make (s.channels.entries.map Sigma.snd)] }
  | .cancelNext b i =>
      { s.onChannel i Channel.cancel with
        sweeps := s.sweeps.modify b fun sweep =>
          sweep.cancelled i }
  | .closeNext b i =>
      { s.onChannel i Channel.close with
        sweeps := s.sweeps.modify b Sweep.finish }
  | .catchNext b i =>
      { s with
        sweeps := s.sweeps.modify b fun sweep =>
          sweep.pass i }

def step
    (s : AsyncManager β)
    (a : ManagerAction β) : Option (AsyncManager β) :=
  if s.Enabled a then some (s.update a) else none

theorem step_eq_some_iff
    (s s' : AsyncManager β)
    (a : ManagerAction β) :
    step s a = some s' ↔ s.Enabled a ∧ s' = s.update a := by
  simp [step, eq_comm]

/- Fewer than `2 ^ 64` tokens after the step. -/
def FewTokens
    (s : AsyncManager β) : ManagerAction β → Prop
  | .generateToken _ => s.operations.length + 1 < 2 ^ 64
  | _ => True

instance
    (s : AsyncManager β)
    (a : ManagerAction β) : Decidable (FewTokens s a) := by
  unfold FewTokens
  split <;> infer_instance

/- The managers of runs whose steps all meet `ok`. -/
abbrev ReachableBy
    (ok : AsyncManager β → ManagerAction β → Prop)
    (s : AsyncManager β) : Prop :=
  Transition.ReachableBy step ok start s

/- What enabled steps keep holds in every run's end. -/
theorem invariantFrom
    {ok : AsyncManager β → ManagerAction β → Prop}
    (inv : AsyncManager β → Prop)
    {s last : AsyncManager β}
    (hInit : inv s)
    (hUpdate :
      ∀ s a, inv s → ok s a → s.Enabled a → inv (s.update a))
    (hRun : Transition.ReachableBy step ok s last) :
    inv last :=
  hRun.invariant_of_guarded step_eq_some_iff hInit
    fun s a _ => hUpdate s a

theorem invariant
    {ok : AsyncManager β → ManagerAction β → Prop}
    (inv : AsyncManager β → Prop)
    (hStart : inv start)
    (hUpdate :
      ∀ s a, inv s → ok s a → s.Enabled a → inv (s.update a))
    {s : AsyncManager β}
    (hReach : ReachableBy ok s) :
    inv s :=
  invariantFrom inv hStart hUpdate hReach

------------------------------------------------------------
-- What A Step Can Do
------------------------------------------------------------

variable {s : AsyncManager β}
variable {a : ManagerAction β}
variable {i : Nat}

/- What a step can do to operation `i`. -/
inductive OperationStep
    (s : AsyncManager β)
    (a : ManagerAction β)
    (i : Nat)
    (op : Operation β) : Operation β → Prop
  | same : OperationStep s a i op op
  | registered :
      op.pc = .created →
      a = .registerOperation i →
      OperationStep s a i op { op with pc := .registered }
  | receiving :
      op.pc = .registered →
      OperationStep s a i op
        { op with
          pc := .receiving
          channel := op.channel.asyncReceive }
  | resumed :
      op.pc = .receiving →
      op.channel.receiver.isCompleted = true →
      a = .resume i →
      OperationStep s a i op op.resume
  | cancelled :
      op.kind = .awaited →
      OperationStep s a i op
        { op with channel := op.channel.cancel }
  | sent {k : Nat} {c : Completion β} :
      s.completions[k]? = some c →
      c.pc = .found →
      c.operation = some i →
      a = .sendResult k i →
      OperationStep s a i op
        { op with
          channel := op.channel.asyncSend ⟨k, c.result⟩ }
  | swept {b : Sweep} :
      b ∈ s.sweeps →
      i ∈ b.taken →
      OperationStep s a i op
        { op with channel := op.channel.cancel }
  | closed {b : Sweep} :
      b ∈ s.sweeps →
      i ∈ b.taken →
      OperationStep s a i op
        { op with channel := op.channel.close }

/- An operation after a step was there before, or is new. -/
theorem operation_cases
    (hEnabled : s.Enabled a)
    {op' : Operation β}
    (hGet : (s.update a).operations[i]? = some op') :
    (∃ op, s.operations[i]? = some op ∧
        OperationStep s a i op op') ∨
      ∃ kind, a = .generateToken kind ∧
        i = s.operations.length ∧
          op' = .create kind s.nextToken := by
  -- One operation changes, and the step says how.
  have hModify :
      ∀ {j : Nat} {f : Operation β → Operation β},
        (s.operations.modify j f)[i]? = some op' →
        (∀ op, s.operations[i]? = some op → j = i →
          OperationStep s a i op (f op)) →
        ∃ op, s.operations[i]? = some op ∧
          OperationStep s a i op op' := by
    intro j f hAt hStep
    rcases Records.getElem?_modify_eq_some.mp hAt with
      ⟨_, hOld⟩ | ⟨rfl, op, hOld, rfl⟩
    · exact ⟨op', hOld, .same⟩
    · exact ⟨op, hOld, hStep op hOld rfl⟩
  cases a with
  | generateToken kind =>
      rcases Records.getElem?_concat_eq_some.mp hGet with
        hOld | ⟨hLast, hNew⟩
      · exact .inl ⟨op', hOld, .same⟩
      · exact .inr ⟨kind, rfl, hLast, hNew.symm⟩
  | registerOperation j =>
      rcases hEnabled with ⟨was, hWas, hPc⟩
      refine .inl (hModify hGet ?_)
      rintro op hOp rfl
      cases hWas.symm.trans hOp
      exact .registered hPc rfl
  | receive j =>
      rcases hEnabled with ⟨was, hWas, hPc⟩
      refine .inl (hModify hGet ?_)
      rintro op hOp rfl
      cases hWas.symm.trans hOp
      exact .receiving hPc
  | resume j =>
      rcases hEnabled with ⟨was, hWas, hPc, hDone⟩
      refine .inl (hModify hGet ?_)
      rintro op hOp rfl
      cases hWas.symm.trans hOp
      exact .resumed hPc hDone rfl
  | cancelChannel j =>
      rcases hEnabled with ⟨was, hWas, hKind, _⟩
      refine .inl (hModify hGet ?_)
      rintro op hOp rfl
      cases hWas.symm.trans hOp
      exact .cancelled hKind
  | sendResult k j =>
      rcases hEnabled with ⟨c, hC, hPc, hFound⟩
      refine .inl (hModify hGet ?_)
      rintro op hOp rfl
      simp only [send, Option.mem_def.mp hC, Option.elim_some]
      exact .sent hC hPc hFound rfl
  | cancelNext b j =>
      rcases hEnabled with ⟨sweep, hSweep, _, hTodo⟩
      refine .inl (hModify hGet ?_)
      rintro op hOp rfl
      exact .swept (List.mem_of_getElem? hSweep)
        (sweep.todo_taken hTodo)
  | closeNext b j =>
      rcases hEnabled with ⟨sweep, hSweep, hCurrent⟩
      refine .inl (hModify hGet ?_)
      rintro op hOp rfl
      exact .closed (List.mem_of_getElem? hSweep)
        (sweep.current_taken j hCurrent)
  | completeOperation token ec result | resumeSend k j
  | takeTable | catchNext b j =>
      exact .inl ⟨op', hGet, .same⟩

theorem length_operations_update
    (s : AsyncManager β)
    (a : ManagerAction β) :
    s.operations.length ≤ (s.update a).operations.length := by
  cases a <;> simp [update, onChannel]

/- No operation is forgotten. -/
theorem exists_operationStep
    (hEnabled : s.Enabled a)
    {op : Operation β}
    (hGet : s.operations[i]? = some op) :
    ∃ op', (s.update a).operations[i]? = some op' ∧
      OperationStep s a i op op' := by
  have hLt := (List.getElem?_eq_some_iff.mp hGet).1
  have hLe := length_operations_update s a
  have hGet' := List.getElem?_eq_getElem
    (Nat.lt_of_lt_of_le hLt hLe)
  refine ⟨_, hGet', ?_⟩
  rcases operation_cases hEnabled hGet' with
    ⟨was, hWas, hStep⟩ | ⟨kind, _, hLast, _⟩
  · rcases Option.some.inj (hGet.symm.trans hWas) with rfl
    exact hStep
  · exact absurd hLast (Nat.ne_of_lt hLt)

/- What no step changes, and new operations are not. -/
theorem any_operation_update
    {p : Operation β → Bool}
    (hEnabled : s.Enabled a)
    (hNew : ∀ kind, p (.create kind s.nextToken) = false)
    (hSame :
      ∀ op op', OperationStep s a i op op' → p op' = p op) :
    ((s.update a).operations[i]?).any p =
      (s.operations[i]?).any p := by
  cases hGet : (s.update a).operations[i]? with
  | none =>
      have hLe := length_operations_update s a
      have hOut := List.getElem?_eq_none_iff.mp hGet
      rw [List.getElem?_eq_none_iff.mpr
        (Nat.le_trans hLe hOut)]
  | some op' =>
      rcases operation_cases hEnabled hGet with
        ⟨op, hOp, hStep⟩ | ⟨kind, _, hLast, rfl⟩
      · rw [hOp, Option.any_some, Option.any_some,
          hSame op op' hStep]
      · have hOut : s.operations[i]? = none :=
          List.getElem?_eq_none_iff.mpr
            (Nat.le_of_eq hLast.symm)
        rw [hOut, Option.any_some, hNew, Option.any_none]

/- A call later: only its program counter has moved. -/
structure Later (c c' : Completion β) : Prop where
  token : c'.token = c.token
  operation : c'.operation = c.operation
  result : c'.result = c.result
  found : c'.pc = .found → c.pc = .found

/- No call is forgotten. -/
structure History (s s' : AsyncManager β) : Prop where
  completions :
    ∀ (k : Nat) (c : Completion β),
      s.completions[k]? = some c →
        ∃ c', s'.completions[k]? = some c' ∧ Later c c'
  sweeps :
    ∀ b ∈ s.sweeps, ∃ b' ∈ s'.sweeps, b'.taken = b.taken

theorem Later.of_pc
    (c : Completion β)
    (pc : CompletionPc)
    (hFound : pc = .found → c.pc = .found) :
    Later c { c with pc := pc } where
  token := rfl
  operation := rfl
  result := rfl
  found := hFound

theorem later_modify
    {completions : List (Completion β)}
    {j : Nat}
    {f : Completion β → Completion β}
    (hLater : ∀ c, Later c (f c))
    (k : Nat)
    (c : Completion β)
    (hGet : completions[k]? = some c) :
    ∃ c', (completions.modify j f)[k]? = some c' ∧
      Later c c' := by
  rw [List.getElem?_modify, hGet]
  by_cases hSame : j = k
  · exact ⟨f c, by simp [hSame], hLater c⟩
  · exact ⟨c, by simp [hSame], .of_pc c c.pc id⟩

theorem sweeps_modify
    {sweeps : List Sweep}
    {j : Nat}
    {f : Sweep → Sweep}
    (hTaken : ∀ b, (f b).taken = b.taken) :
    ∀ b ∈ sweeps, ∃ b' ∈ sweeps.modify j f,
      b'.taken = b.taken := by
  intro b hMem
  have hMap :
      (sweeps.modify j f).map Sweep.taken =
        sweeps.map Sweep.taken :=
    Records.map_modify_of_eq hTaken
  have hIn : b.taken ∈ (sweeps.modify j f).map Sweep.taken :=
    hMap ▸ List.mem_map_of_mem hMem
  exact List.mem_map.mp hIn

theorem history_update
    (s : AsyncManager β)
    (a : ManagerAction β) :
    History s (s.update a) := by
  have hSame :
      ∀ (k : Nat) (c : Completion β),
        s.completions[k]? = some c →
          ∃ c', s.completions[k]? = some c' ∧ Later c c' :=
    fun k c hGet => ⟨c, hGet, .of_pc c c.pc id⟩
  have hStay :
      ∀ b ∈ s.sweeps, ∃ b' ∈ s.sweeps, b'.taken = b.taken :=
    fun b hMem => ⟨b, hMem, rfl⟩
  cases a with
  | completeOperation token ec result =>
      refine ⟨fun k c hGet => ⟨c, ?_, .of_pc c c.pc id⟩,
        hStay⟩
      exact Records.getElem?_concat_eq_some.mpr (.inl hGet)
  | sendResult k i =>
      refine ⟨later_modify fun c => .of_pc c _ ?_, hStay⟩
      cases s.operations[i]? with
      | none => exact id
      | some op =>
          intro hFound
          exact absurd hFound (CompletionPc.ofSend_ne_found _)
  | resumeSend k i =>
      refine ⟨later_modify fun c => .of_pc c _ ?_, hStay⟩
      intro hFound
      split at hFound <;> cases hFound
  | takeTable =>
      exact ⟨hSame, fun b hMem =>
        ⟨b, List.mem_append_left _ hMem, rfl⟩⟩
  | cancelNext b i =>
      exact ⟨hSame, sweeps_modify fun b => b.taken_cancelled i⟩
  | closeNext b i =>
      exact ⟨hSame, sweeps_modify Sweep.taken_finish⟩
  | catchNext b i =>
      exact ⟨hSame, sweeps_modify fun b => b.taken_pass i⟩
  | generateToken kind | registerOperation i | receive i
  | resume i | cancelChannel i =>
      exact ⟨hSame, hStay⟩

end AsyncManager

end GrlxRpc
