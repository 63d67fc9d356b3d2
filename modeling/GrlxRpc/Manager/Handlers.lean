import GrlxRpc.Manager.Table

/-
  Handlers and what they are invoked with.

  A handler's coroutine receives once. What it receives was
  sent by the one call that found its operation under its
  token, or its channel was cancelled or closed by the call
  of `cancel_all_operations` that took it.

  `async_operation` registers under the token the manager
  generates next and does not use the one it is given.

  Main declarations:
    * `AsyncManager.Explained` and `AsyncManager.HandlersInv`
    * `AsyncManager.HandlersExact`
    * `AsyncManager.AsksNext`
    * `AsyncManager.handlersExact`
    * `AsyncManager.not_handlersExact_of_not_asksNext`
-/

------------------------------------------------------------
-- Outcomes
------------------------------------------------------------

namespace GrlxRpc

namespace AsyncManager

variable {β : Type}
variable {s : AsyncManager β}
variable {a : ManagerAction β}
variable {i : Nat}

/- Where what a receive completed with comes from. -/
def Explained
    (s : AsyncManager β)
    (i : Nat) :
    Except ChannelError (Sent β) → Prop
  | .ok p =>
      ∃ c, s.completions[p.completion]? = some c ∧
        c.operation = some i ∧ c.pc ≠ .found ∧
          c.result = p.result
  | .error _ => ∃ b ∈ s.sweeps, i ∈ b.taken

theorem History.explained
    {s s' : AsyncManager β}
    (hHistory : History s s')
    {outcome : Except ChannelError (Sent β)}
    (hBefore : Explained s i outcome) :
    Explained s' i outcome := by
  cases outcome with
  | ok p => exact hHistory.sent hBefore
  | error e => exact hHistory.swept hBefore

/- An error reaches a handler from a sweep only. -/
def ErrorInv
    (s : AsyncManager β)
    (i : Nat)
    (op : Operation β) : Prop :=
  op.kind.isHandled = true →
    ∀ e, op.channel.receiver = .completed (.error e) →
      ∃ b ∈ s.sweeps, i ∈ b.taken

theorem ErrorInv.explained
    {op : Operation β}
    (hError : ErrorInv s i op)
    (hChannel : ChannelInv s i op)
    (hHandled : op.kind.isHandled = true)
    {outcome : Except ChannelError (Sent β)}
    (hDone : op.channel.receiver = .completed outcome) :
    Explained s i outcome := by
  cases outcome with
  | error e => exact hError hHandled e hDone
  | ok p =>
      have hDelivered := op.channel.handed p hDone
      exact hChannel.sent p
        (op.channel.delivered_prefix_admitted.subset hDelivered)

theorem errorInv_update
    (hEnabled : s.Enabled a)
    (hChannels :
      ∀ (i : Nat) (op : Operation β),
        s.operations[i]? = some op → ChannelInv s i op)
    (hInv :
      ∀ (i : Nat) (op : Operation β),
        s.operations[i]? = some op → ErrorInv s i op)
    {op' : Operation β}
    (hGet : (s.update a).operations[i]? = some op') :
    ErrorInv (s.update a) i op' := by
  intro hHandled e hDone
  have hHistory := history_update s a
  rcases operation_cases hEnabled hGet with
    ⟨op, hOp, hStep⟩ | ⟨kind, _, _, rfl⟩
  · have hBefore := hInv i op hOp
    cases hStep with
    | same | registered _ _ =>
        exact hHistory.swept (hBefore hHandled e hDone)
    | receiving _ =>
        have hShut := (op.channel.asyncReceive_error hDone).1
        exact hHistory.swept ((hChannels i op hOp).closed hShut)
    | resumed _ _ _ => cases hDone
    | cancelled hKind =>
        -- Only callers of `create_operation` cancel.
        simp [hKind, OperationKind.isHandled] at hHandled
    | sent _ _ _ _ =>
        rcases op.channel.asyncSend_receiver _ with
          ⟨hSame, _⟩ | ⟨_, hNew, _⟩
        · exact hHistory.swept
            (hBefore hHandled e (hSame.symm.trans hDone))
        · cases hNew.symm.trans hDone
    | swept hMem hTaken =>
        exact hHistory.swept ⟨_, hMem, hTaken⟩
    | closed hMem hTaken =>
        exact hHistory.swept ⟨_, hMem, hTaken⟩
  · cases hDone

------------------------------------------------------------
-- Invocations
------------------------------------------------------------

def invokedBy
    (i : Nat)
    (inv : Invocation β) : Bool :=
  inv.operation = i

def isFinished
    (s : AsyncManager β)
    (i : Nat) : Bool :=
  (s.operations[i]?).any fun op => op.pc = .finished

/- A handler that was invoked is done. -/
structure HandlersInv (s : AsyncManager β) : Prop where
  manager : ManagerInv s
  error :
    ∀ (i : Nat) (op : Operation β),
      s.operations[i]? = some op → ErrorInv s i op
  explained :
    ∀ inv ∈ s.invocations,
      inv.operation < s.operations.length ∧
        Explained s inv.operation inv.outcome
  count :
    ∀ i, s.invocations.countP (invokedBy i) =
      (s.isFinished i).toNat

theorem isFinished_update
    (hEnabled : s.Enabled a)
    (hOther : a ≠ .resume i) :
    (s.update a).isFinished i = s.isFinished i := by
  refine any_operation_update hEnabled
    (fun kind => by simp [Operation.create]) ?_
  intro op op' hStep
  cases hStep with
  | registered hPc _ => simp [hPc]
  | receiving hPc => simp [hPc]
  | resumed _ _ hAct => exact absurd hAct hOther
  | same | cancelled _ | sent _ _ _ _ | swept _ _
  | closed _ _ => rfl

/- What a resumed coroutine does: it is a handler's or not. -/
theorem resume_cases
    (hEnabled : s.Enabled (.resume i)) :
    ∃ op outcome, s.operations[i]? = some op ∧
      op.pc = .receiving ∧
      op.channel.receiver = .completed outcome ∧
      (s.update (.resume i)).isFinished i =
        op.kind.isHandled ∧
      (s.update (.resume i)).invocations =
        s.invocations ++
          if op.kind.isHandled then [⟨i, outcome⟩] else [] := by
  rcases hEnabled with ⟨op, hOp, hPc, hDone⟩
  have hGet : s.operations[i]? = some op := hOp
  cases hReceiver : op.channel.receiver with
  | idle => simp [hReceiver, Receiver.isCompleted] at hDone
  | waiting => simp [hReceiver, Receiver.isCompleted] at hDone
  | completed outcome =>
      refine ⟨op, outcome, hGet, hPc, hReceiver, ?_, ?_⟩
      · cases hKind : op.kind.isHandled <;>
          simp [isFinished, update, hGet, Operation.resume,
            hKind]
      · cases hKind : op.kind.isHandled <;>
          simp [update, hGet, Operation.invokes, hKind,
            hReceiver]

theorem HandlersInv.count_update
    (hInv : HandlersInv s)
    (hEnabled : s.Enabled a)
    (i : Nat) :
    (s.update a).invocations.countP (invokedBy i) =
      ((s.update a).isFinished i).toNat := by
  have hBefore := hInv.count i
  by_cases hResumes : ∃ j, a = .resume j
  · rcases hResumes with ⟨j, rfl⟩
    rcases resume_cases hEnabled with
      ⟨op, outcome, hOp, hPc, _, hFinished, hInvoked⟩
    rw [hInvoked, List.countP_append, hBefore]
    by_cases hSame : j = i
    · subst hSame
      have hNot : s.isFinished j = false := by
        simp [isFinished, hOp, hPc]
      rw [hFinished, hNot]
      cases op.kind.isHandled <;> simp [invokedBy]
    · rw [isFinished_update hEnabled
        fun hAct => hSame (by cases hAct; rfl)]
      cases op.kind.isHandled <;> simp [invokedBy, hSame]
  · have hNot : ∀ j, a ≠ .resume j :=
      fun j hAct => hResumes ⟨j, hAct⟩
    rw [isFinished_update hEnabled (hNot i), ← hBefore]
    cases a with
    | resume j => exact absurd rfl (hNot j)
    | _ => rfl

theorem HandlersInv.explained_update
    (hInv : HandlersInv s)
    (hEnabled : s.Enabled a)
    {inv : Invocation β}
    (hMem : inv ∈ (s.update a).invocations) :
    inv.operation < (s.update a).operations.length ∧
      Explained (s.update a) inv.operation inv.outcome := by
  have hHistory := history_update s a
  have hLe := length_operations_update s a
  suffices hBefore :
      inv.operation < s.operations.length ∧
        Explained s inv.operation inv.outcome from
    ⟨Nat.lt_of_lt_of_le hBefore.1 hLe,
      hHistory.explained hBefore.2⟩
  by_cases hResumes : ∃ j, a = .resume j
  · rcases hResumes with ⟨j, rfl⟩
    rcases resume_cases hEnabled with
      ⟨op, outcome, hOp, _, hDone, _, hInvoked⟩
    rw [hInvoked] at hMem
    rcases List.mem_append.mp hMem with hOld | hNew
    · exact hInv.explained inv hOld
    · cases hKind : op.kind.isHandled with
      | false => simp [hKind] at hNew
      | true =>
          rw [if_pos hKind, List.mem_singleton] at hNew
          subst hNew
          exact ⟨(List.getElem?_eq_some_iff.mp hOp).1,
            (hInv.error j op hOp).explained
              (hInv.manager.channel j op hOp) hKind hDone⟩
  · cases a with
    | resume j => exact absurd ⟨j, rfl⟩ hResumes
    | _ => exact hInv.explained inv hMem

theorem HandlersInv.start :
    HandlersInv (start : AsyncManager β) where
  manager := .start
  error := by simp [AsyncManager.start]
  explained := by simp [AsyncManager.start]
  count := by simp [AsyncManager.start, isFinished]

theorem handlersInv
    {ok : AsyncManager β → ManagerAction β → Prop}
    (hFew : ∀ s a, ok s a → FewTokens s a)
    (hReach : ReachableBy ok s) :
    HandlersInv s := by
  refine invariant HandlersInv .start ?_ hReach
  intro s a hInv hOk hEnabled
  exact
    { manager := hInv.manager.update (hFew s a hOk) hEnabled
      error := fun _ _ =>
        errorInv_update hEnabled hInv.manager.channel hInv.error
      explained := fun _ => hInv.explained_update hEnabled
      count := hInv.count_update hEnabled }

------------------------------------------------------------
-- Own Tokens
------------------------------------------------------------

/- `async_operation` is given the token generated next. -/
def AsksNext
    (s : AsyncManager β) : ManagerAction β → Prop
  | .generateToken (.operation token) => token = s.nextToken
  | _ => True

instance
    (s : AsyncManager β)
    (a : ManagerAction β) : Decidable (AsksNext s a) := by
  rcases a
  case generateToken kind =>
    rcases kind <;> unfold AsksNext <;> infer_instance
  all_goals exact instDecidableTrue

/- Does an operation have the token its caller passed? -/
def HasAsked (op : Operation β) : Prop :=
  ∀ token, op.kind = .operation token → op.token = token

/- A step leaves an operation its token and its caller. -/
theorem OperationStep.keeps
    {op op' : Operation β}
    (hStep : OperationStep s a i op op') :
    op'.kind = op.kind ∧ op'.token = op.token := by
  cases hStep <;> exact ⟨rfl, rfl⟩

theorem hasAsked_update
    (hEnabled : s.Enabled a)
    (hAsks : AsksNext s a)
    (hInv :
      ∀ (i : Nat) (op : Operation β),
        s.operations[i]? = some op → HasAsked op)
    {op' : Operation β}
    (hGet : (s.update a).operations[i]? = some op') :
    HasAsked op' := by
  intro token hKind
  rcases operation_cases hEnabled hGet with
    ⟨op, hOp, hStep⟩ | ⟨kind, rfl, _, rfl⟩
  · rw [hStep.keeps.1] at hKind
    rw [hStep.keeps.2]
    exact hInv i op hOp token hKind
  · have hKind' : kind = .operation token := hKind
    subst hKind'
    exact Eq.symm hAsks

/-
  Handlers are invoked once at most, with a result that was
  given to a call for their token, or after they were taken
  by `cancel_all_operations`, under the token asked for.
-/
structure HandlersExact
    [Inhabited β]
    (s : AsyncManager β) : Prop where
  once :
    ∀ i, (s.invocations.filter
      fun inv => inv.operation = i).length ≤ 1
  result :
    ∀ inv ∈ s.invocations, ∀ p, inv.outcome = .ok p →
      ∃ op c, s.operations[inv.operation]? = some op ∧
        c ∈ s.completions ∧
          c.operation = some inv.operation ∧
            c.token = op.token ∧ inv.args = c.result
  error :
    ∀ inv ∈ s.invocations, ∀ e, inv.outcome = .error e →
      ∃ b ∈ s.sweeps, inv.operation ∈ b.taken
  own : ∀ op ∈ s.operations, HasAsked op

theorem HandlersInv.exact
    [Inhabited β]
    (hInv : HandlersInv s)
    (hOwn :
      ∀ (i : Nat) (op : Operation β),
        s.operations[i]? = some op → HasAsked op) :
    HandlersExact s := by
  constructor
  case once =>
    intro i
    have hCount := hInv.count i
    rw [List.countP_eq_length_filter] at hCount
    exact Nat.le_trans (Nat.le_of_eq hCount) (Bool.toNat_le _)
  case result =>
    intro inv hMem p hOk
    rcases hInv.explained inv hMem with ⟨hLt, hFrom⟩
    rw [hOk] at hFrom
    rcases hFrom with ⟨c, hGet, hFound, _, hResult⟩
    have hC := List.mem_of_getElem? hGet
    have hOp := List.getElem?_eq_getElem hLt
    refine ⟨_, c, hOp, hC, hFound, ?_, ?_⟩
    · rw [hInv.manager.table.tokens _ _ hOp]
      exact hInv.manager.table.found c hC _ hFound
    · rw [Invocation.args, hOk, hResult]
  case error =>
    intro inv hMem e hError
    have hFrom := (hInv.explained inv hMem).2
    rw [hError] at hFrom
    exact hFrom
  case own =>
    intro op hMem
    rcases List.mem_iff_getElem?.mp hMem with ⟨i, hOp⟩
    exact hOwn i op hOp

/-
  In every run in which callers of `async_operation` pass the
  token that is generated next, handlers complete exactly.
-/
theorem handlersExact
    [Inhabited β]
    (s : AsyncManager β)
    (hReach :
      ReachableBy (fun s a => FewTokens s a ∧ AsksNext s a)
        s) :
    HandlersExact s := by
  refine (handlersInv (fun _ _ hOk => hOk.1) hReach).exact ?_
  refine invariant
    (fun s : AsyncManager β =>
      ∀ (i : Nat) (op : Operation β),
        s.operations[i]? = some op → HasAsked op)
    (by simp [start]) ?_ hReach
  intro s a hInv hOk hEnabled i op
  exact hasAsked_update hEnabled hOk.2 hInv

/- Tokens 1 and 2 get a result and an error. -/
theorem handlersExact_reply :
    ∃ s : AsyncManager Nat,
      ReachableBy (fun s a => FewTokens s a ∧ AsksNext s a)
          s ∧
        s.invocations.map Invocation.args =
          [(.operationAborted, 0), (.success, 7)] ∧
        HandlersExact s := by
  obtain ⟨s, hReach, hRun⟩ :=
    Transition.exists_of_runBy step
      (fun s a => FewTokens s a ∧ AsksNext s a) start
      [.generateToken (.operation 1), .registerOperation 0,
        .generateToken .handler, .registerOperation 1,
        .completeWith 1 7, .receive 0, .receive 1,
        .completeOperationWithError 2, .sendResult 1 1,
        .sendResult 0 0, .resume 1, .resume 0]
      (fun s : AsyncManager Nat =>
        decide (s.invocations.map Invocation.args =
          [(.operationAborted, 0), (.success, 7)]))
      (by decide)
  exact ⟨s, hReach, of_decide_eq_true hRun,
    handlersExact s hReach⟩

------------------------------------------------------------
-- Ignored Tokens
------------------------------------------------------------

theorem kept_later
    {ok : AsyncManager β → ManagerAction β → Prop}
    {last : AsyncManager β}
    {op : Operation β}
    (hGet : s.operations[i]? = some op)
    (hRun : Transition.ReachableBy step ok s last) :
    ∃ op', last.operations[i]? = some op' ∧
      op'.kind = op.kind ∧ op'.token = op.token := by
  refine invariantFrom
    (fun m : AsyncManager β =>
      ∃ op', m.operations[i]? = some op' ∧
        op'.kind = op.kind ∧ op'.token = op.token)
    ⟨op, hGet, rfl, rfl⟩ ?_ hRun
  rintro m a ⟨mid, hMid, hKind, hToken⟩ _ hEnabled
  rcases exists_operationStep hEnabled hMid with
    ⟨op', hGet', hStep⟩
  exact ⟨op', hGet', hStep.keeps.1.trans hKind,
    hStep.keeps.2.trans hToken⟩

/-
  The condition is exact: after a call that passes another
  token its operation has the wrong one for good.
-/
theorem not_handlersExact_of_not_asksNext
    [Inhabited β]
    {ok : AsyncManager β → ManagerAction β → Prop}
    {last : AsyncManager β}
    (hNot : ¬ AsksNext s a)
    (hRun : Transition.ReachableBy step ok (s.update a) last) :
    ¬ HandlersExact last := by
  cases a with
  | generateToken kind =>
      cases kind with
      | operation token =>
          have hAt :
              (s.update
                  (.generateToken
                    (.operation token))).operations[
                s.operations.length]? =
                some (.create (.operation token)
                  s.nextToken) := by
            simp [update]
          rcases kept_later hAt hRun with
            ⟨op, hGet, hKind, hToken⟩
          intro hExact
          have hOwn := hExact.own op
            (List.mem_of_getElem? hGet) token hKind
          exact hNot (hOwn.symm.trans hToken)
      | handler => exact absurd trivial hNot
      | awaited => exact absurd trivial hNot
  | _ => exact absurd trivial hNot

/- A caller passes 7, and the operation gets token 1. -/
theorem asked_ignored :
    ∃ s : AsyncManager Nat,
      ReachableBy FewTokens s ∧ ¬ HandlersExact s := by
  obtain ⟨s, hReach, hRun⟩ :=
    Transition.exists_of_runBy step FewTokens start
      [.generateToken (.operation 7), .registerOperation 0,
        .receive 0, .completeWith 7 5]
      (fun s : AsyncManager Nat =>
        decide (∃ op ∈ s.operations,
          op.kind = .operation 7 ∧ op.token ≠ 7))
      (by decide)
  rcases of_decide_eq_true hRun with ⟨op, hMem, hKind, hToken⟩
  exact ⟨s, hReach, fun hExact =>
    hToken (hExact.own op hMem 7 hKind)⟩

end AsyncManager

end GrlxRpc
