import GrlxRpc.Manager.State

/-
  The table of pending operations.

  An operation that was registered is in the table, or one
  call of `complete_operation` found it, or one call of
  `cancel_all_operations` took it. Only the second sends on
  its channel and only the third closes it, so the send
  finds the channel open and empty.

  Main declarations:
    * `AsyncManager.fates` and `AsyncManager.TableInv`
    * `AsyncManager.ChannelInv`
    * `AsyncManager.managerInv`
    * `AsyncManager.TableSound`
    * `AsyncManager.neverBlocks`
-/

------------------------------------------------------------
-- Fates
------------------------------------------------------------

namespace GrlxRpc

namespace AsyncManager

variable {β : Type}
variable {s : AsyncManager β}
variable {a : ManagerAction β}
variable {i : Nat}

/- Was operation `i` ever put into the table? -/
def isRegistered
    (s : AsyncManager β)
    (i : Nat) : Bool :=
  (s.operations[i]?).any fun op => op.pc ≠ .created

def isPending
    (channels : AList fun _ : UInt64 => Nat)
    (i : Nat) : Bool :=
  Pending channels i

def finds
    (i : Nat)
    (c : Completion β) : Bool :=
  c.operation = some i

def takes
    (i : Nat)
    (b : Sweep) : Bool :=
  i ∈ b.taken

theorem countP_finds_pos
    {c : Completion β}
    (hMem : c ∈ s.completions)
    (hFound : c.operation = some i) :
    0 < s.completions.countP (finds i) :=
  List.countP_pos_iff.mpr ⟨c, hMem, decide_eq_true hFound⟩

theorem countP_takes_pos
    {b : Sweep}
    (hMem : b ∈ s.sweeps)
    (hTaken : i ∈ b.taken) :
    0 < s.sweeps.countP (takes i) :=
  List.countP_pos_iff.mpr ⟨b, hMem, decide_eq_true hTaken⟩

/- How often the operation is pending, found, or taken. -/
def fates
    (s : AsyncManager β)
    (i : Nat) : Nat :=
  (isPending s.channels i).toNat +
    s.completions.countP (finds i) +
      s.sweeps.countP (takes i)

structure TableInv (s : AsyncManager β) : Prop where
  few : s.operations.length < 2 ^ 64
  numbered : s.nextToken = tokenOf s.operations.length
  tokens :
    ∀ (i : Nat) (op : Operation β),
      s.operations[i]? = some op → op.token = tokenOf i
  keys :
    ∀ token i, s.channels.lookup token = some i →
      i < s.operations.length ∧ token = tokenOf i
  found :
    ∀ c ∈ s.completions, ∀ i, c.operation = some i →
      c.token = tokenOf i
  fate : ∀ i, s.fates i = (s.isRegistered i).toNat

theorem TableInv.start :
    TableInv (start : AsyncManager β) where
  few := by simp [AsyncManager.start]
  numbered := rfl
  tokens := by simp [AsyncManager.start]
  keys := by simp [AsyncManager.start]
  found := by simp [AsyncManager.start]
  fate := by
    simp [AsyncManager.start, fates, isRegistered, isPending,
      Pending]

/- Registering is the one way to become registered. -/
theorem isRegistered_update
    (hEnabled : s.Enabled a)
    (hOther : a ≠ .registerOperation i) :
    (s.update a).isRegistered i = s.isRegistered i := by
  refine any_operation_update hEnabled
    (fun kind => by simp [Operation.create]) ?_
  intro op op' hStep
  cases hStep with
  | registered _ hAct => exact absurd hAct hOther
  | receiving hPc => simp [hPc]
  | resumed hPc _ _ =>
      simp only [Operation.resume]
      split <;> simp [hPc]
  | same | cancelled _ | sent _ _ _ _ | swept _ _
  | closed _ _ => rfl

theorem isRegistered_register
    (hEnabled : s.Enabled (.registerOperation i)) :
    s.isRegistered i = false ∧
      (s.update (.registerOperation i)).isRegistered i =
        true := by
  rcases hEnabled with ⟨op, hOp, hPc⟩
  have hGet : s.operations[i]? = some op := hOp
  constructor
  · simp [isRegistered, hGet, hPc]
  · simp [isRegistered, update, hGet]

/- What was taken is what was pending. -/
theorem TableInv.mem_values_iff
    (hInv : TableInv s) :
    i ∈ s.channels.entries.map Sigma.snd ↔
      Pending s.channels i := by
  constructor
  · intro hMem
    rcases List.mem_map.mp hMem with ⟨⟨token, j⟩, hEntry, rfl⟩
    have hLookup := AList.mem_lookup_iff.mpr hEntry
    rcases (hInv.keys token j hLookup).2 with rfl
    exact hLookup
  · intro hPending
    exact List.mem_map.mpr
      ⟨⟨tokenOf i, i⟩, AList.mem_lookup_iff.mp hPending, rfl⟩

/- The two places an operation may be in have its index. -/
theorem TableInv.pending_insert_iff
    (hInv : TableInv s)
    {j : Nat}
    (hJ : j < s.operations.length)
    (hNe : j ≠ i) :
    Pending (s.channels.insert (tokenOf j) j) i ↔
      Pending s.channels i := by
  unfold Pending
  by_cases hSame : tokenOf i = tokenOf j
  · rw [hSame, AList.lookup_insert]
    constructor
    · intro hIndex
      exact absurd (Option.some.inj hIndex) hNe
    · intro hLookup
      have hLt := (hInv.keys _ _ hLookup).1
      have hFew := hInv.few
      exact absurd
        (tokenOf_inj (by omega) (by omega) hSame.symm) hNe
  · rw [AList.lookup_insert_ne hSame]

theorem TableInv.pending_erase_iff
    (hInv : TableInv s)
    (token : UInt64) :
    Pending (s.channels.erase token) i ↔
      Pending s.channels i ∧
        s.channels.lookup token ≠ some i := by
  constructor
  · intro hLookup
    rcases lookup_of_erase hLookup with ⟨hNe, hBefore⟩
    refine ⟨hBefore, fun hFound => hNe ?_⟩
    exact (hInv.keys token i hFound).2.symm
  · rintro ⟨hPending, hNot⟩
    have hNe : tokenOf i ≠ token := by
      rintro rfl
      exact hNot hPending
    rw [Pending, AList.lookup_erase_ne hNe]
    exact hPending

/- Registering gives an operation its first place. -/
theorem TableInv.fates_register
    (hInv : TableInv s)
    {j : Nat}
    (hEnabled : s.Enabled (.registerOperation j)) :
    ∀ i, (s.update (.registerOperation j)).fates i =
      s.fates i + (decide (j = i)).toNat := by
  intro i
  have hFate := hInv.fate j
  rw [(isRegistered_register hEnabled).1] at hFate
  rcases hEnabled with ⟨op, hOp, hPc⟩
  have hGet : s.operations[j]? = some op := hOp
  have hLt := (List.getElem?_eq_some_iff.mp hGet).1
  have hChannels :
      (s.update (.registerOperation j)).channels =
        s.channels.insert (tokenOf j) j := by
    simp [update, hGet, hInv.tokens j op hGet]
  have hPlaces :
      (s.update (.registerOperation j)).fates i =
        (isPending (s.channels.insert (tokenOf j) j) i).toNat +
          s.completions.countP (finds i) +
            s.sweeps.countP (takes i) := by
    rw [fates, hChannels]
    rfl
  rw [hPlaces, fates]
  by_cases hSame : j = i
  · subst hSame
    have hNot : isPending s.channels j = false := by
      cases hPending : isPending s.channels j with
      | false => rfl
      | true => simp [fates, hPending] at hFate
    have hNow :
        isPending (s.channels.insert (tokenOf j) j) j = true :=
      decide_eq_true (AList.lookup_insert s.channels)
    simp [hNot, hNow]
    omega
  · have hKept :
        isPending (s.channels.insert (tokenOf j) j) i =
          isPending s.channels i :=
      decide_eq_decide.mpr (hInv.pending_insert_iff hLt hSame)
    simp [hKept, hSame]

theorem fates_congr
    {s s' : AsyncManager β}
    (hChannels : s'.channels = s.channels)
    (hCompletions :
      s'.completions.countP (finds i) =
        s.completions.countP (finds i))
    (hSweeps :
      s'.sweeps.countP (takes i) =
        s.sweeps.countP (takes i)) :
    s'.fates i = s.fates i := by
  rw [fates, fates, hChannels, hCompletions, hSweeps]

/- `complete_operation` takes what it found. -/
theorem TableInv.fates_complete
    (hInv : TableInv s)
    (token : UInt64)
    (ec : SystemErrorCode)
    (result : β)
    (i : Nat) :
    (s.update (.completeOperation token ec result)).fates i =
      s.fates i := by
  have hErased :
      isPending (s.channels.erase token) i =
        (isPending s.channels i &&
          decide (s.channels.lookup token ≠ some i)) := by
    rw [isPending, isPending, ← Bool.decide_and]
    exact decide_eq_decide.mpr (hInv.pending_erase_iff token)
  simp only [fates, update, List.countP_append, hErased,
    List.countP_singleton, finds, Completion.find]
  by_cases hFound : s.channels.lookup token = some i
  · have hPending : isPending s.channels i = true := by
      rcases (hInv.keys token i hFound).2 with rfl
      exact decide_eq_true hFound
    simp [hFound, hPending]
    omega
  · simp [hFound]

/- `cancel_all_operations` takes all. -/
theorem TableInv.fates_take
    (hInv : TableInv s)
    (i : Nat) :
    (s.update .takeTable).fates i = s.fates i := by
  have hTaken :
      takes i (.make (s.channels.entries.map Sigma.snd)) =
        isPending s.channels i :=
    decide_eq_decide.mpr hInv.mem_values_iff
  simp only [fates, update, List.countP_append,
    List.countP_singleton, hTaken]
  have hGone :
      isPending (∅ : AList fun _ : UInt64 => Nat) i = false := by
    simp [isPending, Pending]
  rw [hGone]
  cases isPending s.channels i <;> simp
  omega

/- Every other step leaves it where it is. -/
theorem TableInv.fates_update
    (hInv : TableInv s)
    (hOther : ∀ j, a ≠ .registerOperation j)
    (i : Nat) :
    (s.update a).fates i = s.fates i := by
  -- A call keeps what it found, and a sweep what it took.
  have hCalls :
      ∀ (k : Nat) (f : Completion β → Completion β),
        (∀ c, (f c).operation = c.operation) →
          (s.completions.modify k f).countP (finds i) =
            s.completions.countP (finds i) := by
    intro k f hKeeps
    exact Records.countP_modify_of_eq fun c _ => by
      simp [finds, hKeeps c]
  have hSweeps :
      ∀ (b : Nat) (f : Sweep → Sweep),
        (∀ b, (f b).taken = b.taken) →
          (s.sweeps.modify b f).countP (takes i) =
            s.sweeps.countP (takes i) := by
    intro b f hKeeps
    exact Records.countP_modify_of_eq fun b _ => by
      simp [takes, hKeeps b]
  cases a with
  | registerOperation j => exact absurd rfl (hOther j)
  | completeOperation token ec result =>
      exact hInv.fates_complete token ec result i
  | takeTable => exact hInv.fates_take i
  | sendResult k j =>
      exact fates_congr rfl (hCalls k _ fun _ => rfl) rfl
  | resumeSend k j =>
      exact fates_congr rfl (hCalls k _ fun _ => rfl) rfl
  | cancelNext b j =>
      exact fates_congr rfl rfl
        (hSweeps b _ fun b => b.taken_cancelled j)
  | closeNext b j =>
      exact fates_congr rfl rfl
        (hSweeps b _ Sweep.taken_finish)
  | catchNext b j =>
      exact fates_congr rfl rfl
        (hSweeps b _ fun b => b.taken_pass j)
  | generateToken kind | receive j | resume j
  | cancelChannel j => rfl

theorem TableInv.tokens_update
    (hInv : TableInv s)
    (hEnabled : s.Enabled a)
    {op' : Operation β}
    (hGet : (s.update a).operations[i]? = some op') :
    op'.token = tokenOf i := by
  rcases operation_cases hEnabled hGet with
    ⟨op, hOp, hStep⟩ | ⟨kind, _, hLast, rfl⟩
  · have hToken := hInv.tokens i op hOp
    cases hStep <;> exact hToken
  · rw [hLast]
    exact hInv.numbered

theorem TableInv.keys_update
    (hInv : TableInv s)
    (hEnabled : s.Enabled a)
    {token : UInt64}
    (hLookup : (s.update a).channels.lookup token = some i) :
    i < s.operations.length ∧ token = tokenOf i := by
  cases a with
  | registerOperation j =>
      rcases hEnabled with ⟨op, hOp, hPc⟩
      have hGet : s.operations[j]? = some op := hOp
      simp only [update, hGet, Option.map_some,
        Option.elim_some, hInv.tokens j op hGet] at hLookup
      by_cases hToken : token = tokenOf j
      · subst hToken
        rw [AList.lookup_insert] at hLookup
        rcases Option.some.inj hLookup with rfl
        exact ⟨(List.getElem?_eq_some_iff.mp hGet).1, rfl⟩
      · rw [AList.lookup_insert_ne hToken] at hLookup
        exact hInv.keys token i hLookup
  | completeOperation t ec result =>
      exact hInv.keys token i (lookup_of_erase hLookup).2
  | takeTable => simp [update] at hLookup
  | generateToken kind | receive j | resume j
  | cancelChannel j | sendResult k j | resumeSend k j
  | cancelNext b j | closeNext b j | catchNext b j =>
      exact hInv.keys token i hLookup

theorem TableInv.found_update
    (hInv : TableInv s)
    {c : Completion β}
    (hMem : c ∈ (s.update a).completions)
    (hFound : c.operation = some i) :
    c.token = tokenOf i := by
  have hModify :
      ∀ {k : Nat} {f : Completion β → Completion β},
        c ∈ s.completions.modify k f →
        (∀ c, (f c).token = c.token ∧
          (f c).operation = c.operation) →
        c.token = tokenOf i := by
    intro k f hIn hKeeps
    rcases Records.mem_of_mem_modify hIn with
      hOld | ⟨was, hWas, rfl⟩
    · exact hInv.found c hOld i hFound
    · rw [(hKeeps was).1]
      rw [(hKeeps was).2] at hFound
      exact hInv.found was (List.mem_of_getElem? hWas) i hFound
  cases a with
  | completeOperation t ec result =>
      rcases List.mem_append.mp hMem with hOld | hNew
      · exact hInv.found c hOld i hFound
      · rcases List.mem_singleton.mp hNew with rfl
        exact (hInv.keys t i hFound).2
  | sendResult k j | resumeSend k j =>
      exact hModify hMem fun _ => ⟨rfl, rfl⟩
  | generateToken kind | registerOperation j | receive j
  | resume j | cancelChannel j | takeTable | cancelNext b j
  | closeNext b j | catchNext b j =>
      exact hInv.found c hMem i hFound

theorem TableInv.fate_update
    (hInv : TableInv s)
    (hEnabled : s.Enabled a)
    (i : Nat) :
    (s.update a).fates i =
      ((s.update a).isRegistered i).toNat := by
  by_cases hRegisters : ∃ j, a = .registerOperation j
  · rcases hRegisters with ⟨j, rfl⟩
    rw [hInv.fates_register hEnabled, hInv.fate]
    by_cases hSame : j = i
    · subst hSame
      rcases isRegistered_register hEnabled with ⟨hNot, hNow⟩
      simp [hNot, hNow]
    · rw [isRegistered_update hEnabled
        fun hAct => hSame (by cases hAct; rfl)]
      simp [hSame]
  · have hOther : ∀ j, a ≠ .registerOperation j :=
      fun j hAct => hRegisters ⟨j, hAct⟩
    rw [hInv.fates_update hOther, hInv.fate,
      isRegistered_update hEnabled (hOther i)]

theorem TableInv.update
    (hInv : TableInv s)
    (hFew : FewTokens s a)
    (hEnabled : s.Enabled a) :
    TableInv (s.update a) := by
  have hLength := length_operations_update s a
  refine
    { few := ?_
      numbered := ?_
      tokens := fun i op => hInv.tokens_update hEnabled
      keys := ?_
      found := fun c hMem i => hInv.found_update hMem
      fate := hInv.fate_update hEnabled }
  · have hBefore := hInv.few
    cases a with
    | generateToken kind =>
        have hFew' : s.operations.length + 1 < 2 ^ 64 := hFew
        simpa [AsyncManager.update] using hFew'
    | _ => simpa [AsyncManager.update, onChannel] using hBefore
  · have hBefore := hInv.numbered
    cases a with
    | generateToken kind =>
        simp only [AsyncManager.update, hBefore, tokenOf_succ,
          List.length_append, List.length_singleton]
    | _ => simpa [AsyncManager.update, onChannel] using hBefore
  · intro token i hLookup
    rcases hInv.keys_update hEnabled hLookup with
      ⟨hLt, hToken⟩
    exact ⟨Nat.lt_of_lt_of_le hLt hLength, hToken⟩

------------------------------------------------------------
-- Who Touches A Channel
------------------------------------------------------------

theorem TableInv.fates_le
    (hInv : TableInv s)
    (i : Nat) :
    (isPending s.channels i).toNat +
      s.completions.countP (finds i) +
        s.sweeps.countP (takes i) ≤ 1 := by
  have hFate := hInv.fate i
  have hLe := Bool.toNat_le (s.isRegistered i)
  rw [fates] at hFate
  omega

/- Only one call ever finds an operation. -/
theorem TableInv.sole_completion
    (hInv : TableInv s)
    {k k' : Nat}
    {c c' : Completion β}
    (hGet : s.completions[k]? = some c)
    (hFound : c.operation = some i)
    (hGet' : s.completions[k']? = some c')
    (hFound' : c'.operation = some i) :
    k = k' := by
  have hLe := hInv.fates_le i
  by_contra hNe
  have hTwo := Records.two_le_countP (p := finds i) hNe hGet
    hGet' (by simp [finds, hFound]) (by simp [finds, hFound'])
  omega

/- What a call found is neither pending nor taken. -/
theorem TableInv.not_takes_of_found
    (hInv : TableInv s)
    {c : Completion β}
    (hMem : c ∈ s.completions)
    (hFound : c.operation = some i)
    {b : Sweep}
    (hSweep : b ∈ s.sweeps) :
    i ∉ b.taken := by
  intro hTaken
  have hLe := hInv.fates_le i
  have hCalls := countP_finds_pos hMem hFound
  have hSweeps := countP_takes_pos hSweep hTaken
  omega

/- What is pending was neither found nor taken. -/
theorem TableInv.of_pending
    (hInv : TableInv s)
    (hPending : Pending s.channels i) :
    (∀ c ∈ s.completions, c.operation ≠ some i) ∧
      ∀ b ∈ s.sweeps, i ∉ b.taken := by
  have hLe := hInv.fates_le i
  have hOne : isPending s.channels i = true :=
    decide_eq_true hPending
  simp only [hOne, Bool.toNat_true] at hLe
  constructor
  · intro c hMem hFound
    have hCalls := countP_finds_pos hMem hFound
    omega
  · intro b hMem hTaken
    have hSweeps := countP_takes_pos hMem hTaken
    omega

/- Where what a channel admitted and its end come from. -/
structure ChannelInv
    (s : AsyncManager β)
    (i : Nat)
    (op : Operation β) : Prop where
  roomy : op.channel.capacity = 1
  unparked : op.channel.senders = []
  closed :
    op.channel.isOpen = false → ∃ b ∈ s.sweeps, i ∈ b.taken
  sent :
    ∀ p ∈ op.channel.admitted,
      ∃ c, s.completions[p.completion]? = some c ∧
        c.operation = some i ∧ c.pc ≠ .found ∧
          c.result = p.result
  once : op.channel.admitted.length ≤ 1

/- A channel that nobody has sent on or closed. -/
def IsFresh (op : Operation β) : Prop :=
  op.channel.isOpen = true ∧ op.channel.buffer = [] ∧
    op.channel.admitted = []

theorem ChannelInv.isFresh
    {op : Operation β}
    (hChannel : ChannelInv s i op)
    (hSweeps : ∀ b ∈ s.sweeps, i ∉ b.taken)
    (hCalls :
      ∀ (k : Nat) (c : Completion β),
        s.completions[k]? = some c →
          c.operation = some i → c.pc = .found) :
    IsFresh op := by
  have hOpen : op.channel.isOpen = true := by
    cases hShut : op.channel.isOpen with
    | true => rfl
    | false =>
        rcases hChannel.closed hShut with ⟨b, hMem, hTaken⟩
        exact absurd hTaken (hSweeps b hMem)
  have hNone : op.channel.admitted = [] := by
    rw [List.eq_nil_iff_forall_not_mem]
    intro p hMem
    rcases hChannel.sent p hMem with ⟨c, hGet, hFound, hPc, _⟩
    exact hPc (hCalls p.completion c hGet hFound)
  have hAccepted : op.channel.accepted = [] :=
    (List.append_eq_nil_iff.mp hNone).1
  rw [op.channel.fifo] at hAccepted
  exact ⟨hOpen, (List.append_eq_nil_iff.mp hAccepted).2, hNone⟩

theorem ChannelInv.hasRoom
    {op : Operation β}
    (hChannel : ChannelInv s i op)
    (hFresh : IsFresh op) :
    op.channel.hasRoom = true := by
  simp [Channel.hasRoom, hFresh.1, hFresh.2.1, hChannel.roomy]

------------------------------------------------------------
-- Every Run
------------------------------------------------------------

/- The call's `async_send` neither waits nor has failed. -/
def Settled (c : Completion β) : Prop :=
  c.pc ≠ .sending ∧ c.pc ≠ .threw ∧
    (c.pc = .found → c.operation ≠ none)

structure ManagerInv (s : AsyncManager β) : Prop where
  table : TableInv s
  channel :
    ∀ (i : Nat) (op : Operation β),
      s.operations[i]? = some op → ChannelInv s i op
  settled : ∀ c ∈ s.completions, Settled c

/- A call that is about to send finds its channel fresh. -/
theorem ManagerInv.isFresh_of_found
    (hInv : ManagerInv s)
    {k : Nat}
    {c : Completion β}
    (hGet : s.completions[k]? = some c)
    (hPc : c.pc = .found)
    (hFound : c.operation = some i)
    {op : Operation β}
    (hOp : s.operations[i]? = some op) :
    IsFresh op := by
  have hMem := List.mem_of_getElem? hGet
  refine (hInv.channel i op hOp).isFresh
    (fun b => hInv.table.not_takes_of_found hMem hFound) ?_
  intro k' c' hGet' hFound'
  obtain rfl :=
    hInv.table.sole_completion hGet hFound hGet' hFound'
  rcases Option.some.inj (hGet.symm.trans hGet') with rfl
  exact hPc

theorem ManagerInv.isFresh_of_pending
    (hInv : ManagerInv s)
    (hPending : Pending s.channels i)
    {op : Operation β}
    (hOp : s.operations[i]? = some op) :
    IsFresh op := by
  rcases hInv.table.of_pending hPending with
    ⟨hCalls, hSweeps⟩
  refine (hInv.channel i op hOp).isFresh hSweeps ?_
  intro k c hGet hFound
  exact absurd hFound
    (hCalls c (List.mem_of_getElem? hGet))

/- What was sent stays sent, and who closed stays known. -/
theorem History.sent
    {s s' : AsyncManager β}
    (hHistory : History s s')
    {p : Sent β}
    (hSent :
      ∃ c, s.completions[p.completion]? = some c ∧
        c.operation = some i ∧ c.pc ≠ .found ∧
          c.result = p.result) :
    ∃ c, s'.completions[p.completion]? = some c ∧
      c.operation = some i ∧ c.pc ≠ .found ∧
        c.result = p.result := by
  rcases hSent with ⟨c, hGet, hFound, hPc, hResult⟩
  rcases hHistory.completions p.completion c hGet with
    ⟨c', hGet', hLater⟩
  exact ⟨c', hGet', hLater.operation.trans hFound,
    fun hNow => hPc (hLater.found hNow),
    hLater.result.trans hResult⟩

theorem History.swept
    {s s' : AsyncManager β}
    (hHistory : History s s')
    (hSwept : ∃ b ∈ s.sweeps, i ∈ b.taken) :
    ∃ b ∈ s'.sweeps, i ∈ b.taken := by
  rcases hSwept with ⟨b, hMem, hTaken⟩
  rcases hHistory.sweeps b hMem with ⟨b', hMem', hSame⟩
  exact ⟨b', hMem', hSame.symm ▸ hTaken⟩

/- A change of the channel that sends nothing on it. -/
theorem ChannelInv.of_admitted
    {s s' : AsyncManager β}
    {op op' : Operation β}
    (hChannel : ChannelInv s i op)
    (hHistory : History s s')
    (hCapacity :
      op'.channel.capacity = op.channel.capacity)
    (hSenders : op'.channel.senders ⊆ op.channel.senders)
    (hAdmitted :
      op'.channel.admitted = op.channel.admitted)
    (hOpen :
      op'.channel.isOpen = op.channel.isOpen ∨
        ∃ b ∈ s.sweeps, i ∈ b.taken) :
    ChannelInv s' i op' where
  roomy := hCapacity.trans hChannel.roomy
  unparked :=
    List.subset_nil.mp (hChannel.unparked ▸ hSenders)
  closed := by
    intro hShut
    rcases hOpen with hSame | hSwept
    · exact hHistory.swept
        (hChannel.closed (hSame.symm.trans hShut))
    · exact hHistory.swept hSwept
  sent := by
    intro p hMem
    exact hHistory.sent (hChannel.sent p (hAdmitted ▸ hMem))
  once := hAdmitted ▸ hChannel.once

/- The call's program counter moves on as it sends. -/
theorem completion_sendResult
    {k : Nat}
    {c : Completion β}
    {op : Operation β}
    (hGet : s.completions[k]? = some c)
    (hOp : s.operations[i]? = some op) :
    (s.update (.sendResult k i)).completions[k]? =
      some { c with pc := .ofSend op.channel } := by
  simp [update, hGet, hOp]

theorem ManagerInv.channel_update
    (hInv : ManagerInv s)
    (hEnabled : s.Enabled a)
    {op' : Operation β}
    (hGet : (s.update a).operations[i]? = some op') :
    ChannelInv (s.update a) i op' := by
  have hHistory := history_update s a
  rcases operation_cases hEnabled hGet with
    ⟨op, hOp, hStep⟩ | ⟨kind, _, _, rfl⟩
  · have hChannel := hInv.channel i op hOp
    have hCancel :
        op.channel.cancel.admitted = op.channel.admitted :=
      op.channel.cancel_admitted hChannel.unparked
    cases hStep with
    | same | registered _ _ =>
        exact hChannel.of_admitted hHistory rfl
          (List.Subset.refl _) rfl (.inl rfl)
    | receiving _ =>
        exact hChannel.of_admitted hHistory
          op.channel.capacity_asyncReceive
          op.channel.senders_asyncReceive_subset
          op.channel.asyncReceive_admitted
          (.inl op.channel.isOpen_asyncReceive)
    | resumed _ _ _ =>
        exact hChannel.of_admitted hHistory rfl
          (List.Subset.refl _) rfl (.inl rfl)
    | cancelled _ =>
        exact hChannel.of_admitted hHistory rfl
          (List.nil_subset _) hCancel (.inl rfl)
    | swept _ _ =>
        exact hChannel.of_admitted hHistory rfl
          (List.nil_subset _) hCancel (.inl rfl)
    | closed hMem hTaken =>
        exact hChannel.of_admitted hHistory rfl
          (List.Subset.refl _) rfl (.inr ⟨_, hMem, hTaken⟩)
    | @sent k c hC hPc hFound hAct =>
        subst hAct
        have hFresh := hInv.isFresh_of_found hC hPc hFound hOp
        have hAdmitted :
            (op.channel.asyncSend ⟨k, c.result⟩).admitted =
              [⟨k, c.result⟩] := by
          rw [Channel.asyncSend_admitted, if_pos hFresh.1,
            hFresh.2.2, List.nil_append]
        exact
          { roomy :=
              (op.channel.capacity_asyncSend _).trans
                hChannel.roomy
            unparked :=
              (op.channel.senders_asyncSend_of_hasRoom _
                (hChannel.hasRoom hFresh)).trans
                hChannel.unparked
            closed := by
              intro hShut
              rw [Channel.isOpen_asyncSend, hFresh.1] at hShut
              cases hShut
            sent := by
              intro p hMem
              rw [hAdmitted, List.mem_singleton] at hMem
              subst hMem
              exact ⟨_, completion_sendResult hC hOp, hFound,
                CompletionPc.ofSend_ne_found _, rfl⟩
            once := by simp [hAdmitted] }
  · exact
      { roomy := rfl
        unparked := rfl
        closed := by simp [Operation.create, Channel.make]
        sent := by
          simp [Operation.create, Channel.make,
            Channel.admitted]
        once := by
          simp [Operation.create, Channel.make,
            Channel.admitted] }

theorem ManagerInv.settled_update
    (hInv : ManagerInv s)
    (hEnabled : s.Enabled a)
    {c : Completion β}
    (hMem : c ∈ (s.update a).completions) :
    Settled c := by
  cases a with
  | completeOperation t ec result =>
      rcases List.mem_append.mp hMem with hOld | hNew
      · exact hInv.settled c hOld
      · rcases List.mem_singleton.mp hNew with rfl
        cases hLookup : s.channels.lookup t <;>
          simp [Settled, Completion.find, hLookup]
  | sendResult k j =>
      rcases hEnabled with ⟨was, hWas, hPc, hFound⟩
      have hGet : s.completions[k]? = some was := hWas
      rcases Records.mem_of_mem_modify hMem with
        hOld | ⟨c', hC', rfl⟩
      · exact hInv.settled c hOld
      · rcases Option.some.inj (hGet.symm.trans hC') with rfl
        cases hOp : s.operations[j]? with
        | none =>
            simp only [Option.elim_none]
            exact hInv.settled was (List.mem_of_getElem? hGet)
        | some op =>
            have hFresh :=
              hInv.isFresh_of_found hGet hPc hFound hOp
            have hRoom :=
              (hInv.channel j op hOp).hasRoom hFresh
            simp [Settled, CompletionPc.ofSend, hFresh.1,
              hRoom]
  | resumeSend k j =>
      rcases hEnabled with ⟨⟨was, hWas, hPc, _⟩, _⟩
      have hSettled := hInv.settled was
        (List.mem_of_getElem? hWas)
      exact absurd hPc hSettled.1
  | generateToken kind | registerOperation j | receive j
  | resume j | cancelChannel j | takeTable | cancelNext b j
  | closeNext b j | catchNext b j =>
      exact hInv.settled c hMem

theorem ManagerInv.start :
    ManagerInv (start : AsyncManager β) where
  table := .start
  channel := by simp [AsyncManager.start]
  settled := by simp [AsyncManager.start]

theorem ManagerInv.update
    (hInv : ManagerInv s)
    (hFew : FewTokens s a)
    (hEnabled : s.Enabled a) :
    ManagerInv (s.update a) where
  table := hInv.table.update hFew hEnabled
  channel := fun _ _ => hInv.channel_update hEnabled
  settled := fun _ => hInv.settled_update hEnabled

theorem managerInv
    {ok : AsyncManager β → ManagerAction β → Prop}
    (hFew : ∀ s a, ok s a → FewTokens s a)
    (hReach : ReachableBy ok s) :
    ManagerInv s :=
  invariant ManagerInv .start
    (fun s a hInv hOk hEnabled =>
      hInv.update (hFew s a hOk) hEnabled)
    hReach

------------------------------------------------------------
-- Completion Never Blocks
------------------------------------------------------------

/-
  What is in the table can be completed, a call that found
  its operation can send, and a channel carries one result.
-/
structure TableSound (s : AsyncManager β) : Prop where
  table :
    ∀ token i, s.channels.lookup token = some i →
      ∃ op, s.operations[i]? = some op ∧ op.token = token ∧
        op.channel.isOpen = true ∧ op.channel.buffer = []
  unique :
    ∀ token token' i,
      s.channels.lookup token = some i →
        s.channels.lookup token' = some i → token = token'
  ready :
    ∀ c ∈ s.completions, c.pc = .found →
      ∃ i op, c.operation = some i ∧
        s.operations[i]? = some op ∧
          op.channel.capacity = 1 ∧ op.channel.buffer = [] ∧
            op.channel.isOpen = true
  settled :
    ∀ c ∈ s.completions, c.pc ≠ .sending ∧ c.pc ≠ .threw
  once :
    ∀ op ∈ s.operations, op.channel.admitted.length ≤ 1

/- What a call found, or the table has, is an operation. -/
theorem TableInv.exists_operation
    (hInv : TableInv s)
    (hPlace : 0 < s.fates i) :
    ∃ op, s.operations[i]? = some op := by
  rw [hInv.fate] at hPlace
  cases hGet : s.operations[i]? with
  | none => simp [isRegistered, hGet] at hPlace
  | some op => exact ⟨op, rfl⟩

theorem fates_pos_of_pending
    (hPending : Pending s.channels i) :
    0 < s.fates i := by
  have hOne : isPending s.channels i = true :=
    decide_eq_true hPending
  simp only [fates, hOne, Bool.toNat_true]
  omega

theorem fates_pos_of_found
    {c : Completion β}
    (hMem : c ∈ s.completions)
    (hFound : c.operation = some i) :
    0 < s.fates i := by
  have hCalls := countP_finds_pos hMem hFound
  rw [fates]
  omega

theorem ManagerInv.tableSound
    (hInv : ManagerInv s) :
    TableSound s := by
  have hTable := hInv.table
  constructor
  case table =>
    intro token i hLookup
    rcases (hTable.keys token i hLookup).2 with rfl
    rcases hTable.exists_operation
      (fates_pos_of_pending hLookup) with ⟨op, hOp⟩
    have hFresh := hInv.isFresh_of_pending hLookup hOp
    exact ⟨op, hOp, hTable.tokens i op hOp, hFresh.1,
      hFresh.2.1⟩
  case unique =>
    intro token token' i hLookup hLookup'
    exact (hTable.keys token i hLookup).2.trans
      (hTable.keys token' i hLookup').2.symm
  case ready =>
    intro c hMem hPc
    rcases List.mem_iff_getElem?.mp hMem with ⟨k, hGet⟩
    rcases Option.ne_none_iff_exists'.mp
      ((hInv.settled c hMem).2.2 hPc) with ⟨i, hFound⟩
    rcases hTable.exists_operation
      (fates_pos_of_found hMem hFound) with ⟨op, hOp⟩
    have hFresh := hInv.isFresh_of_found hGet hPc hFound hOp
    exact ⟨i, op, hFound, hOp, (hInv.channel i op hOp).roomy,
      hFresh.2.1, hFresh.1⟩
  case settled =>
    intro c hMem
    exact ⟨(hInv.settled c hMem).1, (hInv.settled c hMem).2.1⟩
  case once =>
    intro op hMem
    rcases List.mem_iff_getElem?.mp hMem with ⟨i, hOp⟩
    exact (hInv.channel i op hOp).once

/- What is pending was, unless it is registered now. -/
theorem TableInv.pending_update
    (hInv : TableInv s)
    (hEnabled : s.Enabled a)
    (hPending : Pending (s.update a).channels i) :
    Pending s.channels i ∨ a = .registerOperation i := by
  cases a with
  | registerOperation j =>
      rcases hEnabled with ⟨op, hOp, hPc⟩
      have hGet : s.operations[j]? = some op := hOp
      by_cases hSame : j = i
      · exact .inr (by rw [hSame])
      · simp only [AsyncManager.update, hGet,
          Option.map_some, Option.elim_some,
          hInv.tokens j op hGet] at hPending
        have hLt := (List.getElem?_eq_some_iff.mp hGet).1
        exact .inl
          ((hInv.pending_insert_iff hLt hSame).mp hPending)
  | completeOperation t ec result =>
      exact .inl (lookup_of_erase hPending).2
  | takeTable =>
      simp [AsyncManager.update, Pending] at hPending
  | generateToken kind | receive j | resume j
  | cancelChannel j | sendResult k j | resumeSend k j
  | cancelNext b j | closeNext b j | catchNext b j =>
      exact .inl hPending

/- A registered operation that has left the table. -/
structure Left (s : AsyncManager β) (i : Nat) : Prop where
  table : TableInv s
  registered : s.isRegistered i = true
  gone : ¬ Pending s.channels i

theorem isRegistered_mono
    (hEnabled : s.Enabled a)
    (hRegistered : s.isRegistered i = true) :
    a ≠ .registerOperation i ∧
      (s.update a).isRegistered i = true := by
  have hOther : a ≠ .registerOperation i := by
    rintro rfl
    simp [(isRegistered_register hEnabled).1] at hRegistered
  exact ⟨hOther,
    (isRegistered_update hEnabled hOther).trans hRegistered⟩

/- An operation that left never comes back. -/
theorem Left.later
    {last : AsyncManager β}
    (hLeft : Left s i)
    (hRun : Transition.ReachableBy step FewTokens s last) :
    Left last i := by
  refine invariantFrom (fun m => Left m i) hLeft ?_ hRun
  intro m a hInv hFew hEnabled
  rcases isRegistered_mono hEnabled hInv.registered with
    ⟨hOther, hStill⟩
  refine ⟨hInv.table.update hFew hEnabled, hStill, ?_⟩
  intro hPending
  rcases hInv.table.pending_update hEnabled hPending with
    hBefore | hAct
  · exact hInv.gone hBefore
  · exact hOther hAct

theorem Left.hasOperation
    (hLeft : Left s i) :
    s.hasOperation (tokenOf i) = false := by
  cases hLookup : s.channels.lookup (tokenOf i) with
  | none => simp [AsyncManager.hasOperation, hLookup]
  | some j =>
      rcases hLeft.table.keys _ _ hLookup with ⟨hLt, hToken⟩
      have hFew := hLeft.table.few
      have hRegistered : 0 < s.fates i := by
        simp [hLeft.table.fate, hLeft.registered]
      rcases hLeft.table.exists_operation hRegistered with
        ⟨op, hOp⟩
      have hI := (List.getElem?_eq_some_iff.mp hOp).1
      obtain rfl :=
        tokenOf_inj (by omega) (by omega) hToken
      exact absurd hLookup hLeft.gone

/-
  In every reachable state of the manager completion can
  neither wait nor fail, and a token that has left the table
  is not in it again.
-/
theorem neverBlocks
    (s : AsyncManager β)
    (hReach : ReachableBy FewTokens s) :
    TableSound s ∧
      ∀ (token : UInt64) (mid last : AsyncManager β),
        s.hasOperation token = true →
        Transition.ReachableBy step FewTokens s mid →
        mid.hasOperation token = false →
        Transition.ReachableBy step FewTokens mid last →
        last.hasOperation token = false := by
  have hInv := managerInv (fun _ _ hFew => hFew) hReach
  refine ⟨hInv.tableSound, ?_⟩
  intro token mid last hHas hMid hGone hLast
  rcases Option.isSome_iff_exists.mp hHas with ⟨i, hLookup⟩
  rcases (hInv.table.keys token i hLookup).2 with rfl
  have hRegistered : s.isRegistered i = true := by
    have hPos := fates_pos_of_pending hLookup
    rw [hInv.table.fate] at hPos
    cases hNow : s.isRegistered i with
    | true => rfl
    | false => simp [hNow] at hPos
  have hThen : mid.isRegistered i = true :=
    invariantFrom (fun m => m.isRegistered i = true)
      hRegistered
      (fun _ _ hStill _ hEnabled =>
        (isRegistered_mono hEnabled hStill).2)
      hMid
  have hLeft : Left mid i :=
    { table :=
        (managerInv (fun _ _ hFew => hFew)
          (hReach.trans hMid)).table
      registered := hThen
      gone := by
        intro hPending
        simp [AsyncManager.hasOperation, show
          mid.channels.lookup (tokenOf i) = some i
            from hPending] at hGone }
  exact (hLeft.later hLast).hasOperation

/- A reply takes a token out of the table and is sent. -/
theorem neverBlocks_reply :
    ∃ s mid last : AsyncManager Nat,
      ReachableBy FewTokens s ∧ s.hasOperation 1 = true ∧
        Transition.ReachableBy step FewTokens s mid ∧
        mid.hasOperation 1 = false ∧
        Transition.ReachableBy step FewTokens mid last ∧
        TableSound s ∧ last.hasOperation 1 = false := by
  obtain ⟨s, hReach, hRun⟩ :=
    Transition.exists_of_runBy step FewTokens start
      [.generateToken .awaited, .registerOperation 0]
      (fun s : AsyncManager Nat =>
        s.hasOperation 1 &&
          (Transition.runBy step FewTokens s
              [.receive 0, .completeWith 1 7]).any
            fun mid =>
              !mid.hasOperation 1 &&
                (Transition.runBy step FewTokens mid
                  [.sendResult 0 0, .resume 0]).any
                  fun _ => true)
      (by decide)
  rcases (Bool.and_eq_true _ _).mp hRun with ⟨hHas, hNext⟩
  rcases (Option.any_eq_true _ _).mp hNext with
    ⟨mid, hMid, hRest⟩
  rcases (Bool.and_eq_true _ _).mp hRest with ⟨hGone, hLast⟩
  rcases (Option.any_eq_true _ _).mp hLast with ⟨last, hEnd, _⟩
  have hFromS := Transition.reachableBy_of_runBy hMid
  have hFromMid := Transition.reachableBy_of_runBy hEnd
  have hNot : mid.hasOperation 1 = false := by
    simpa using hGone
  have hSound := neverBlocks s hReach
  exact ⟨s, mid, last, hReach, hHas, hFromS, hNot, hFromMid,
    hSound.1, hSound.2 1 mid last hHas hFromS hNot hFromMid⟩

end AsyncManager

end GrlxRpc
