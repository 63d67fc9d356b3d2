import GrlxRpc.Client

/-
  The completion handler of `dispatch_requests`.

  A session is published before its loops are spawned, and
  its attempt publishes no other time. So when its loops have
  ended nothing is left that would store it again, and the
  compare-exchange takes out no session but its own.

  Main declarations:
    * `Client.Retired`
    * `Client.retired_update` and `Client.dispatchInv`
    * `Client.deadNotHeld`
-/

namespace GrlxRpc

namespace Client

variable {ω : Type}
variable {cfg : Config ω}
variable {ok : Client → ClientAction ω → Prop}
variable {s : Client}
variable {a : ClientAction ω}
variable {c : Nat}

------------------------------------------------------------
-- Finished Attempts
------------------------------------------------------------

/- The attempt's run of `connect()` has returned. -/
def Finished
    (s : Client)
    (c : Nat) : Prop :=
  ∃ attempt ∈ s.attempts[c]?, attempt.pc = .done

/- A finished attempt is at no step of `connect()`. -/
theorem Finished.not_at
    (hFinished : s.Finished c)
    {pc : ConnectPc}
    (hAt : s.At c pc) :
    pc = .done := by
  rcases hFinished with ⟨attempt, hGet, hDone⟩
  exact (hAt.pc_eq hGet).symm.trans hDone

/- A change of one attempt that leaves this one finished. -/
theorem Finished.modify
    (hFinished : s.Finished c)
    {i : Nat}
    {f : Attempt → Attempt}
    (hKeeps :
      i = c → ∀ attempt, attempt.pc = .done →
        (f attempt).pc = .done) :
    ∃ attempt ∈ (s.attempts.modify i f)[c]?,
      attempt.pc = .done := by
  rcases hFinished with ⟨attempt, hGet, hDone⟩
  by_cases hSame : i = c
  · subst hSame
    refine ⟨f attempt, ?_, hKeeps rfl attempt hDone⟩
    rw [List.getElem?_modify_eq, hGet]
    rfl
  · refine ⟨attempt, ?_, hDone⟩
    rw [List.getElem?_modify_ne _ _ hSame]
    exact hGet

/- A finished attempt stays finished. -/
theorem Finished.update
    (hFinished : s.Finished c)
    (hEnabled : s.Enabled a) :
    (s.update cfg a).Finished c := by
  have hNotAt :
      ∀ {i : Nat} {pc : ConnectPc}, s.At i pc →
        pc ≠ .done → i ≠ c := by
    rintro i pc hAt hNe rfl
    exact hNe (hFinished.not_at hAt)
  cases a with
  | connect =>
      rcases hFinished with ⟨attempt, hGet, hDone⟩
      exact ⟨attempt,
        Records.getElem?_mono (List.prefix_append _ _) hGet,
        hDone⟩
  | fail i =>
      apply hFinished.modify
      rintro rfl
      rcases hFinished with ⟨attempt, hGet, hDone⟩
      rcases hEnabled with ⟨other, hOther, hMay⟩
      rcases Option.some.inj (hGet.symm.trans hOther) with rfl
      rw [hDone] at hMay
      cases hMay
  | connected i | handshook i
  | setupNotificationHandling i | publish i =>
      apply hFinished.modify
      intro hSame
      exact absurd hSame (hNotAt hEnabled (by simp))
  | spawn i | storeNull i =>
      exact hFinished.modify fun _ _ _ => rfl
  | complete i | close d i | session i b =>
      exact hFinished.modify fun _ _ hDone => hDone
  | disconnect | exchange d | closed d i => exact hFinished

/-
  Nothing will store the session of attempt `c` any more,
  and the client does not hold it.
-/
structure Retired
    (s : Client)
    (c : Nat) : Prop where
  finished : s.Finished c
  notHeld : s.clientSession ≠ some c

/- No step brings a retired session back. -/
theorem retired_update
    (hRetired : s.Retired c)
    (hEnabled : s.Enabled a) :
    (s.update cfg a).Retired c := by
  constructor
  case finished => exact hRetired.finished.update hEnabled
  case notHeld =>
    cases a with
    | publish i =>
        intro hHeld
        obtain rfl : i = c := Option.some.inj hHeld
        cases hRetired.finished.not_at hEnabled
    | storeNull i | exchange d => simp [update]
    | complete i =>
        simp only [update]
        split
        · simp
        · exact hRetired.notHeld
    | _ => exact hRetired.notHeld

/- A retired session stays retired in every run. -/
theorem retired_of_reachable
    {t : Client}
    (hReach : Transition.ReachableBy (step cfg) ok s t)
    (hRetired : s.Retired c) :
    t.Retired c :=
  hReach.invariant_of_guarded (step_eq_some_iff cfg) hRetired
    fun _ _ _ hInv _ hEnabled => retired_update hInv hEnabled

------------------------------------------------------------
-- Completion
------------------------------------------------------------

/- The loops are spawned by the last step of `connect()`. -/
theorem dispatchInv
    (hReach : ReachableBy cfg ok s) :
    ∀ (c : Nat) (attempt : Attempt),
      s.attempts[c]? = some attempt →
        attempt.dispatch ≠ .unspawned →
          attempt.pc = .done := by
  refine invariant
    (fun s =>
      ∀ (c : Nat) (attempt : Attempt),
        s.attempts[c]? = some attempt →
          attempt.dispatch ≠ .unspawned →
            attempt.pc = .done)
    (by simp [start]) ?_ hReach
  intro s a hInv _ hEnabled
  have hUnspawned :
      ∀ {i : Nat} {pc : ConnectPc}, s.At i pc →
        pc ≠ .done →
          ∀ attempt, s.attempts[i]? = some attempt →
            attempt.dispatch = .unspawned := by
    intro i pc hAt hNe attempt hGet
    by_contra hSpawned
    exact hNe ((hAt.pc_eq hGet).symm.trans
      (hInv i attempt hGet hSpawned))
  cases a with
  | connect =>
      apply Records.forall_getElem?_concat hInv
      exact fun hNot => absurd rfl hNot
  | fail i =>
      apply Records.forall_getElem?_modify_of_forall hInv
      intro attempt hGet hOld hSpawned
      rcases hEnabled with ⟨other, hOther, hMay⟩
      rcases Option.some.inj (hGet.symm.trans hOther) with rfl
      rw [hOld hSpawned] at hMay
      cases hMay
  | connected i | handshook i
  | setupNotificationHandling i | publish i =>
      apply Records.forall_getElem?_modify_of_forall hInv
      intro attempt hGet _ hSpawned
      exact absurd
        (hUnspawned hEnabled (by simp) attempt hGet) hSpawned
  | spawn i | storeNull i =>
      apply Records.forall_getElem?_modify_of_forall hInv
      exact fun _ _ _ _ => rfl
  | complete i =>
      apply Records.forall_getElem?_modify_of_forall hInv
      intro attempt hGet hOld _
      rcases hEnabled with ⟨other, hOther, hRunning, _⟩
      rcases Option.some.inj (hGet.symm.trans hOther) with rfl
      exact hOld (by simp [hRunning])
  | close d i | session i b =>
      apply Records.forall_getElem?_modify_of_forall hInv
      exact fun _ _ hOld => hOld
  | disconnect | exchange d | closed d i => exact hInv

/- When its handler has run a session is retired. -/
theorem retired_of_complete
    (hReach : ReachableBy cfg ok s)
    (hEnabled : s.Enabled (.complete c : ClientAction ω)) :
    (s.update cfg (.complete c)).Retired c := by
  have hFinished : s.Finished c := by
    rcases hEnabled with ⟨attempt, hGet, hRunning, _⟩
    exact ⟨attempt, hGet,
      dispatchInv hReach c attempt hGet (by simp [hRunning])⟩
  constructor
  case finished => exact hFinished.update hEnabled
  case notHeld =>
    simp only [update]
    split
    · simp
    · assumption

/-
  Once the completion handler of a session has run, the
  client holds that session in no later state. The handler
  changes nothing while another session or none is held.
-/
theorem deadNotHeld
    (cfg : Config ω)
    (s s' : Client)
    (c : Nat)
    (hReach : Reachable cfg s)
    (hComplete : step cfg s (.complete c) = some s') :
    (∀ t : Client,
      Transition.Reachable (step cfg) s' t →
        t.clientSession ≠ some c) ∧
      (s.clientSession ≠ some c →
        s'.clientSession = s.clientSession) := by
  rcases (step_eq_some_iff cfg s s' _).mp hComplete with
    ⟨hEnabled, rfl⟩
  have hRetired := retired_of_complete hReach hEnabled
  constructor
  · intro t hLater
    exact (retired_of_reachable hLater hRetired).notHeld
  · intro hOther
    simp only [update, if_neg hOther]

/- The peer goes away, and both loops of session 0 end. -/
def loopsEnd : List (ClientAction Unit) :=
  [.session 0 .writerReceive,
    .session 0 .readFail,
    .session 0 (.readerClose false),
    .session 0 .closeWriteChannel,
    .session 0 .takeTable,
    .session 0 .closeStream,
    .session 0 (.readerClosed false),
    .session 0 .writerTake,
    .session 0 .writerClose]

/-
  A reconnect has published its session by the time the
  completion handler of the first one runs.
-/
theorem deadNotHeld_reconnect :
    ∃ s s' t : Client, Reachable ({} : Config Unit) s ∧
      s.clientSession = some 1 ∧
        s'.clientSession = s.clientSession ∧
          t.attempts.length = 3 ∧
            t.clientSession ≠ some 0 := by
  obtain ⟨s, hReach, hRun⟩ :=
    Transition.exists_of_run (step ({} : Config Unit)) start
      (connecting 0 ++ loopsEnd ++ connecting 1)
      (fun s =>
        (step ({} : Config Unit) s (.complete 0)).any
          fun s' =>
            (Transition.run (step ({} : Config Unit)) s'
              (connecting 2)).any fun t : Client =>
                decide (s.clientSession = some 1 ∧
                  t.attempts.length = 3))
      (by decide +kernel)
  rcases (Option.any_eq_true _ _).mp hRun with
    ⟨s', hComplete, hLater⟩
  rcases (Option.any_eq_true _ _).mp hLater with
    ⟨t, hRuns, hDecided⟩
  rcases of_decide_eq_true hDecided with ⟨hHeld, hLength⟩
  rcases deadNotHeld {} s s' 0 hReach hComplete with
    ⟨hNever, hKept⟩
  exact ⟨s, s', t, hReach, hHeld, hKept (by simp [hHeld]),
    hLength, hNever t (Transition.reachable_of_run hRuns)⟩

end Client

end GrlxRpc
