import GrlxRpc.Server.Admission
import GrlxRpc.Server.Connections
import GrlxRpc.Lib.Observed

/-
  The budget of half-open handshakes.

  The accept loop reads `handshakes_in_flight_` and raises it
  in two operations. Between them only coroutines touch it,
  and they lower it, so what the loop read is still an upper
  bound when it raises it.

  Main declarations:
    * `SlotEvent` and `Server.slotEvent`
    * `Server.SlotsInv` and `Server.slotsInv`
    * `Server.SlotsKept` and `Server.slotsKept`
-/

------------------------------------------------------------
-- Slots
------------------------------------------------------------

namespace GrlxRpc

/- A coroutine takes its slot, or gives it back. -/
inductive SlotEvent
  | taken (i : Nat)
  | released (i : Nat)
  deriving DecidableEq

/- Has it been started and not released its slot? -/
def Connection.holdsSlot (conn : Connection) : Bool :=
  conn.pc.holdsSlot

/- Only its own release takes a slot from a coroutine. -/
theorem Connection.Goes.holdsSlot
    {i : Nat}
    {conn conn' : Connection}
    {a : ServerAction}
    (hGoes : conn.Goes i a conn')
    (hNot : a ≠ .releaseSlot i) :
    conn'.holdsSlot = conn.holdsSlot := by
  cases hGoes with
  | stays => rfl
  | closed => rfl
  | releaseSlot => exact absurd rfl hNot
  | finishHandshake hPc | admitGlobal hPc | admitIp hPc
  | postInsert hPc | openHook hPc | serve hPc | complete hPc
  | releaseGlobal hPc | releaseIp hPc | closeHook hPc
  | postErase hPc =>
      simp [Connection.holdsSlot, hPc, ConnectionPc.holdsSlot]

theorem Connection.Goes.holdsSlot_releaseSlot
    {i : Nat}
    {conn conn' : Connection}
    (hGoes : conn.Goes i (.releaseSlot i) conn') :
    conn.holdsSlot = true ∧ conn'.holdsSlot = false := by
  cases hGoes with
  | stays hOther => exact absurd rfl hOther
  | closed hNone => cases hNone
  | releaseSlot hPc =>
      cases hSession : conn.session <;>
        simp [Connection.holdsSlot, hPc, Server.afterSlot,
          hSession, ConnectionPc.holdsSlot]

namespace Server

/- The slot that a step takes or gives back. -/
def slotEvent
    (s : Server) : ServerAction → Option SlotEvent
  | .spawnHandshake _ => some (.taken s.connections.length)
  | .releaseSlot i => some (.released i)
  | _ => none

/- `set_server_limits` leaves the handshake budget. -/
def KeepsBudget
    (x : Server × List SlotEvent) : ServerAction → Prop
  | .setServerLimits limits =>
      limits.maxConcurrentHandshakes =
        x.1.limits.maxConcurrentHandshakes
  | _ => True

/- Servers of such runs with the slots taken and released. -/
abbrev Budgeted
    (cfg : ServerConfig)
    (s : Server)
    (history : List SlotEvent) : Prop :=
  Transition.ReachableBy
    (Transition.observed (step cfg) slotEvent) KeepsBudget
    (start cfg, []) (s, history)

variable {cfg : ServerConfig}
variable {s : Server}
variable {history : List SlotEvent}
variable {a : ServerAction}

/-
  The counter counts the coroutines that hold a slot. While
  the loop is between its check and its increment there is
  room for one more.
-/
structure SlotsInv
    (s : Server)
    (history : List SlotEvent) : Prop where
  holders :
    s.handshakesInFlight =
      s.connections.countP Connection.holdsSlot
  bounded :
    s.handshakesInFlight ≤ s.limits.maxConcurrentHandshakes
  room :
    ∀ endpoint, s.loop = .spawnHandshake endpoint →
      s.handshakesInFlight < s.limits.maxConcurrentHandshakes
  started :
    ∀ i conn, s.connections[i]? = some conn →
      history.count (.taken i) = 1 ∧
        history.count (.released i) =
          (!conn.holdsSlot).toNat
  unstarted :
    ∀ i, s.connections.length ≤ i →
      history.count (.taken i) = 0 ∧
        history.count (.released i) = 0

namespace SlotsInv

/- A step that neither takes nor releases a slot. -/
theorem other
    (hInv : SlotsInv s history)
    (hEnabled : s.Enabled a)
    (hSpawn : ∀ endpoint, a ≠ .spawnHandshake endpoint)
    (hRelease : ∀ i, a ≠ .releaseSlot i)
    (hCount :
      (s.update cfg a).handshakesInFlight =
        s.handshakesInFlight)
    (hLimit :
      (s.update cfg a).limits.maxConcurrentHandshakes =
        s.limits.maxConcurrentHandshakes)
    (hRoom :
      ∀ endpoint,
        (s.update cfg a).loop = .spawnHandshake endpoint →
          s.handshakesInFlight <
            s.limits.maxConcurrentHandshakes) :
    SlotsInv (s.update cfg a)
      (history ++ (s.slotEvent a).toList) := by
  have hEvent : s.slotEvent a = none := by
    cases a with
    | spawnHandshake endpoint =>
        exact absurd rfl (hSpawn endpoint)
    | releaseSlot i => exact absurd rfl (hRelease i)
    | _ => rfl
  rw [History.append_unseen hEvent]
  constructor
  case holders =>
    rw [hCount, hInv.holders]
    symm
    apply countP_update cfg hEnabled hSpawn
    exact fun i _ _ _ hGoes => hGoes.holdsSlot (hRelease i)
  case bounded =>
    rw [hCount, hLimit]
    exact hInv.bounded
  case room =>
    rw [hCount, hLimit]
    exact hRoom
  case started =>
    intro i conn' hGet
    rcases connection_cases cfg hEnabled hGet with
      ⟨conn, hOld, hGoes⟩ | ⟨_, endpoint, rfl, _⟩
    · rw [hGoes.holdsSlot (hRelease i)]
      exact hInv.started i conn hOld
    · exact absurd rfl (hSpawn endpoint)
  case unstarted =>
    intro i hOut
    apply hInv.unstarted
    rw [length_update] at hOut
    omega

/- The loop takes a slot for a new coroutine. -/
theorem spawnHandshake
    (hInv : SlotsInv s history)
    {endpoint : Endpoint}
    (hEnabled : s.Enabled (.spawnHandshake endpoint)) :
    SlotsInv (s.update cfg (.spawnHandshake endpoint))
      (history ++
        (s.slotEvent (.spawnHandshake endpoint)).toList) := by
  constructor
  case holders =>
    simp only [update, List.countP_append]
    rw [hInv.holders]
    rfl
  case bounded => exact hInv.room endpoint hEnabled
  case room =>
    intro other hLoop
    cases hLoop
  case started =>
    intro i conn' hGet
    simp only [slotEvent, Option.toList_some,
      List.count_append]
    rcases connection_cases cfg hEnabled hGet with
      ⟨conn, hOld, hGoes⟩ | ⟨rfl, endpoint, _, rfl⟩
    · have hLt := (List.getElem?_eq_some_iff.mp hOld).1
      rcases hInv.started i conn hOld with
        ⟨hTaken, hReleased⟩
      rw [hTaken, hReleased, hGoes.holdsSlot (by simp)]
      have hNe : s.connections.length ≠ i := by omega
      simp [hNe]
    · rcases hInv.unstarted _ (Nat.le_refl _) with
        ⟨hTaken, hReleased⟩
      rw [hTaken, hReleased]
      simp [Connection.spawn, Connection.holdsSlot,
        ConnectionPc.holdsSlot]
  case unstarted =>
    intro i hOut
    simp only [update, List.length_append, List.length_cons,
      List.length_nil] at hOut
    rcases hInv.unstarted i (by omega) with
      ⟨hTaken, hReleased⟩
    simp only [slotEvent, Option.toList_some,
      List.count_append, hTaken, hReleased]
    have hNe : s.connections.length ≠ i := by omega
    simp [hNe]

/- A coroutine that gives back its slot has one. -/
theorem pos
    (hInv : SlotsInv s history)
    {i : Nat}
    (hAt : s.At i .releaseSlot) :
    0 < s.handshakesInFlight := by
  rcases hAt with ⟨conn, hGet, hPc⟩
  rw [hInv.holders]
  apply Records.countP_pos_of_getElem? hGet
  rw [Connection.holdsSlot, hPc]
  rfl

theorem releaseSlot
    (hInv : SlotsInv s history)
    {i : Nat}
    (hEnabled : s.Enabled (.releaseSlot i)) :
    SlotsInv (s.update cfg (.releaseSlot i))
      (history ++ (s.slotEvent (.releaseSlot i)).toList) := by
  have hPos := hInv.pos hEnabled
  have hLess :
      (s.update cfg (.releaseSlot i)).handshakesInFlight =
        s.handshakesInFlight - 1 := by
    simp only [update, fetchSub]
    rw [if_neg (by omega)]
  constructor
  case holders =>
    rcases hEnabled with ⟨conn, hGet, hPc⟩
    have hCount :=
      Records.countP_modify Connection.holdsSlot hGet
        (fun conn => conn.goTo (afterSlot conn))
    rcases (Connection.Goes.releaseSlot hPc
      : conn.Goes i _ _).holdsSlot_releaseSlot with
      ⟨hHeld, hFree⟩
    simp only [hHeld, hFree, Bool.toNat_true,
      Bool.toNat_false] at hCount
    rw [hLess, hInv.holders]
    simp only [update]
    omega
  case bounded =>
    have hBounded := hInv.bounded
    rw [hLess]
    simp only [update]
    omega
  case room =>
    intro endpoint hLoop
    have hRoom := hInv.room endpoint hLoop
    rw [hLess]
    simp only [update]
    omega
  case started =>
    intro j conn' hGet
    simp only [slotEvent, Option.toList_some,
      List.count_append]
    rcases connection_cases cfg hEnabled hGet with
      ⟨conn, hOld, hGoes⟩ | ⟨_, endpoint, hEq, _⟩
    · rcases hInv.started j conn hOld with
        ⟨hTaken, hReleased⟩
      rw [hTaken, hReleased]
      by_cases hSame : i = j
      · subst hSame
        rcases hGoes.holdsSlot_releaseSlot with ⟨hHeld, hFree⟩
        simp [hHeld, hFree]
      · rw [hGoes.holdsSlot (by simpa using hSame)]
        simp [hSame]
    · cases hEq
  case unstarted =>
    intro j hOut
    rw [length_update] at hOut
    rcases hInv.unstarted j hOut with ⟨hTaken, hReleased⟩
    rcases hEnabled with ⟨conn, hGet, _⟩
    have hLt := (List.getElem?_eq_some_iff.mp hGet).1
    have hNe : i ≠ j := by omega
    simp only [slotEvent, Option.toList_some,
      List.count_append, hTaken, hReleased]
    simp [hNe]

end SlotsInv

theorem slotsInv (hReach : Budgeted cfg s history) :
    SlotsInv s history := by
  refine Transition.observedInvariant SlotsInv ?_ ?_ hReach
  · constructor <;> simp [start]
  · intro s history a s' _ hInv hOk hStep
    rcases (step_eq_some_iff cfg s s' a).mp hStep with
      ⟨hEnabled, rfl⟩
    cases a with
    | spawnHandshake endpoint =>
        exact hInv.spawnHandshake hEnabled
    | releaseSlot i => exact hInv.releaseSlot hEnabled
    | checkHandshakes endpoint =>
        apply hInv.other hEnabled (by simp) (by simp)
        · simp only [update]
          split <;> rfl
        · simp only [update]
          split <;> rfl
        · -- The loop goes on only when it read less.
          intro other hLoop
          simp only [update] at hLoop
          split at hLoop
          · cases hLoop
          · case isFalse hLess => exact Nat.not_le.mp hLess
    | probeGlobal endpoint =>
        apply hInv.other hEnabled (by simp) (by simp)
        · simp only [update]
          split <;> rfl
        · simp only [update]
          split <;> rfl
        · intro other hLoop
          simp only [update] at hLoop
          split at hLoop <;> cases hLoop
    | probeIp endpoint now =>
        apply hInv.other hEnabled (by simp) (by simp) rfl rfl
        intro other hLoop
        simp only [update] at hLoop
        split at hLoop <;> cases hLoop
    | accept endpoint readable =>
        apply hInv.other hEnabled (by simp) (by simp) rfl rfl
        intro other hLoop
        cases readable <;> cases hLoop
    | runTask =>
        apply hInv.other hEnabled (by simp) (by simp)
        · simp only [update, runTask]
          split <;> rfl
        · simp only [update, runTask]
          split <;> rfl
        · intro other hLoop
          apply hInv.room other
          simp only [update, runTask] at hLoop
          split at hLoop <;> exact hLoop
    | setServerLimits limits =>
        exact hInv.other hEnabled (by simp) (by simp) rfl hOk
          hInv.room
    | _ =>
        exact hInv.other hEnabled (by simp) (by simp) rfl rfl
          hInv.room

------------------------------------------------------------
-- The Budget Is Kept
------------------------------------------------------------

/-
  The counter is the number of coroutines that were started
  and have not released their slot, and within the budget.
  Each coroutine took one slot, and released it once if it is
  past its handshake and not at all before; a release finds
  the counter above zero.
-/
structure SlotsKept
    (s : Server)
    (history : List SlotEvent) : Prop where
  counts :
    s.handshakesInFlight =
      s.connections.countP Connection.holdsSlot
  bounded :
    s.handshakesInFlight ≤ s.limits.maxConcurrentHandshakes
  once :
    ∀ i conn, s.connections[i]? = some conn →
      history.count (.taken i) = 1 ∧
        history.count (.released i) =
          (!conn.holdsSlot).toNat
  positive :
    ∀ i, s.At i .releaseSlot → 0 < s.handshakesInFlight

theorem slotsKept
    (cfg : ServerConfig)
    (s : Server)
    (history : List SlotEvent)
    (hReach : Budgeted cfg s history) :
    SlotsKept s history := by
  have hInv := slotsInv hReach
  constructor
  case counts => exact hInv.holders
  case bounded => exact hInv.bounded
  case once => exact hInv.started
  case positive => exact fun i hAt => hInv.pos hAt

instance
    (x : Server × List SlotEvent)
    (a : ServerAction) : Decidable (KeepsBudget x a) := by
  rcases a <;> unfold KeepsBudget <;> infer_instance

/- One handshake that timed out and one that succeeded. -/
theorem slotsKept_twoHandshakes :
    ∃ (s : Server) (history : List SlotEvent),
      Budgeted {} s history ∧
        history = [.taken 0, .taken 1, .released 0,
          .released 1] ∧
        SlotsKept s history := by
  obtain ⟨⟨s, history⟩, hReach, hRun⟩ :=
    Transition.exists_of_runBy
      (Transition.observed (step {}) slotEvent)
      KeepsBudget (start {}, [])
      (handOver 1000 1 ++ handOver 2000 2 ++
        [.finishHandshake 0 .threw, .releaseSlot 0] ++
        seat 1 4096)
      (fun x =>
        decide (x.2 = [.taken 0, .taken 1, .released 0,
          .released 1]))
      (by decide +kernel)
  exact ⟨s, history, hReach, of_decide_eq_true hRun,
    slotsKept {} s history hReach⟩

end Server

end GrlxRpc
