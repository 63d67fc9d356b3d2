import GrlxRpc.Client.Calls
import GrlxRpc.Lib.Observed

/-
  What a run of invocations leaves behind: what each found
  when it loaded `client_session_`, and the handlers that
  finished at the other ends.

  An invocation loads once. It makes its call on the session
  it found, and it throws that it is not connected when there
  was none at that moment, whatever the client holds later.

  Main declarations:
    * `TypedInvocation.resumed_eq_threw`
    * `InvokerEvent`, `Invoker.event` and `Invoker.Traced`
    * `LoadInv` and `Invoker.loadsInv`
    * `Invoker.peers_ran`
-/

------------------------------------------------------------
-- Ends Of An Invocation
------------------------------------------------------------

namespace GrlxRpc

theorem InvokeError.encodeFailed_ne :
    encodeFailed ≠ notConnected := by
  decide +kernel

theorem InvokeError.decodeFailed_ne :
    decodeFailed ≠ notConnected ∧
      decodeFailed ≠ encodeFailed := by
  decide +kernel

namespace TypedInvocation

variable {order : ByteOrder}
variable {inv : TypedInvocation}
variable {ended : CallPc}

theorem decoded_eq_returned
    {rspBuffer : Buffer}
    {value : inv.sig.Ret}
    (hReturned :
      inv.decoded order rspBuffer = .returned value) :
    decodeMessage .bounded order inv.sig.response rspBuffer
        inv.sig.response.body.initial =
      (value, true) := by
  unfold decoded at hReturned
  split at hReturned
  next response ok hDecoded =>
  split at hReturned
  · next hOk =>
    rw [hDecoded, InvokePc.returned.inj hReturned, hOk]
  · cases hReturned

theorem decoded_eq_threw
    {rspBuffer : Buffer}
    {error : InvokeError}
    (hThrew : inv.decoded order rspBuffer = .threw error) :
    (decodeMessage .bounded order inv.sig.response rspBuffer
        inv.sig.response.body.initial).2 =
      false := by
  unfold decoded at hThrew
  split at hThrew
  next response ok hDecoded =>
  split at hThrew
  · cases hThrew
  · next hNot =>
    rw [hDecoded]
    simpa using hNot

theorem resumed_eq_returned
    {value : inv.sig.Ret}
    (hFinished : ended.isFinished = true)
    (hReturned : inv.resumed order ended = .returned value) :
    ∃ rspBuffer, ended = .returned rspBuffer ∧
      inv.decoded order rspBuffer = .returned value := by
  cases ended with
  | returned rspBuffer => exact ⟨rspBuffer, rfl, hReturned⟩
  | threw error => cases hReturned
  | created => cases hFinished
  | registered => cases hFinished
  | sending => cases hFinished
  | armed => cases hFinished
  | receiving => cases hFinished

/- It throws what the call threw, or could not decode. -/
theorem resumed_eq_threw
    {error : InvokeError}
    (hFinished : ended.isFinished = true)
    (hThrew : inv.resumed order ended = .threw error) :
    (∃ callError, ended = .threw callError ∧
        error = .call callError) ∨
      ∃ rspBuffer, ended = .returned rspBuffer ∧
        inv.decoded order rspBuffer = .threw error ∧
        error = .decodeFailed := by
  cases ended with
  | returned rspBuffer =>
      right
      refine ⟨rspBuffer, rfl, hThrew, ?_⟩
      rcases inv.decoded_eq order rspBuffer with
        ⟨value, hValue⟩ | hFailed
      · have hBoth := hThrew.symm.trans hValue
        cases hBoth
      · exact InvokePc.threw.inj (hThrew.symm.trans hFailed)
  | threw callError =>
      exact .inl ⟨callError, rfl,
        (InvokePc.threw.inj hThrew).symm⟩
  | created => cases hFinished
  | registered => cases hFinished
  | sending => cases hFinished
  | armed => cases hFinished
  | receiving => cases hFinished

end TypedInvocation

------------------------------------------------------------
-- Events
------------------------------------------------------------

/-
  Invocation `k` loaded `client_session_`, or the other end
  of attempt `c` finished the handler of its request `rid`.
-/
inductive InvokerEvent (ω' : Type)
  | loaded (k : Nat) (found : Option Nat)
  | ran (c rid : Nat) (w : ω')
  deriving DecidableEq

namespace InvokerEvent

variable {ω' : Type}

def load : InvokerEvent ω' → Option (Nat × Option Nat)
  | loaded k found => some (k, found)
  | ran _ _ _ => none

/- A handler that the other end of attempt `c` finished. -/
def run
    (c : Nat) : InvokerEvent ω' → Option (Nat × ω')
  | loaded _ _ => none
  | ran c' rid w => if c' = c then some (rid, w) else none

theorem load_eq_some_iff
    {event : InvokerEvent ω'}
    {k : Nat}
    {found : Option Nat} :
    event.load = some (k, found) ↔
      event = .loaded k found := by
  cases event <;> simp [load]

theorem run_eq_some_iff
    {event : InvokerEvent ω'}
    {c rid : Nat}
    {w : ω'} :
    event.run c = some (rid, w) ↔ event = .ran c rid w := by
  cases event with
  | loaded k found => simp [run]
  | ran c' rid' w' =>
      simp only [run, Option.ite_none_right_eq_some,
        Option.some.injEq, Prod.mk.injEq, ran.injEq]

end InvokerEvent

/- The loads of a history. -/
def loadsOf
    {ω' : Type}
    (history : List (InvokerEvent ω')) :
    List (Nat × Option Nat) :=
  history.filterMap InvokerEvent.load

/- The handlers that the other end of attempt `c` finished. -/
def runsOf
    {ω' : Type}
    (c : Nat)
    (history : List (InvokerEvent ω')) : List (Nat × ω') :=
  history.filterMap (InvokerEvent.run c)

theorem mem_loadsOf
    {ω' : Type}
    {history : List (InvokerEvent ω')}
    {k : Nat}
    {found : Option Nat} :
    (k, found) ∈ loadsOf history ↔
      .loaded k found ∈ history := by
  simp [loadsOf, InvokerEvent.load_eq_some_iff]

theorem mem_runsOf
    {ω' : Type}
    {history : List (InvokerEvent ω')}
    {c rid : Nat}
    {w : ω'} :
    (rid, w) ∈ runsOf c history ↔ .ran c rid w ∈ history := by
  simp [runsOf, InvokerEvent.run_eq_some_iff]

namespace Invoker

variable {ω ω' : Type}

def event
    (s : Invoker) :
    InvokerAction ω ω' → Option (InvokerEvent ω')
  | .load k => some (.loaded k s.client.clientSession)
  | .peer c (.finishHandler rid w) => some (.ran c rid w)
  | _ => none

/- Orderly runs with their events. -/
abbrev Traced
    (setup : Link.Setup ω ω')
    (s : Invoker)
    (history : List (InvokerEvent ω')) : Prop :=
  Transition.ReachableBy
    (Transition.observed (step setup) event)
    (fun x a => Orderly x.1 a) (start, []) (s, history)

end Invoker

------------------------------------------------------------
-- Loads
------------------------------------------------------------

/- What invocation `k` has found, and what it did then. -/
structure LoadInv
    (history : List (Nat × Option Nat))
    (k : Nat)
    (inv : TypedInvocation) : Prop where
  loading :
    inv.pc.isLoading = true → k ∉ history.map Prod.fst
  loaded :
    ∀ c, inv.pc.loaded = some c → (k, some c) ∈ history
  placed :
    ∀ c i, inv.place = some (c, i) → (k, some c) ∈ history
  disconnected :
    inv.pc = .threw .notConnected → (k, none) ∈ history

namespace LoadInv

variable {history : List (Nat × Option Nat)}
variable {k : Nat}
variable {inv : TypedInvocation}

/- Another invocation loads. -/
theorem other
    (hInv : LoadInv history k inv)
    {k' : Nat}
    (hNe : k ≠ k')
    (found : Option Nat) :
    LoadInv (history ++ [(k', found)]) k inv where
  loading := by
    intro hLoading
    simpa [hNe] using hInv.loading hLoading
  loaded := fun c hLoaded =>
    List.mem_append_left _ (hInv.loaded c hLoaded)
  placed := fun c i hPlace =>
    List.mem_append_left _ (hInv.placed c i hPlace)
  disconnected := fun hPc =>
    List.mem_append_left _ (hInv.disconnected hPc)

/- The invocation loads, and goes on with what it found. -/
theorem load
    (hInv : LoadInv history k inv)
    (found : Option Nat) :
    LoadInv (history ++ [(k, found)]) k
      { inv with
        pc :=
          match found with
          | none => .threw .notConnected
          | some c => .encoding c } where
  loading := by
    cases found <;> simp [InvokePc.isLoading]
  loaded := by
    cases found <;> simp [InvokePc.loaded]
  placed := fun c i hPlace =>
    List.mem_append_left _ (hInv.placed c i hPlace)
  disconnected := by
    cases found <;> simp

/- The invocation ends otherwise than unconnected. -/
theorem finish
    (hInv : LoadInv history k inv)
    {pc : InvokePc inv.sig}
    (hLoading : pc.isLoading = false)
    (hLoaded : pc.loaded = none)
    (hPc : pc ≠ .threw .notConnected) :
    LoadInv history k { inv with pc := pc } where
  loading := by simp [hLoading]
  loaded := by simp [hLoaded]
  placed := hInv.placed
  disconnected := fun h => absurd h hPc

end LoadInv

/- Every invocation loads at most once. -/
structure LoadsInv
    (invocations : List TypedInvocation)
    (history : List (Nat × Option Nat)) : Prop where
  once : (history.map Prod.fst).Nodup
  known : ∀ load ∈ history, load.1 < invocations.length
  each :
    ∀ (k : Nat) (inv : TypedInvocation),
      invocations[k]? = some inv → LoadInv history k inv

namespace LoadsInv

variable {invocations : List TypedInvocation}
variable {history : List (Nat × Option Nat)}

/- One invocation goes on without a load. -/
theorem move
    (hInv : LoadsInv invocations history)
    {k : Nat}
    {f : TypedInvocation → TypedInvocation}
    (hAt :
      ∀ inv, invocations[k]? = some inv →
        LoadInv history k inv → LoadInv history k (f inv)) :
    LoadsInv (invocations.modify k f) history where
  once := hInv.once
  known := by simpa using hInv.known
  each :=
    Records.forall_getElem?_modify_of_forall hInv.each hAt

end LoadsInv

namespace Invoker

variable {ω ω' : Type}
variable {setup : Link.Setup ω ω'}

/- The load that an action makes. -/
def loads
    (s : Invoker) :
    InvokerAction ω ω' → Option (Nat × Option Nat)
  | .load k => some (k, s.client.clientSession)
  | _ => none

theorem loadsOf_event
    (s : Invoker)
    (history : List (InvokerEvent ω'))
    (a : InvokerAction ω ω') :
    loadsOf (history ++ (s.event a).toList) =
      loadsOf history ++ (s.loads a).toList := by
  rw [loadsOf, List.filterMap_append]
  congr 1
  cases a with
  | load k => rfl
  | peer c a => cases a <;> rfl
  | _ => rfl

theorem loadsInv
    {s : Invoker}
    {history : List (InvokerEvent ω')}
    (hTraced : Traced setup s history) :
    LoadsInv s.invocations (loadsOf history) := by
  refine Transition.observedInvariant
    (fun s history =>
      LoadsInv s.invocations (loadsOf history))
    ⟨by simp [loadsOf], by simp [loadsOf], by simp [start]⟩
    ?_ hTraced
  rintro s events a s' - hInv - hStep
  rcases (step_eq_some_iff setup s s' a).mp hStep with
    ⟨hEnabled, rfl⟩
  rw [loadsOf_event]
  generalize loadsOf events = history at hInv
  have hQuiet :
      loads s a = none →
        LoadsInv (s.update setup a).invocations history →
          LoadsInv (s.update setup a).invocations
            (history ++ (loads s a).toList) := by
    intro hNone hMoved
    rw [History.append_unseen hNone]
    exact hMoved
  cases a with
  | client a => exact hQuiet rfl hInv
  | peer c a => exact hQuiet rfl hInv
  | invoke sig funcName args =>
      refine hQuiet rfl ⟨hInv.once, ?_, ?_⟩
      · intro load hMem
        have hLt := hInv.known load hMem
        simp only [update, List.length_append]
        omega
      · refine Records.forall_getElem?_concat hInv.each ?_
        constructor
        case loading =>
          intro _ hMem
          rcases List.mem_map.mp hMem with ⟨load, hLoad, hEq⟩
          have hLt := hInv.known load hLoad
          omega
        case loaded => simp [InvokePc.loaded]
        case placed => simp
        case disconnected => simp
  | load k =>
      rcases hEnabled with ⟨inv, hGet, hLoading⟩
      have hGet := Option.mem_def.mp hGet
      have hFresh := (hInv.each k inv hGet).loading hLoading
      constructor
      case once =>
        rw [List.map_append]
        simpa [loads, List.nodup_append] using
          ⟨hInv.once, fun j found hMem hSame => hFresh
            (List.mem_map.mpr ⟨(j, found), hMem, hSame⟩)⟩
      case known =>
        have hLt := (List.getElem?_eq_some_iff.mp hGet).1
        intro load hMem
        simp only [update, List.length_modify]
        rcases List.mem_append.mp hMem with hOld | hNew
        · exact hInv.known load hOld
        · rw [List.mem_singleton.mp hNew]
          exact hLt
      case each =>
        exact Records.forall_getElem?_modify
          (fun j other hOther hNe =>
            (hInv.each j other hOther).other hNe _)
          fun inv hGet => (hInv.each k inv hGet).load _
  | encodeFail k =>
      exact hQuiet rfl (hInv.move fun inv hGet hOld =>
        hOld.finish rfl rfl fun hSame =>
          InvokeError.encodeFailed_ne
            (InvokePc.threw.inj hSame))
  | call k c funcName reqBuffer =>
      rcases hEnabled with ⟨inv, hGet, hFound, -⟩
      refine hQuiet rfl (hInv.move fun inv' hGet' hOld => ?_)
      obtain rfl : inv = inv' :=
        Option.some.inj (hGet.symm.trans hGet')
      constructor
      case loading => simp [InvokePc.isLoading]
      case loaded => simp [InvokePc.loaded]
      case placed =>
        intro c' i hPlace
        rcases Prod.mk.inj (Option.some.inj hPlace) with
          ⟨rfl, -⟩
        exact hOld.loaded c hFound
      case disconnected => simp
  | resume k ended =>
      refine hQuiet rfl (hInv.move fun inv hGet hOld => ?_)
      refine hOld.finish
        (inv.isLoading_resumed setup.client.order hEnabled.1)
        (inv.loaded_resumed setup.client.order hEnabled.1) ?_
      intro hThrew
      rcases TypedInvocation.resumed_eq_threw hEnabled.1 hThrew
        with ⟨callError, -, hSame⟩ | ⟨_, -, -, hSame⟩
      · cases hSame
      · exact InvokeError.decodeFailed_ne.1 hSame.symm

------------------------------------------------------------
-- Handlers
------------------------------------------------------------

theorem runsOf_event
    (c : Nat)
    (s : Invoker)
    (history : List (InvokerEvent ω'))
    {a : InvokerAction ω ω'}
    (hOther : ∀ b, a ≠ .peer c b) :
    runsOf c (history ++ (s.event a).toList) =
      runsOf c history := by
  rw [runsOf, List.filterMap_append, ← runsOf,
    List.append_right_eq_self]
  cases a with
  | peer c' b =>
      have hNe : c' ≠ c := fun hSame => hOther b (hSame ▸ rfl)
      cases b with
      | finishHandler rid w =>
          simp [event, InvokerEvent.run, hNe]
      | _ => rfl
  | _ => rfl

theorem runsOf_peer
    (c : Nat)
    (s : Invoker)
    (history : List (InvokerEvent ω'))
    (peer : Session)
    (b : Action ω') :
    runsOf c
        (history ++
          (s.event (.peer c b : InvokerAction ω ω')).toList) =
      runsOf c history ++
        (Session.handlerRun peer b).toList := by
  rw [runsOf, List.filterMap_append, ← runsOf]
  congr 1
  cases b with
  | finishHandler rid w => simp [event, InvokerEvent.run,
      Session.handlerRun]
  | _ => rfl

/- Each other end is at the end of a run of its own. -/
structure PeersRan
    (cfg : Config ω')
    (peers : List Session)
    (history : List (InvokerEvent ω')) : Prop where
  known :
    ∀ c, peers.length ≤ c → runsOf c history = []
  each :
    ∀ (c : Nat) (peer : Session),
      peers[c]? = some peer →
        Session.Ran cfg peer (runsOf c history)

theorem peers_ran
    {s : Invoker}
    {history : List (InvokerEvent ω')}
    (hTraced : Traced setup s history) :
    PeersRan setup.server s.peers history := by
  refine Transition.observedInvariant
    (fun s history => PeersRan setup.server s.peers history)
    ⟨fun _ _ => rfl, by simp [start]⟩ ?_ hTraced
  rintro s history a s' - hInv - hStep
  rcases (step_eq_some_iff setup s s' a).mp hStep with
    ⟨hEnabled, rfl⟩
  -- No other end moves.
  have hSame :
      (∀ c b, a ≠ .peer c b) →
        PeersRan setup.server s.peers
          (history ++ (s.event a).toList) := by
    intro hOther
    constructor
    case known =>
      intro c hLe
      rw [runsOf_event c s history (hOther c)]
      exact hInv.known c hLe
    case each =>
      intro c peer hGet
      rw [runsOf_event c s history (hOther c)]
      exact hInv.each c peer hGet
  cases a with
  | client a =>
      have hOld := hSame (by simp)
      cases a with
      | connect =>
          constructor
          case known =>
            intro c hLe
            simp only [update, peersAfter, List.length_append]
              at hLe
            exact hOld.known c (by omega)
          case each =>
            refine Records.forall_getElem?_concat hOld.each ?_
            rw [hOld.known _ le_rfl]
            exact .start
      | _ => exact hOld
  | peer c b =>
      rcases hEnabled with
        ⟨session, -, peer, hPeer, -, hRun⟩
      have hPeer := Option.mem_def.mp hPeer
      constructor
      case known =>
        intro c' hLe
        simp only [update, List.length_modify] at hLe
        have hLt := (List.getElem?_eq_some_iff.mp hPeer).1
        rw [runsOf_event c' s history
          (fun b' hEq => by cases hEq; omega)]
        exact hInv.known c' hLe
      case each =>
        refine Records.forall_getElem?_modify ?_ ?_
        · intro c' other hOther hNe
          rw [runsOf_event c' s history
            (fun b' hEq => by cases hEq; exact hNe rfl)]
          exact hInv.each c' other hOther
        · intro old hOld
          obtain rfl : peer = old :=
            Option.some.inj (hPeer.symm.trans hOld)
          rw [runsOf_peer c s history peer b]
          exact (hInv.each c peer hPeer).next trivial
            (Transition.observed_eq_some_iff.mpr
              ⟨(Session.step_eq_some_iff _ _ _ _).mpr
                ⟨hRun, rfl⟩, rfl⟩)
  | _ => exact hSame (by simp)

end Invoker

end GrlxRpc
