import GrlxRpc.Client.Invoke

/-
  The calls that invocations make: each makes at most one,
  under its name and with its arguments, no two make the
  same, and an invocation ends only with what its call did.

  Main declarations:
    * `PendingCall.Keeps` and `Session.keeps_update`
    * `Placed`, `Unplaced` and `InvocationInv`
    * `Invoker.invocationsInv`
-/

------------------------------------------------------------
-- Calls Of A Session
------------------------------------------------------------

namespace GrlxRpc

/- What a step keeps of a call: an end is final. -/
structure PendingCall.Keeps (call call' : PendingCall) : Prop
    where
  callName : call'.callName = call.callName
  reqBuffer : call'.reqBuffer = call.reqBuffer
  ended : call.pc.isFinished = true → call'.pc = call.pc

theorem PendingCall.Keeps.refl (call : PendingCall) :
    call.Keeps call :=
  ⟨rfl, rfl, fun _ => rfl⟩

namespace Session

variable {ω : Type}

/- Every call is kept by every step. -/
theorem keeps_update
    (cfg : Config ω)
    {s : Session}
    {a : Action ω}
    (hEnabled : s.Enabled a)
    {i : Nat}
    {call : PendingCall}
    (hGet : s.calls[i]? = some call) :
    ∃ call', (s.update cfg a).calls[i]? = some call' ∧
      call.Keeps call' := by
  -- One call changes in a way that keeps it.
  have hModify :
      ∀ {j : Nat} {f : PendingCall → PendingCall},
        (∀ other, s.calls[j]? = some other →
          other.Keeps (f other)) →
        ∃ call', (s.calls.modify j f)[i]? = some call' ∧
          call.Keeps call' := by
    intro j f hAt
    by_cases hSame : j = i
    · subst hSame
      refine ⟨f call, ?_, hAt call hGet⟩
      rw [List.getElem?_modify_eq, hGet]
      rfl
    · refine ⟨call, ?_, .refl call⟩
      rw [List.getElem?_modify_ne _ _ hSame, hGet]
  -- A call that has not ended moves on.
  have hMove :
      ∀ {j : Nat} {old other : PendingCall},
        s.calls[j]? = some old → old.pc.isFinished = false →
          s.calls[j]? = some other →
            other.pc.isFinished = false := by
    intro j old other hOld hNot hOther
    rwa [Option.some.inj (hOther.symm.trans hOld)]
  cases a with
  | generateToken callName reqBuffer =>
      exact ⟨call, Records.getElem?_mono
        (List.prefix_append _ _) hGet, .refl call⟩
  | registerOperation j =>
      rcases hEnabled with ⟨old, hOld, hPc⟩
      refine hModify fun other hOther => ⟨rfl, rfl, ?_⟩
      have hNot := hMove hOld (by rw [hPc]; rfl) hOther
      simp [hNot]
  | queueCall j =>
      rcases hEnabled with ⟨old, hOld, hPc⟩
      refine hModify fun other hOther => ⟨rfl, rfl, ?_⟩
      have hNot := hMove hOld (by rw [hPc]; rfl) hOther
      simp [hNot]
  | armTimer j =>
      rcases hEnabled with ⟨⟨old, hOld, hPc⟩, -⟩
      refine hModify fun other hOther => ⟨rfl, rfl, ?_⟩
      have hNot := hMove hOld (by rw [hPc]; rfl) hOther
      simp [hNot]
  | receiveReply j =>
      rcases hEnabled with ⟨old, hOld, hPc⟩
      refine hModify fun other hOther => ⟨rfl, rfl, ?_⟩
      have hNot := hMove hOld (by rw [hPc]; rfl) hOther
      simp [hNot]
  | resumeCall j =>
      rcases hEnabled with ⟨old, hOld, hPc, -⟩
      refine hModify fun other hOther =>
        ⟨by simp, by simp, ?_⟩
      have hNot := hMove hOld (by rw [hPc]; rfl) hOther
      simp [hNot]
  | timerFire j =>
      exact hModify fun _ _ => ⟨rfl, rfl, fun _ => rfl⟩
  | timerStore j =>
      exact hModify fun _ _ => ⟨rfl, rfl, fun _ => rfl⟩
  | timerCancel j =>
      exact hModify fun _ _ => ⟨rfl, rfl, fun _ => rfl⟩
  | cancelChannel j =>
      exact hModify fun _ _ => ⟨rfl, rfl, fun _ => rfl⟩
  | closeChannel j =>
      exact hModify fun _ _ => ⟨rfl, rfl, fun _ => rfl⟩
  | sendResult j result =>
      exact hModify fun _ _ => ⟨rfl, rfl, fun _ => rfl⟩
  | _ => exact ⟨call, hGet, .refl call⟩

end Session

/- The calls of all sessions are kept. -/
def KeepsCalls (sessions sessions' : List Session) : Prop :=
  ∀ (c i : Nat) (session : Session) (call : PendingCall),
    sessions[c]? = some session →
      session.calls[i]? = some call →
        ∃ session' call', sessions'[c]? = some session' ∧
          session'.calls[i]? = some call' ∧
          call.Keeps call'

theorem KeepsCalls.refl (sessions : List Session) :
    KeepsCalls sessions sessions :=
  fun _ _ session call hSession hCall =>
    ⟨session, call, hSession, hCall, .refl call⟩

theorem KeepsCalls.modify
    {ω : Type}
    (cfg : Config ω)
    (sessions : List Session)
    {c : Nat}
    {a : Action ω}
    (hEnabled :
      ∀ session, sessions[c]? = some session →
        session.Enabled a) :
    KeepsCalls sessions
      (sessions.modify c fun session =>
        session.update cfg a) := by
  intro c' i session call hSession hCall
  by_cases hSame : c = c'
  · subst hSame
    rcases Session.keeps_update cfg
        (hEnabled session hSession) hCall with
      ⟨call', hCall', hKeeps⟩
    refine ⟨session.update cfg a, call', ?_, hCall', hKeeps⟩
    rw [List.getElem?_modify_eq, hSession]
    rfl
  · refine ⟨session, call, ?_, hCall, .refl call⟩
    rw [List.getElem?_modify_ne _ _ hSame, hSession]

/- A step of the client keeps the calls of its sessions. -/
theorem Client.keepsCalls_update
    {ω : Type}
    (cfg : Config ω)
    {s : Client}
    {a : ClientAction ω}
    (hEnabled : s.Enabled a) :
    KeepsCalls s.sessions (s.update cfg a).sessions := by
  rw [s.sessions_update cfg a]
  cases a with
  | connect =>
      intro c i session call hSession hCall
      exact ⟨session, call, Records.getElem?_mono
        (List.prefix_append _ _) hSession, hCall, .refl call⟩
  | session c a =>
      rcases hEnabled with ⟨attempt, hGet, -, -, hRun⟩
      refine .modify _ _ fun session hSession => ?_
      have hAt : s.attempts[c]? = some attempt := hGet
      rw [sessions, List.getElem?_map, hAt] at hSession
      exact Option.some.inj hSession ▸ hRun
  | close d c => exact .modify _ _ fun _ _ => trivial
  | _ => exact .refl _

------------------------------------------------------------
-- Invocations And Their Calls
------------------------------------------------------------

/-
  The call that an invocation has made: under its name, with
  its arguments, and it goes on only from where that ended.
-/
def Placed
    (order : ByteOrder)
    (sessions : List Session)
    (inv : TypedInvocation)
    (c i : Nat) : Prop :=
  ∃ session call,
    sessions[c]? = some session ∧
      session.calls[i]? = some call ∧
      call.callName = inv.funcName ∧
      inv.reqBuffer order = some call.reqBuffer ∧
      (inv.pc = .calling c i ∨
        (call.pc.isFinished = true ∧
          inv.pc = inv.resumed order call.pc))

/- An invocation that has made no call. -/
def Unplaced
    (order : ByteOrder)
    (inv : TypedInvocation) : Prop :=
  inv.pc.isLoading = true ∨
    inv.pc.loaded.isSome = true ∨
    inv.pc = .threw .notConnected ∨
    (inv.pc = .threw .encodeFailed ∧
      inv.reqBuffer order = none)

def InvocationInv
    (order : ByteOrder)
    (sessions : List Session)
    (inv : TypedInvocation) : Prop :=
  match inv.place with
  | none => Unplaced order inv
  | some (c, i) => Placed order sessions inv c i

namespace InvocationInv

variable {order : ByteOrder}
variable {sessions sessions' : List Session}
variable {inv : TypedInvocation}

theorem mono
    (hInv : InvocationInv order sessions inv)
    (hKeeps : KeepsCalls sessions sessions') :
    InvocationInv order sessions' inv := by
  unfold InvocationInv at hInv ⊢
  split at hInv
  · exact hInv
  · next c i hPlace =>
    rcases hInv with
      ⟨session, call, hSession, hCall, hName, hBuffer, hPc⟩
    rcases hKeeps c i session call hSession hCall with
      ⟨session', call', hSession', hCall', hKept⟩
    refine ⟨session', call', hSession', hCall',
      hKept.callName.trans hName, hKept.reqBuffer ▸ hBuffer,
      hPc.imp id ?_⟩
    rintro ⟨hFinished, hResumed⟩
    rw [hKept.ended hFinished]
    exact ⟨hFinished, hResumed⟩

/- An invocation before its call has no place. -/
theorem place_eq_none
    (hInv : InvocationInv order sessions inv)
    (hBefore :
      inv.pc.isLoading = true ∨ inv.pc.loaded.isSome = true) :
    inv.place = none := by
  unfold InvocationInv at hInv
  split at hInv
  · assumption
  · exfalso
    rcases hInv with
      ⟨session, call, -, -, -, -, hPc | ⟨hFinished, hPc⟩⟩
    · rw [hPc] at hBefore
      simp [InvokePc.isLoading, InvokePc.loaded] at hBefore
    · have hLoaded := inv.loaded_resumed order hFinished
      rw [← hPc] at hLoaded
      have hLoading := inv.isLoading_resumed order hFinished
      rw [← hPc] at hLoading
      simp [hLoaded, hLoading] at hBefore

/- An invocation inside its call has that place. -/
theorem place_of_inside
    (hInv : InvocationInv order sessions inv)
    {c i : Nat}
    (hInside : inv.pc.inside = some (c, i)) :
    inv.place = some (c, i) := by
  unfold InvocationInv at hInv
  split at hInv
  · exfalso
    rcases hInv with hPc | hPc | hPc | ⟨hPc, -⟩ <;>
      cases hAt : inv.pc <;>
        simp_all [InvokePc.inside, InvokePc.isLoading,
          InvokePc.loaded]
  · next c' i' hPlace =>
    rcases hInv with
      ⟨session, call, -, -, -, -, hPc | ⟨hFinished, hPc⟩⟩
    · rw [hPc] at hInside
      rw [hPlace]
      exact hInside
    · have hNone := inv.inside_resumed order hFinished
      rw [← hPc, hInside] at hNone
      cases hNone

end InvocationInv

/- No two invocations have made one call. -/
structure InvocationsInv
    (order : ByteOrder)
    (sessions : List Session)
    (invocations : List TypedInvocation) : Prop where
  each :
    ∀ (k : Nat) (inv : TypedInvocation),
      invocations[k]? = some inv →
        InvocationInv order sessions inv
  distinct :
    ∀ (k k' : Nat) (inv inv' : TypedInvocation)
        (place : Nat × Nat),
      invocations[k]? = some inv →
        invocations[k']? = some inv' →
          inv.place = some place →
            inv'.place = some place → k = k'

namespace InvocationsInv

variable {order : ByteOrder}
variable {sessions sessions' : List Session}
variable {invocations : List TypedInvocation}

theorem mono
    (hInv : InvocationsInv order sessions invocations)
    (hKeeps : KeepsCalls sessions sessions') :
    InvocationsInv order sessions' invocations where
  each := fun k inv hGet => (hInv.each k inv hGet).mono hKeeps
  distinct := hInv.distinct

/- An invocation moves on in its place. -/
theorem move
    (hInv : InvocationsInv order sessions invocations)
    {k : Nat}
    {f : TypedInvocation → TypedInvocation}
    (hPlace : ∀ inv, (f inv).place = inv.place)
    (hAt :
      ∀ inv, invocations[k]? = some inv →
        InvocationInv order sessions inv →
          InvocationInv order sessions (f inv)) :
    InvocationsInv order sessions (invocations.modify k f) where
  each :=
    Records.forall_getElem?_modify_of_forall hInv.each hAt
  distinct := by
    have hOld :
        ∀ (j : Nat) (inv : TypedInvocation),
          (invocations.modify k f)[j]? = some inv →
            ∃ old, invocations[j]? = some old ∧
              inv.place = old.place := by
      intro j inv hGet
      rcases Records.getElem?_modify_eq_some.mp hGet with
        ⟨-, hSame⟩ | ⟨rfl, old, hSame, rfl⟩
      · exact ⟨inv, hSame, rfl⟩
      · exact ⟨old, hSame, hPlace old⟩
    intro j j' inv inv' place hGet hGet' hAtPlace hAtPlace'
    rcases hOld j inv hGet with ⟨old, hBefore, hSame⟩
    rcases hOld j' inv' hGet' with ⟨old', hBefore', hSame'⟩
    exact hInv.distinct j j' old old' place hBefore hBefore'
      (hSame ▸ hAtPlace) (hSame' ▸ hAtPlace')

/- An invocation makes a call that nobody has made. -/
theorem place
    (hInv : InvocationsInv order sessions invocations)
    {k : Nat}
    {f : TypedInvocation → TypedInvocation}
    {fresh : Nat × Nat}
    (hFresh :
      ∀ (j : Nat) (inv : TypedInvocation),
        invocations[j]? = some inv → inv.place ≠ some fresh)
    (hPlace : ∀ inv, (f inv).place = some fresh)
    (hAt :
      ∀ inv, invocations[k]? = some inv →
        InvocationInv order sessions inv →
          InvocationInv order sessions (f inv)) :
    InvocationsInv order sessions (invocations.modify k f) where
  each :=
    Records.forall_getElem?_modify_of_forall hInv.each hAt
  distinct := by
    intro j j' inv inv' at_ hGet hGet' hAtPlace hAtPlace'
    rcases Records.getElem?_modify_eq_some.mp hGet with
      ⟨-, hSame⟩ | ⟨rfl, old, hSame, rfl⟩ <;>
    rcases Records.getElem?_modify_eq_some.mp hGet' with
      ⟨-, hSame'⟩ | ⟨rfl, old', hSame', rfl⟩
    · exact hInv.distinct j j' inv inv' at_ hSame hSame'
        hAtPlace hAtPlace'
    · rw [hPlace] at hAtPlace'
      exact absurd (hAtPlace.trans hAtPlace'.symm)
        (hFresh j inv hSame)
    · rw [hPlace] at hAtPlace
      exact absurd (hAtPlace'.trans hAtPlace.symm)
        (hFresh j' inv' hSame')
    · rfl

end InvocationsInv

namespace Invoker

variable {ω ω' : Type}
variable {setup : Link.Setup ω ω'}

/- A call that exists is before its session's next call. -/
theorem placed_ne_nextCall
    {s : Invoker}
    {order : ByteOrder}
    {inv : TypedInvocation}
    (hInv : InvocationInv order s.client.sessions inv)
    (c : Nat) :
    inv.place ≠ some (c, s.nextCall c) := by
  intro hPlace
  unfold InvocationInv at hInv
  rw [hPlace] at hInv
  rcases hInv with ⟨session, call, hSession, hCall, -⟩
  have hLt := (List.getElem?_eq_some_iff.mp hCall).1
  simp [nextCall, hSession] at hLt

theorem invocationsInv
    {s : Invoker}
    (hReach : ReachableBy setup Orderly s) :
    InvocationsInv setup.client.order s.client.sessions
      s.invocations := by
  refine invariant
    (fun s : Invoker =>
      InvocationsInv setup.client.order s.client.sessions
        s.invocations) ?_ ?_ hReach
  · constructor <;> simp [start]
  intro s a hPrior hInv _ hEnabled
  cases a with
  | client a =>
      exact hInv.mono
        (Client.keepsCalls_update setup.client hEnabled.1)
  | peer c a => exact hInv
  | invoke sig funcName args =>
      constructor
      case each =>
        exact Records.forall_getElem?_concat hInv.each
          (.inl rfl)
      case distinct =>
        intro j j' inv inv' place hGet hGet' hAt hAt'
        rcases Records.getElem?_concat_eq_some.mp hGet with
          hOld | ⟨-, rfl⟩
        · rcases Records.getElem?_concat_eq_some.mp hGet' with
            hOld' | ⟨-, rfl⟩
          · exact hInv.distinct j j' inv inv' place hOld hOld'
              hAt hAt'
          · cases hAt'
        · cases hAt
  | load k =>
      rcases hEnabled with ⟨inv, hGet, hLoading⟩
      refine hInv.move (fun _ => rfl) fun inv' hGet' hOld => ?_
      obtain rfl : inv = inv' :=
        Option.some.inj (hGet.symm.trans hGet')
      have hNone := hOld.place_eq_none (.inl hLoading)
      simp only [InvocationInv, hNone]
      cases hHeld : s.client.clientSession with
      | none => exact .inr (.inr (.inl rfl))
      | some c => exact .inr (.inl rfl)
  | encodeFail k =>
      rcases hEnabled with ⟨inv, hGet, hLoaded, hFailed⟩
      refine hInv.move (fun _ => rfl) fun inv' hGet' hOld => ?_
      obtain rfl : inv = inv' :=
        Option.some.inj (hGet.symm.trans hGet')
      have hNone := hOld.place_eq_none (.inr hLoaded)
      simp only [InvocationInv, hNone]
      exact .inr (.inr (.inr ⟨rfl, hFailed⟩))
  | call k c funcName reqBuffer =>
      rcases hEnabled with
        ⟨inv, hGet, hLoaded, rfl, hBuffer⟩
      have hLt := (connected hPrior).loaded k inv hGet c hLoaded
      have hSession := List.getElem?_eq_getElem hLt
      have hSessions :=
        s.client.sessions_update setup.client
          (.session c (.generateToken inv.funcName reqBuffer))
      have hKeeps :
          KeepsCalls s.client.sessions
            (s.client.update setup.client
              (.session c (.generateToken inv.funcName
                reqBuffer))).sessions := by
        rw [hSessions]
        exact .modify _ _ fun _ _ => trivial
      have hFresh :
          ∀ (j : Nat) (inv : TypedInvocation),
            s.invocations[j]? = some inv →
              inv.place ≠ some (c, s.nextCall c) :=
        fun j inv hAt =>
          placed_ne_nextCall (hInv.each j inv hAt) c
      refine (hInv.mono hKeeps).place hFresh (fun _ => rfl) ?_
      intro inv' hGet' _
      obtain rfl : inv = inv' :=
        Option.some.inj (hGet.symm.trans hGet')
      refine
        ⟨s.client.sessions[c].update
            (Client.sessionConfig setup.client)
            (.generateToken inv.funcName reqBuffer),
          .create inv.funcName reqBuffer
            s.client.sessions[c].nextToken,
          ?_, ?_, rfl, hBuffer, .inl rfl⟩
      · rw [hSessions, Client.sessionsAfter,
          List.getElem?_modify_eq, hSession]
        rfl
      · simp only [nextCall, hSession, Option.elim_some]
        exact List.getElem?_concat_length
  | resume k ended =>
      rcases hEnabled with ⟨hFinished, inv, hGet, ⟨c, i⟩,
        hInside, session, hSession, call, hCall, rfl⟩
      refine hInv.move (fun _ => rfl) fun inv' hGet' hOld => ?_
      obtain rfl : inv = inv' :=
        Option.some.inj (hGet.symm.trans hGet')
      have hPlace := hOld.place_of_inside hInside
      simp only [InvocationInv, hPlace] at hOld ⊢
      rcases hOld with ⟨session', call', hSession', hCall',
        hName, hBuffer, -⟩
      obtain rfl : session = session' :=
        Option.some.inj (hSession.symm.trans hSession')
      obtain rfl : call = call' :=
        Option.some.inj (hCall.symm.trans hCall')
      refine ⟨session, call, hSession, hCall, hName, hBuffer,
        .inr ⟨hFinished, ?_⟩⟩
      exact (inv.resumed_congr setup.client.order
        (inv.resumed setup.client.order call.pc)
        (some (c, i)) hFinished).symm

end Invoker

end GrlxRpc
