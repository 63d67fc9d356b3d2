import GrlxRpc.Session.Replies
import GrlxRpc.Session.Calls

/-
  Where the reader can be suspended outside of its reads.

  A response channel has room for the one result that is
  ever sent to it, and a pong is queued without waiting. A
  rejection is queued like any other reply: when the write
  queue is full the reader waits for a slot.

  Main declarations:
    * `Session.ReaderSuspended`
    * `SlotsInv` and `Session.slotsInv`
    * `Session.RejectsAtOnce`
    * `Session.isReading_of_suspended` and `Session.parks`
-/

------------------------------------------------------------
-- Suspension
------------------------------------------------------------

namespace GrlxRpc

namespace Session

variable {ω : Type}
variable {cfg : Config ω}

/-
  Does the reader await an operation that is not complete?
  Its own run of `close()` awaits nothing.
-/
def ReaderSuspended (s : Session) : Prop :=
  match s.reader with
  | .header => s.unread.length < Header.size
  | .body header _ => s.unread.length < header.msgSize.toNat
  | .completed i =>
      ∃ call ∈ s.calls[i]?, call.channel.senders ≠ []
  | .rejected rid _ => ¬ s.Resumable (.reply rid)
  | .pong => False
  | .complete _ _ => False
  | .completing _ _ => False
  | .rejecting _ _ _ => False
  | .close _ => False
  | .closing _ => False
  | .exited => False

instance (s : Session) : Decidable s.ReaderSuspended := by
  unfold ReaderSuspended
  split <;> infer_instance

end Session

------------------------------------------------------------
-- Room For One Result
------------------------------------------------------------

/- The call is in the table, under any token. -/
def Listed
    (channels : AList fun _ : UInt64 => Nat)
    (i : Nat) : Prop :=
  ∃ token, channels.lookup token = some i

/-
  A call's channel takes one result, which nobody has sent
  while the call is listed or its result is on its way.
-/
structure SlotInv
    (channels : AList fun _ : UInt64 => Nat)
    (completes : Option Nat)
    (i : Nat)
    (call : PendingCall) : Prop where
  roomy : call.channel.capacity = 1
  unparked : call.channel.senders = []
  created :
    call.pc = .created →
      ¬ Listed channels i ∧ completes ≠ some i ∧
        call.channel.admitted = []
  listed :
    Listed channels i →
      completes ≠ some i ∧ call.channel.admitted = []
  completing :
    completes = some i → call.channel.admitted = []

namespace SlotInv

variable {channels channels' : AList fun _ : UInt64 => Nat}
variable {completes completes' : Option Nat}
variable {i : Nat}
variable {call : PendingCall}

/- Entries that go away, and results for other calls. -/
theorem frame
    (hInv : SlotInv channels completes i call)
    (hListed : Listed channels' i → Listed channels i)
    (hCompletes :
      completes' = some i → completes = some i) :
    SlotInv channels' completes' i call where
  roomy := hInv.roomy
  unparked := hInv.unparked
  created := by
    intro hPc
    rcases hInv.created hPc with ⟨hNot, hFree, hEmpty⟩
    exact ⟨fun h => hNot (hListed h),
      fun h => hFree (hCompletes h), hEmpty⟩
  listed := by
    intro h
    rcases hInv.listed (hListed h) with ⟨hFree, hEmpty⟩
    exact ⟨fun h' => hFree (hCompletes h'), hEmpty⟩
  completing := fun h => hInv.completing (hCompletes h)

/- The call moves on and nothing is sent to it. -/
theorem move
    (hInv : SlotInv channels completes i call)
    {call' : PendingCall}
    (hRoomy : call'.channel.capacity = call.channel.capacity)
    (hSenders : call'.channel.senders = [])
    (hAdmitted :
      call'.channel.admitted = call.channel.admitted)
    (hPc : call'.pc = .created → call.pc = .created) :
    SlotInv channels completes i call' where
  roomy := hRoomy.trans hInv.roomy
  unparked := hSenders
  created := by
    intro h
    rw [hAdmitted]
    exact hInv.created (hPc h)
  listed := by
    rw [hAdmitted]
    exact hInv.listed
  completing := by
    rw [hAdmitted]
    exact hInv.completing

/- The call goes on with the result it received. -/
theorem resume
    (hInv : SlotInv channels completes i call) :
    SlotInv channels completes i call.resume := by
  cases hReceiver : call.channel.receiver with
  | idle =>
      simpa only [PendingCall.resume, hReceiver] using hInv
  | waiting =>
      simpa only [PendingCall.resume, hReceiver] using hInv
  | completed result =>
      have hFinished : call.resume.pc.isFinished = true := by
        apply call.isFinished_resume
        rw [hReceiver]
        rfl
      refine hInv.move ?_ ?_ ?_ ?_
      · simp only [PendingCall.resume, hReceiver,
          Channel.consume]
      · simpa only [PendingCall.resume, hReceiver,
          Channel.consume] using hInv.unparked
      · simp only [PendingCall.resume, hReceiver,
          Channel.consume_admitted]
      · intro hPc
        rw [hPc] at hFinished
        cases hFinished

/- The one result finds its slot. -/
theorem result
    (hInv : SlotInv channels (some i) i call)
    (r : OpResult) :
    SlotInv channels none i
      { call with channel := call.channel.asyncSend r } := by
  have hEmpty := hInv.completing rfl
  have hBuffer : call.channel.buffer = [] := by
    have hFifo := call.channel.fifo
    simp only [Channel.admitted,
      List.append_eq_nil_iff] at hEmpty
    rw [hEmpty.1] at hFifo
    exact (List.append_eq_nil_iff.mp hFifo.symm).2
  have hRoom :
      call.channel.buffer.length < call.channel.capacity := by
    rw [hBuffer, hInv.roomy]
    exact Nat.one_pos
  have hNot : ¬ Listed channels i :=
    fun h => (hInv.listed h).1 rfl
  exact
    { roomy := by simpa using hInv.roomy
      unparked :=
        (call.channel.senders_asyncSend_of_room r hRoom).trans
          hInv.unparked
      created := fun hPc =>
        absurd rfl (hInv.created hPc).2.1
      listed := fun h => absurd h hNot
      completing := by simp }

end SlotInv

/- Every call has room for its result. -/
structure SlotsInv
    (calls : List PendingCall)
    (channels : AList fun _ : UInt64 => Nat)
    (completes : Option Nat) : Prop where
  listed :
    ∀ token i, channels.lookup token = some i →
      i < calls.length
  completed : ∀ i, completes = some i → i < calls.length
  once :
    ∀ token token' i, channels.lookup token = some i →
      channels.lookup token' = some i → token = token'
  each :
    ∀ i call, calls[i]? = some call →
      SlotInv channels completes i call

namespace SlotsInv

variable {calls : List PendingCall}
variable {channels : AList fun _ : UInt64 => Nat}
variable {completes : Option Nat}
variable {i : Nat}

/- One call moves on. -/
theorem modify
    (hInv : SlotsInv calls channels completes)
    {f : PendingCall → PendingCall}
    (hAt :
      ∀ call, calls[i]? = some call →
        SlotInv channels completes i (f call)) :
    SlotsInv (calls.modify i f) channels completes where
  listed := by simpa using hInv.listed
  completed := by simpa using hInv.completed
  once := hInv.once
  each :=
    Records.forall_getElem?_modify
      (fun j call hGet _ => hInv.each j call hGet) hAt

/- A new call is in no table. -/
theorem generate
    (hInv : SlotsInv calls channels completes)
    (callName : StdString)
    (reqBuffer : Buffer)
    (token : UInt64) :
    SlotsInv (calls ++ [.create callName reqBuffer token])
      channels completes where
  listed := by
    intro token i hLookup
    rw [List.length_append]
    exact Nat.lt_add_right _ (hInv.listed token i hLookup)
  completed := by
    intro i hCompletes
    rw [List.length_append]
    exact Nat.lt_add_right _ (hInv.completed i hCompletes)
  once := hInv.once
  each := by
    apply Records.forall_getElem?_concat hInv.each
    have hNot : ¬ Listed channels calls.length := by
      rintro ⟨token, hLookup⟩
      exact Nat.lt_irrefl _ (hInv.listed token _ hLookup)
    have hFree : completes ≠ some calls.length :=
      fun h => Nat.lt_irrefl _ (hInv.completed _ h)
    exact
      { roomy := rfl
        unparked := rfl
        created := fun _ => ⟨hNot, hFree, rfl⟩
        listed := fun h => absurd h hNot
        completing := fun _ => rfl }

/- A created call is entered, over any entry of its token. -/
theorem register
    (hInv : SlotsInv calls channels completes)
    {call : PendingCall}
    (hGet : calls[i]? = some call)
    (hPc : call.pc = .created) :
    SlotsInv
      (calls.modify i fun call =>
        { call with pc := .registered })
      (channels.insert call.token i) completes := by
  have hCall := hInv.each i call hGet
  rcases hCall.created hPc with ⟨hNot, hFree, hEmpty⟩
  have hLookups :
      ∀ {token j},
        (channels.insert call.token i).lookup token = some j →
          (token = call.token ∧ j = i) ∨
            channels.lookup token = some j := by
    intro token j hLookup
    by_cases hToken : token = call.token
    · subst hToken
      rw [AList.lookup_insert] at hLookup
      exact .inl ⟨rfl, (Option.some.inj hLookup).symm⟩
    · rw [AList.lookup_insert_ne hToken] at hLookup
      exact .inr hLookup
  refine
    { listed := ?_
      completed := by simpa using hInv.completed
      once := ?_
      each := Records.forall_getElem?_modify ?_ ?_ }
  · intro token j hLookup
    rw [List.length_modify]
    rcases hLookups hLookup with ⟨_, rfl⟩ | hOld
    · exact (List.getElem?_eq_some_iff.mp hGet).1
    · exact hInv.listed token j hOld
  · intro token token' j hLookup hLookup'
    rcases hLookups hLookup with ⟨rfl, rfl⟩ | hOld
    · rcases hLookups hLookup' with ⟨rfl, _⟩ | hOld'
      · rfl
      · exact absurd ⟨token', hOld'⟩ hNot
    · rcases hLookups hLookup' with ⟨_, rfl⟩ | hOld'
      · exact absurd ⟨token, hOld⟩ hNot
      · exact hInv.once token token' j hOld hOld'
  · intro j other hOther hNe
    refine (hInv.each j other hOther).frame ?_ id
    rintro ⟨token, hLookup⟩
    rcases hLookups hLookup with ⟨_, rfl⟩ | hOld
    · exact absurd rfl hNe
    · exact ⟨token, hOld⟩
  · refine Records.forall_of_getElem? hGet ?_
    exact
      { hCall with
        created := by simp
        listed := fun _ => ⟨hFree, hEmpty⟩ }

/- `complete_operation` takes an entry out of the table. -/
theorem find
    (hInv : SlotsInv calls channels none)
    (token : UInt64) :
    SlotsInv calls (channels.erase token)
      (channels.lookup token) := by
  have hErased :
      ∀ {t i}, (channels.erase token).lookup t = some i →
        t ≠ token ∧ channels.lookup t = some i :=
    lookup_of_erase
  have hListed :
      ∀ {i}, Listed (channels.erase token) i →
        Listed channels i ∧
          channels.lookup token ≠ some i := by
    rintro i ⟨t, hLookup⟩
    rcases hErased hLookup with ⟨hNe, hOld⟩
    exact ⟨⟨t, hOld⟩,
      fun hFound => hNe (hInv.once t token i hOld hFound)⟩
  constructor
  · intro t i hLookup
    exact hInv.listed t i (hErased hLookup).2
  · exact fun i hFound => hInv.listed token i hFound
  · intro t t' i hLookup hLookup'
    exact hInv.once t t' i (hErased hLookup).2
      (hErased hLookup').2
  · intro i call hGet
    have hCall := hInv.each i call hGet
    exact
      { roomy := hCall.roomy
        unparked := hCall.unparked
        created := fun hPc =>
          ⟨fun h => (hCall.created hPc).1 (hListed h).1,
            fun hFound =>
              (hCall.created hPc).1 ⟨token, hFound⟩,
            (hCall.created hPc).2.2⟩
        listed := fun h =>
          ⟨(hListed h).2, (hCall.listed (hListed h).1).2⟩
        completing := fun hFound =>
          (hCall.listed ⟨token, hFound⟩).2 }

/- The reader hands over the result. -/
theorem sendResult
    (hInv : SlotsInv calls channels (some i))
    (r : OpResult) :
    SlotsInv
      (calls.modify i fun call =>
        { call with channel := call.channel.asyncSend r })
      channels none where
  listed := by simpa using hInv.listed
  completed := by simp
  once := hInv.once
  each :=
    Records.forall_getElem?_modify
      (fun j call hGet _ =>
        (hInv.each j call hGet).frame id (by simp))
      fun call hGet => (hInv.each i call hGet).result r

/- `close()` empties the table. -/
theorem take
    (hInv : SlotsInv calls channels completes) :
    SlotsInv calls ∅ completes where
  listed := by simp
  completed := hInv.completed
  once := by simp
  each := by
    intro i call hGet
    refine (hInv.each i call hGet).frame ?_ id
    rintro ⟨token, hLookup⟩
    simp at hLookup

end SlotsInv

namespace Session

variable {ω : Type}
variable {cfg : Config ω}
variable {ok : Session → Action ω → Prop}
variable {s : Session}

theorem slotsInv (hReach : ReachableBy cfg ok s) :
    SlotsInv s.calls s.channels s.reader.completes := by
  refine invariant
    (fun s => SlotsInv s.calls s.channels s.reader.completes)
    ?_ ?_ hReach
  · exact
      { listed := by simp [start]
        completed := by simp [start, ReaderPc.completes]
        once := by simp [start]
        each := by simp [start] }
  · intro s a _ hInv _ hEnabled
    cases a with
    | generateToken callName reqBuffer =>
        exact hInv.generate callName reqBuffer s.nextToken
    | registerOperation i =>
        rcases hEnabled with ⟨call, hGet, hPc⟩
        have hRegistered := hInv.register hGet hPc
        simpa [update, Option.mem_def.mp hGet]
          using hRegistered
    | queueCall i =>
        refine hInv.modify fun call hGet => ?_
        refine (hInv.each i call hGet).move rfl
          (hInv.each i call hGet).unparked rfl ?_
        dsimp only
        split <;> simp
    | armTimer i =>
        refine hInv.modify fun call hGet => ?_
        exact (hInv.each i call hGet).move rfl
          (hInv.each i call hGet).unparked rfl (by simp)
    | receiveReply i =>
        refine hInv.modify fun call hGet => ?_
        have hCall := hInv.each i call hGet
        apply hCall.move
        · exact call.channel.capacity_asyncReceive
        · apply List.subset_nil.mp
          rw [← hCall.unparked]
          exact call.channel.senders_asyncReceive_subset
        · exact call.channel.asyncReceive_admitted
        · simp
    | resumeCall i =>
        refine hInv.modify fun call hGet => ?_
        exact (hInv.each i call hGet).resume
    | timerFire i =>
        refine hInv.modify fun call hGet => ?_
        exact (hInv.each i call hGet).move rfl
          (hInv.each i call hGet).unparked rfl id
    | timerStore i =>
        refine hInv.modify fun call hGet => ?_
        exact (hInv.each i call hGet).move rfl
          (hInv.each i call hGet).unparked rfl id
    | timerCancel i =>
        refine hInv.modify fun call hGet => ?_
        exact (hInv.each i call hGet).move rfl rfl
          (call.channel.cancel_admitted
            (hInv.each i call hGet).unparked) id
    | takeTable => exact hInv.take
    | cancelChannel i =>
        refine hInv.modify fun call hGet => ?_
        exact (hInv.each i call hGet).move rfl rfl
          (call.channel.cancel_admitted
            (hInv.each i call hGet).unparked) id
    | closeChannel i =>
        refine hInv.modify fun call hGet => ?_
        exact (hInv.each i call hGet).move rfl
          (hInv.each i call hGet).unparked rfl id
    | findOperation token result =>
        have hAt : s.reader = .complete token result := hEnabled
        rw [hAt] at hInv
        have hFound := hInv.find token
        simp only [update]
        cases hLookup : s.channels.lookup token with
        | none => rw [hLookup] at hFound; exact hFound
        | some i => rw [hLookup] at hFound; exact hFound
    | sendResult i result =>
        have hAt : s.reader = .completing i result := hEnabled
        rw [hAt] at hInv
        have hSent := SlotsInv.sendResult hInv result
        simp only [update]
        split <;> exact hSent
    | _ =>
        rw [completes_update cfg s hEnabled rfl]
        exact hInv

------------------------------------------------------------
-- Rejections
------------------------------------------------------------

/- Does the reader send a rejection? -/
def rejects : Action ω → Bool
  | .rejectRequest _ _ _ => true
  | _ => false

/-
  When the reader of an open session rejects a request, the
  write queue has room.
-/
def RejectsAtOnce
    (s : Session)
    (a : Action ω) : Prop :=
  rejects a = true → s.teardown = .idle →
    s.writeChannel.hasRoom = true

instance
    (s : Session)
    (a : Action ω) : Decidable (s.RejectsAtOnce a) :=
  inferInstanceAs (Decidable (_ → _))

/- The rejection that the reader awaits was accepted. -/
def RejectedInv (s : Session) : Prop :=
  s.teardown = .idle →
    ∀ rid closes, s.reader = .rejected rid closes →
      s.Resumable (.reply rid)

/- Nothing else leads the reader to such a wait. -/
theorem reader_eq_rejected
    {a : Action ω}
    {rid : Nat}
    {closes : Bool}
    (hAt :
      (s.update cfg a).reader = .rejected rid closes) :
    rejects a = true ∨ (s.update cfg a).reader = s.reader := by
  cases a with
  | readHeader now =>
      simp only [update] at hAt
      cases hIntake : s.nextIntake cfg now <;>
        simp [hIntake, afterHeader] at hAt
  | readBody header use =>
      cases use <;> simp [update, afterBody] at hAt
  | sendPong => cases hAt
  | readFail => cases hAt
  | findOperation token result =>
      simp only [update] at hAt
      cases hLookup : s.channels.lookup token <;>
        simp [hLookup] at hAt
  | sendResult i result =>
      simp only [update] at hAt
      split at hAt <;> cases hAt
  | resumeResult i => cases hAt
  | rejectRequest rid' header closes' => exact .inl rfl
  | resumeReject rid' closes' =>
      simp only [update] at hAt
      split at hAt <;> cases hAt
  | readerClose again =>
      simp only [update] at hAt
      split at hAt
      · cases hAt
      · cases again <;> cases hAt
  | readerClosed again => cases again <;> cases hAt
  | _ => exact .inr rfl

/- What waits in the queue was not put there for it. -/
theorem not_producer_of_rejected
    (hReach : ReachableBy cfg ok s)
    {a : Action ω}
    (hEnabled : s.Enabled a)
    {rid : Nat}
    {closes : Bool}
    (hAt : s.reader = .rejected rid closes) :
    producer a ≠ some (.reply rid) := by
  intro hProducer
  have hReject := (replyInv hReach).2
  rw [hAt] at hReject
  rcases hReject with ⟨request, hGet, _, hPc⟩
  cases a with
  | sendReply rid' header answer =>
      obtain rfl : rid' = rid := by
        simpa [producer] using hProducer
      rcases hEnabled with ⟨request', hGet', _, hPc'⟩
      obtain rfl : request = request' :=
        Option.some.inj (hGet.symm.trans hGet')
      rw [hPc] at hPc'
      cases hPc'
  | rejectRequest rid' header closes' =>
      have hAt' : s.reader = .rejecting rid' header closes' :=
        hEnabled
      rw [hAt] at hAt'
      cases hAt'
  | _ => simp [producer] at hProducer

theorem rejectedInv
    (hReach : ReachableBy cfg RejectsAtOnce s) :
    s.RejectedInv := by
  refine invariant RejectedInv ?_ ?_ hReach
  · intro _ rid closes hAt
    cases hAt
  · intro s a hPrior hInv hOk hEnabled hIdle rid closes hAt
      item hMem hSource
    have hOpen := teardown_eq_idle hIdle
    by_cases hRejects : rejects a = true
    · cases a with
      | rejectRequest rid' header closes' =>
          -- The item found room, and it was the first.
          have hRoom := hOk rfl hOpen
          have hSenders :
              item ∈ s.writeChannel.senders := by
            simpa only [update,
              s.writeChannel.senders_asyncSend_of_hasRoom _
                hRoom] using hMem
          obtain rfl : rid' = rid := by
            simp only [update] at hAt
            split at hAt
            · injection hAt
            · cases hAt
          have hReader :
              s.reader = .rejecting rid' header closes' :=
            hEnabled
          rcases replyInv hPrior with ⟨hReplies, hReject⟩
          rw [hReader] at hReject
          rcases hReject with ⟨request, hGet, _, _, hPc⟩
          have hNone := hReplies rid'
          simp only [hGet, ReplyInv, hPc] at hNone
          exact (itemsOf_eq_nil_iff _ _).mp hNone item
            (List.mem_append_right _ hSenders) hSource
      | _ => cases hRejects
    · have hReader := (reader_eq_rejected hAt).resolve_left
        hRejects
      rw [hReader] at hAt
      rcases s.mem_senders_update cfg a hMem with hOld | hNew
      · exact hInv hOpen rid closes hAt item hOld hSource
      · apply not_producer_of_rejected hPrior hEnabled hAt
        rw [← hSource]
        exact producer_admits cfg s a hNew

/-
  An open session's reader is suspended in a read only, in a
  run in which every rejection finds room.
-/
theorem isReading_of_suspended
    (hReach : ReachableBy cfg RejectsAtOnce s)
    (hOpen : s.teardown = .idle)
    (hSuspended : s.ReaderSuspended) :
    s.reader.isReading = true := by
  unfold ReaderSuspended at hSuspended
  cases hReader : s.reader with
  | header => rfl
  | body header use => rfl
  | completed i =>
      rw [hReader] at hSuspended
      rcases hSuspended with ⟨call, hGet, hParked⟩
      exact absurd
        ((slotsInv hReach).each i call hGet).unparked hParked
  | rejected rid closes =>
      rw [hReader] at hSuspended
      exact absurd
        (rejectedInv hReach hOpen rid closes hReader)
        hSuspended
  | pong => rw [hReader] at hSuspended; exact hSuspended.elim
  | complete token result =>
      rw [hReader] at hSuspended; exact hSuspended.elim
  | completing i result =>
      rw [hReader] at hSuspended; exact hSuspended.elim
  | rejecting rid header closes =>
      rw [hReader] at hSuspended; exact hSuspended.elim
  | close again =>
      rw [hReader] at hSuspended; exact hSuspended.elim
  | closing again =>
      rw [hReader] at hSuspended; exact hSuspended.elim
  | exited => rw [hReader] at hSuspended; exact hSuspended.elim

/- A rejection that finds no room parks the reader. -/
theorem parks
    (hReach : ReachableBy cfg ok s)
    {a : Action ω}
    (hEnabled : s.Enabled a)
    (hNot : ¬ s.RejectsAtOnce a) :
    (s.update cfg a).teardown = .idle ∧
      (s.update cfg a).ReaderSuspended ∧
      (s.update cfg a).reader.isReading = false := by
  simp only [RejectsAtOnce, Classical.not_imp,
    Bool.not_eq_true] at hNot
  rcases hNot with ⟨hRejects, hIdle, hFull⟩
  have hOpen : s.writeChannel.isOpen = true := by
    rw [isOpen_eq hReach, hIdle]
    rfl
  cases a with
  | rejectRequest rid header closes =>
      have hReader :
          (s.update cfg
            (.rejectRequest rid header closes)).reader =
              .rejected rid closes := by
        simp [update, hOpen]
      have hParked :
          ¬ (s.update cfg
            (.rejectRequest rid header closes)).Resumable
              (.reply rid) := by
        intro hResumable
        apply hResumable
          (.respond .error header Buffer.empty rid)
        · simp only [update]
          rw [s.writeChannel.senders_asyncSend_of_full _ hOpen
            hFull]
          exact List.mem_concat_self
        · rfl
      refine ⟨hIdle, ?_, by rw [hReader]; rfl⟩
      unfold ReaderSuspended
      rw [hReader]
      exact hParked
  | _ => cases hRejects

end Session

end GrlxRpc
