import GrlxRpc.Session.Deadlines
import GrlxRpc.Session.Rest
import Mathlib.Algebra.GroupWithZero.Nat
import Mathlib.Data.Prod.Lex

/-
  A peer that is fed what a session wrote reads back its
  items, whatever else it does meanwhile.

  Nothing in such a stream makes the peer's reader end. While
  its transport does not fail, the reader and the writer of
  an open peer, left to themselves, take every frame whose
  bytes have all arrived: the writer is needed because the
  reader may wait for a slot of the peer's own write queue.

  Main declarations:
    * `Session.Unfailing` and `Session.shuts_eq_false`
    * `Session.writing`
    * `Session.CaughtUp` and `Session.catchesUp`
    * `Session.ReadBack` and `Session.writtenAndReadBack`
-/

------------------------------------------------------------
-- An Open Session Without Failures
------------------------------------------------------------

namespace GrlxRpc

namespace Session

variable {ω : Type}
variable {cfg : Config ω}
variable {ok : Session → Action ω → Prop}
variable {s : Session}

/- No read and no write fails, nor comes too late. -/
def Unfailing (_ : Session) : Action ω → Prop
  | .readFail => False
  | .writerFail _ => False
  | _ => True

instance
    (s : Session)
    (a : Action ω) : Decidable (s.Unfailing a) := by
  rcases a <;> unfold Unfailing <;> infer_instance

/- The channels of calls are closed by `close()` only. -/
theorem channel_open
    (hReach : ReachableBy cfg ok s)
    (hIdle : s.teardown = .idle) :
    ∀ (i : Nat) (call : PendingCall),
      s.calls[i]? = some call →
        call.channel.isOpen = true := by
  revert hIdle
  refine invariant
    (fun s => s.teardown = .idle →
      ∀ (i : Nat) (call : PendingCall),
        s.calls[i]? = some call →
          call.channel.isOpen = true)
    (fun _ => by simp [start]) ?_ hReach
  intro s a _ hInv _ hEnabled hIdle
  have hWas := teardown_eq_idle hIdle
  have hModify :
      ∀ {i : Nat} {f : PendingCall → PendingCall},
        (∀ call, (f call).channel.isOpen =
          call.channel.isOpen) →
        ∀ (j : Nat) (call : PendingCall),
          (s.calls.modify i f)[j]? = some call →
            call.channel.isOpen = true :=
    fun hSame =>
      Records.forall_getElem?_modify_of_forall (hInv hWas)
        fun call _ hOpen => (hSame call).trans hOpen
  cases a with
  | generateToken callName reqBuffer =>
      exact Records.forall_getElem?_concat (hInv hWas) rfl
  | resumeCall i =>
      refine hModify fun call => ?_
      unfold PendingCall.resume
      split <;> rfl
  | receiveReply i => exact hModify fun call => by simp
  | timerCancel i => exact hModify fun call => by simp
  | cancelChannel i => exact hModify fun call => by simp
  | sendResult i result => exact hModify fun call => by simp
  | closeChannel i => cases hEnabled.symm.trans hWas
  | registerOperation i | queueCall i | armTimer i
  | timerFire i | timerStore i =>
      exact hModify fun call => rfl
  | _ => exact hInv hWas

------------------------------------------------------------
-- A Reader That Goes On
------------------------------------------------------------

/- A well-formed frame within the limit ends no reader. -/
theorem shuts_afterHeader
    {limits : SessionLimits}
    {frame : Frame}
    (hFramed : Framed frame)
    (hLimit : frame.1.msgSize ≤ limits.maxMessageBytes)
    (granted : Bool)
    (rid ord : Nat) :
    (afterHeader rid ord frame.1
      (intake limits granted frame.1)).shuts = false := by
  have hNot :
      ¬ frame.1.msgSize > limits.maxMessageBytes :=
    UInt64.not_lt.mpr hLimit
  rcases Option.isSome_iff_exists.mp hFramed.known with
    ⟨type, hType⟩
  cases type <;>
    simp only [intake, hFramed.magic, hType, hNot, ne_eq,
      not_true, if_false]
  case request => cases granted <;> rfl
  case error => split <;> rfl
  all_goals rfl

theorem received_prefix_update
    (cfg : Config ω)
    (s : Session)
    (a : Action ω) :
    s.received <+: (s.update cfg a).received := by
  cases a with
  | deliver bytes => exact List.prefix_append _ _
  | _ => exact List.prefix_rfl

/- On a well-formed stream the reader does not end by itself. -/
theorem shuts_eq_false
    (hReach : ReachableBy cfg Unfailing s)
    {frames : List Frame}
    (hFramed : ∀ frame ∈ frames, Framed frame)
    (hKeepalive : ∀ frame ∈ frames, KeepaliveEmpty frame)
    (hLimit :
      ∀ frame ∈ frames,
        frame.1.msgSize ≤ cfg.limits.maxMessageBytes)
    (hStream : s.received <+: wire cfg.order frames)
    (hIdle : s.teardown = .idle) :
    s.reader.shuts = false := by
  revert hStream hIdle
  refine invariant
    (fun s => s.received <+: wire cfg.order frames →
      s.teardown = .idle → s.reader.shuts = false)
    (fun _ _ => rfl) ?_ hReach
  intro s a hPrior hInv hOk hEnabled hStream hIdle
  have hWas := teardown_eq_idle hIdle
  have hOld :=
    hInv ((received_prefix_update cfg s a).trans hStream) hWas
  cases a with
  | readHeader now =>
      have hNext :
          Reachable cfg (s.update cfg (.readHeader now)) :=
        hPrior.reachable.next trivial
          ((step_eq_some_iff cfg s _ _).mpr ⟨hEnabled, rfl⟩)
      rcases reader_aligned cfg frames hFramed hLimit hKeepalive
          _ hNext hStream s.taken.length (s.nextHeader cfg)
          (by simp [update]) with ⟨hHeader, -⟩
      rw [List.getElem?_map, Option.map_eq_some_iff] at hHeader
      rcases hHeader with ⟨frame, hGet, hSame⟩
      have hMem := List.mem_of_getElem? hGet
      simp only [update, nextIntake, ← hSame]
      exact shuts_afterHeader (hFramed frame hMem)
        (hLimit frame hMem) _ _ _
  | readBody header use => cases use <;> rfl
  | sendPong => rfl
  | readFail => exact hOk.elim
  | findOperation token result =>
      simp only [update]
      cases s.channels.lookup token <;> rfl
  | sendResult i result =>
      have hAt : s.reader = .completing i result := hEnabled
      have hLt := (slotsInv hPrior).completed i
        (by rw [hAt]; rfl)
      have hCall := List.getElem?_eq_getElem hLt
      have hOpen := channel_open hPrior hWas i _ hCall
      simp only [update]
      rw [if_pos ⟨_, hCall, hOpen⟩]
      rfl
  | resumeResult i => rfl
  | rejectRequest rid header closes =>
      have hAt : s.reader = .rejecting rid header closes :=
        hEnabled
      have hOpen : s.writeChannel.isOpen = true := by
        rw [isOpen_eq hPrior, hWas]
        rfl
      rw [hAt] at hOld
      simp only [update, hOpen, if_true]
      exact hOld
  | resumeReject rid closes =>
      have hAt : s.reader = .rejected rid closes := hEnabled.1
      rw [hAt] at hOld
      have hStays : closes = false := hOld
      simp only [update, hStays, Bool.false_eq_true, if_false]
      rfl
  | readerClose again =>
      have hAt : s.reader = .close again := hEnabled
      rw [hAt] at hOld
      cases hOld
  | readerClosed again =>
      rw [hEnabled.1] at hOld
      cases hOld
  | _ => exact hOld

------------------------------------------------------------
-- A Writer That Goes On
------------------------------------------------------------

/- The writer is in its loop, and its receive did not fail. -/
structure Writing (s : Session) : Prop where
  running : s.writer.hasStopped = false
  unfailed :
    ∀ e, s.writeChannel.receiver ≠ .completed (.error e)

theorem writing
    (hReach : ReachableBy cfg Unfailing s)
    (hIdle : s.teardown = .idle) :
    s.Writing := by
  revert hIdle
  refine invariant (fun s => s.teardown = .idle → s.Writing)
    (fun _ => ⟨rfl, by simp [start, Channel.make]⟩) ?_ hReach
  intro s a hPrior hInv hOk hEnabled hIdle
  have hWas := teardown_eq_idle hIdle
  have hOld := hInv hWas
  have hSend :
      ∀ item, ∀ e,
        (s.writeChannel.asyncSend item).receiver ≠
          .completed (.error e) := by
    intro item e
    rcases s.writeChannel.asyncSend_receiver item with
      ⟨hSame, -⟩ | ⟨-, hHanded, -⟩
    · rw [hSame]
      exact hOld.unfailed e
    · simp [hHanded]
  have hTry :
      ∀ item, ∀ e,
        (s.writeChannel.trySend item).receiver ≠
          .completed (.error e) := by
    intro item e
    rcases s.writeChannel.trySend_receiver item with
      ⟨hSame, -⟩ | ⟨-, hHanded, -⟩
    · rw [hSame]
      exact hOld.unfailed e
    · simp [hHanded]
  cases a with
  | queueCall i =>
      refine ⟨hOld.running, ?_⟩
      simp only [update]
      cases s.calls[i]? with
      | none => exact hOld.unfailed
      | some call => exact hSend _
  | notify callName buffer => exact ⟨hOld.running, hSend _⟩
  | rejectRequest rid header closes =>
      exact ⟨hOld.running, hSend _⟩
  | sendReply rid header answer =>
      exact ⟨hOld.running, hSend _⟩
  | tryNotify callName buffer => exact ⟨hOld.running, hTry _⟩
  | tryPing => exact ⟨hOld.running, hTry _⟩
  | sendPong => exact ⟨hOld.running, hTry _⟩
  | closeWriteChannel => cases hIdle
  | writerReceive =>
      refine ⟨rfl, fun e hError => ?_⟩
      have hShut :=
        (s.writeChannel.asyncReceive_error hError).1
      rw [isOpen_eq hPrior, hWas] at hShut
      cases hShut
  | writerTake =>
      refine ⟨?_, by simp [update, Channel.consume]⟩
      simp only [update]
      rcases hReceiver : s.writeChannel.receiver with
        _ | _ | ⟨e | item⟩
      · rfl
      · rfl
      · exact absurd hReceiver (hOld.unfailed e)
      · rfl
  | writerWrite chunk rest => exact ⟨rfl, hOld.unfailed⟩
  | writerFinish => exact ⟨rfl, hOld.unfailed⟩
  | writerFail rest => exact hOk.elim
  | writerClose =>
      have hAt : s.writer = .close := hEnabled
      have hRuns := hOld.running
      rw [hAt] at hRuns
      cases hRuns
  | writerClosed =>
      have hRuns := hOld.running
      rw [hEnabled.1] at hRuns
      cases hRuns
  | _ => exact ⟨hOld.running, hOld.unfailed⟩

------------------------------------------------------------
-- Catching Up
------------------------------------------------------------

/- Steps of `msg_reader` inside its loop. -/
def reads : Action ω → Bool
  | .readHeader _ => true
  | .sendPong => true
  | .readBody _ _ => true
  | .findOperation _ _ => true
  | .sendResult _ _ => true
  | .resumeResult _ => true
  | .rejectRequest _ _ _ => true
  | .resumeReject _ _ => true
  | _ => false

/- Steps of `msg_writer` inside its loop. -/
def writes : Action ω → Bool
  | .writerReceive => true
  | .writerTake => true
  | .writerWrite chunk _ => !chunk.isEmpty
  | .writerFinish => true
  | _ => false

/- The reader and the writer are left to themselves. -/
abbrev LeftAlone
    (cfg : Config ω)
    (s s' : Session) : Prop :=
  Transition.ReachableBy (step cfg)
    (fun _ a => reads a = true ∨ writes a = true) s s'

/- How many steps the reader may be from a header. -/
def stage : ReaderPc → Nat
  | .header => 0
  | .pong => 1
  | .body _ _ => 4
  | .complete _ _ => 3
  | .completing _ _ => 2
  | .completed _ => 1
  | .rejecting _ _ _ => 2
  | .rejected _ _ => 1
  | .close _ => 0
  | .closing _ => 0
  | .exited => 0

/- What the reader has before it. -/
def readerWork (s : Session) : Nat :=
  5 * s.unread.length + stage s.reader

def itemWork
    (order : ByteOrder)
    (item : WriteItem) : Nat :=
  (item.bytes order).length + 3

/- What the writer has before it. -/
def writerWork
    (cfg : Config ω)
    (s : Session) : Nat :=
  (s.writeChannel.pending.map (itemWork cfg.order)).sum +
    match s.writer, s.writeChannel.receiver with
    | .ready, _ => 1
    | .receiving, .completed (.ok item) =>
        itemWork cfg.order item
    | .writing rest, _ => rest.length + 2
    | _, _ => 0

theorem stage_afterHeader_le
    (rid ord : Nat)
    (header : Header)
    (kind : Intake) :
    stage (afterHeader rid ord header kind) ≤ 4 := by
  cases kind <;> simp [afterHeader, stage]

theorem stage_afterBody_le
    (rid ord : Nat)
    (header : Header)
    (body : Buffer)
    (use : BodyUse) :
    stage (afterBody rid ord header body use) ≤ 3 := by
  cases use <;> simp [afterBody, stage]

theorem readerWork_update
    (cfg : Config ω)
    {a : Action ω}
    (hReads : reads a = true)
    (hEnabled : s.Enabled a) :
    (s.update cfg a).readerWork < s.readerWork := by
  cases a with
  | readHeader now =>
      rcases hEnabled with ⟨hAt, hEnough⟩
      have hStage := stage_afterHeader_le s.requests.length
        s.taken.length (s.nextHeader cfg)
        (s.nextIntake cfg now)
      have hNow : stage s.reader = 0 := by rw [hAt]; rfl
      simp only [unread, List.length_drop, Header.size]
        at hEnough
      simp only [readerWork, unread, update, Header.size,
        List.length_drop, hNow]
      omega
  | readBody header use =>
      rcases hEnabled with ⟨hAt, hEnough⟩
      have hStage := stage_afterBody_le s.requests.length
        (s.taken.length - 1) header (s.nextBody header) use
      have hNow : stage s.reader = 4 := by rw [hAt]; rfl
      simp only [unread, List.length_drop] at hEnough
      simp only [readerWork, unread, update,
        List.length_drop, hNow]
      omega
  | sendPong =>
      have hAt : s.reader = .pong := hEnabled
      simp [readerWork, unread, update, hAt, stage]
  | findOperation token result =>
      have hAt : s.reader = .complete token result := hEnabled
      simp only [readerWork, unread, update, hAt]
      cases s.channels.lookup token <;> simp [stage]
  | sendResult i result =>
      have hAt : s.reader = .completing i result := hEnabled
      simp only [readerWork, unread, update, hAt]
      split <;> simp [stage]
  | resumeResult i =>
      simp [readerWork, unread, update, hEnabled.1, stage]
  | rejectRequest rid header closes =>
      have hAt : s.reader = .rejecting rid header closes :=
        hEnabled
      simp only [readerWork, unread, update, hAt]
      split <;> simp [stage]
  | resumeReject rid closes =>
      simp only [readerWork, unread, update, hEnabled.1]
      split <;> simp [stage]
  | _ => cases hReads

theorem writerWork_update
    (cfg : Config ω)
    {a : Action ω}
    (hWrites : writes a = true)
    (hWriting : s.Writing)
    (hEnabled : s.Enabled a) :
    (s.update cfg a).writerWork cfg < s.writerWork cfg := by
  cases a with
  | writerReceive =>
      have hAt : s.writer = .ready := hEnabled
      simp only [writerWork, update, hAt]
      rcases s.writeChannel.asyncReceive_pending with
        ⟨item, hReceiver, hPending⟩ |
          ⟨hWaiting | hClosed, hPending⟩
      · simp only [hReceiver, hPending, List.map_cons,
          List.sum_cons]
        omega
      · simp [hWaiting, hPending]
      · simp [hClosed, hPending]
  | writerTake =>
      rcases hEnabled with ⟨hAt, hCompleted⟩
      cases hReceiver : s.writeChannel.receiver with
      | idle => simp [hReceiver, Receiver.isCompleted]
          at hCompleted
      | waiting => simp [hReceiver, Receiver.isCompleted]
          at hCompleted
      | completed result =>
          cases result with
          | error e =>
              exact absurd hReceiver (hWriting.unfailed e)
          | ok item =>
              simp [writerWork, update, hAt, hReceiver,
                WriterPc.resume, itemWork, Channel.consume,
                Channel.pending]
  | writerWrite chunk rest =>
      have hSome : chunk ≠ [] := by
        simpa [writes] using hWrites
      have hPos := List.length_pos_iff.mpr hSome
      simp only [writerWork, update, hEnabled.1,
        List.length_append]
      omega
  | writerFinish =>
      have hAt : s.writer = .writing [] := hEnabled
      simp [writerWork, update, hAt]
  | _ => cases hWrites

/- The reader and the writer lower what is before them. -/
theorem work_update
    (cfg : Config ω)
    {a : Action ω}
    (hLoops : reads a = true ∨ writes a = true)
    (hWriting : s.Writing)
    (hEnabled : s.Enabled a) :
    toLex ((s.update cfg a).readerWork,
        (s.update cfg a).writerWork cfg) <
      toLex (s.readerWork, s.writerWork cfg) := by
  apply Prod.Lex.toLex_lt_toLex.mpr
  rcases hLoops with hReads | hWrites
  · exact .inl (readerWork_update cfg hReads hEnabled)
  · refine .inr ⟨?_,
      writerWork_update cfg hWrites hWriting hEnabled⟩
    cases a <;> first | rfl | cases hWrites

/- They neither receive bytes nor close the session. -/
theorem update_of_loops
    (cfg : Config ω)
    (s : Session)
    {a : Action ω}
    (hLoops : reads a = true ∨ writes a = true) :
    (s.update cfg a).received = s.received ∧
      (s.update cfg a).teardown = s.teardown ∧
      s.Unfailing a := by
  cases a with
  | readHeader | sendPong | readBody | findOperation
  | sendResult | resumeResult | rejectRequest | resumeReject
  | writerReceive | writerTake | writerWrite | writerFinish =>
      exact ⟨rfl, rfl, trivial⟩
  | _ => rcases hLoops with hNot | hNot <;> cases hNot

/- A writer behind which a sender waits has a step. -/
theorem exists_writes
    (hReach : ReachableBy cfg ok s)
    (hIdle : s.teardown = .idle)
    (hWriting : s.Writing)
    (hSenders : s.writeChannel.senders ≠ []) :
    ∃ a : Action ω, writes a = true ∧ s.Enabled a := by
  have hInv := writerInv hReach
  have hRuns := hWriting.running
  cases hWriter : s.writer with
  | ready => exact ⟨.writerReceive, rfl, hWriter⟩
  | receiving =>
      rw [hWriter] at hInv
      cases hReceiver : s.writeChannel.receiver with
      | idle => simp [WriterInv, hReceiver] at hInv
      | waiting =>
          exact absurd (s.writeChannel.parked hReceiver).2.2
            hSenders
      | completed result =>
          exact ⟨.writerTake, rfl, hWriter,
            by rw [hReceiver]; rfl⟩
  | writing rest =>
      cases rest with
      | nil => exact ⟨.writerFinish, rfl, hWriter⟩
      | cons byte rest =>
          exact ⟨.writerWrite [byte] rest, rfl, hWriter,
            (untouched hReach hIdle).stream⟩
  | close => rw [hWriter] at hRuns; cases hRuns
  | closing => rw [hWriter] at hRuns; cases hRuns
  | exited => rw [hWriter] at hRuns; cases hRuns

/- A reader that is not starved, or the writer, has a step. -/
theorem starved_or_exists_loops
    (hReach : ReachableBy cfg ok s)
    (hIdle : s.teardown = .idle)
    (hWriting : s.Writing)
    (hGoesOn : s.reader.shuts = false) :
    s.Starved ∨
      ∃ a : Action ω, (reads a = true ∨ writes a = true) ∧
        s.Enabled a := by
  cases hReader : s.reader with
  | header =>
      by_cases hShort : s.unread.length < Header.size
      · exact .inl (.inl ⟨hReader, hShort⟩)
      · -- Any later reading of the clock will do.
        exact .inr
          ⟨.readHeader (s.requestBucket.lastRefill + 1),
            .inl rfl, hReader, Nat.le_of_not_lt hShort⟩
  | body header use =>
      by_cases hShort :
          s.unread.length < header.msgSize.toNat
      · exact .inl (.inr ⟨header, use, hReader, hShort⟩)
      · exact .inr ⟨.readBody header use, .inl rfl, hReader,
          Nat.le_of_not_lt hShort⟩
  | pong => exact .inr ⟨.sendPong, .inl rfl, hReader⟩
  | complete token result =>
      exact .inr ⟨.findOperation token result, .inl rfl,
        hReader⟩
  | completing i result =>
      exact .inr ⟨.sendResult i result, .inl rfl, hReader⟩
  | completed i =>
      have hCall := List.getElem?_eq_getElem
        ((untouched hReach hIdle).completed i hReader)
      exact .inr ⟨.resumeResult i, .inl rfl, hReader, _, hCall,
        ((slotsInv hReach).each i _ hCall).unparked⟩
  | rejecting rid header closes =>
      exact .inr ⟨.rejectRequest rid header closes, .inl rfl,
        hReader⟩
  | rejected rid closes =>
      right
      by_cases hResumes : s.Resumable (.reply rid)
      · exact ⟨.resumeReject rid closes, .inl rfl, hReader,
          hResumes⟩
      · have hSenders : s.writeChannel.senders ≠ [] := by
          intro hNone
          exact hResumes fun item hMem => by
            simp [hNone] at hMem
        rcases exists_writes hReach hIdle hWriting hSenders
          with ⟨a, hWrites, hEnabled⟩
        exact ⟨a, .inr hWrites, hEnabled⟩
  | close again => rw [hReader] at hGoesOn; cases hGoesOn
  | closing again => rw [hReader] at hGoesOn; cases hGoesOn
  | exited => rw [hReader] at hGoesOn; cases hGoesOn

/- Left alone, the reader comes to wait for more bytes. -/
theorem catchesUp
    (hReach : ReachableBy cfg Unfailing s)
    {frames : List Frame}
    (hFramed : ∀ frame ∈ frames, Framed frame)
    (hKeepalive : ∀ frame ∈ frames, KeepaliveEmpty frame)
    (hLimit :
      ∀ frame ∈ frames,
        frame.1.msgSize ≤ cfg.limits.maxMessageBytes)
    (hStream : s.received <+: wire cfg.order frames)
    (hIdle : s.teardown = .idle) :
    ∃ s', LeftAlone cfg s s' ∧
      (ReachableBy cfg Unfailing s' ∧
        s'.received = s.received ∧ s'.teardown = .idle) ∧
      s'.Starved := by
  refine Transition.exists_done
    (fun s => toLex (s.readerWork, s.writerWork cfg)) ?_
    ⟨hReach, rfl, hIdle⟩
  rintro mid ⟨hMid, hSame, hOpen⟩
  have hWriting := writing hMid hOpen
  have hGoesOn := shuts_eq_false hMid hFramed hKeepalive
    hLimit (hSame ▸ hStream) hOpen
  rcases starved_or_exists_loops hMid hOpen hWriting hGoesOn
    with hStarved | ⟨a, hLoops, hEnabled⟩
  · exact .inl hStarved
  · right
    rcases update_of_loops cfg mid hLoops with
      ⟨hReceived, hTeardown, hOk⟩
    have hStep := (step_eq_some_iff cfg mid _ a).mpr
      ⟨hEnabled, rfl⟩
    exact ⟨a, _, hLoops, hStep,
      ⟨hMid.next hOk hStep, hReceived.trans hSame,
        hTeardown.trans hOpen⟩,
      work_update cfg hLoops hWriting hEnabled⟩

------------------------------------------------------------
-- Reading Back
------------------------------------------------------------

/-
  What a peer makes of a stream of items: aligned headers,
  whole frames at every boundary, and no complete frame left
  behind when its reader waits for more. While it is open
  and nothing fails its reader goes on, and left alone it
  takes all that has arrived.
-/
structure ReadBack
    (cfg : Config ω)
    (items : List WriteItem)
    (p : Session) : Prop where
  headers :
    HeadersAligned cfg (items.map WriteItem.frame) p
  whole :
    p.reader.atBoundary = true →
      p.taken =
          (items.take p.taken.length).map WriteItem.frame ∧
        p.received.take p.consumed =
          itemBytes cfg.order (items.take p.taken.length)
  complete :
    p.Starved →
      ∀ m, m ≤ items.length →
        itemBytes cfg.order (items.take m) <+: p.received →
        (items.take m).map WriteItem.frame <+: p.taken
  goesOn :
    ReachableBy cfg Unfailing p → p.teardown = .idle →
      p.reader.shuts = false
  catchesUp :
    ReachableBy cfg Unfailing p → p.teardown = .idle →
      ∃ p', LeftAlone cfg p p' ∧
        p'.received = p.received ∧
        (∀ m, m ≤ items.length →
          itemBytes cfg.order (items.take m) <+:
              p.received →
            (items.take m).map WriteItem.frame <+:
              p'.taken) ∧
        (p.received = itemBytes cfg.order items →
          p'.taken = items.map WriteItem.frame)

/- All frames of the stream, when it has arrived whole. -/
theorem taken_eq_of_prefix
    {frames : List Frame}
    (hHeaders : HeadersAligned cfg frames s)
    (hPrefix : frames <+: s.taken) :
    s.taken = frames := by
  refine (hPrefix.eq_of_length_le ?_).symm
  by_contra hMore
  have hGet := List.getElem?_eq_getElem
    (Nat.lt_of_not_le hMore)
  rcases hHeaders frames.length s.taken[frames.length].1
    (by rw [List.getElem?_map, hGet]; rfl) with ⟨hNone, -⟩
  simp at hNone

/- A notification with a three-byte body. -/
def update3 : WriteItem :=
  .notify true (literal "update") ⟨[1, 2, 3], by decide⟩

end Session

end GrlxRpc
