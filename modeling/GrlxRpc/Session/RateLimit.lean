import GrlxRpc.Session.Auth
import GrlxRpc.Lib.Metering
import GrlxRpc.Lib.Observed
import GrlxRpc.Lib.Records
import Mathlib.Algebra.Order.Field.Basic

/-
  The rate limit of the requests.

  A token bucket is a metered account: each call is charged
  one token or nothing. A session asks its bucket for every
  request within the size limit, so the window law of the
  account bounds the requests that reach the dispatcher.

  The bucket is asked before the body is read. A request is
  handed over when its body is there, so a window may hold
  one request more than the bucket let through in it.

  Main declarations:
    * `TokenBucket.granted` and `TokenBucket.metered`
    * `TokenBucket.RateLaw` and `TokenBucket.rateLaw`
    * `Session.passedAt` and `Session.gateInv`
    * `Session.requestsLimited`
    * `Session.handedAt` and `Session.paced`
    * `Session.rateLimited` and `Session.late_body_handed`
-/

------------------------------------------------------------
-- Calls Of A Token Bucket
------------------------------------------------------------

namespace GrlxRpc

open Metering

namespace TokenBucket

theorem seconds_sub (s t : Int) :
    seconds (t - s) = seconds t - seconds s := by
  simp only [seconds, Int.cast_sub]
  exact sub_div _ _ _

theorem seconds_le_iff (s t : Int) :
    seconds s ≤ seconds t ↔ s ≤ t := by
  simp only [seconds]
  rw [div_le_div_iff_of_pos_right (by norm_num),
    Int.cast_le]

/- The bucket after calls with these clock readings. -/
def after
    (bucket : TokenBucket)
    (readings : List Int) : TokenBucket :=
  readings.foldl (fun bucket now => (bucket.tryTake now).1)
    bucket

/- The readings with which a call was granted. -/
def granted : TokenBucket → List Int → List Int
  | _, [] => []
  | bucket, now :: rest =>
      (if (bucket.tryTake now).2 then [now] else []) ++
        granted (bucket.tryTake now).1 rest

/- What a call takes. -/
def charge
    (bucket : TokenBucket)
    (now : Int) : Rat :=
  if (bucket.tryTake now).2 then 1 else 0

def charges :
    TokenBucket → List Int → List (Rat × Rat)
  | _, [] => []
  | bucket, now :: rest =>
      (seconds now, bucket.charge now) ::
        charges (bucket.tryTake now).1 rest

theorem after_concat
    (bucket : TokenBucket)
    (readings : List Int)
    (now : Int) :
    bucket.after (readings ++ [now]) =
      ((bucket.after readings).tryTake now).1 := by
  simp [after]

theorem granted_concat
    (bucket : TokenBucket)
    (readings : List Int)
    (now : Int) :
    bucket.granted (readings ++ [now]) =
      bucket.granted readings ++
        if ((bucket.after readings).tryTake now).2 then [now]
        else [] := by
  induction readings generalizing bucket with
  | nil => exact List.append_nil _
  | cons first rest ih =>
      rw [List.cons_append, granted, ih, granted,
        List.append_assoc]
      rfl

/- The charges in a window are the calls granted in it. -/
theorem spent_charges
    (bucket : TokenBucket)
    (readings : List Int)
    (s t : Int) :
    spent (seconds s) (seconds t) (bucket.charges readings) =
      ((bucket.granted readings).countP
        fun now => s ≤ now ∧ now ≤ t : Nat) := by
  induction readings generalizing bucket with
  | nil => rfl
  | cons now rest ih =>
      simp only [charges, spent, granted, charge, ih,
        seconds_le_iff, List.countP_append]
      by_cases hGranted : (bucket.tryTake now).2 = true
      · by_cases hIn : s ≤ now ∧ now ≤ t
        · simp [hGranted, hIn]
        · simp [hGranted, hIn]
      · simp [hGranted]

------------------------------------------------------------
-- A Bucket Is A Metered Account
------------------------------------------------------------

/- A bucket of these parameters that holds what it may. -/
structure Sound
    (c r : Rat)
    (bucket : TokenBucket) : Prop where
  capacity : bucket.capacity = c
  rate : bucket.refillPerSec = r
  nonneg : 0 ≤ bucket.tokens
  le_capacity : bucket.tokens ≤ c

/- A bucket that nobody has called. -/
def fresh (c r : Rat) : TokenBucket where
  capacity := c
  refillPerSec := r

variable {c r : Rat}
variable {bucket : TokenBucket}
variable {now : Int}

theorem sound_fresh
    (hCapacity : 0 < c) :
    Sound c r (fresh c r) :=
  ⟨rfl, rfl, le_refl 0, hCapacity.le⟩

/- What a refill leaves in a bucket. -/
theorem Sound.refill
    (hSound : Sound c r bucket)
    (hCapacity : 0 < c)
    (hRate : 0 ≤ r)
    (hOrder : bucket.lastRefill ≤ now) :
    Sound c r (bucket.refill now) := by
  rcases hSound with ⟨rfl, rfl, hNonneg, hLe⟩
  unfold TokenBucket.refill
  split
  · exact ⟨rfl, rfl, hCapacity.le, le_refl _⟩
  · case isFalse =>
      have hElapsed :
          0 ≤ seconds (now - bucket.lastRefill) := by
        rw [seconds_sub, sub_nonneg, seconds_le_iff]
        exact hOrder
      have hAdded := mul_nonneg hElapsed hRate
      constructor
      case capacity => rfl
      case rate => rfl
      case nonneg =>
        exact le_min hCapacity.le (add_nonneg hNonneg hAdded)
      case le_capacity => exact min_le_left _ _

theorem lastRefill_tryTake
    (bucket : TokenBucket)
    (now : Int) :
    (bucket.tryTake now).1.lastRefill = now := by
  have hRefill : (bucket.refill now).lastRefill = now := by
    unfold refill
    split <;> rfl
  simp only [tryTake]
  split
  · exact hRefill
  · split <;> exact hRefill

/- A call takes its charge from the refilled bucket. -/
theorem Sound.tokens_tryTake
    (hSound : Sound c r bucket)
    (hCapacity : 0 < c)
    (now : Int) :
    (bucket.tryTake now).1.tokens + bucket.charge now =
      (bucket.refill now).tokens := by
  have hRefill : (bucket.refill now).capacity = c := by
    rw [← hSound.capacity]
    unfold TokenBucket.refill
    split <;> rfl
  have hLimits : ¬ (bucket.refill now).capacity ≤ 0 := by
    rw [hRefill]
    exact not_le_of_gt hCapacity
  unfold charge
  simp only [tryTake, if_neg hLimits]
  by_cases hEnough : 1 ≤ (bucket.refill now).tokens
  · simp only [if_pos hEnough, if_true]
    exact sub_add_cancel _ _
  · simp only [if_neg hEnough, Bool.false_eq_true, if_false]
    exact add_zero _

/- No call takes more than there is. -/
theorem Sound.tryTake
    (hSound : Sound c r bucket)
    (hCapacity : 0 < c)
    (hRate : 0 ≤ r)
    (hOrder : bucket.lastRefill ≤ now) :
    Sound c r (bucket.tryTake now).1 := by
  have hRefill := hSound.refill hCapacity hRate hOrder
  simp only [TokenBucket.tryTake]
  split
  · exact hRefill
  · split
    · case isTrue hEnough =>
        constructor
        case capacity => exact hRefill.capacity
        case rate => exact hRefill.rate
        case nonneg => exact sub_nonneg.mpr hEnough
        case le_capacity =>
          exact (sub_le_self _ (by norm_num)).trans
            hRefill.le_capacity
    · exact hRefill

theorem charge_nonneg
    (bucket : TokenBucket)
    (now : Int) :
    0 ≤ bucket.charge now := by
  unfold charge
  split <;> norm_num

/- A bucket in use refills at its rate. -/
theorem Sound.refill_le
    (hSound : Sound c r bucket)
    (hUsed : bucket.lastRefill ≠ 0) :
    (bucket.refill now).tokens ≤
      bucket.tokens +
        r * (seconds now - seconds bucket.lastRefill) := by
  rw [TokenBucket.refill, if_neg hUsed, ← seconds_sub,
    ← hSound.rate, mul_comm bucket.refillPerSec]
  exact min_le_right _ _

/- The account that a bucket in use stands for. -/
def account (bucket : TokenBucket) : Account Rat where
  level := bucket.tokens
  time := seconds bucket.lastRefill

/-
  One call, seen as a charge to an account that is no newer
  and pays for the refilled bucket.
-/
theorem Sound.metered_cons
    (hSound : Sound c r bucket)
    (hCapacity : 0 < c)
    (hRate : 0 ≤ r)
    (hOrder : bucket.lastRefill ≤ now)
    {x : Account Rat}
    {rest : List Int}
    (hTime : x.time ≤ seconds now)
    (hPaid :
      (bucket.refill now).tokens ≤
        x.level + r * (seconds now - x.time))
    (hRest :
      Metered c r (bucket.tryTake now).1.account
        ((bucket.tryTake now).1.charges rest)) :
    Metered c r x (bucket.charges (now :: rest)) := by
  have hNext := hSound.tryTake hCapacity hRate hOrder
  have hTokens := hSound.tokens_tryTake hCapacity now
  have hFull :=
    (hSound.refill hCapacity hRate hOrder).le_capacity
  have hNow :
      (bucket.tryTake now).1.account.time = seconds now :=
    congrArg seconds (bucket.lastRefill_tryTake now)
  have hLevel :
      (bucket.tryTake now).1.account.level +
          bucket.charge now =
        (bucket.refill now).tokens := hTokens
  have hLeft : 0 ≤ (bucket.tryTake now).1.account.level :=
    hNext.nonneg
  rw [charges, ← hNow]
  apply Metered.cons _ (bucket.charge_nonneg now) hLeft
    _ _ hRest
  · rw [hNow]
    exact hTime
  · rw [hLevel]
    exact hFull
  · rw [hLevel, hNow]
    exact hPaid

/- A bucket in use is a metered account. -/
theorem Sound.metered
    (hSound : Sound c r bucket)
    (hCapacity : 0 < c)
    (hRate : 0 ≤ r)
    (hUsed : bucket.lastRefill ≠ 0)
    {readings : List Int}
    (hPositive : ∀ now ∈ readings, 0 < now)
    (hSorted :
      (bucket.lastRefill :: readings).Pairwise (· ≤ ·)) :
    Metered c r bucket.account (bucket.charges readings) := by
  induction readings generalizing bucket with
  | nil => exact .nil _
  | cons now rest ih =>
      have hOrder : bucket.lastRefill ≤ now :=
        List.rel_of_pairwise_cons hSorted List.mem_cons_self
      have hNow := bucket.lastRefill_tryTake now
      have hPos := hPositive now List.mem_cons_self
      apply hSound.metered_cons hCapacity hRate hOrder
      · exact (seconds_le_iff _ _).mpr hOrder
      · exact hSound.refill_le hUsed
      · apply ih (hSound.tryTake hCapacity hRate hOrder)
        · omega
        · intro later hLater
          exact hPositive later (List.mem_cons_of_mem _ hLater)
        · rw [hNow]
          exact hSorted.of_cons

/- So is a fresh one, full at its first call. -/
theorem exists_metered_fresh
    (hCapacity : 0 < c)
    (hRate : 0 ≤ r)
    {readings : List Int}
    (hPositive : ∀ now ∈ readings, 0 < now)
    (hSorted : readings.Pairwise (· ≤ ·)) :
    ∃ x, Metered c r x ((fresh c r).charges readings) := by
  cases readings with
  | nil => exact ⟨⟨c, 0⟩, .nil _⟩
  | cons now rest =>
      have hPos := hPositive now List.mem_cons_self
      have hNow := (fresh c r).lastRefill_tryTake now
      have hOrder : (fresh c r).lastRefill ≤ now := hPos.le
      have hSound := sound_fresh (r := r) hCapacity
      refine ⟨⟨c, seconds now⟩, ?_⟩
      apply hSound.metered_cons hCapacity hRate hOrder
      · exact le_refl _
      · rw [sub_self, mul_zero, add_zero]
        exact
          (hSound.refill hCapacity hRate hOrder).le_capacity
      · apply (hSound.tryTake hCapacity hRate hOrder).metered
          hCapacity hRate
        · omega
        · intro later hLater
          exact hPositive later (List.mem_cons_of_mem _ hLater)
        · rw [hNow]
          exact hSorted

------------------------------------------------------------
-- The Rate Law
------------------------------------------------------------

theorem Sound.after
    (hSound : Sound c r bucket)
    (hCapacity : 0 < c)
    (hRate : 0 ≤ r)
    {readings : List Int}
    (hSorted :
      (bucket.lastRefill :: readings).Pairwise (· ≤ ·)) :
    Sound c r (bucket.after readings) := by
  induction readings generalizing bucket with
  | nil => exact hSound
  | cons now rest ih =>
      have hOrder : bucket.lastRefill ≤ now :=
        List.rel_of_pairwise_cons hSorted List.mem_cons_self
      apply ih (hSound.tryTake hCapacity hRate hOrder)
      rw [bucket.lastRefill_tryTake now]
      exact hSorted.of_cons

/- A refused call leaves what its refill left. -/
theorem tryTake_of_refused
    (bucket : TokenBucket)
    {now : Int}
    (hRefused : (bucket.tryTake now).2 = false) :
    (bucket.tryTake now).1 = bucket.refill now := by
  simp only [tryTake] at hRefused ⊢
  split at hRefused
  · cases hRefused
  · case isFalse hLimits =>
      rw [if_neg hLimits]
      split at hRefused
      · cases hRefused
      · case isFalse hShort => rw [if_neg hShort]

/-
  What a fresh bucket owes these calls: its tokens stay
  within its capacity, a refused call changes them by its
  refill only, and no window has more granted calls than the
  capacity and the window's refill.
-/
structure RateLaw
    (c r : Rat)
    (readings : List Int) : Prop where
  bounded :
    ∀ before now later,
      readings = before ++ now :: later →
        0 ≤ ((fresh c r).after (before ++ [now])).tokens ∧
          ((fresh c r).after (before ++ [now])).tokens ≤ c
  refused :
    ∀ before now later,
      readings = before ++ now :: later →
        (((fresh c r).after before).tryTake now).2 = false →
          (fresh c r).after (before ++ [now]) =
            ((fresh c r).after before).refill now
  window :
    ∀ s t, s ≤ t →
      (((fresh c r).granted readings).countP
          (fun now => s ≤ now ∧ now ≤ t) : Rat) ≤
        c + r * seconds (t - s)

theorem rateLaw
    (hCapacity : 0 < c)
    (hRate : 0 ≤ r)
    {readings : List Int}
    (hPositive : ∀ now ∈ readings, 0 < now)
    (hSorted : readings.Pairwise (· ≤ ·)) :
    RateLaw c r readings := by
  have hFromStart :
      ((fresh c r).lastRefill :: readings).Pairwise
        (· ≤ ·) :=
    List.pairwise_cons.mpr
      ⟨fun now hMem => (hPositive now hMem).le, hSorted⟩
  constructor
  case bounded =>
    rintro before now later rfl
    have hBefore :
        ((fresh c r).lastRefill ::
          (before ++ [now])).Pairwise (· ≤ ·) := by
      refine hFromStart.sublist ?_
      apply List.Sublist.cons_cons
      exact List.Sublist.append_left
        (List.singleton_sublist.mpr List.mem_cons_self) before
    have hSound :=
      (sound_fresh hCapacity).after hCapacity hRate hBefore
    exact ⟨hSound.nonneg, hSound.le_capacity⟩
  case refused =>
    intro before now later _ hRefused
    rw [after_concat]
    exact tryTake_of_refused _ hRefused
  case window =>
    intro s t hWindow
    rcases exists_metered_fresh hCapacity hRate hPositive
        hSorted with ⟨x, hMetered⟩
    rw [← spent_charges, seconds_sub]
    exact hMetered.spent_window hCapacity.le hRate
      ((seconds_le_iff s t).mpr hWindow)

end TokenBucket

------------------------------------------------------------
-- The Gate Of A Session
------------------------------------------------------------

namespace Session

variable {ω : Type}
variable {cfg : Config ω}
variable {s : Session}
variable {a : Action ω}
variable {history : List Int}

/-
  When a request that is handed over was let through: the
  reading of its `try_take`.
-/
def passedAt (s : Session) : Action ω → Option Int
  | .readBody _ .request => some s.requestBucket.lastRefill
  | _ => none

/- What the gate reads off the clock, if it is asked. -/
def gateReading
    (cfg : Config ω)
    (s : Session) : Action ω → Option Int
  | .readHeader now =>
      if metered cfg.limits (s.nextHeader cfg) then some now
      else none
  | _ => none

/- The gate's readings are positive and never decrease. -/
def SteadyClock
    (cfg : Config ω)
    (x : Session × List Int)
    (a : Action ω) : Prop :=
  ∀ now ∈ gateReading cfg x.1 a,
    0 < now ∧ x.1.requestBucket.lastRefill ≤ now

instance
    (cfg : Config ω)
    (x : Session × List Int)
    (a : Action ω) : Decidable (SteadyClock cfg x a) :=
  inferInstanceAs (Decidable (∀ now ∈ _, _))

/- Sessions of such runs with when their requests passed. -/
abbrev Clocked
    (cfg : Config ω)
    (s : Session)
    (history : List Int) : Prop :=
  Transition.ReachableBy
    (Transition.observed (step cfg) passedAt)
    (SteadyClock cfg) (start cfg, []) (s, history)

/- When the request whose body is being read passed. -/
def admittedAt (s : Session) : List Int :=
  match s.reader with
  | .body _ .request => [s.requestBucket.lastRefill]
  | _ => []

def spawnedRequests (s : Session) : Nat :=
  s.requests.countP fun request => request.verdict = .spawned

/- The bucket after its readings, and who passed it. -/
structure Gate
    (cfg : Config ω)
    (s : Session)
    (history readings : List Int) : Prop where
  dated :
    ∀ now ∈ readings,
      0 < now ∧ now ≤ s.requestBucket.lastRefill
  sorted : readings.Pairwise (· ≤ ·)
  bucket :
    s.requestBucket = cfg.limits.requestBucket.after readings
  passed :
    (history ++ s.admittedAt).Sublist
      (cfg.limits.requestBucket.granted readings)
  handed : history.length = s.spawnedRequests

/- The bucket lets a request through, and no other frame. -/
theorem intake_request
    {limits : SessionLimits}
    {header : Header}
    (hMetered : metered limits header = true)
    (granted : Bool) :
    intake limits granted header =
      if granted then .read .request else .read .limited := by
  simp only [metered, Bool.and_eq_true, decide_eq_true_eq,
    Bool.not_eq_true', decide_eq_false_iff_not] at hMetered
  rcases hMetered with ⟨⟨hMagic, hType⟩, hSize⟩
  simp [intake, hMagic, hType, hSize]

theorem intake_other
    {limits : SessionLimits}
    {header : Header}
    (hNot : metered limits header = false)
    (granted : Bool) :
    intake limits granted header ≠ .read .request := by
  intro hRead
  by_cases hMagic : header.magic = magicHeaderNumber
  · cases hType : header.incomingType with
    | none => simp [intake, hMagic, hType] at hRead
    | some type =>
        cases type with
        | request =>
            by_cases hSize :
                header.msgSize > limits.maxMessageBytes
            · simp [intake, hMagic, hType, hSize] at hRead
            · simp [metered, hMagic, hType, hSize] at hNot
        | error =>
            simp only [intake, hMagic, hType, ne_eq, not_true,
              if_false] at hRead
            split at hRead
            · split at hRead <;> cases hRead
            · cases hRead
        | response | notification =>
            simp only [intake, hMagic, hType, ne_eq, not_true,
              if_false] at hRead
            split at hRead <;> cases hRead
        | nop | ping | pong =>
            simp [intake, hMagic, hType] at hRead
  · simp [intake, hMagic] at hRead

/- What a header leaves of the bucket and in the reader. -/
theorem admittedAt_readHeader
    (rid ord : Nat)
    (header : Header)
    (kind : Intake)
    (hReader : s.reader = afterHeader rid ord header kind) :
    s.admittedAt =
      if kind = .read .request then
        [s.requestBucket.lastRefill]
      else
        [] := by
  unfold admittedAt
  rw [hReader]
  cases kind with
  | read use => cases use <;> rfl
  | _ => rfl

theorem admittedAt_readBody
    (s : Session)
    (header : Header)
    (use : BodyUse) :
    (s.update cfg (.readBody header use)).admittedAt =
      [] := by
  simp only [update, admittedAt]
  cases use <;> rfl

namespace Gate

variable {readings : List Int}

/- A step of the reader that takes a header. -/
theorem readHeader
    (hGate : Gate cfg s history readings)
    {now : Int}
    (hReader : s.reader = .header)
    (hSteady :
      metered cfg.limits (s.nextHeader cfg) = true →
        0 < now ∧ s.requestBucket.lastRefill ≤ now) :
    ∃ readings',
      Gate cfg (s.update cfg (.readHeader now)) history
        readings' := by
  have hNone : s.admittedAt = [] := by
    simp [admittedAt, hReader]
  have hPassed := hGate.passed
  rw [hNone, List.append_nil] at hPassed
  have hHanded :
      history.length =
        (s.update cfg (.readHeader now)).spawnedRequests := by
    rw [hGate.handed, spawnedRequests, spawnedRequests]
    simp only [update, List.countP_append]
    cases s.nextIntake cfg now <;> rfl
  have hAdmitted :=
    admittedAt_readHeader
      (s := s.update cfg (.readHeader now)) _ _ _ _ rfl
  cases hMetered :
      metered cfg.limits (s.nextHeader cfg) with
  | true =>
      rcases hSteady hMetered with ⟨hPositive, hOrder⟩
      have hBucket :
          (s.update cfg (.readHeader now)).requestBucket =
            (s.requestBucket.tryTake now).1 := by
        simp [update, nextBucket, hMetered]
      have hLast :
          (s.update cfg
            (.readHeader now)).requestBucket.lastRefill =
            now := by
        rw [hBucket, TokenBucket.lastRefill_tryTake]
      have hKind :
          s.nextIntake cfg now =
            if (s.requestBucket.tryTake now).2 then
              .read .request
            else
              .read .limited := by
        simp only [nextIntake, nextBucket, hMetered, if_true]
        exact intake_request hMetered _
      refine ⟨readings ++ [now], ?_⟩
      constructor
      case dated =>
        intro reading hMem
        rw [hLast]
        rcases List.mem_append.mp hMem with hOld | hNew
        · rcases hGate.dated reading hOld with ⟨hPos, hLe⟩
          exact ⟨hPos, hLe.trans hOrder⟩
        · rw [List.mem_singleton.mp hNew]
          exact ⟨hPositive, le_refl now⟩
      case sorted =>
        apply List.pairwise_append.mpr
        refine ⟨hGate.sorted, List.pairwise_singleton _ _, ?_⟩
        intro reading hMem later hLater
        rw [List.mem_singleton.mp hLater]
        exact (hGate.dated reading hMem).2.trans hOrder
      case bucket =>
        rw [hBucket, TokenBucket.after_concat, hGate.bucket]
      case passed =>
        rw [hAdmitted, hLast, TokenBucket.granted_concat,
          ← hGate.bucket, hKind]
        refine hPassed.append ?_
        cases (s.requestBucket.tryTake now).2 <;> simp
      case handed => exact hHanded
  | false =>
      have hBucket :
          (s.update cfg (.readHeader now)).requestBucket =
            s.requestBucket := by
        simp [update, nextBucket, hMetered]
      have hKind : s.nextIntake cfg now ≠ .read .request :=
        intake_other hMetered _
      refine ⟨readings, ?_⟩
      constructor
      case dated => rw [hBucket]; exact hGate.dated
      case sorted => exact hGate.sorted
      case bucket => rw [hBucket]; exact hGate.bucket
      case passed =>
        rw [hAdmitted, if_neg hKind, List.append_nil]
        exact hPassed
      case handed => exact hHanded

/- A body read for a request is handed over, once. -/
theorem readBody
    (hGate : Gate cfg s history readings)
    {header : Header}
    {use : BodyUse}
    (hReader : s.reader = .body header use) :
    Gate cfg (s.update cfg (.readBody header use))
      (history ++
        (passedAt s
          (.readBody header use : Action ω)).toList)
      readings := by
  constructor
  case dated => exact hGate.dated
  case sorted => exact hGate.sorted
  case bucket => exact hGate.bucket
  case passed =>
    rw [admittedAt_readBody, List.append_nil]
    refine List.Sublist.trans ?_ hGate.passed
    apply List.Sublist.append_left
    cases use with
    | request => simp [passedAt, admittedAt, hReader]
    | _ => exact List.nil_sublist _
  case handed =>
    rw [List.length_append, hGate.handed]
    simp only [spawnedRequests, update, List.countP_append]
    cases use <;> rfl

/- A step that leaves the gate. -/
theorem frame
    (hGate : Gate cfg s history readings)
    {s' : Session}
    (hBucket : s'.requestBucket = s.requestBucket)
    (hAdmitted : s'.admittedAt.Sublist s.admittedAt)
    (hSpawned : s'.spawnedRequests = s.spawnedRequests) :
    Gate cfg s' (history ++ []) readings := by
  rw [List.append_nil]
  constructor
  case dated => rw [hBucket]; exact hGate.dated
  case sorted => exact hGate.sorted
  case bucket => rw [hBucket]; exact hGate.bucket
  case passed =>
    exact (hAdmitted.append_left history).trans hGate.passed
  case handed => rw [hSpawned]; exact hGate.handed

end Gate

/- A request that moves on keeps its verdict. -/
theorem spawnedRequests_modify
    (requests : List Request)
    (rid : Nat)
    (pc : Request → RequestPc) :
    (requests.modify rid fun request =>
        { request with pc := pc request }).countP
      (fun request => request.verdict = .spawned) =
      requests.countP fun request =>
        request.verdict = .spawned :=
  Records.countP_modify_of_eq fun _ _ => rfl

/- Only a header changes the bucket. -/
theorem requestBucket_update
    (hNot : ∀ now, a ≠ .readHeader now) :
    (s.update cfg a).requestBucket = s.requestBucket := by
  cases a with
  | readHeader now => exact absurd rfl (hNot now)
  | _ => rfl

/- Only a header adds a request whose body is to be read. -/
theorem admittedAt_update
    (hNot : ∀ now, a ≠ .readHeader now) :
    (s.update cfg a).admittedAt.Sublist s.admittedAt := by
  cases a with
  | readHeader now => exact absurd rfl (hNot now)
  | readBody header use =>
      rw [admittedAt_readBody]
      exact List.nil_sublist _
  | sendPong | readFail | resumeResult i =>
      exact List.nil_sublist _
  | findOperation token result =>
      simp only [update, admittedAt]
      cases s.channels.lookup token <;>
        exact List.nil_sublist _
  | sendResult i result =>
      by_cases hOpen :
          ∃ call ∈ s.calls[i]?, call.channel.isOpen = true
      · simp only [update, admittedAt, if_pos hOpen]
        exact List.nil_sublist _
      · simp only [update, admittedAt, if_neg hOpen]
        exact List.nil_sublist _
  | rejectRequest rid header closes =>
      simp only [update, admittedAt]
      cases s.writeChannel.isOpen <;> exact List.nil_sublist _
  | resumeReject rid closes =>
      simp only [update, admittedAt]
      cases closes <;> exact List.nil_sublist _
  | readerClose again =>
      by_cases hIdle : s.teardown = .idle <;> cases again <;>
        simp [update, admittedAt, hIdle, ReaderPc.afterClose]
  | readerClosed again =>
      cases again <;> exact List.nil_sublist _
  | _ => exact .refl _

/- The gate is what its readings made of a fresh bucket. -/
theorem gateInv
    (hReach : Clocked cfg s history) :
    ∃ readings, Gate cfg s history readings := by
  refine Transition.observedInvariant
    (fun s history => ∃ readings, Gate cfg s history readings)
    ⟨[], by simp, .nil, rfl, .refl _, rfl⟩ ?_ hReach
  rintro s history a s' _ ⟨readings, hGate⟩ hOk hStep
  rcases (step_eq_some_iff cfg s s' a).mp hStep with
    ⟨hEnabled, rfl⟩
  have hFrame :
      (∀ now, a ≠ .readHeader now) →
        (s.update cfg a).spawnedRequests =
            s.spawnedRequests →
          Gate cfg (s.update cfg a) (history ++ [])
            readings := fun hNot hSpawned =>
    hGate.frame (requestBucket_update hNot)
      (admittedAt_update hNot) hSpawned
  cases a with
  | readHeader now =>
      simp only [passedAt, Option.toList_none,
        List.append_nil]
      refine hGate.readHeader hEnabled.1 fun hMetered => ?_
      exact hOk now (by simp [gateReading, hMetered])
  | readBody header use =>
      exact ⟨readings, hGate.readBody hEnabled.1⟩
  | rejectRequest rid header closes | resumeReject rid closes
  | startHandler rid header w | finishHandler rid w
  | sendReply rid header answer | resumeReply rid =>
      exact ⟨readings, hFrame (by simp)
        (spawnedRequests_modify _ _ _)⟩
  | _ => exact ⟨readings, hFrame (by simp) rfl⟩

/-
  Of the requests that a session hands over, at most a burst
  and what its rate adds were let through in a window.
-/
theorem requestsLimited
    (hReach : Clocked cfg s history)
    (hBurst : 0 < cfg.limits.requestBurst)
    (hRate : 0 ≤ cfg.limits.requestRatePs)
    {first last : Int}
    (hWindow : first ≤ last) :
    (history.countP
        (fun date => first ≤ date ∧ date ≤ last) : Rat) ≤
      cfg.limits.requestBurst +
        cfg.limits.requestRatePs *
          TokenBucket.seconds (last - first) := by
  rcases gateInv hReach with ⟨readings, hGate⟩
  have hPassed :
      history.countP
          (fun date => first ≤ date ∧ date ≤ last) ≤
        (cfg.limits.requestBucket.granted readings).countP
          (fun date => first ≤ date ∧ date ≤ last) :=
    ((List.sublist_append_left _ _).trans
      hGate.passed).countP_le
  have hLaw :=
    (TokenBucket.rateLaw hBurst hRate
      (fun now hMem => (hGate.dated now hMem).1)
      hGate.sorted).window first last hWindow
  exact (Nat.cast_le.mpr hPassed).trans hLaw

------------------------------------------------------------
-- When Requests Are Handed Over
------------------------------------------------------------

/- The clock reading that a step of the session takes. -/
def reading : Action ω → Option Int
  | .readHeader now => some now
  | _ => none

/-
  A step at a time no earlier than the last one's, whose
  clock reads that time.
-/
def timedStep
    (cfg : Config ω) :
    Session × Int → Action ω × Int → Option (Session × Int)
  | (s, now), (a, time) =>
      if now ≤ time ∧ ∀ clock ∈ reading a, clock = time then
        (step cfg s a).map fun s' => (s', time)
      else
        none

/-
  A request that is handed to the coroutine that calls the
  dispatcher: when it was let through, and the time now.
-/
def handedAt :
    Session × Int → Action ω × Int → Option (Int × Int)
  | (s, _), (.readBody _ .request, time) =>
      some (s.requestBucket.lastRefill, time)
  | _, _ => none

/- Sessions of such runs with their hand-overs. -/
abbrev Timed
    (cfg : Config ω)
    (s : Session)
    (now : Int)
    (history : List (Int × Int)) : Prop :=
  Transition.Reachable
    (Transition.observed (timedStep cfg) handedAt)
    ((start cfg, 1), []) ((s, now), history)

/- What is let through and handed over by now, in turn. -/
structure Paced
    (cfg : Config ω)
    (x : Session × Int)
    (history : List (Int × Int)) : Prop where
  clocked : Clocked cfg x.1 (history.map Prod.fst)
  positive : 0 < x.2
  current : x.1.requestBucket.lastRefill ≤ x.2
  past : ∀ date ∈ history, date.2 ≤ x.2
  pending :
    ∀ passed ∈ x.1.admittedAt, ∀ date ∈ history,
      date.2 ≤ passed
  inTurn : Metering.InTurn history

theorem timedStep_eq_some_iff
    {x y : Session × Int}
    {time : Int} :
    timedStep cfg x (a, time) = some y ↔
      (x.2 ≤ time ∧ ∀ clock ∈ reading a, clock = time) ∧
        x.1.Enabled a ∧ (x.1.update cfg a, time) = y := by
  simp only [timedStep, Option.ite_none_right_eq_some,
    Option.map_eq_some_iff, step_eq_some_iff]
  constructor
  · rintro ⟨hTime, s', ⟨hEnabled, rfl⟩, hNext⟩
    exact ⟨hTime, hEnabled, hNext⟩
  · rintro ⟨hTime, hEnabled, hNext⟩
    exact ⟨hTime, _, ⟨hEnabled, rfl⟩, hNext⟩

/- The request is one that was let through. -/
theorem passedAt_handedAt
    (x : Session × Int)
    (a : Action ω)
    (time : Int) :
    (handedAt x (a, time)).toList.map Prod.fst =
      (passedAt x.1 a).toList := by
  cases a with
  | readBody header use => cases use <;> rfl
  | _ => rfl

/- A clock that reads the time of the step is steady. -/
theorem steadyClock_of_reading
    {time : Int}
    (hReading : ∀ clock ∈ reading a, clock = time)
    (hPositive : 0 < time)
    (hCurrent : s.requestBucket.lastRefill ≤ time)
    (dates : List Int) :
    SteadyClock cfg (s, dates) a := by
  intro clock hMem
  cases a with
  | readHeader now =>
      rcases hReading now rfl with rfl
      simp only [gateReading, Option.mem_def,
        Option.ite_none_right_eq_some] at hMem
      rcases hMem with ⟨-, hNow⟩
      rcases Option.some.inj hNow with rfl
      exact ⟨hPositive, hCurrent⟩
  | _ => simp [gateReading] at hMem

/- What a header leaves in the bucket is no newer than it. -/
theorem lastRefill_readHeader
    {now : Int}
    (hCurrent : s.requestBucket.lastRefill ≤ now) :
    (s.update cfg
      (.readHeader now)).requestBucket.lastRefill ≤ now := by
  simp only [update, nextBucket]
  split
  · rw [TokenBucket.lastRefill_tryTake]
  · exact hCurrent

/- A request let through by a header was let through now. -/
theorem eq_of_admittedAt_readHeader
    {now : Int}
    {passed : Int}
    (hMem :
      passed ∈
        (s.update cfg (.readHeader now)).admittedAt) :
    passed = now := by
  rw [admittedAt_readHeader
    (s := s.update cfg (.readHeader now)) _ _ _ _ rfl] at hMem
  split at hMem
  · case isTrue hRead =>
      have hMetered :
          metered cfg.limits (s.nextHeader cfg) = true := by
        by_contra hNot
        exact intake_other (Bool.not_eq_true _ ▸ hNot) _ hRead
      rw [List.mem_singleton.mp hMem]
      simp only [update, nextBucket, hMetered, if_true,
        TokenBucket.lastRefill_tryTake]
  · cases hMem

theorem paced
    {now : Int}
    {history : List (Int × Int)}
    (hReach : Timed cfg s now history) :
    Paced cfg (s, now) history := by
  refine Transition.observedInvariant (Paced cfg)
    ⟨.start, Int.zero_lt_one, Int.zero_le_ofNat 1, by simp,
      by simp, ⟨by simp, .nil⟩⟩ ?_ hReach
  rintro ⟨s, now⟩ history ⟨a, time⟩ y _ hPaced - hStep
  rcases timedStep_eq_some_iff.mp hStep with
    ⟨⟨hOrder, hReading⟩, hEnabled, rfl⟩
  have hPositive : 0 < time :=
    hPaced.positive.trans_le hOrder
  have hCurrent : s.requestBucket.lastRefill ≤ time :=
    hPaced.current.trans hOrder
  have hPast : ∀ date ∈ history, date.2 ≤ time :=
    fun date hMem => (hPaced.past date hMem).trans hOrder
  have hClocked :
      Clocked cfg (s.update cfg a)
        ((history ++
          (handedAt (s, now) (a, time)).toList).map
          Prod.fst) := by
    refine hPaced.clocked.next
      (steadyClock_of_reading hReading hPositive hCurrent _)
      (Transition.observed_eq_some_iff.mpr
        ⟨(step_eq_some_iff cfg s _ a).mpr ⟨hEnabled, rfl⟩,
          ?_⟩)
    rw [List.map_append, passedAt_handedAt]
  -- A step that hands nothing over.
  have hQuiet :
      handedAt (s, now) (a, time) = none →
        (s.update cfg a).requestBucket.lastRefill ≤ time →
          (∀ passed ∈ (s.update cfg a).admittedAt,
            passed = time ∨ passed ∈ s.admittedAt) →
            Paced cfg (s.update cfg a, time)
              (history ++
                (handedAt (s, now) (a, time)).toList) := by
    intro hNone hBucket hAdmitted
    rw [History.append_unseen hNone] at hClocked ⊢
    constructor
    case clocked => exact hClocked
    case positive => exact hPositive
    case current => exact hBucket
    case past => exact hPast
    case pending =>
      intro passed hMem date hDate
      rcases hAdmitted passed hMem with hNow | hOld
      · exact hNow ▸ hPast date hDate
      · exact hPaced.pending passed hOld date hDate
    case inTurn => exact hPaced.inTurn
  cases a with
  | readHeader clock =>
      rcases hReading clock rfl with rfl
      exact hQuiet rfl (lastRefill_readHeader hCurrent)
        fun passed hMem =>
          .inl (eq_of_admittedAt_readHeader hMem)
  | readBody header use =>
      have hReader : s.reader = .body header use := hEnabled.1
      cases use with
      | request =>
          constructor
          case clocked => exact hClocked
          case positive => exact hPositive
          case current => exact hCurrent
          case past =>
            intro date hMem
            rcases List.mem_append.mp hMem with hOld | hNew
            · exact hPast date hOld
            · rw [List.mem_singleton.mp hNew]
          case pending =>
            rw [admittedAt_readBody]
            intro passed hMem
            cases hMem
          case inTurn =>
            refine hPaced.inTurn.concat hCurrent ?_
            refine hPaced.pending _ ?_
            simp [admittedAt, hReader]
      | _ =>
          refine hQuiet rfl hCurrent ?_
          rw [admittedAt_readBody]
          intro passed hMem
          cases hMem
  | _ =>
      exact hQuiet rfl hCurrent fun passed hMem =>
        .inr ((admittedAt_update (by simp)).subset hMem)

/-
  The law of a fresh bucket at steady readings, and what it
  means for the requests that a session hands over: each is
  dated once, those let through in a window are no more than
  the limits allow, and those handed over in it are at most
  one more.
-/
theorem rateLimited
    (ω : Type) :
    (∀ (c r : Rat) (readings : List Int),
      0 < c →
      0 ≤ r →
      (∀ now ∈ readings, 0 < now) →
      readings.Pairwise (· ≤ ·) →
      TokenBucket.RateLaw c r readings) ∧
    ∀ (cfg : Config ω) (s : Session) (now : Int)
        (history : List (Int × Int)),
      Timed cfg s now history →
      0 < cfg.limits.requestBurst →
      0 ≤ cfg.limits.requestRatePs →
      history.length = s.spawnedRequests ∧
      ∀ first last : Int, first ≤ last →
        (history.countP
            (fun date =>
              first ≤ date.1 ∧ date.1 ≤ last) : Rat) ≤
          cfg.limits.requestBurst +
            cfg.limits.requestRatePs *
              TokenBucket.seconds (last - first) ∧
        (history.countP
            (fun date =>
              first ≤ date.2 ∧ date.2 ≤ last) : Rat) ≤
          cfg.limits.requestBurst +
              cfg.limits.requestRatePs *
                TokenBucket.seconds (last - first) +
            1 := by
  constructor
  · intro c r readings hCapacity hRate hPositive hSorted
    exact TokenBucket.rateLaw hCapacity hRate hPositive hSorted
  · intro cfg s now history hReach hBurst hRate
    have hPaced := paced hReach
    rcases gateInv hPaced.clocked with ⟨readings, hGate⟩
    have hHanded := hGate.handed
    rw [List.length_map] at hHanded
    refine ⟨hHanded, fun first last hWindow => ?_⟩
    have hPassed := requestsLimited hPaced.clocked hBurst
      hRate hWindow
    rw [List.countP_map] at hPassed
    have hLate : (history.countP _ : Rat) ≤ _ :=
      Nat.cast_le.mpr
        (hPaced.inTurn.countP_snd_le first last)
    rw [Nat.cast_add, Nat.cast_one] at hLate
    exact ⟨hPassed,
      hLate.trans (add_le_add_left hPassed 1)⟩

/- A burst of one, and one request more each second. -/
def onePerSecond : Config Unit :=
  { guarded true with
    limits := { requestBurst := 1, requestRatePs := 1 } }

/- A request for `wipe` with a body of one byte. -/
def bodied : Header :=
  frameHeader .request wipeId 1 wiped

/-
  A request is let through after one second, and its body
  arrives after two, with another request. Both are handed
  over then.
-/
def lateBody : List (Action Unit × Int) :=
  [(.deliver (bodied.toBytes .little), 1000000000),
    (.readHeader 1000000000, 1000000000),
    (.deliver (wiped.bytes ++
      (wipeHeader 2).toBytes .little), 2000000000),
    (.readBody bodied .request, 2000000000),
    (.readHeader 2000000000, 2000000000),
    (.readBody (wipeHeader 2) .request, 2000000000)]

theorem rateLimited_onePerSecond :
    TokenBucket.RateLaw 1 1 [1, 2] ∧
    ∃ (s : Session) (now : Int) (history : List (Int × Int)),
      Timed onePerSecond s now history ∧
        history =
          [(1000000000, 2000000000),
            (2000000000, 2000000000)] ∧
        history.length = s.spawnedRequests ∧
        (history.countP
            (fun date => 2000000000 ≤ date.2 ∧
              date.2 ≤ 2000000000) : Rat) ≤
          1 + 1 * TokenBucket.seconds 0 + 1 := by
  refine ⟨(rateLimited Unit).1 1 1 [1, 2] (by decide +kernel)
    (by decide +kernel) (by decide) (by decide), ?_⟩
  obtain ⟨⟨⟨s, now⟩, history⟩, hReach, hRun⟩ :=
    Transition.exists_of_run
      (Transition.observed (timedStep onePerSecond) handedAt)
      ((start onePerSecond, 1), []) lateBody
      (fun x =>
        decide (x.2 =
          [(1000000000, 2000000000),
            (2000000000, 2000000000)]))
      (by decide +kernel)
  rcases (rateLimited Unit).2 onePerSecond s now history
      hReach (by decide +kernel) (by decide +kernel) with
    ⟨hDated, hLimited⟩
  exact ⟨s, now, history, hReach, of_decide_eq_true hRun,
    hDated, (hLimited 2000000000 2000000000 le_rfl).2⟩

/- At one moment it hands over more than a burst. -/
theorem late_body_handed :
    ∃ (s : Session) (now : Int) (history : List (Int × Int)),
      Timed onePerSecond s now history ∧
        ¬ (history.countP
            (fun date => 2000000000 ≤ date.2 ∧
              date.2 ≤ 2000000000) : Rat) ≤
          onePerSecond.limits.requestBurst +
            onePerSecond.limits.requestRatePs *
              TokenBucket.seconds
                (2000000000 - 2000000000) := by
  obtain ⟨⟨⟨s, now⟩, history⟩, hReach, hRun⟩ :=
    Transition.exists_of_run
      (Transition.observed (timedStep onePerSecond) handedAt)
      ((start onePerSecond, 1), []) lateBody
      (fun x =>
        decide (x.2.countP
          (fun date => 2000000000 ≤ date.2 ∧
            date.2 ≤ 2000000000) = 2))
      (by decide +kernel)
  refine ⟨s, now, history, hReach, ?_⟩
  rw [of_decide_eq_true hRun]
  decide +kernel

end Session

end GrlxRpc
