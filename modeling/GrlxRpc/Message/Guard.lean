import GrlxRpc.Message.Archive

/-
  What the size check of the bounded archive does.

  Elements that were loaded have been paid for with bytes of
  the frame. Containers that were still open when a decode
  failed are nested in each other, and each of them was
  resized to at most the frame's size and the slack of the
  check. A size that the check turns away could not have
  been paid for, so the check changes no success.

  Main declarations:
    * `InputArchive.Over`
    * `WireType.pays_load` and `WireType.limits_load`
    * `resizes_sum_le`
    * `decodeMessage_bounded_iff`
-/

------------------------------------------------------------
-- Bytes Left
------------------------------------------------------------

namespace GrlxRpc

open InPlace

namespace InputArchive

/- An archive over a frame of `n` bytes. -/
structure Over
    (n : Nat)
    (archive : InputArchive) : Prop where
  length : archive.bytes.length = n
  total : archive.total = n
  pos_le : archive.pos ≤ n

variable {n : Nat}
variable {kind : ArchiveKind}
variable {order : ByteOrder}
variable {archive archive' : InputArchive}

theorem Over.moved
    (hOver : archive.Over n)
    {count : Nat}
    (hLeft : count ≤ archive.left) :
    (archive.moved count).Over n ∧
      count + (archive.moved count).left = archive.left := by
  have hLength := hOver.length
  have hPos := hOver.pos_le
  simp only [left] at hLeft
  constructor
  · exact
      { length := hOver.length
        total := hOver.total
        pos_le := by
          simp only [InputArchive.moved]
          omega }
  · simp only [left, InputArchive.moved]
    omega

theorem Over.remainingBytes
    (hOver : archive.Over n) :
    archive.remainingBytes = archive.left := by
  simp only [InputArchive.remainingBytes, left,
    hOver.total, hOver.length]
  split
  · rfl
  · omega

section Binary

variable {α : Type}
variable {load : Loader InputArchive α}

/- Reading memory from the archive pays for its bytes. -/
theorem pays_of_loadBinary
    {dataSize : Nat}
    {memory : α → List UInt8}
    (hResized :
      ∀ archive object, (load archive object).resized = [])
    (hRest :
      ∀ archive object,
        (load archive object).rest =
          (archive.loadBinary dataSize (memory object)).2) :
    Loader.Pays (Over n) left load
      fun object => (memory object).length := by
  intro archive object archive' hOver hDone
  rw [hRest] at hDone
  rcases loadBinary_eq_some_iff.mp hDone with ⟨hLeft, rfl⟩
  rcases hOver.moved hLeft with ⟨hOver', hPaid⟩
  rw [hResized, List.sum_nil, Nat.zero_add]
  exact ⟨hOver', Nat.le_of_eq hPaid⟩

theorem limits_of_resized_nil
    (hResized :
      ∀ archive object, (load archive object).resized = []) :
    Loader.Limits (Over n) left load 0 := by
  intro archive object _ _
  rw [hResized]
  exact Nat.zero_le _

end Binary

theorem pays_loadNumber
    {size : Nat}
    (hSize : 0 < size) :
    Loader.Pays (Over n) left (loadNumber order size)
      fun _ => 1 := by
  have hPays :
      Loader.Pays (Over n) left (loadNumber order size)
        fun number => (order.toBytes number).length :=
    pays_of_loadBinary (fun _ _ => rfl) fun _ _ => rfl
  apply hPays.mono
  intro number
  rw [ByteOrder.length_toBytes]
  exact hSize

theorem pays_loadData
    {size : Nat}
    (hSize : 0 < size) :
    Loader.Pays (Over n) left (loadData order size)
      List.length := by
  have hPays :
      Loader.Pays (Over n) left (loadData order size)
        fun numbers =>
          (numbers.flatMap order.toBytes).length :=
    pays_of_loadBinary (fun _ _ => rfl) fun _ _ => rfl
  apply hPays.mono
  intro numbers
  simp only [List.length_flatMap, ByteOrder.length_toBytes,
    List.map_const', List.sum_replicate_nat]
  exact Nat.le_mul_of_pos_right _ hSize

theorem pays_loadText :
    Loader.Pays (Over n) left loadText List.length :=
  pays_of_loadBinary (fun _ _ => rfl) fun _ _ => rfl

------------------------------------------------------------
-- Size Tags
------------------------------------------------------------

theorem loadSize_eq_some_iff
    {count : Nat} :
    loadSize kind order archive = some (count, archive') ↔
      ∃ size,
        loadUInt64 order archive 0 = (size, some archive') ∧
          acceptsSize kind archive' size = true ∧
          size.toNat = count := by
  unfold loadSize
  rcases loadUInt64 order archive 0 with ⟨size, rest⟩
  cases rest with
  | none => simp
  | some rest =>
      by_cases hAccepts : acceptsSize kind rest size = true
      · simp only [hAccepts, if_true, Option.some.injEq,
          Prod.mk.injEq]
        constructor
        · rintro ⟨rfl, rfl⟩
          exact ⟨size, ⟨rfl, rfl⟩, hAccepts, rfl⟩
        · rintro ⟨size', ⟨rfl, rfl⟩, _, rfl⟩
          exact ⟨rfl, rfl⟩
      · simp only [hAccepts, Prod.mk.injEq, Option.some.injEq]
        constructor
        · intro hNone
          cases hNone
        · rintro ⟨size', ⟨rfl, rfl⟩, hAccepts', _⟩
          exact absurd hAccepts' hAccepts

/- A size takes eight bytes. -/
theorem readsSize_loadSize :
    Loader.ReadsSize (Over n) left (loadSize kind order) := by
  intro archive count archive' hOver hSize
  rcases loadSize_eq_some_iff.mp hSize with ⟨size, hLoad, _⟩
  have hRest :
      (archive.loadBinary 8 (order.encode 0)).2 =
        some archive' :=
    congrArg Prod.snd hLoad
  rcases loadBinary_eq_some_iff.mp hRest with ⟨hLeft, rfl⟩
  rcases hOver.moved hLeft with ⟨hOver', hPaid⟩
  rw [ByteOrder.length_encode] at hOver' hPaid ⊢
  exact ⟨hOver', by omega⟩

/- The check lets through sizes that the frame backs. -/
theorem acceptsSize_bounded_iff
    (hPos : 0 < n)
    (hOver : archive.Over n)
    (size : UInt64) :
    acceptsSize .bounded archive size = true ↔
      size.toNat ≤ archive.left + 64 := by
  have hBounded : archive.bounded = true := by
    simpa [bounded, hOver.total] using hPos
  simp [acceptsSize, hBounded, hOver.remainingBytes]

/- An accepted size is at most the frame's and the slack. -/
theorem count_le_of_loadSize
    (hPos : 0 < n)
    (archive : InputArchive)
    (count : Nat)
    (archive' : InputArchive)
    (hOver : archive.Over n)
    (hSize :
      loadSize .bounded order archive =
        some (count, archive')) :
    count ≤ n + 64 := by
  have hOver' := (readsSize_loadSize _ _ _ hOver hSize).1
  rcases loadSize_eq_some_iff.mp hSize with
    ⟨size, _, hAccepts, rfl⟩
  rw [acceptsSize_bounded_iff hPos hOver'] at hAccepts
  have hLength := hOver'.length
  simp only [left] at hAccepts
  omega

/- The check only turns sizes away. -/
theorem loadSize_portable_of_bounded
    (archive : InputArchive)
    (sized : Nat × InputArchive)
    (hSize : loadSize .bounded order archive = some sized) :
    loadSize .portable order archive = some sized := by
  rcases loadSize_eq_some_iff.mp hSize with
    ⟨size, hLoad, _, hCount⟩
  exact loadSize_eq_some_iff.mpr ⟨size, hLoad, rfl, hCount⟩

/- It turns away no size that the frame can pay for. -/
theorem loadSize_bounded_of_portable
    (hPos : 0 < n)
    (archive : InputArchive)
    (count : Nat)
    (archive' : InputArchive)
    (hOver : archive.Over n)
    (hSize :
      loadSize .portable order archive =
        some (count, archive'))
    (hRoom : count ≤ archive'.left) :
    loadSize .bounded order archive =
      some (count, archive') := by
  have hOver' := (readsSize_loadSize _ _ _ hOver hSize).1
  rcases loadSize_eq_some_iff.mp hSize with
    ⟨size, hLoad, _, rfl⟩
  refine loadSize_eq_some_iff.mpr ⟨size, hLoad, ?_, rfl⟩
  rw [acceptsSize_bounded_iff hPos hOver']
  omega

end InputArchive

------------------------------------------------------------
-- Every Type
------------------------------------------------------------

namespace WireType

open InputArchive

variable {n : Nat}
variable (kind : ArchiveKind)
variable (order : ByteOrder)

theorem pays_loadElements
    {element : WireType}
    (hOccupies : element.occupies = true)
    (hLoad :
      Loader.Pays (Over n) left (element.load kind order)
        fun _ => element.occupies.toNat) :
    Loader.Pays (Over n) left
      (element.loadElements order (element.load kind order))
      List.length := by
  rw [hOccupies] at hLoad
  cases element with
  | arithmetic type =>
      cases type with
      | bool => exact hLoad.each
      | number size size_pos => exact pays_loadData size_pos
  | string => exact hLoad.each
  | vector element => exact hLoad.each
  | pair first second => exact hLoad.each
  | unit => exact hLoad.each

/- A loaded value has paid for the elements inside it. -/
theorem pays_load
    (type : WireType)
    (hBacked : type.Backed) :
    Loader.Pays (Over n) left (type.load kind order)
      fun _ => type.occupies.toNat := by
  induction type with
  | arithmetic type => exact pays_loadNumber type.size_pos
  | string => exact pays_loadText.container readsSize_loadSize 0
  | vector element ih =>
      have hElements :=
        pays_loadElements kind order hBacked.1 (ih hBacked.2)
      exact hElements.container readsSize_loadSize
        element.initial
  | pair first second ihFirst ihSecond =>
      have hPays :=
        (ihFirst hBacked.1).andThen (ihSecond hBacked.2)
      apply hPays.mono
      intro _
      cases hFirst : first.occupies <;>
        cases hSecond : second.occupies <;>
        simp [occupies, hFirst, hSecond]
  | unit => exact Loader.pays_unit

theorem limits_loadElements
    {element : WireType}
    (hBacked : element.Backed)
    {slack : Nat}
    (hLoad :
      Loader.Limits (Over n) left (element.load kind order)
        slack) :
    Loader.Limits (Over n) left
      (element.loadElements order (element.load kind order))
      slack := by
  have hPays :
      Loader.Pays (Over n) left (element.load kind order) _ :=
    pays_load kind order element hBacked
  cases element with
  | arithmetic type =>
      cases type with
      | bool => exact hLoad.each hPays
      | number size size_pos =>
          have hNone :
              Loader.Limits (Over n) left
                (loadData order size) 0 :=
            limits_of_resized_nil fun _ _ => rfl
          exact hNone.mono (Nat.zero_le _)
  | string => exact hLoad.each hPays
  | vector element => exact hLoad.each hPays
  | pair first second => exact hLoad.each hPays
  | unit => exact hLoad.each hPays

/-
  A value that failed to load is short by one frame and the
  slack for each container that was open.
-/
theorem limits_load
    (hPos : 0 < n)
    (type : WireType)
    (hBacked : type.Backed) :
    Loader.Limits (Over n) left (type.load .bounded order)
      (type.depth * (n + 64)) := by
  induction type with
  | arithmetic type =>
      rw [depth, Nat.zero_mul]
      exact limits_of_resized_nil fun _ _ => rfl
  | string =>
      have hText :
          Loader.Limits (Over n) left loadText 0 :=
        limits_of_resized_nil fun _ _ => rfl
      rw [depth, Nat.one_mul]
      exact hText.container readsSize_loadSize
        (count_le_of_loadSize hPos) 0
  | vector element ih =>
      have hElements :=
        limits_loadElements .bounded order hBacked.2
          (ih hBacked.2)
      rw [depth, Nat.succ_mul, Nat.add_comm]
      exact hElements.container readsSize_loadSize
        (count_le_of_loadSize hPos) element.initial
  | pair first second ihFirst ihSecond =>
      have hFirst :
          first.depth * (n + 64) ≤
            max first.depth second.depth * (n + 64) :=
        Nat.mul_le_mul_right _ (Nat.le_max_left _ _)
      have hSecond :
          second.depth * (n + 64) ≤
            max first.depth second.depth * (n + 64) :=
        Nat.mul_le_mul_right _ (Nat.le_max_right _ _)
      exact
        ((ihFirst hBacked.1).mono hFirst).andThen
          (pays_load .bounded order first hBacked.1)
          ((ihSecond hBacked.2).mono hSecond)
  | unit =>
      rw [depth, Nat.zero_mul]
      exact Loader.limits_unit

theorem agrees_loadElements
    {element : WireType}
    (hBacked : element.Backed)
    (hLoad :
      Loader.Agrees (Over n) (element.load .bounded order)
        (element.load .portable order)) :
    Loader.Agrees (Over n)
      (element.loadElements order
        (element.load .bounded order))
      (element.loadElements order
        (element.load .portable order)) := by
  have hPays :
      Loader.Pays (Over n) left
        (element.load .portable order) _ :=
    pays_load .portable order element hBacked
  cases element with
  | arithmetic type =>
      cases type with
      | bool => exact hLoad.each hPays
      | number size size_pos => exact Loader.Agrees.refl _
  | string => exact hLoad.each hPays
  | vector element => exact hLoad.each hPays
  | pair first second => exact hLoad.each hPays
  | unit => exact hLoad.each hPays

/- Both archives load the same values. -/
theorem agrees_load
    (hPos : 0 < n)
    (type : WireType)
    (hBacked : type.Backed) :
    Loader.Agrees (Over n) (type.load .bounded order)
      (type.load .portable order) := by
  induction type with
  | arithmetic type => exact Loader.Agrees.refl _
  | string =>
      exact Loader.Agrees.container readsSize_loadSize
        loadSize_portable_of_bounded
        (loadSize_bounded_of_portable hPos)
        (Loader.Agrees.refl loadText) pays_loadText 0
  | vector element ih =>
      exact Loader.Agrees.container readsSize_loadSize
        loadSize_portable_of_bounded
        (loadSize_bounded_of_portable hPos)
        (agrees_loadElements order hBacked.2 (ih hBacked.2))
        (pays_loadElements .portable order hBacked.1
          (pays_load .portable order element hBacked.2))
        element.initial
  | pair first second ihFirst ihSecond =>
      exact (ihFirst hBacked.1).andThen
        (pays_load .portable order first hBacked.1)
        (ihSecond hBacked.2)
  | unit => exact Loader.Agrees.refl _

end WireType

------------------------------------------------------------
-- Whole Frames
------------------------------------------------------------

/- The archive that the constructor leaves over a frame. -/
theorem over_of_make
    {order : ByteOrder}
    {bytes : List UInt8}
    {archive : InputArchive}
    (hMake : InputArchive.make order bytes = some archive) :
    archive.Over bytes.length := by
  cases bytes with
  | nil => cases hMake
  | cons byte body =>
      rw [InputArchive.make_cons] at hMake
      rcases Option.some.inj hMake with rfl
      exact ⟨rfl, rfl, Nat.le_add_left 1 _⟩

/-
  However hostile a frame of `n` bytes is, decoding it makes
  room for `n + d * (n + 64)` elements at most, `d` levels
  of containers being nested.
-/
theorem resizes_sum_le
    (order : ByteOrder)
    (message : Message)
    (hBacked : message.body.Backed)
    (buffer : Buffer)
    (hBytes : 0 < buffer.bytes.length)
    (object : message.body.Val) :
    (resizes order message buffer object).sum ≤
      buffer.bytes.length +
        message.body.depth * (buffer.bytes.length + 64) := by
  unfold resizes
  cases hMake : InputArchive.make order buffer.bytes with
  | none => exact Nat.zero_le _
  | some archive =>
      have hOver := over_of_make hMake
      have hLeft : archive.left ≤ buffer.bytes.length := by
        have hLength := hOver.length
        simp only [InputArchive.left]
        omega
      cases hRest :
          (message.body.load .bounded order archive
            object).rest with
      | some archive' =>
          have hPaid :=
            (message.body.pays_load .bounded order hBacked
              archive object archive' hOver hRest).2
          dsimp only
          omega
      | none =>
          have hShort :=
            message.body.limits_load order hBytes hBacked
              archive object hOver hRest
          dsimp only
          omega

/-
  The bounded archive decodes a frame to a value exactly
  when the portable archive does.
-/
theorem decodeMessage_bounded_iff
    (order : ByteOrder)
    (message : Message)
    (hBacked : message.body.Backed)
    (buffer : Buffer)
    (hBytes : 0 < buffer.bytes.length)
    (object value : message.body.Val) :
    decodeMessage .bounded order message buffer object =
        (value, true) ↔
      decodeMessage .portable order message buffer object =
        (value, true) := by
  simp only [decodeMessage, decode, gt_iff_lt, hBytes,
    if_true]
  cases hMake : InputArchive.make order buffer.bytes with
  | none => exact Iff.rfl
  | some archive =>
      have hAgrees :=
        message.body.agrees_load order hBytes hBacked
      rcases hAgrees.eq_or_none (over_of_make hMake) object
        with hEq | ⟨hNone, hNone'⟩
      · simp only [Load.ofLoader, hEq]
      · simp [Load.ofLoader, hNone, hNone']

/- A request whose argument is a vector of strings. -/
def texts : Message :=
  .request [.vector .string]

/-
  Three bytes and a size tag of 67: one string is announced
  for each byte that is left and for each of the slack.
-/
def hostileFrame : Buffer where
  bytes := [1, 67, 0, 0, 0, 0, 0, 0, 0, 200, 1, 0]
  size_lt := by decide

theorem resizes_sum_le_hostile :
    (resizes .little texts hostileFrame
        texts.body.initial).sum = 67 ∧
      67 ≤ 12 + 2 * (12 + 64) := by
  have hSum :
      (resizes .little texts hostileFrame
        texts.body.initial).sum = 67 := by
    decide +kernel
  have hLe :=
    resizes_sum_le .little texts
      ⟨⟨rfl, trivial⟩, trivial⟩ hostileFrame (by decide)
      texts.body.initial
  rw [hSum] at hLe
  exact ⟨hSum, hLe⟩

/- A frame with one text, and a byte that nobody reads. -/
def oneTextFrame : Buffer where
  bytes :=
    [1, 1, 0, 0, 0, 0, 0, 0, 0,
      2, 0, 0, 0, 0, 0, 0, 0, 111, 107, 9]
  size_lt := by decide

theorem decodeMessage_bounded_iff_oneText :
    decodeMessage .bounded .little texts oneTextFrame
        texts.body.initial = (([literal "ok"], ()), true) :=
  (decodeMessage_bounded_iff .little texts
    ⟨⟨rfl, trivial⟩, trivial⟩ oneTextFrame (by decide)
    texts.body.initial ([literal "ok"], ())).mpr
    (by decide +kernel)

end GrlxRpc
