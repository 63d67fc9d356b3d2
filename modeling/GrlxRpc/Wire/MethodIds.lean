import GrlxRpc.Lib.Folding
import GrlxRpc.Wire.StringHash

/-
  The ids of method names.

  However a name is hashed, its id is one fold over its
  characters, and the fold loses nothing: two names that
  differ in one character have different ids.

  The fold depends on the platform only where a character
  from 128 on is widened.

  Main declarations:
    * `FnvHash.cancels`
    * `FnvHash.nearNames`
    * `SameIds` and `sameIds_iff`
    * `sameIds_fails`
-/

------------------------------------------------------------
-- Widening A Character
------------------------------------------------------------

namespace GrlxRpc

namespace FnvHash

variable {w : Nat}

/- The low byte of a widened character is the character. -/
theorem setWidth_widen
    (hWide : 8 ≤ w)
    (charSigned : Bool)
    (c : UInt8) :
    (widen charSigned c : BitVec w).setWidth 8 =
      c.toBitVec := by
  cases charSigned with
  | true =>
      apply BitVec.eq_of_getLsbD_eq
      intro i hLt
      have hIn : i < w := by omega
      simp only [widen, if_true, BitVec.getLsbD_setWidth,
        BitVec.getLsbD_signExtend, hLt, hIn, decide_true,
        Bool.true_and]
  | false =>
      simp [widen, BitVec.setWidth_setWidth_of_le _ hWide]

theorem widen_injective
    (hWide : 8 ≤ w)
    (charSigned : Bool) :
    Function.Injective
      (widen charSigned : UInt8 → BitVec w) := by
  intro c c' hEq
  have hLow := congrArg (BitVec.setWidth 8) hEq
  rw [setWidth_widen hWide, setWidth_widen hWide] at hLow
  exact UInt8.toBitVec_inj.mp hLow

/- A character below 128 widens alike everywhere. -/
theorem widen_eq_of_lt
    {c : UInt8}
    (hLow : c < 128) :
    (widen true c : BitVec w) = widen false c := by
  have hSign : c.toBitVec.msb = false := by
    rw [BitVec.msb_eq_false_iff_two_mul_lt]
    have hNat : c.toNat < 128 := hLow
    simpa using (by omega : 2 * c.toNat < 2 ^ 8)
  simp [widen, BitVec.signExtend_eq_setWidth_of_msb_false,
    hSign]

/- Every other one widens differently. -/
theorem widen_ne_of_le
    (hWide : 9 ≤ w)
    {c : UInt8}
    (hHigh : 128 ≤ c) :
    (widen true c : BitVec w) ≠ widen false c := by
  have hSign : c.toBitVec.msb = true := by
    rw [BitVec.msb_eq_true_iff_two_mul_ge]
    have hNat : 128 ≤ c.toNat := hHigh
    simpa using (by omega : 2 ^ 8 ≤ 2 * c.toNat)
  intro hEq
  have hBit := congrArg (fun b : BitVec w => b.getLsbD 8) hEq
  simp [widen, BitVec.getLsbD_signExtend, hSign] at hBit
  omega

------------------------------------------------------------
-- Hashing As A Fold
------------------------------------------------------------

/- What one character does to the hash. -/
def mix
    (charSigned : Bool)
    (prime : BitVec w)
    (value : BitVec w)
    (c : UInt8) : BitVec w :=
  (value ^^^ widen charSigned c) * prime

theorem hashImpl_eq_foldl
    (charSigned : Bool)
    (prime : BitVec w)
    (chars : List UInt8)
    (value : BitVec w) :
    hashImpl charSigned prime chars value =
      chars.foldl (mix charSigned prime) value := by
  induction chars generalizing value with
  | nil => rfl
  | cons c remain ih => exact ih _

/- With an invertible prime nothing is lost. -/
theorem cancels
    (hWide : 8 ≤ w)
    {prime inverse : BitVec w}
    (hInverse : prime * inverse = 1)
    (charSigned : Bool) :
    Folding.Cancels (mix charSigned prime) where
  state := by
    intro c value value' hEq
    have hXor :=
      BitVec.mul_injective_of_inverse hInverse hEq
    exact (BitVec.xor_left_inj _).mp hXor
  item := by
    intro value c c' hEq
    have hXor :=
      BitVec.mul_injective_of_inverse hInverse hEq
    exact widen_injective hWide charSigned
      ((BitVec.xor_right_inj _).mp hXor)

theorem prime32_mul :
    prime32 * 899433627 = 1 := by
  decide

theorem prime64_mul :
    prime64 * 14886173955864302971 = 1 := by
  decide

theorem cancels32 (charSigned : Bool) :
    Folding.Cancels (mix charSigned prime32) :=
  cancels (by decide) prime32_mul charSigned

theorem cancels64 (charSigned : Bool) :
    Folding.Cancels (mix charSigned prime64) :=
  cancels (by decide) prime64_mul charSigned

------------------------------------------------------------
-- The Ways To Hash A Name
------------------------------------------------------------

/- From a pointer and the length of what it points to. -/
theorem hash_append
    (charSigned : Bool)
    (prime : BitVec w)
    (chars more : List UInt8)
    (basis : BitVec w) :
    hash charSigned prime (some (chars ++ more)) chars.length
        basis =
      some (hashImpl charSigned prime chars basis) := by
  simp [hash]

/- Up to the NUL behind a name that has none itself. -/
theorem strHashImpl_append
    (charSigned : Bool)
    (prime : BitVec w)
    {c : UInt8}
    {chars : List UInt8}
    (hNul : 0 ∉ c :: chars)
    (more : List UInt8)
    (value : BitVec w) :
    strHashImpl charSigned prime c (chars ++ 0 :: more)
        value =
      some (hashImpl charSigned prime (c :: chars) value) := by
  induction chars generalizing c value with
  | nil =>
      have hChar : c ≠ 0 := by
        rintro rfl
        exact hNul List.mem_cons_self
      cases more with
      | nil => simp [strHashImpl, hashImpl, hChar]
      | cons next more => simp [strHashImpl, hashImpl, hChar]
  | cons next chars ih =>
      have hChar : c ≠ 0 := by
        rintro rfl
        exact hNul List.mem_cons_self
      have hRest : 0 ∉ next :: chars := fun hMem =>
        hNul (List.mem_cons_of_mem _ hMem)
      rw [List.cons_append, strHashImpl, if_neg hChar,
        ih hRest]
      rfl

theorem stringHash_append
    (charSigned : Bool)
    (prime : BitVec w)
    {chars : List UInt8}
    (hNul : 0 ∉ chars)
    (more : List UInt8)
    (basis : BitVec w) :
    stringHash charSigned prime (some (chars ++ 0 :: more))
        basis =
      some (hashImpl charSigned prime chars basis) := by
  cases chars with
  | nil =>
      cases more <;> simp [stringHash, strHashImpl, hashImpl]
  | cons c chars =>
      exact strHashImpl_append charSigned prime hNul more basis

/- Hashing a part goes on where the part before it ended. -/
theorem hashImpl_append
    (charSigned : Bool)
    (prime : BitVec w)
    (chars more : List UInt8)
    (value : BitVec w) :
    hashImpl charSigned prime (chars ++ more) value =
      hashImpl charSigned prime more
        (hashImpl charSigned prime chars value) := by
  simp only [hashImpl_eq_foldl, List.foldl_append]

theorem hash_self
    (charSigned : Bool)
    (prime : BitVec w)
    (chars : List UInt8)
    (basis : BitVec w) :
    hash charSigned prime (some chars) chars.length basis =
      some (hashImpl charSigned prime chars basis) := by
  simpa using hash_append charSigned prime chars [] basis

------------------------------------------------------------
-- Near Names
------------------------------------------------------------

/- `chars` and `chars'` differ in exactly one position. -/
def DifferOnce (chars chars' : List UInt8) : Prop :=
  chars.length = chars'.length ∧
    ∃ i : Nat, chars[i]? ≠ chars'[i]? ∧
      ∀ j : Nat, j ≠ i → chars[j]? = chars'[j]?

/- What the hash with this prime owes to a starting value. -/
structure Separates
    (charSigned : Bool)
    (prime value : BitVec w) : Prop where
  near :
    ∀ chars chars', DifferOnce chars chars' →
      hash charSigned prime (some chars) chars.length value ≠
        hash charSigned prime (some chars') chars'.length
          value
  nearStrings :
    ∀ chars chars' rest rest', DifferOnce chars chars' →
      0 ∉ chars → 0 ∉ chars' →
        stringHash charSigned prime
            (some (chars ++ 0 :: rest)) value ≠
          stringHash charSigned prime
            (some (chars' ++ 0 :: rest')) value
  append :
    ∀ chars more,
      hash charSigned prime (some (chars ++ more))
          (chars ++ more).length value =
        (hash charSigned prime (some chars) chars.length
          value).bind fun mid =>
            hash charSigned prime (some more) more.length mid
  appendStrings :
    ∀ chars more rest, 0 ∉ chars → 0 ∉ more →
      stringHash charSigned prime
          (some (chars ++ more ++ 0 :: rest)) value =
        (stringHash charSigned prime
          (some (chars ++ 0 :: rest)) value).bind fun mid =>
            stringHash charSigned prime
              (some (more ++ 0 :: rest)) mid

theorem hashImpl_ne_of_differOnce
    {charSigned : Bool}
    {prime : BitVec w}
    (hCancels : Folding.Cancels (mix charSigned prime))
    {chars chars' : List UInt8}
    (hDiffer : DifferOnce chars chars')
    (value : BitVec w) :
    hashImpl charSigned prime chars value ≠
      hashImpl charSigned prime chars' value := by
  rcases hDiffer with ⟨hLength, i, hAt, hElse⟩
  rw [hashImpl_eq_foldl, hashImpl_eq_foldl]
  exact Folding.foldl_ne_of_ne_at hCancels hAt hElse hLength
    value

theorem separates
    {charSigned : Bool}
    {prime : BitVec w}
    (hCancels : Folding.Cancels (mix charSigned prime))
    (value : BitVec w) :
    Separates charSigned prime value where
  near := by
    intro chars chars' hDiffer hEq
    rw [hash_self, hash_self] at hEq
    exact hashImpl_ne_of_differOnce hCancels hDiffer value
      (Option.some.inj hEq)
  nearStrings := by
    intro chars chars' rest rest' hDiffer hNul hNul' hEq
    rw [stringHash_append _ _ hNul,
      stringHash_append _ _ hNul'] at hEq
    exact hashImpl_ne_of_differOnce hCancels hDiffer value
      (Option.some.inj hEq)
  append := by
    intro chars more
    simp only [hash_self, Option.bind_some, hashImpl_append]
  appendStrings := by
    intro chars more rest hNul hNul'
    have hNone : 0 ∉ chars ++ more := by
      simp [hNul, hNul']
    rw [stringHash_append _ _ hNul,
      stringHash_append _ _ hNone, Option.bind_some,
      stringHash_append _ _ hNul', hashImpl_append]

/-
  Both hashes tell names that differ in one character apart,
  from every starting value, and can be continued.
-/
theorem nearNames
    (charSigned : Bool)
    (value32 : BitVec 32)
    (value64 : BitVec 64) :
    Separates charSigned prime32 value32 ∧
      Separates charSigned prime64 value64 :=
  ⟨separates (cancels32 charSigned) value32,
    separates (cancels64 charSigned) value64⟩

end FnvHash

------------------------------------------------------------
-- One Id On Two Platforms
------------------------------------------------------------

open FnvHash

/- On this platform the name has the id, however hashed. -/
structure HashesTo
    {w : Nat}
    (values : FnvHashValues w)
    (charSigned : Bool)
    (name : StdString)
    (id : BitVec w) : Prop where
  cString :
    ∀ rest,
      StringHash.ofCString values charSigned
        (some (name ++ 0 :: rest)) = some id
  chars :
    ∀ rest,
      StringHash.ofChars values charSigned
        (some (name ++ rest)) name.length = some id
  string :
    StringHash.ofString values charSigned name = some id

/- Both platforms give the name one 32- and one 64-bit id. -/
structure SameIds
    (charSigned charSigned' : Bool)
    (name : StdString) : Prop where
  ids32 :
    ∃ id, HashesTo fnvHashValues32 charSigned name id ∧
      HashesTo fnvHashValues32 charSigned' name id
  ids64 :
    ∃ id, HashesTo fnvHashValues64 charSigned name id ∧
      HashesTo fnvHashValues64 charSigned' name id

theorem hashesTo_iff
    {w : Nat}
    (values : FnvHashValues w)
    (charSigned : Bool)
    {name : StdString}
    (hNul : 0 ∉ name)
    (id : BitVec w) :
    HashesTo values charSigned name id ↔
      hashImpl charSigned values.prime name values.basis =
        id := by
  constructor
  · intro hHashes
    have hString := hHashes.string
    rw [StringHash.ofString, hash_append] at hString
    exact Option.some.inj hString
  · rintro rfl
    exact
      { cString := fun rest =>
          stringHash_append _ _ hNul rest _
        chars := fun rest => hash_append _ _ name rest _
        string := hash_append _ _ name [0] _ }

theorem sameIds_iff_hashImpl
    {charSigned charSigned' : Bool}
    {name : StdString}
    (hNul : 0 ∉ name) :
    SameIds charSigned charSigned' name ↔
      hashImpl charSigned prime32 name basis32 =
          hashImpl charSigned' prime32 name basis32 ∧
        hashImpl charSigned prime64 name basis64 =
          hashImpl charSigned' prime64 name basis64 := by
  constructor
  · rintro ⟨⟨id, hId, hId'⟩, ⟨long, hLong, hLong'⟩⟩
    rw [hashesTo_iff _ _ hNul] at hId hId' hLong hLong'
    exact ⟨hId.trans hId'.symm, hLong.trans hLong'.symm⟩
  · rintro ⟨hShort, hLong⟩
    exact
      { ids32 := ⟨_, (hashesTo_iff _ _ hNul _).mpr rfl,
          (hashesTo_iff _ _ hNul _).mpr hShort.symm⟩
        ids64 := ⟨_, (hashesTo_iff _ _ hNul _).mpr rfl,
          (hashesTo_iff _ _ hNul _).mpr hLong.symm⟩ }

/- The id that calls and the dispatch table use is one. -/
theorem ofString_eq_shash64
    (charSigned : Bool)
    (name : StdString) :
    StringHash.ofString fnvHashValues64 charSigned name =
      some (shash64 charSigned name).toBitVec :=
  hash_append _ _ name [0] _

/- A caller and a dispatcher then agree on a method. -/
theorem SameIds.shash64_eq
    {charSigned charSigned' : Bool}
    {name : StdString}
    (hSame : SameIds charSigned charSigned' name) :
    shash64 charSigned name = shash64 charSigned' name := by
  rcases hSame.ids64 with ⟨id, hId, hId'⟩
  have hString := hId.string
  have hString' := hId'.string
  rw [ofString_eq_shash64, Option.some.injEq] at hString
  rw [ofString_eq_shash64, Option.some.injEq] at hString'
  exact UInt64.toBitVec_inj.mp (hString.trans hString'.symm)

------------------------------------------------------------
-- Signed And Unsigned Characters
------------------------------------------------------------

/- Below 128 the platforms mix alike. -/
theorem hashImpl_eq_of_low
    {w : Nat}
    (prime : BitVec w)
    {name : StdString}
    (hLow : ∀ c ∈ name, c < 128)
    (value : BitVec w) :
    hashImpl true prime name value =
      hashImpl false prime name value := by
  rw [hashImpl_eq_foldl, hashImpl_eq_foldl]
  apply List.foldl_ext
  intro value c hMem
  rw [mix, mix, widen_eq_of_lt (hLow c hMem)]

/-
  One character from 128 on leaves different states, which
  those around it cannot reunite.
-/
theorem hashImpl_ne_of_oneHigh
    {w : Nat}
    (hWide : 9 ≤ w)
    {prime inverse : BitVec w}
    (hInverse : prime * inverse = 1)
    {before rest : StdString}
    {c : UInt8}
    (hBefore : ∀ d ∈ before, d < 128)
    (hHigh : 128 ≤ c)
    (hRest : ∀ d ∈ rest, d < 128)
    (value : BitVec w) :
    hashImpl true prime (before ++ c :: rest) value ≠
      hashImpl false prime (before ++ c :: rest) value := by
  intro hEq
  rw [hashImpl_append, hashImpl_append,
    hashImpl_eq_of_low prime hBefore] at hEq
  generalize hashImpl false prime before value = mid at hEq
  change
    hashImpl true prime rest (mix true prime mid c) =
      hashImpl false prime rest (mix false prime mid c) at hEq
  rw [hashImpl_eq_of_low prime hRest, hashImpl_eq_foldl,
    hashImpl_eq_foldl] at hEq
  have hState :=
    (cancels (by omega) hInverse false).state
  have hMixed : mix true prime mid c = mix false prime mid c :=
    Folding.foldl_injective hState rest hEq
  have hXor :=
    BitVec.mul_injective_of_inverse hInverse hMixed
  exact widen_ne_of_le hWide hHigh
    ((BitVec.xor_right_inj _).mp hXor)

/- Such a name has no common id, 32- or 64-bit. -/
theorem ids_ne_of_oneHigh
    (before rest : StdString)
    {c : UInt8}
    (hBefore : ∀ d ∈ before, d < 128)
    (hHigh : 128 ≤ c)
    (hRest : ∀ d ∈ rest, d < 128) :
    hashImpl true prime32 (before ++ c :: rest) basis32 ≠
        hashImpl false prime32 (before ++ c :: rest) basis32 ∧
      hashImpl true prime64 (before ++ c :: rest) basis64 ≠
        hashImpl false prime64 (before ++ c :: rest) basis64 :=
  ⟨hashImpl_ne_of_oneHigh (by decide) prime32_mul hBefore
      hHigh hRest basis32,
    hashImpl_ne_of_oneHigh (by decide) prime64_mul hBefore
      hHigh hRest basis64⟩

theorem SameIds.symm
    {charSigned charSigned' : Bool}
    {name : StdString}
    (hSame : SameIds charSigned charSigned' name) :
    SameIds charSigned' charSigned name := by
  rcases hSame with ⟨⟨id, hId, hId'⟩, ⟨long, hLong, hLong'⟩⟩
  exact ⟨⟨id, hId', hId⟩, ⟨long, hLong', hLong⟩⟩

/- Names below 128 have one id on all platforms. -/
theorem sameIds_of_low
    {name : StdString}
    (hNul : 0 ∉ name)
    (hLow : ∀ c ∈ name, c < 128) :
    SameIds true false name :=
  (sameIds_iff_hashImpl hNul).mpr
    ⟨hashImpl_eq_of_low prime32 hLow basis32,
      hashImpl_eq_of_low prime64 hLow basis64⟩

theorem low_of_sameIds
    {allowed : UInt8 → Prop}
    (hSame :
      ∀ name, 0 ∉ name → (∀ c ∈ name, allowed c) →
        SameIds true false name) :
    ∀ c, c ≠ 0 → allowed c → c < 128 := by
  intro c hNul hAllowed
  by_contra hHigh
  have hNotNul : 0 ∉ [c] := by
    simpa using Ne.symm hNul
  have hIds := hSame [c] hNotNul (by simpa using hAllowed)
  rw [sameIds_iff_hashImpl hNotNul] at hIds
  exact (ids_ne_of_oneHigh [] [] (by simp)
    (UInt8.not_lt.mp hHigh) (by simp)).1 hIds.1

/-
  On two platforms all names of allowed characters have one
  id each, however they are hashed, exactly when the
  platforms' `char` is signed alike or no character from 128
  on is allowed.
-/
theorem sameIds_iff
    (charSigned charSigned' : Bool)
    (allowed : UInt8 → Prop) :
    (∀ name : StdString, 0 ∉ name →
        (∀ c ∈ name, allowed c) →
          SameIds charSigned charSigned' name) ↔
      (charSigned = charSigned' ∨
        ∀ c, c ≠ 0 → allowed c → c < 128) := by
  have hLow :
      (∀ c, c ≠ 0 → allowed c → c < 128) →
        ∀ name : StdString, 0 ∉ name →
          (∀ c ∈ name, allowed c) →
            SameIds true false name := by
    intro hAllowed name hNul hMem
    refine sameIds_of_low hNul fun c hIn => ?_
    refine hAllowed c ?_ (hMem c hIn)
    rintro rfl
    exact hNul hIn
  by_cases hAlike : charSigned = charSigned'
  · subst hAlike
    simp only [true_or, iff_true]
    intro name hNul _
    exact (sameIds_iff_hashImpl hNul).mpr ⟨rfl, rfl⟩
  · simp only [hAlike, false_or]
    cases charSigned <;> cases charSigned'
    case false.false => exact absurd rfl hAlike
    case true.true => exact absurd rfl hAlike
    case true.false => exact ⟨low_of_sameIds, hLow⟩
    case false.true =>
      constructor
      · intro hSame
        exact low_of_sameIds fun name hNul hMem =>
          (hSame name hNul hMem).symm
      · intro hAllowed name hNul hMem
        exact (hLow hAllowed name hNul hMem).symm

/- "café" in UTF-8, hashed where `char` is signed or not. -/
theorem sameIds_fails :
    ¬ ∀ (charSigned charSigned' : Bool) (name : StdString),
      0 ∉ name → SameIds charSigned charSigned' name := by
  intro hSame
  have hNul : 0 ∉ ([99, 97, 102, 195, 169] : StdString) := by
    decide
  have hIds := hSame true false _ hNul
  rw [sameIds_iff_hashImpl hNul] at hIds
  exact absurd hIds.1 (by decide)

/-
  Two such characters can make up for each other, so that
  one name may have the same ids all the same.
-/
example : SameIds true false [100, 243, 169] :=
  (sameIds_iff_hashImpl (by decide)).mpr (by decide)

end GrlxRpc
