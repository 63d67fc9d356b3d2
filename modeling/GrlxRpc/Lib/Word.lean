import Mathlib.Algebra.Group.Nat.Defs
import Mathlib.Data.List.Basic

/-
  Fixed-width words as bytes, in either byte order.

  Main declarations:
    * `Word.toLittle` and `Word.ofLittle`
    * `ByteOrder.encode` and `ByteOrder.decode`
    * `ByteOrder.decode_encode`, `ByteOrder.encode_decode`
    * `ByteOrder.toBytes` and `ByteOrder.ofBytes_toBytes`
-/

------------------------------------------------------------
-- Little-Endian Bytes
------------------------------------------------------------

namespace Word

/- The `width` low bytes of a number, lowest first. -/
def toLittle : Nat → Nat → List UInt8
  | 0, _ => []
  | width + 1, n =>
      UInt8.ofNat n :: toLittle width (n / 256)

/- The number whose bytes these are, lowest first. -/
def ofLittle : List UInt8 → Nat
  | [] => 0
  | byte :: rest => byte.toNat + 256 * ofLittle rest

@[simp] theorem length_toLittle
    (width n : Nat) :
    (toLittle width n).length = width := by
  induction width generalizing n with
  | zero => rfl
  | succ width ih => simp [toLittle, ih]

theorem ofLittle_toLittle
    (width n : Nat)
    (hBound : n < 256 ^ width) :
    ofLittle (toLittle width n) = n := by
  induction width generalizing n with
  | zero =>
      have hZero : n = 0 := by simpa using hBound
      simp [toLittle, ofLittle, hZero]
  | succ width ih =>
      have hRest : n / 256 < 256 ^ width := by
        apply Nat.div_lt_of_lt_mul
        rwa [Nat.pow_succ, Nat.mul_comm] at hBound
      have hLow : (UInt8.ofNat n).toNat = n % 256 := by
        simp
      rw [toLittle, ofLittle, ih _ hRest, hLow]
      exact Nat.mod_add_div n 256

theorem ofLittle_lt (bytes : List UInt8) :
    ofLittle bytes < 256 ^ bytes.length := by
  induction bytes with
  | nil => simp [ofLittle]
  | cons byte rest ih =>
      have hByte : byte.toNat < 256 := byte.toNat_lt
      simp only [ofLittle, List.length_cons, Nat.pow_succ]
      omega

theorem toLittle_ofLittle (bytes : List UInt8) :
    toLittle bytes.length (ofLittle bytes) = bytes := by
  induction bytes with
  | nil => rfl
  | cons byte rest ih =>
      have hByte : byte.toNat < 256 := byte.toNat_lt
      have hRest :
          (byte.toNat + 256 * ofLittle rest) / 256 =
            ofLittle rest := by omega
      have hLow :
          UInt8.ofNat (byte.toNat + 256 * ofLittle rest) =
            byte := by
        apply UInt8.toNat_inj.mp
        simp only [UInt8.toNat_ofNat']
        omega
      rw [List.length_cons, ofLittle, toLittle, hRest, ih,
        hLow]

end Word

------------------------------------------------------------
-- Byte Orders
------------------------------------------------------------

inductive ByteOrder
  | little
  | big
  deriving DecidableEq, Repr

namespace ByteOrder

/- Turn lowest-first bytes into this order, and back. -/
def arrange
    (order : ByteOrder)
    (bytes : List UInt8) : List UInt8 :=
  match order with
  | little => bytes
  | big => bytes.reverse

@[simp] theorem length_arrange
    (order : ByteOrder)
    (bytes : List UInt8) :
    (order.arrange bytes).length = bytes.length := by
  cases order <;> simp [arrange]

@[simp] theorem arrange_arrange
    (order : ByteOrder)
    (bytes : List UInt8) :
    order.arrange (order.arrange bytes) = bytes := by
  cases order <;> simp [arrange]

/- The eight bytes of a 64-bit word in memory. -/
def encode
    (order : ByteOrder)
    (word : UInt64) : List UInt8 :=
  order.arrange (Word.toLittle 8 word.toNat)

/- The 64-bit word that eight bytes of memory hold. -/
def decode
    (order : ByteOrder)
    (bytes : List UInt8) : UInt64 :=
  UInt64.ofNat (Word.ofLittle (order.arrange bytes))

@[simp] theorem length_encode
    (order : ByteOrder)
    (word : UInt64) :
    (order.encode word).length = 8 := by
  simp [encode]

@[simp] theorem decode_encode
    (order : ByteOrder)
    (word : UInt64) :
    order.decode (order.encode word) = word := by
  have hBound : word.toNat < 256 ^ 8 := word.toNat_lt
  simp [decode, encode,
    Word.ofLittle_toLittle 8 word.toNat hBound]

theorem encode_decode
    (order : ByteOrder)
    {bytes : List UInt8}
    (hLength : bytes.length = 8) :
    order.encode (order.decode bytes) = bytes := by
  have hArranged : (order.arrange bytes).length = 8 := by
    simpa using hLength
  have hBound : Word.ofLittle (order.arrange bytes) < 2 ^ 64 := by
    simpa [hArranged] using
      Word.ofLittle_lt (order.arrange bytes)
  have hBack :=
    Word.toLittle_ofLittle (order.arrange bytes)
  rw [hArranged] at hBack
  simp only [encode, decode, UInt64.toNat_ofNat',
    Nat.mod_eq_of_lt hBound, hBack, arrange_arrange]

------------------------------------------------------------
-- Numbers Of Any Size
------------------------------------------------------------

variable {size : Nat}

/- The bytes in memory of a number of `size` bytes. -/
def toBytes
    (order : ByteOrder)
    (number : BitVec (8 * size)) : List UInt8 :=
  order.arrange (Word.toLittle size number.toNat)

/- The number that `size` bytes of memory hold. -/
def ofBytes
    (order : ByteOrder)
    (size : Nat)
    (bytes : List UInt8) : BitVec (8 * size) :=
  BitVec.ofNat (8 * size) (Word.ofLittle (order.arrange bytes))

@[simp] theorem length_toBytes
    (order : ByteOrder)
    (number : BitVec (8 * size)) :
    (order.toBytes number).length = size := by
  simp [toBytes]

@[simp] theorem ofBytes_toBytes
    (order : ByteOrder)
    (number : BitVec (8 * size)) :
    order.ofBytes size (order.toBytes number) = number := by
  have hBound : number.toNat < 256 ^ size := by
    have hLess := number.isLt
    rwa [Nat.pow_mul] at hLess
  rw [ofBytes, toBytes, arrange_arrange,
    Word.ofLittle_toLittle size number.toNat hBound,
    BitVec.ofNat_toNat, BitVec.setWidth_eq]

theorem toBytes_ofBytes
    (order : ByteOrder)
    {bytes : List UInt8}
    (hLength : bytes.length = size) :
    order.toBytes (order.ofBytes size bytes) = bytes := by
  have hArranged : (order.arrange bytes).length = size := by
    rw [length_arrange, hLength]
  have hBound :
      Word.ofLittle (order.arrange bytes) <
        2 ^ (8 * size) := by
    have hLess := Word.ofLittle_lt (order.arrange bytes)
    rwa [hArranged, show (256 : Nat) = 2 ^ 8 from rfl,
      ← Nat.pow_mul] at hLess
  have hBack :=
    Word.toLittle_ofLittle (order.arrange bytes)
  rw [hArranged] at hBack
  rw [ofBytes, toBytes, BitVec.toNat_ofNat,
    Nat.mod_eq_of_lt hBound, hBack, arrange_arrange]

/- The orders of two different machines are each other's. -/
theorem reverse_toBytes
    {order peer : ByteOrder}
    (hOther : peer ≠ order)
    (number : BitVec (8 * size)) :
    (peer.toBytes number).reverse = order.toBytes number := by
  cases order <;> cases peer <;>
    simp [toBytes, arrange] at hOther ⊢

/- The same of the eight bytes of a word. -/
theorem reverse_encode
    {order peer : ByteOrder}
    (hOther : peer ≠ order)
    (word : UInt64) :
    (peer.encode word).reverse = order.encode word := by
  cases order <;> cases peer <;>
    simp [encode, arrange] at hOther ⊢

end ByteOrder
