import GrlxRpc.Dispatch.Encoder
import GrlxRpc.Lib.InPlace

/-
  The types that messages are built from, their values and
  the bytes that `PortableBinaryOutputArchive` writes.

  A number is the value of the bits that represent it, so
  two machines of different byte order agree on it. A tuple
  is loaded and saved as the pair of its first element and
  the tuple of the rest.

  Main declarations:
    * `WireType`, `WireType.Val` and `WireType.Backed`
    * `Message`
    * `WireType.save` and `encode`
-/

------------------------------------------------------------
-- Types
------------------------------------------------------------

namespace GrlxRpc

/- `bool`, or a number that takes `size` bytes. -/
inductive Arithmetic
  | bool
  | number (size : Nat) (size_pos : 0 < size)

namespace Arithmetic

/- `sizeof(T)` -/
def size : Arithmetic → Nat
  | bool => 1
  | number size _ => size

theorem size_pos (type : Arithmetic) : 0 < type.size := by
  cases type with
  | bool => exact Nat.one_pos
  | number size size_pos => exact size_pos

end Arithmetic

inductive WireType
  | arithmetic (type : Arithmetic)
  | string
  | vector (element : WireType)
  | pair (first second : WireType)
  | unit

namespace WireType

/- `std::tuple<Ts...>` -/
def tuple : List WireType → WireType
  | [] => unit
  | first :: rest => pair first (tuple rest)

/- The values of a type. -/
def Val : WireType → Type
  | arithmetic type => BitVec (8 * type.size)
  | string => StdString
  | vector element => List element.Val
  | pair first second => first.Val × second.Val
  | unit => Unit

def decEqVal : (type : WireType) → DecidableEq type.Val
  | arithmetic type =>
      inferInstanceAs (DecidableEq (BitVec (8 * type.size)))
  | string => inferInstanceAs (DecidableEq StdString)
  | vector element =>
      have := element.decEqVal
      inferInstanceAs (DecidableEq (List element.Val))
  | pair first second =>
      have := first.decEqVal
      have := second.decEqVal
      inferInstanceAs (DecidableEq (first.Val × second.Val))
  | unit => inferInstanceAs (DecidableEq Unit)

instance (type : WireType) : DecidableEq type.Val :=
  type.decEqVal

/- `T{}` -/
def initial : (type : WireType) → type.Val
  | arithmetic type => (0 : BitVec (8 * type.size))
  | string => ([] : StdString)
  | vector element => ([] : List element.Val)
  | pair first second => (first.initial, second.initial)
  | unit => ()

/- Does every value take at least one byte on the wire? -/
def occupies : WireType → Bool
  | arithmetic _ => true
  | string => true
  | vector _ => true
  | pair first second => first.occupies || second.occupies
  | unit => false

/- Every container element occupies a byte on the wire. -/
def Backed : WireType → Prop
  | arithmetic _ => True
  | string => True
  | vector element =>
      element.occupies = true ∧ element.Backed
  | pair first second => first.Backed ∧ second.Backed
  | unit => True

/- How deep containers are nested. -/
def depth : WireType → Nat
  | arithmetic _ => 0
  | string => 1
  | vector element => element.depth + 1
  | pair first second => max first.depth second.depth
  | unit => 0

end WireType

/- `message_request<Args...>` or `message_response<T>` -/
inductive Message
  | request (args : List WireType)
  | response (result : Option WireType)

/- What the message serializes: nothing for `void`. -/
def Message.body : Message → WireType
  | request args => .tuple args
  | response (some result) => result
  | response none => .unit

------------------------------------------------------------
-- Saving
------------------------------------------------------------

/- A `SizeTag`: 64 bits. -/
def saveSize
    (order : ByteOrder)
    (count : Nat) : List UInt8 :=
  order.encode (UInt64.ofNat count)

/- The size of a string and its characters. -/
def saveString
    (order : ByteOrder)
    (text : StdString) : List UInt8 :=
  saveSize order text.length ++ text

/- The size of a vector and its elements in order. -/
def saveVector
    {α : Type}
    (order : ByteOrder)
    (save : α → List UInt8)
    (values : List α) : List UInt8 :=
  saveSize order values.length ++ values.flatMap save

@[simp] theorem length_saveSize
    (order : ByteOrder)
    (count : Nat) :
    (saveSize order count).length = 8 :=
  ByteOrder.length_encode order _

@[simp] theorem length_saveString
    (order : ByteOrder)
    (text : StdString) :
    (saveString order text).length = 8 + text.length := by
  simp [saveString]

@[simp] theorem length_saveVector
    {α : Type}
    (order : ByteOrder)
    (save : α → List UInt8)
    (values : List α) :
    (saveVector order save values).length =
      8 + (values.flatMap save).length := by
  rw [saveVector, List.length_append, length_saveSize]

/- What a machine of this byte order saves for a value. -/
def WireType.save
    (order : ByteOrder) :
    (type : WireType) → type.Val → List UInt8
  | arithmetic _, number => order.toBytes number
  | string, text => saveString order text
  | vector element, values =>
      saveVector order (element.save order) values
  | pair first second, value =>
      first.save order value.1 ++ second.save order value.2
  | unit, _ => []

/- The byte that tells the writer's byte order. -/
def orderByte (order : ByteOrder) : UInt8 :=
  if order = .little then 1 else 0

/-
  `generic_message_encoder::encode`. It fails only when the
  bytes do not fit a `std::vector<char>`.
-/
def encode
    (order : ByteOrder)
    (type : WireType)
    (value : type.Val) : Option Buffer :=
  if hSize :
      (orderByte order :: type.save order value).length <
        2 ^ 64 then
    some ⟨orderByte order :: type.save order value, hSize⟩
  else
    none

theorem bytes_of_encode
    {order : ByteOrder}
    {type : WireType}
    {value : type.Val}
    {buffer : Buffer}
    (hEncode : encode order type value = some buffer) :
    buffer.bytes =
      orderByte order :: type.save order value := by
  unfold encode at hEncode
  split at hEncode
  · exact congrArg Buffer.bytes
      (Option.some.inj hEncode).symm
  · cases hEncode

/- A value that occupies a byte saves one. -/
theorem WireType.length_save_pos
    (order : ByteOrder)
    {type : WireType}
    (hOccupies : type.occupies = true)
    (value : type.Val) :
    0 < (type.save order value).length := by
  induction type with
  | arithmetic type =>
      apply Nat.lt_of_lt_of_eq type.size_pos
      exact (order.length_toBytes _).symm
  | string =>
      apply Nat.lt_of_lt_of_eq _
        (length_saveString order value).symm
      omega
  | vector element ih =>
      apply Nat.lt_of_lt_of_eq _
        (length_saveVector order (element.save order)
          value).symm
      omega
  | pair first second ihFirst ihSecond =>
      rw [save, List.length_append]
      rcases (Bool.or_eq_true _ _).mp hOccupies with h | h
      · have hFirst := ihFirst h value.1
        omega
      · have hSecond := ihSecond h value.2
        omega
  | unit => cases hOccupies

/- Elements that occupy a byte each save their number. -/
theorem WireType.length_le_flatMap_save
    (order : ByteOrder)
    {element : WireType}
    (hOccupies : element.occupies = true)
    (values : List element.Val) :
    values.length ≤
      (values.flatMap (element.save order)).length := by
  induction values with
  | nil => exact Nat.le_refl 0
  | cons value values ih =>
      have hPos := length_save_pos order hOccupies value
      rw [List.flatMap_cons, List.length_append,
        List.length_cons]
      omega

end GrlxRpc
