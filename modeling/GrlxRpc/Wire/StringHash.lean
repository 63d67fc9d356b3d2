import GrlxRpc.Wire.Frame

/-
  FNV-1a hashes of method names.

  A name is hashed character by character; whether `char` is
  signed decides how a byte above 127 widens to the hash
  type.

  A pointer is `nullptr` or the bytes from where it points to
  the end of its object. A hash that would read past them has
  no value.

  Main declarations:
    * `FnvHash.hashImpl` and `FnvHash.strHashImpl`
    * `FnvHash.hash` and `FnvHash.stringHash`
    * `StringHash.ofCString`, `StringHash.ofChars` and
      `StringHash.ofString`
    * `shash64`
-/

------------------------------------------------------------
-- FNV-1a
------------------------------------------------------------

namespace GrlxRpc

namespace FnvHash

variable {w : Nat}

/- `static_cast<H>(c)` for a `char` of either signedness. -/
def widen
    (charSigned : Bool)
    (c : UInt8) : BitVec w :=
  if charSigned then
    c.toBitVec.signExtend w
  else
    c.toBitVec.setWidth w

/- `hash_impl`: fold the characters into `value`. -/
def hashImpl
    (charSigned : Bool)
    (prime : BitVec w) :
    List UInt8 → BitVec w → BitVec w
  | [], value => value
  | c :: remain, value =>
      hashImpl charSigned prime remain
        ((value ^^^ widen charSigned c) * prime)

/-
  `str_hash_impl`: `c` stands before `remain`, and a NUL ends
  the string.
-/
def strHashImpl
    (charSigned : Bool)
    (prime : BitVec w) :
    UInt8 → List UInt8 → BitVec w → Option (BitVec w)
  | c, [], value => if c = 0 then some value else none
  | c, next :: remain, value =>
      if c = 0 then
        some value
      else
        strHashImpl charSigned prime next remain
          ((value ^^^ widen charSigned c) * prime)

/- `hash`: `sz` characters from `p` on. -/
def hash
    (charSigned : Bool)
    (prime : BitVec w)
    (p : Option (List UInt8))
    (sz : Nat)
    (basis : BitVec w) : Option (BitVec w) :=
  match p with
  | none => some 0
  | some chars =>
      if sz ≤ chars.length then
        some (hashImpl charSigned prime (chars.take sz) basis)
      else
        none

/- `string_hash`: the characters from `str` up to a NUL. -/
def stringHash
    (charSigned : Bool)
    (prime : BitVec w)
    (str : Option (List UInt8))
    (basis : BitVec w) : Option (BitVec w) :=
  match str with
  | none => some 0
  | some [] => none
  | some (c :: remain) =>
      strHashImpl charSigned prime c remain basis

def basis32 : BitVec 32 := 2166136261

def prime32 : BitVec 32 := 16777619

def basis64 : BitVec 64 := 14695981039346656037

def prime64 : BitVec 64 := 1099511628211

end FnvHash

/- `fnv_hash_values`. -/
structure FnvHashValues (w : Nat) where
  basis : BitVec w
  prime : BitVec w

def fnvHashValues32 : FnvHashValues 32 where
  basis := FnvHash.basis32
  prime := FnvHash.prime32

def fnvHashValues64 : FnvHashValues 64 where
  basis := FnvHash.basis64
  prime := FnvHash.prime64

------------------------------------------------------------
-- The Constructors Of `string_hash`
------------------------------------------------------------

namespace StringHash

variable {w : Nat}

/- From a `const char*`. -/
def ofCString
    (values : FnvHashValues w)
    (charSigned : Bool)
    (str : Option (List UInt8)) : Option (BitVec w) :=
  FnvHash.stringHash charSigned values.prime str values.basis

/- From a `const char*` and a length. -/
def ofChars
    (values : FnvHashValues w)
    (charSigned : Bool)
    (str : Option (List UInt8))
    (len : Nat) : Option (BitVec w) :=
  FnvHash.hash charSigned values.prime str len values.basis

/- From a `std::string`, whose `data()` ends in a NUL. -/
def ofString
    (values : FnvHashValues w)
    (charSigned : Bool)
    (rhs : StdString) : Option (BitVec w) :=
  FnvHash.hash charSigned values.prime (some (rhs ++ [0]))
    rhs.length values.basis

end StringHash

/- `shash64(name).value()` for a `std::string`. -/
def shash64
    (charSigned : Bool)
    (name : StdString) : UInt64 :=
  UInt64.ofBitVec
    (FnvHash.hashImpl charSigned FnvHash.prime64 name
      FnvHash.basis64)

end GrlxRpc
