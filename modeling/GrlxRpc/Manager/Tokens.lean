import Mathlib.Algebra.Group.Nat.Defs
import Mathlib.Data.List.AList

/-
  The tokens of pending operations.

  `generate_token` counts up from one in a `uint64_t`, so the
  tokens of fewer than `2 ^ 64` operations are different. The
  table maps a token to the operation that waits under it.

  Main declarations:
    * `tokenOf` and `tokenOf_inj`
    * `Pending`
-/

------------------------------------------------------------
-- Tokens
------------------------------------------------------------

namespace GrlxRpc

/- The token that the `i`-th operation is given. -/
def tokenOf (i : Nat) : UInt64 := UInt64.ofNat (i + 1)

theorem tokenOf_inj
    {i j : Nat}
    (hI : i + 1 < 2 ^ 64)
    (hJ : j + 1 < 2 ^ 64)
    (hEq : tokenOf i = tokenOf j) :
    i = j := by
  have hNat := congrArg UInt64.toNat hEq
  simp only [tokenOf, UInt64.toNat_ofNat'] at hNat
  rw [Nat.mod_eq_of_lt hI, Nat.mod_eq_of_lt hJ] at hNat
  omega

/- `fetch_add(1)` gives the next token. -/
theorem tokenOf_succ
    (i : Nat) :
    tokenOf i + 1 = tokenOf (i + 1) := by
  rw [tokenOf, tokenOf, UInt64.ofNat_add (i + 1) 1]
  rfl

------------------------------------------------------------
-- The Table
------------------------------------------------------------

/- Operation `i` is in the table. -/
def Pending
    (channels : AList fun _ : UInt64 => Nat)
    (i : Nat) : Prop :=
  channels.lookup (tokenOf i) = some i

instance
    (channels : AList fun _ : UInt64 => Nat)
    (i : Nat) : Decidable (Pending channels i) :=
  inferInstanceAs (Decidable (_ = _))

/- What is left in the table was there, under its token. -/
theorem lookup_of_erase
    {channels : AList fun _ : UInt64 => Nat}
    {token t : UInt64}
    {i : Nat}
    (hLookup : (channels.erase token).lookup t = some i) :
    t ≠ token ∧ channels.lookup t = some i := by
  by_cases hSame : t = token
  · rw [hSame, AList.lookup_erase] at hLookup
    cases hLookup
  · rw [AList.lookup_erase_ne hSame] at hLookup
    exact ⟨hSame, hLookup⟩

end GrlxRpc
