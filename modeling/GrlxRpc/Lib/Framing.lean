import Mathlib.Data.List.Basic
import Mathlib.Data.List.Infix

/-
  Streams of self-delimiting blocks.

  A block is a head of fixed length followed by a tail whose
  length the head determines. Two parses of one stream agree
  block by block: if the blocks one reader took are a prefix
  of the blocks that were written, every head it took is the
  head at the same place, at the same offset.

  Main declarations:
    * `Framing.Code`
    * `Framing.Code.flat` and `Framing.Code.offset`
    * `Framing.Code.aligned`
    * `Framing.Code.aligned_of_heads`
    * `Framing.Grammar.parse`
    * `Framing.Grammar.follows_mono`
-/

------------------------------------------------------------
-- Codes
------------------------------------------------------------

namespace Framing

/-
  How a head is written: injectively, in `size` bytes, one
  at least, and how long the tail after it is.
-/
structure Code (η β : Type) where
  bytes : η → List β
  size : Nat
  length_bytes : ∀ head, (bytes head).length = size
  size_pos : 0 < size
  injective : ∀ a b, bytes a = bytes b → a = b
  tailLength : η → Nat

namespace Code

variable {η β : Type}
variable (code : Code η β)

/- A head with its tail. -/
abbrev Block (η β : Type) := η × List β

def blockBytes (block : Block η β) : List β :=
  code.bytes block.1 ++ block.2

/- The stream that a list of blocks forms. -/
def flat (blocks : List (Block η β)) : List β :=
  blocks.flatMap code.blockBytes

/- The tail is as long as the head says. -/
def Complete (block : Block η β) : Prop :=
  block.2.length = code.tailLength block.1

@[simp] theorem flat_nil : code.flat [] = [] := rfl

@[simp] theorem flat_cons
    (block : Block η β)
    (rest : List (Block η β)) :
    code.flat (block :: rest) =
      code.bytes block.1 ++ (block.2 ++ code.flat rest) := by
  simp [flat, blockBytes]

@[simp] theorem flat_append
    (first second : List (Block η β)) :
    code.flat (first ++ second) =
      code.flat first ++ code.flat second := by
  simp [flat]

theorem size_le_length_flat
    (block : Block η β)
    (rest : List (Block η β)) :
    code.size ≤ (code.flat (block :: rest)).length := by
  simp only [flat_cons, List.length_append,
    code.length_bytes]
  omega

/- No block is written in no bytes. -/
theorem not_prefix_nil
    (block : Block η β)
    (rest : List (Block η β)) :
    ¬ code.flat (block :: rest) <+: [] := by
  intro hPrefix
  have hLength := hPrefix.length_le
  have hSize := code.size_le_length_flat block rest
  have hPos := code.size_pos
  rw [List.length_nil] at hLength
  omega

------------------------------------------------------------
-- Offsets
------------------------------------------------------------

/- Where block `k` starts. -/
def offset
    (blocks : List (Block η β))
    (k : Nat) : Nat :=
  (code.flat (blocks.take k)).length

theorem offset_succ
    {blocks : List (Block η β)}
    {k : Nat}
    {block : Block η β}
    (hGet : blocks[k]? = some block) :
    code.offset blocks (k + 1) =
      code.offset blocks k + code.size + block.2.length := by
  rw [offset, List.take_add_one, hGet, Option.toList_some]
  simp only [flat_append, flat_cons, flat_nil,
    List.length_append, List.length_nil, code.length_bytes]
  rw [offset]
  omega

theorem offset_le
    (blocks : List (Block η β))
    {k m : Nat}
    (hLe : k ≤ m) :
    code.offset blocks k ≤ code.offset blocks m := by
  have hPrefix : blocks.take k <+: blocks.take m :=
    List.take_prefix_take_left hLe
  rcases hPrefix with ⟨rest, hEq⟩
  rw [offset, offset, ← hEq, flat_append, List.length_append]
  exact Nat.le_add_right _ _

theorem offset_le_length
    (blocks : List (Block η β))
    (k : Nat) :
    code.offset blocks k ≤ (code.flat blocks).length := by
  have hAll :
      code.flat blocks =
        code.flat (blocks.take k) ++
          code.flat (blocks.drop k) := by
    rw [← flat_append, List.take_append_drop]
  rw [hAll, List.length_append]
  exact Nat.le_add_right _ _

/- A block starts where it does in a longer stream. -/
theorem offset_congr
    {xs ys : List (Block η β)}
    (hPrefix : xs <+: ys)
    {k : Nat}
    (hLe : k ≤ xs.length) :
    code.offset xs k = code.offset ys k := by
  rcases hPrefix with ⟨rest, rfl⟩
  rw [offset, offset, List.take_append_of_le_length hLe]

theorem offset_lt
    {blocks : List (Block η β)}
    {k m : Nat}
    (hBound : k < blocks.length)
    (hLt : k < m) :
    code.offset blocks k < code.offset blocks m := by
  have hSucc :=
    code.offset_succ (List.getElem?_eq_getElem hBound)
  have hLe :
      code.offset blocks (k + 1) ≤ code.offset blocks m :=
    code.offset_le blocks hLt
  have hPos := code.size_pos
  omega

theorem lt_of_offset_lt
    {blocks : List (Block η β)}
    {k m : Nat}
    (hLt : code.offset blocks k < code.offset blocks m) :
    k < m := by
  by_contra hNot
  have hLe := code.offset_le blocks (Nat.le_of_not_lt hNot)
  omega

theorem offset_inj
    {blocks : List (Block η β)}
    {k m : Nat}
    (hK : k < blocks.length)
    (hM : m < blocks.length)
    (hEq : code.offset blocks k = code.offset blocks m) :
    k = m := by
  rcases Nat.lt_trichotomy k m with hLt | hSame | hGt
  · have hBefore := code.offset_lt hK hLt
    omega
  · exact hSame
  · have hBehind := code.offset_lt hM hGt
    omega

/- From one place on, the rest of a stream is the same. -/
theorem drop_prefix_drop
    {code code' : Code η β}
    {xs ys : List (Block η β)}
    (hPrefix : code.flat xs <+: code'.flat ys)
    {j k : Nat}
    (hPlace : code.offset xs j = code'.offset ys k) :
    code.flat (xs.drop j) <+: code'.flat (ys.drop k) := by
  rw [← List.take_append_drop j xs,
    ← List.take_append_drop k ys, flat_append, flat_append]
    at hPrefix
  rcases hPrefix with ⟨extra, hEq⟩
  rw [List.append_assoc] at hEq
  exact ⟨extra, (List.append_inj hEq hPlace).2⟩

------------------------------------------------------------
-- Alignment
------------------------------------------------------------

/- Two streams that start alike start with the same head. -/
theorem head_eq_of_prefix
    {x y : Block η β}
    {xs ys : List (Block η β)}
    (hPrefix :
      code.flat (x :: xs) <+: code.flat (y :: ys)) :
    x.1 = y.1 ∧
      x.2 ++ code.flat xs <+: y.2 ++ code.flat ys := by
  rcases hPrefix with ⟨extra, hEq⟩
  simp only [flat_cons, List.append_assoc] at hEq
  have hSplit :=
    List.append_inj hEq
      (by simp [code.length_bytes])
  exact ⟨code.injective _ _ hSplit.1, extra, by
    simpa using hSplit.2⟩

/- After a complete block both streams continue alike. -/
theorem block_eq_of_prefix
    {x y : Block η β}
    {xs ys : List (Block η β)}
    (hX : code.Complete x)
    (hY : code.Complete y)
    (hPrefix :
      code.flat (x :: xs) <+: code.flat (y :: ys)) :
    x = y ∧ code.flat xs <+: code.flat ys := by
  rcases code.head_eq_of_prefix hPrefix with
    ⟨hHead, extra, hRest⟩
  have hLength : x.2.length = y.2.length := by
    rw [hX, hY, hHead]
  rw [List.append_assoc] at hRest
  have hSplit := List.append_inj hRest hLength
  exact
    ⟨Prod.ext hHead hSplit.1, extra, hSplit.2⟩

/-
  Block `k` of a parse is block `k` of the stream, at the
  same offset, as long as the blocks before it are complete
  on both sides.
-/
theorem aligned
    {xs ys : List (Block η β)}
    (hPrefix : code.flat xs <+: code.flat ys)
    (hYs : ∀ y ∈ ys, code.Complete y)
    {k : Nat}
    {x : Block η β}
    (hGet : xs[k]? = some x)
    (hXs : ∀ x ∈ xs.take k, code.Complete x) :
    ∃ y, ys[k]? = some y ∧
      x.1 = y.1 ∧
      xs.take k = ys.take k ∧
      (code.Complete x → x = y) := by
  induction k generalizing xs ys with
  | zero =>
      cases xs with
      | nil => simp at hGet
      | cons x' xs =>
          obtain rfl : x' = x := by simpa using hGet
          cases ys with
          | nil =>
              exact absurd hPrefix (code.not_prefix_nil x' xs)
          | cons y ys =>
              refine ⟨y, by simp, ?_, by simp, ?_⟩
              · exact (code.head_eq_of_prefix hPrefix).1
              · intro hX
                exact
                  (code.block_eq_of_prefix hX
                    (hYs y (by simp)) hPrefix).1
  | succ k ih =>
      cases xs with
      | nil => simp at hGet
      | cons x' xs =>
          have hX' : code.Complete x' :=
            hXs x' (by simp)
          cases ys with
          | nil =>
              exact absurd hPrefix (code.not_prefix_nil x' xs)
          | cons y ys =>
              rcases code.block_eq_of_prefix hX'
                  (hYs y (by simp)) hPrefix with ⟨rfl, hRest⟩
              rcases ih hRest
                  (fun y hy => hYs y (by simp [hy]))
                  (by simpa using hGet)
                  (fun x hx => hXs x (by simp [hx])) with
                ⟨z, hZ, hHead, hTake, hEq⟩
              exact ⟨z, by simpa using hZ, hHead,
                by simp [hTake], hEq⟩

/-
  The same when each block of the parse is known to be
  complete as soon as its head is the head that was written.
-/
theorem aligned_of_heads
    {xs ys : List (Block η β)}
    (hPrefix : code.flat xs <+: code.flat ys)
    (hYs : ∀ y ∈ ys, code.Complete y)
    {k : Nat}
    {x : Block η β}
    (hGet : xs[k]? = some x)
    (hHeads :
      ∀ j x y, j < k → xs[j]? = some x → ys[j]? = some y →
        x.1 = y.1 → code.Complete x) :
    ∃ y, ys[k]? = some y ∧
      x.1 = y.1 ∧
      xs.take k = ys.take k ∧
      (code.Complete x → x = y) := by
  refine code.aligned hPrefix hYs hGet ?_
  have hComplete :
      ∀ m, m ≤ k → ∀ x ∈ xs.take m, code.Complete x := by
    intro m
    induction m with
    | zero => simp
    | succ m ih =>
        intro hLe x hMem
        rw [List.take_add_one, List.mem_append] at hMem
        rcases hMem with hOld | hNew
        · exact ih (by omega) x hOld
        · have hAt : xs[m]? = some x := by simpa using hNew
          rcases code.aligned hPrefix hYs hAt (ih (by omega)) with
            ⟨y, hY, hHead, _⟩
          exact hHeads m x y (by omega) hAt hY hHead
  exact hComplete k (Nat.le_refl k)

end Code

------------------------------------------------------------
-- Parsing
------------------------------------------------------------

/-
  A code that can be read back, and the heads behind which a
  stream goes on.
-/
structure Grammar (η β : Type) extends Code η β where
  ofBytes : List β → η
  ofBytes_bytes : ∀ head, ofBytes (bytes head) = head
  goesOn : η → Bool

namespace Grammar

variable {η β : Type}
variable (grammar : Grammar η β)

/-
  The blocks of a stream, `fuel` of them at most. The last
  one has no tail when the stream ends within it.
-/
def parseUpTo :
    Nat → List β → List (Code.Block η β)
  | 0, _ => []
  | fuel + 1, stream =>
      if stream.length < grammar.size then
        []
      else
        let head := grammar.ofBytes (stream.take grammar.size)
        let rest := stream.drop grammar.size
        if rest.length < grammar.tailLength head then
          [(head, [])]
        else
          (head, rest.take (grammar.tailLength head)) ::
            if grammar.goesOn head then
              parseUpTo fuel
                (rest.drop (grammar.tailLength head))
            else
              []

/- Every block takes a byte of the stream at least. -/
def parse (stream : List β) : List (Code.Block η β) :=
  grammar.parseUpTo stream.length stream

theorem parseUpTo_nil (fuel : Nat) :
    grammar.parseUpTo fuel [] = [] := by
  cases fuel with
  | zero => rfl
  | succ fuel =>
      rw [parseUpTo, if_pos]
      exact grammar.size_pos

/- More fuel than there are bytes changes nothing. -/
theorem parseUpTo_congr
    {fuel fuel' : Nat}
    {stream : List β}
    (hFuel : stream.length ≤ fuel)
    (hFuel' : stream.length ≤ fuel') :
    grammar.parseUpTo fuel stream =
      grammar.parseUpTo fuel' stream := by
  induction fuel generalizing fuel' stream with
  | zero =>
      have hNil : stream = [] :=
        List.eq_nil_of_length_eq_zero (by omega)
      rw [hNil, parseUpTo_nil, parseUpTo_nil]
  | succ fuel ih =>
      cases fuel' with
      | zero =>
          have hNil : stream = [] :=
            List.eq_nil_of_length_eq_zero (by omega)
          rw [hNil, parseUpTo_nil, parseUpTo_nil]
      | succ fuel' =>
          have hPos := grammar.size_pos
          rw [parseUpTo, parseUpTo]
          by_cases hShort : stream.length < grammar.size
          · rw [if_pos hShort, if_pos hShort]
          · rw [if_neg hShort, if_neg hShort]
            dsimp only
            rw [ih]
            · simp only [List.length_drop]
              omega
            · simp only [List.length_drop]
              omega

theorem parseUpTo_eq_parse
    {fuel : Nat}
    {stream : List β}
    (hFuel : stream.length ≤ fuel) :
    grammar.parseUpTo fuel stream = grammar.parse stream :=
  grammar.parseUpTo_congr hFuel (Nat.le_refl _)

/- What a stream that starts with a head is parsed to. -/
theorem parse_head_append
    (head : η)
    (rest : List β) :
    grammar.parse (grammar.bytes head ++ rest) =
      if rest.length < grammar.tailLength head then
        [(head, [])]
      else
        (head, rest.take (grammar.tailLength head)) ::
          if grammar.goesOn head then
            grammar.parse
              (rest.drop (grammar.tailLength head))
          else
            [] := by
  have hLength := grammar.length_bytes head
  have hPos := grammar.size_pos
  have hTake :
      (grammar.bytes head ++ rest).take grammar.size =
        grammar.bytes head := List.take_left' hLength
  have hDrop :
      (grammar.bytes head ++ rest).drop grammar.size =
        rest := List.drop_left' hLength
  -- There is a byte to pay for the first round.
  obtain ⟨fuel, hFuel⟩ :
      ∃ fuel,
        (grammar.bytes head ++ rest).length = fuel + 1 := by
    refine ⟨grammar.size + rest.length - 1, ?_⟩
    rw [List.length_append, hLength]
    omega
  have hLong :
      ¬ (grammar.bytes head ++ rest).length <
        grammar.size := by
    rw [List.length_append, hLength]
    omega
  rw [parse, hFuel, parseUpTo, if_neg hLong, hTake, hDrop,
    grammar.ofBytes_bytes]
  dsimp only
  rw [grammar.parseUpTo_eq_parse]
  rw [List.length_append, hLength] at hFuel
  rw [List.length_drop]
  omega

/- A block with all its tail, behind which the stream goes on. -/
structure Settled (block : Code.Block η β) : Prop where
  complete : grammar.Complete block
  goesOn : grammar.goesOn block.1 = true

theorem parse_complete_append
    {block : Code.Block η β}
    (hComplete : grammar.Complete block)
    (rest : List β) :
    grammar.parse (grammar.bytes block.1 ++ (block.2 ++ rest)) =
      block ::
        if grammar.goesOn block.1 then grammar.parse rest
        else [] := by
  have hLong :
      ¬ (block.2 ++ rest).length <
        grammar.tailLength block.1 := by
    rw [← hComplete, List.length_append]
    omega
  rw [grammar.parse_head_append, if_neg hLong, ← hComplete,
    List.take_left, List.drop_left]

theorem parse_flat_append
    {blocks : List (Code.Block η β)}
    (hSettled : ∀ block ∈ blocks, grammar.Settled block)
    (rest : List β) :
    grammar.parse (grammar.flat blocks ++ rest) =
      blocks ++ grammar.parse rest := by
  induction blocks with
  | nil => rfl
  | cons block blocks ih =>
      have hFirst := hSettled block List.mem_cons_self
      rw [Code.flat_cons, List.append_assoc,
        List.append_assoc,
        grammar.parse_complete_append hFirst.complete,
        if_pos hFirst.goesOn,
        ih fun other hMem =>
          hSettled other (List.mem_cons_of_mem _ hMem),
        List.cons_append]

/-
  How blocks that were taken one after the other lie in the
  parse of a stream: all but the last as they are, and the
  last at least with its head.
-/
structure Follows
    (blocks : List (Code.Block η β))
    (stream : List β) : Prop where
  earlier : blocks.dropLast <+: grammar.parse stream
  heads :
    blocks.map Prod.fst <+:
      (grammar.parse stream).map Prod.fst
  last :
    (∀ block ∈ blocks.getLast?, grammar.Complete block) →
      blocks <+: grammar.parse stream

theorem follows_mono
    {blocks : List (Code.Block η β)}
    {stream : List β}
    (hPrefix : grammar.flat blocks <+: stream)
    (hEarlier :
      ∀ block ∈ blocks.dropLast, grammar.Settled block) :
    grammar.Follows blocks stream := by
  rcases List.eq_nil_or_concat blocks with
    rfl | ⟨front, block, rfl⟩
  · exact ⟨List.nil_prefix, List.nil_prefix,
      fun _ => List.nil_prefix⟩
  · rw [List.concat_eq_append] at hPrefix hEarlier ⊢
    rw [List.dropLast_concat] at hEarlier
    rcases hPrefix with ⟨rest, rfl⟩
    have hParse :
        grammar.parse
            (grammar.flat (front ++ [block]) ++ rest) =
          front ++
            grammar.parse
              (grammar.bytes block.1 ++
                (block.2 ++ rest)) := by
      rw [Code.flat_append, List.append_assoc,
        grammar.parse_flat_append hEarlier]
      simp
    rw [← List.concat_eq_append]
    constructor
    case earlier =>
      rw [List.concat_eq_append, hParse, List.dropLast_concat]
      exact List.prefix_append _ _
    case heads =>
      rw [List.concat_eq_append, hParse,
        grammar.parse_head_append, List.map_append,
        List.map_append, List.prefix_append_right_inj]
      split
      · exact List.prefix_rfl
      · exact ⟨_, rfl⟩
    case last =>
      intro hLast
      have hComplete : grammar.Complete block :=
        hLast block (by simp)
      rw [List.concat_eq_append, hParse,
        grammar.parse_complete_append hComplete,
        List.prefix_append_right_inj]
      exact ⟨_, rfl⟩

end Grammar

end Framing
