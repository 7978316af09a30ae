namespace SyscallFilter

/-- The numbers from `lower` to `upper`, both included. -/
structure NumberRange where
  lower : UInt32
  upper : UInt32
  deriving DecidableEq

/-- A finite set of numbers. They are kept in blocks, so that looking one up
    does not take longer the more there are: bit `i` of block `b` is set when
    the `i`-th number of the block is a member. -/
structure NumberSet where
  blocks : List Nat
  deriving DecidableEq

namespace NumberSet

/-- How many numbers a block is for. -/
def width : Nat := 4096

def empty : NumberSet :=
  ⟨[]⟩

def contains (set : NumberSet) (n : Nat) : Bool :=
  (set.blocks[n / width]?.getD 0).testBit (n % width)

/-- Sets the bits of the numbers from `lower` to `upper` in the block whose
    first number is `base`. -/
def mark (lower upper base block : Nat) : Nat :=
  if lower < base + width ∧ base ≤ upper then
    let first := lower - base
    block ||| ((1 <<< (min width (upper + 1 - base) - first)) - 1) <<< first
  else block

/-- Sets the bits of the numbers from `lower` to `upper` in blocks of which the
    first begins with `base`. -/
def markFrom (lower upper : Nat) : (base : Nat) → List Nat → List Nat
  | _, [] => []
  | base, block :: rest =>
    mark lower upper base block :: markFrom lower upper (base + width) rest

/-- Adds the numbers from `lower` to `upper`, both included. -/
def insertRange (set : NumberSet) (lower upper : Nat) : NumberSet :=
  let missing := List.replicate (upper / width + 1 - set.blocks.length) 0
  ⟨markFrom lower upper 0 (set.blocks ++ missing)⟩

@[simp] theorem contains_empty (n : Nat) : empty.contains n = false := by
  simp [empty, contains]

theorem testBit_mark (lower upper base block : Nat) {i : Nat} (hi : i < width) :
    (mark lower upper base block).testBit i =
      (block.testBit i || (decide (lower ≤ base + i) && decide (base + i ≤ upper))) := by
  unfold mark
  split
  · simp only [Nat.one_shiftLeft, Nat.testBit_or, Nat.testBit_shiftLeft,
      Nat.testBit_two_pow_sub_one, ← Bool.decide_and]
    congr 1
    rw [decide_eq_decide]
    omega
  · rename_i hapart
    have hout : ¬(lower ≤ base + i ∧ base + i ≤ upper) := by omega
    rw [← Bool.decide_and, decide_eq_false hout, Bool.or_false]

theorem getElem?_markFrom (lower upper base : Nat) (blocks : List Nat) (i : Nat) :
    (markFrom lower upper base blocks)[i]? =
      blocks[i]?.map (mark lower upper (base + width * i)) := by
  induction blocks generalizing base i with
  | nil => simp [markFrom]
  | cons block rest ih =>
    cases i with
    | zero => simp [markFrom]
    | succ i =>
      have hbase : base + width + width * i = base + width * (i + 1) := by
        rw [Nat.mul_succ]
        omega
      simp [markFrom, ih, hbase]

@[simp] theorem contains_insertRange (set : NumberSet) (lower upper n : Nat) :
    (set.insertRange lower upper).contains n =
      (set.contains n || (decide (lower ≤ n) && decide (n ≤ upper))) := by
  have hlt : n % width < width := Nat.mod_lt _ (by decide)
  have hsum : 0 + width * (n / width) + n % width = n := by
    rw [Nat.zero_add, Nat.div_add_mod]
  have hmark (block : Nat) := testBit_mark lower upper (0 + width * (n / width)) block hlt
  rw [hsum] at hmark
  simp only [contains, insertRange, getElem?_markFrom]
  by_cases hblock : n / width < set.blocks.length
  · rw [List.getElem?_append_left hblock, List.getElem?_eq_getElem hblock]
    exact hmark _
  · have hle : set.blocks.length ≤ n / width := by omega
    rw [List.getElem?_append_right hle, List.getElem?_eq_none hle, List.getElem?_replicate]
    by_cases hmissing : n / width - set.blocks.length < upper / width + 1 - set.blocks.length
    · rw [if_pos hmissing]
      exact hmark 0
    · have hupper : upper < n := Nat.lt_of_div_lt_div (show upper / width < n / width by omega)
      simp [hmissing, Nat.not_le.2 hupper]

end NumberSet

end SyscallFilter
