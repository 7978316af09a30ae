import SyscallFilter.Proofs.Generator.Blocks
import SyscallFilter.Proofs.Generator.Size
import SyscallFilter.Proofs.Section.Emitted

namespace SyscallFilter.MaskTest

/-- All 32 numbers of the block are members, or none is. -/
def Uniform (member : Nat → Bool) (block : Nat) : Prop :=
  (∀ i < 32, member (32 * block + i) = true) ∨ ∀ i < 32, member (32 * block + i) = false

instance (member : Nat → Bool) (block : Nat) : Decidable (Uniform member block) :=
  inferInstanceAs (Decidable (_ ∨ _))

/-- The lines trace the members among the numbers of the block and allow the
    others. In a uniform block that takes one comparison, in a mixed one a mask
    with a bit for each member. -/
inductive Tests (member : Nat → Bool) (block : Nat) : Section → Prop where
  | none (hnone : ∀ i < 32, member (32 * block + i) = false) :
    Tests member block [.branch Opcode.jeq (UInt32.ofNat block) .allow (.skip 0)]
  | all (hall : ∀ i < 32, member (32 * block + i) = true) :
    Tests member block [.branch Opcode.jeq (UInt32.ofNat block) .trace (.skip 0)]
  | mixed (hmixed : ¬Uniform member block) (mask : UInt32)
      (hmask : ∀ i < 32, mask.toNat.testBit i = member (32 * block + i)) :
    Tests member block
      [.branch Opcode.jeq (UInt32.ofNat block) (.skip 0) (.skip 2),
        .stmt (.stmt (Opcode.misc ||| Opcode.txa) 0),
        .branch Opcode.jset mask .trace .allow]

theorem Tests.length_eq {member : Nat → Bool} {block : Nat} {lines : Section}
    (htests : Tests member block lines) : lines.length = if Uniform member block then 1 else 3 := by
  cases htests with
  | none hnone => rw [if_pos (.inr hnone)]; rfl
  | all hall => rw [if_pos (.inl hall)]; rfl
  | mixed hmixed => rw [if_neg hmixed]; rfl

/-- Codes and constants of the instructions that judge the numbers of a block: `jeq`
    with the block, and in a mixed block `txa` and `jset` with a constant that has
    a bit for each member. -/
inductive Emits (member : Nat → Bool) (block : Nat) : List (UInt16 × UInt32) → Prop where
  | uniform (huniform : Uniform member block) : Emits member block [(0x15, UInt32.ofNat block)]
  | mixed (hmixed : ¬Uniform member block) (mask : UInt32)
      (hmask : ∀ i < 32, mask.toNat.testBit i = member (32 * block + i)) :
    Emits member block [(0x15, UInt32.ofNat block), (0x87, 0), (0x45, mask)]

theorem Tests.exists_emits {member : Nat → Bool} {block : Nat} {lines : Section}
    (htests : Tests member block lines) :
    ∃ keys, lines.map Line.key? = keys.map some ∧ Emits member block keys := by
  cases htests with
  | none hnone => exact ⟨_, rfl, .uniform (.inr hnone)⟩
  | all hall => exact ⟨_, rfl, .uniform (.inl hall)⟩
  | mixed hmixed mask hmask => exact ⟨_, rfl, .mixed hmixed mask hmask⟩

/-- Lines that test some blocks emit what each block calls for, one block after the
    other. -/
theorem exists_emits_flatMap {member : Nat → Bool} {lines : Nat → Section} {blocks : List Nat}
    (htests : ∀ block ∈ blocks, Tests member block (lines block)) :
    ∃ chunks : List (List (UInt16 × UInt32)),
      (blocks.flatMap lines).map Line.key? = chunks.flatten.map some ∧
        List.Forall₂ (Emits member) blocks chunks := by
  induction blocks with
  | nil => exact ⟨[], rfl, .nil⟩
  | cons block later ih =>
    obtain ⟨hblock, hlater⟩ := List.forall_mem_cons.mp htests
    obtain ⟨keys, hkeys, hemits⟩ := hblock.exists_emits
    obtain ⟨chunks, hchunks, hall⟩ := ih hlater
    refine ⟨keys :: chunks, ?_, .cons hemits hall⟩
    rw [List.flatMap_cons, List.map_append, hkeys, hchunks, List.flatten_cons, List.map_append]

/-- A mask without a bit, or with all bits, belongs to a uniform block. -/
theorem tests_compare {member : Nat → Bool} {block : Nat} {mask : UInt32}
    (hmask : ∀ i < 32, mask.toNat.testBit i = member (32 * block + i)) :
    Tests member block (compare (UInt32.ofNat block) mask) := by
  have hnone : mask = 0 ↔ ∀ i < 32, member (32 * block + i) = false := by
    rw [Word.eq_zero_iff]
    exact forall₂_congr fun i hi => by rw [hmask i hi]
  have hall : mask = 0xffffffff ↔ ∀ i < 32, member (32 * block + i) = true := by
    rw [Word.eq_ones_iff]
    exact forall₂_congr fun i hi => by rw [hmask i hi]
  unfold compare
  split
  · rename_i hzero
    exact Tests.none (hnone.mp hzero)
  · rename_i hnonzero
    split
    · rename_i hones
      exact Tests.all (hall.mp hones)
    · rename_i hclear
      refine Tests.mixed ?_ mask hmask
      rintro (huniform | huniform)
      · exact hclear (hall.mpr huniform)
      · exact hnonzero (hnone.mpr huniform)

/-- How many blocks the known numbers of an ABI fill, the last one perhaps in
    part. -/
def blockTotal (abi : Abi) : Nat :=
  (abi.count.toNat + 31) / 32

/-- What the body has for a block. -/
def blockLines (policy : TracePolicy) (abi : Abi) (index block : Nat) : Section :=
  compare (UInt32.ofNat block) (blockMask policy abi index (UInt32.ofNat block))

/-- The instructions of a section by its uniform and its mixed blocks. -/
def sectionSize (policy : TracePolicy) (abi : Abi) (index : Nat) : Nat :=
  let blocks := List.range (blockTotal abi)
  (if abi.flag = 0 then 12 else 16) +
    blocks.countP (fun block => Uniform (counts policy abi index) block) +
    3 * blocks.countP (fun block => ¬Uniform (counts policy abi index) block)

/-- The section of an ABI tests the blocks from 0 on, each for the numbers that
    count as traced. Behind the preamble and the loads stand the instructions for
    one block after the other, the jump past all blocks and the two returns. -/
structure TestsBlocks (policy : TracePolicy) (abi : Abi) (index : Nat) : Prop where
  body_eq : body policy abi index =
    loadBit ++ loadBlock abi ++ (List.range (blockTotal abi)).flatMap (blockLines policy abi index) ++
      [.always .trace]
  tests : ∀ block < blockTotal abi,
    Tests (counts policy abi index) block (blockLines policy abi index block)
  length_eq :
    (Draft.sectionOf (body policy) (abi, index)).resolve.length = sectionSize policy abi index
  emitted_eq : ∃ chunks : List (List (UInt16 × UInt32)),
    ((Draft.sectionOf (body policy) (abi, index)).resolve.drop (if abi.flag = 0 then 9 else 13)).map
        (fun insn => (insn.code, insn.k)) =
      chunks.flatten ++ [(0x05, 1), (0x06, 0x7fff0000), (0x06, 0x7ff00000)] ∧
    List.Forall₂ (Emits (counts policy abi index)) (List.range (blockTotal abi)) chunks

section Abi

variable {abi : Abi} (hcount : abi.count.toNat + 32 ≤ UInt32.size) (policy : TracePolicy)
  (index : Nat)

include hcount

theorem compares_eq_blockLines :
    (blocks abi).flatMap (fun block => compare block (blockMask policy abi index block)) =
      (List.range (blockTotal abi)).flatMap (blockLines policy abi index) := by
  rw [blocks, List.flatMap_map, toNat_blockCount hcount]
  rfl

theorem tests_blockLines {block : Nat} (hblock : block < blockTotal abi) :
    Tests (counts policy abi index) block (blockLines policy abi index block) :=
  tests_compare fun _ hi => testBit_blockMask hcount hblock hi policy index

theorem size_sectionOf_eq :
    (Draft.sectionOf (body policy) (abi, index)).size = sectionSize policy abi index := by
  have hlines : ((List.range (blockTotal abi)).flatMap (blockLines policy abi index)).length =
      1 * (List.range (blockTotal abi)).countP (fun block => Uniform (counts policy abi index) block) +
        3 * (List.range (blockTotal abi)).countP fun block =>
          !decide (Uniform (counts policy abi index) block) := by
    apply length_flatMap_eq_countP
    intro block hblock
    rw [(tests_blockLines hcount policy index (List.mem_range.mp hblock)).length_eq]
    simp only [decide_eq_true_eq]
  rw [size_sectionOf, compares_eq_blockLines hcount, hlines, sectionSize]
  simp only [decide_not, Nat.one_mul, Nat.add_assoc]

theorem exists_emits_sectionOf : ∃ chunks : List (List (UInt16 × UInt32)),
    ((Draft.sectionOf (body policy) (abi, index)).resolve.drop (if abi.flag = 0 then 9 else 13)).map
        Instruction.key =
      chunks.flatten ++ [(0x05, 1), (0x06, 0x7fff0000), (0x06, 0x7ff00000)] ∧
    List.Forall₂ (Emits (counts policy abi index)) (List.range (blockTotal abi)) chunks := by
  have htests : ∀ block ∈ List.range (blockTotal abi),
      Tests (counts policy abi index) block (blockLines policy abi index block) :=
    fun block hblock => tests_blockLines hcount policy index (List.mem_range.mp hblock)
  obtain ⟨chunks, hchunks, hemits⟩ := exists_emits_flatMap htests
  refine ⟨chunks, ?_, hemits⟩
  let loads : Section := Section.preamble abi ++ (loadBit ++ loadBlock abi)
  have hloads : (if abi.flag = 0 then 9 else 13) = loads.length := by
    have hloadBit : loadBit.length = 5 := rfl
    rw [List.length_append, List.length_append, Section.length_preamble, hloadBit, length_loadBlock]
    split <;> rfl
  have hlines : Draft.sectionOf (body policy) (abi, index) = loads ++
      ((List.range (blockTotal abi)).flatMap (blockLines policy abi index) ++ [.always .trace]) := by
    rw [Draft.sectionOf, body, compares_eq_blockLines hcount]
    simp only [loads, List.append_assoc]
  rw [hloads, hlines, Section.drop_resolve_append, Section.map_key_resolve_append hchunks]
  rfl

theorem testsBlocks_body : TestsBlocks policy abi index where
  body_eq := by rw [body, compares_eq_blockLines hcount]
  tests _ hblock := tests_blockLines hcount policy index hblock
  length_eq := by rw [Section.length_resolve, size_sectionOf_eq hcount]
  emitted_eq := exists_emits_sectionOf hcount policy index

end Abi

/-- Every section tests its blocks in ascending order, and how many of them are
    uniform decides how long it is and whether the program overflows. Flags may
    be any words. Without overflow the program consists of these sections. -/
theorem draft_testsBlocks {table : AbiTable}
    (hcounts : ∀ abi ∈ table, abi.count.toNat + 32 ≤ UInt32.size) (policy : TracePolicy) :
    let size := fun entry : Abi × Nat => sectionSize policy entry.1 entry.2
    (∀ entry ∈ table.zipIdx, TestsBlocks policy entry.1 entry.2) ∧
      ((draft table policy).overflow = true ↔
        (∃ entry ∈ table.zipIdx, 255 < size entry) ∨ 8192 ≤ 1 + (table.zipIdx.map size).sum) ∧
      ((draft table policy).overflow = false →
        (draft table policy).code = .load .arch :: Draft.codeOf (body policy) table.testOrder) := by
  intro size
  have hcount : ∀ entry ∈ table.zipIdx, entry.1.count.toNat + 32 ≤ UInt32.size :=
    fun entry hentry => hcounts _ (List.fst_mem_of_mem_zipIdx hentry)
  refine ⟨fun entry hentry => testsBlocks_body (hcount entry hentry) _ _, ?_, ?_⟩
  · exact Draft.overflow_ofSections_iff fun entry hentry =>
      size_sectionOf_eq (hcount entry hentry) _ _
  · exact fun hfits => (Draft.ofSections_of_not_overflow hfits).1

/-- Three mixed blocks, the last one because it is filled up; then 125 blocks, of
    which all are mixed or all are uniform. -/
theorem draft_testsBlocks_scattered :
    let partly : AbiTable := [⟨"partly", Arch.arm, 3, 70⟩]
    let fourNumbers : TracePolicy :=
      ⟨#[⟨70, (NumberSet.empty.insertRange 5 7).insertRange 40 40, []⟩], false⟩
    let large : AbiTable := [⟨"large", Arch.arm, 0, 4000⟩]
    let everySecond : TracePolicy := ⟨#[⟨4000, ⟨[(4 ^ 2000 - 1) / 3]⟩, []⟩], false⟩
    (∀ abi ∈ partly, abi.count.toNat + 32 ≤ UInt32.size) ∧
      (∃ abi ∈ partly, TestsBlocks fourNumbers abi 0 ∧ sectionSize fourNumbers abi 0 = 16 + 3 * 3) ∧
      (draft partly fourNumbers).overflow = false ∧
      (∀ abi ∈ large, abi.count.toNat + 32 ≤ UInt32.size) ∧
      (draft large everySecond).overflow = true ∧ (draft large (.bare large)).overflow = false := by
  intro partly fourNumbers large everySecond
  have hpartly : ∀ abi ∈ partly, abi.count.toNat + 32 ≤ UInt32.size := by decide
  have hlarge : ∀ abi ∈ large, abi.count.toNat + 32 ≤ UInt32.size := by decide
  obtain ⟨hsections, hoverflow, _⟩ := draft_testsBlocks hpartly fourNumbers
  refine ⟨hpartly, ⟨_, List.mem_cons_self, hsections (_, 0) List.mem_cons_self, ?_⟩, ?_, hlarge, ?_, ?_⟩
  · decide +kernel
  · rw [← Bool.not_eq_true, hoverflow]
    decide +kernel
  · rw [(draft_testsBlocks hlarge everySecond).2.1]
    decide +kernel
  · rw [← Bool.not_eq_true, (draft_testsBlocks hlarge _).2.1]
    decide +kernel

end SyscallFilter.MaskTest
