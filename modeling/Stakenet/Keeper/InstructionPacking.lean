import Mathlib.Algebra.Order.BigOperators.Group.List
import Mathlib.Data.Nat.ModEq
import Stakenet.Keeper.StakeUpload
import Stakenet.Keeper.SubmissionRecord

/-! The packing of instructions into transactions. Each instruction is simulated, and as many go
into one transaction as the compute units and the size of each of them allow. -/

namespace Stakenet.Keeper.InstructionPacking

open Submission

/-! ## Instructions -/

structure AccountMeta where
  pubkey : Pubkey
  isSigner : Bool
  isWritable : Bool
  deriving DecidableEq, Repr

structure Instruction where
  programId : Pubkey
  accounts : List AccountMeta
  data : List Bytes.Byte
  deriving DecidableEq, Repr

def setComputeUnitLimit (units : Nat) : Instruction :=
  ⟨computeBudgetProgram, [], setComputeUnitLimitData units⟩

def setComputeUnitPrice (microLamports : Nat) : Instruction :=
  ⟨computeBudgetProgram, [], setComputeUnitPriceData microLamports⟩

/-! ## Simulation -/

def defaultComputeLimit : Nat := 200000

def packetDataSize : Nat := 1232

/-- `size_of::<AccountMeta>()` -/
def accountMetaSize : Nat := 34

structure Simulation where
  err : Option TransactionError
  unitsConsumed : Option Nat
  deriving DecidableEq, Repr

/-- What is asked about the instruction at an index, where `None` is an error that is only logged:
whether there is a blockhash, and the outcome of each attempt to simulate. The size is that of a
packet with this instruction alone. Groups are gone through in any order. -/
structure Node where
  hasBlockhash : Nat → Bool
  simulate : (index attempt : Nat) → Option Simulation
  serializedSize : Instruction → Option Nat
  order : List Nat → List Nat
  serializedSize_le : ∀ instruction size,
    serializedSize instruction = some size → size ≤ packetDataSize
  order_perm : ∀ sizes, (order sizes).Perm sizes

/-- After five failures for want of the blockhash the last response is returned as it is. -/
def simulateInstructionWithRetry (simulate : Nat → Option Simulation) :
    (retries attempt : Nat) → Option Simulation
  | 0, attempt => simulate attempt
  | retries + 1, attempt => do
      let response ← simulate attempt
      match response.err with
      | some .blockhashNotFound => simulateInstructionWithRetry simulate retries (attempt + 1)
      | some _ => none
      | none => some response

/-- The compute units of an instruction whose simulation succeeds. -/
def simulated (node : Node) (index : Nat) : Option Nat := do
  guard (node.hasBlockhash index)
  let response ← simulateInstructionWithRetry (node.simulate index) 5 0
  guard response.err.isNone
  return response.unitsConsumed.getD defaultComputeLimit

def sizePerIx (instruction : Instruction) : Nat :=
  instruction.accounts.length * accountMetaSize + instruction.data.length

def divide (dividend divisor : Nat) : Result Nat :=
  if divisor = 0 then .error .panicked else .ok (dividend / divisor)

def findIxPerTx (node : Node) (maxCuPerTx : Nat) (instruction : Instruction) (index : Nat) :
    Result (Option Nat) :=
  match simulated node index with
  | none => .ok none
  | some compute => do
      let serializedSize ← unwrap (node.serializedSize instruction)
      let sizeMax ← divide (packetDataSize - serializedSize + sizePerIx instruction)
        (sizePerIx instruction)
      let computeMax ← divide maxCuPerTx compute
      return some (min sizeMax computeMax)

/-! ## Groups -/

/-- An instruction with its index among those to be packed. -/
abbrev Indexed := Instruction × Nat

def instructionsWithGrouping (node : Node) (maxCuPerTx : Nat) (indexed : List Indexed) :
    Result (List (Indexed × Nat)) :=
  match indexed with
  | [] => .ok []
  | (instruction, index) :: rest => do
      let ixPerTx ← findIxPerTx node maxCuPerTx instruction index
      let others ← instructionsWithGrouping node maxCuPerTx rest
      match ixPerTx with
      | none => return others
      | some size => return ((instruction, index), size) :: others

/-- The instructions of a group size, in batches of this size. The size zero is a panic. -/
def packIndexed (node : Node) (maxCuPerTx : Nat) (instructions : List Instruction) :
    Result (List (List Indexed)) := do
  let grouped ← instructionsWithGrouping node maxCuPerTx instructions.zipIdx
  let sizes := node.order (grouped.map Prod.snd).dedup
  if 0 ∈ sizes then
    .error .panicked
  else
    .ok (sizes.flatMap fun size => chunks size ((grouped.filter (·.2 = size)).map Prod.fst))

def packInstructions (node : Node) (maxCuPerTx : Nat) (instructions : List Instruction) :
    Result (List (List Instruction)) := do
  return (← packIndexed node maxCuPerTx instructions).map (·.map Prod.fst)

/-! ## Submission -/

/-- The budget that is put before the instructions of a transaction. -/
def withBudget (priorityFee maxCuPerTx : Nat) (transaction : List Instruction) :
    List Instruction :=
  let priced := setComputeUnitPrice priorityFee :: transaction
  if maxCuPerTx ≠ defaultComputeLimit then setComputeUnitLimit maxCuPerTx :: priced else priced

/-- The batches of `chunks`, each after the default limit. -/
def unpacked (chunkSize : Nat) (instructions : List Instruction) : List (List Instruction) :=
  (chunks chunkSize instructions).map (setComputeUnitLimit defaultComputeLimit :: ·)

/-- The transactions of `parallel_execute_instructions`. -/
def buildTransactions (node : Node) (instructions : List Instruction) (priorityFee : Nat)
    (maxCuPerTx : Option Nat) (noPack : Bool) : Result (List (List Instruction)) := do
  let maxCuPerTx := maxCuPerTx.getD defaultComputeLimit
  let transactions : Result (List (List Instruction)) :=
    if noPack then .ok (unpacked 1 instructions) else packInstructions node maxCuPerTx instructions
  return (← transactions).map (withBudget priorityFee maxCuPerTx)

/-- `parallel_execute_instructions`. The log is that of the submission. -/
def parallelExecuteInstructions {σ : Type} [DecidableEq σ] (client : Client Instruction σ)
    (node : Node) (instructions : List Instruction) (retryCount priorityFee : Nat)
    (maxCuPerTx : Option Nat) (noPack : Bool) (fuel : Nat) :
    Option (Outcome × Log Instruction σ) :=
  if instructions.isEmpty then
    some (.results [], [])
  else
    match buildTransactions node instructions priorityFee maxCuPerTx noPack with
    | .error _ => some (.panicked, [])
    | .ok transactions => parallelExecuteTransactions client transactions retryCount fuel

/-! ## The limits of a transaction -/

variable {node : Node} {maxCuPerTx : Nat}

/-- What the packing asks of an instruction whose simulation succeeds: it consumes some units within
the limit, and it fits a packet of its own, to which a copy of it adds some bytes. -/
structure Packs (node : Node) (maxCuPerTx : Nat) (indexed : Indexed) (compute : Nat) : Prop where
  computes : 0 < compute
  within : compute ≤ maxCuPerTx
  fits : ∃ serializedSize, node.serializedSize indexed.1 = some serializedSize
  nonempty : 0 < sizePerIx indexed.1

def Packable (node : Node) (maxCuPerTx : Nat) (instructions : List Instruction) : Prop :=
  ∀ indexed ∈ instructions.zipIdx, ∀ compute, simulated node indexed.2 = some compute →
    Packs node maxCuPerTx indexed compute

/-- An instruction goes into groups of a size for which its units and its packet are multiplied. -/
structure Allows (node : Node) (maxCuPerTx size : Nat) (indexed : Indexed) : Prop where
  units : ∃ compute, simulated node indexed.2 = some compute ∧ size * compute ≤ maxCuPerTx
  packet : ∃ serializedSize, node.serializedSize indexed.1 = some serializedSize ∧
    serializedSize + (size - 1) * sizePerIx indexed.1 ≤ packetDataSize

theorem divide_eq_ok {dividend divisor quotient : Nat} :
    divide dividend divisor = .ok quotient ↔ 0 < divisor ∧ dividend / divisor = quotient := by
  rw [divide, Nat.pos_iff_ne_zero]
  split <;> simp_all

/-- The size of the groups that an instruction goes into. -/
theorem findIxPerTx_eq_some {instruction : Instruction} {index size : Nat} :
    findIxPerTx node maxCuPerTx instruction index = .ok (some size) ↔
      ∃ compute serializedSize, simulated node index = some compute ∧
        node.serializedSize instruction = some serializedSize ∧
        0 < sizePerIx instruction ∧ 0 < compute ∧
        min ((packetDataSize - serializedSize + sizePerIx instruction) / sizePerIx instruction)
          (maxCuPerTx / compute) = size := by
  rw [findIxPerTx]
  cases isSimulated : simulated node index with
  | none => simp
  | some compute =>
      simp only [Outcome.bind_eq_ok, unwrap_eq_ok, divide_eq_ok, Outcome.pure_eq_ok,
        Option.some.injEq]
      constructor
      · rintro ⟨serializedSize, isSize, _, ⟨nonempty, rfl⟩, _, ⟨computes, rfl⟩, rfl⟩
        exact ⟨compute, serializedSize, rfl, isSize, nonempty, computes, rfl⟩
      · rintro ⟨_, serializedSize, rfl, isSize, nonempty, computes, rfl⟩
        exact ⟨serializedSize, isSize, _, ⟨nonempty, rfl⟩, _, ⟨computes, rfl⟩, rfl⟩

/-- An instruction is left out exactly if its simulation fails. -/
theorem findIxPerTx_eq_none {instruction : Instruction} {index : Nat} :
    findIxPerTx node maxCuPerTx instruction index = .ok none ↔ simulated node index = none := by
  rw [findIxPerTx]
  cases simulated node index with
  | none => simp
  | some compute =>
      simp only [Outcome.bind_eq_ok, Outcome.pure_eq_ok, reduceCtorEq, and_false, exists_false]

/-- A group of some instructions stays within the limits. -/
theorem allows_of_findIxPerTx {indexed : Indexed} {size : Nat}
    (found : findIxPerTx node maxCuPerTx indexed.1 indexed.2 = .ok (some size)) :
    Allows node maxCuPerTx size indexed := by
  rcases findIxPerTx_eq_some.mp found with
    ⟨compute, serializedSize, isSimulated, isSize, nonempty, computes, rfl⟩
  generalize isMax : (packetDataSize - serializedSize + sizePerIx indexed.1) /
    sizePerIx indexed.1 = sizeMax
  have bounded : serializedSize ≤ packetDataSize := node.serializedSize_le _ _ isSize
  refine ⟨⟨compute, isSimulated, ?_⟩, ⟨serializedSize, isSize, ?_⟩⟩
  · calc min sizeMax (maxCuPerTx / compute) * compute
        ≤ maxCuPerTx / compute * compute := Nat.mul_le_mul_right compute (Nat.min_le_right _ _)
      _ ≤ maxCuPerTx := Nat.div_mul_le_self _ _
  · have copies : sizeMax * sizePerIx indexed.1 ≤
        packetDataSize - serializedSize + sizePerIx indexed.1 := by
      rw [← isMax]
      exact Nat.div_mul_le_self _ _
    have others : (sizeMax - 1) * sizePerIx indexed.1 ≤ packetDataSize - serializedSize := by
      rw [Nat.sub_mul, Nat.one_mul]
      omega
    have fewer : (min sizeMax (maxCuPerTx / compute) - 1) * sizePerIx indexed.1 ≤
        (sizeMax - 1) * sizePerIx indexed.1 :=
      Nat.mul_le_mul_right _ (Nat.sub_le_sub_right (Nat.min_le_left _ _) 1)
    have added := Nat.add_le_add_left (fewer.trans others) serializedSize
    rw [Nat.add_sub_cancel' bounded] at added
    exact added

/-- One instruction at least goes into a group exactly if its units are within the limit. -/
theorem packs_iff {indexed : Indexed} {compute : Nat}
    (isSimulated : simulated node indexed.2 = some compute) :
    Packs node maxCuPerTx indexed compute ↔
      ∃ size, findIxPerTx node maxCuPerTx indexed.1 indexed.2 = .ok (some size) ∧ 0 < size := by
  constructor
  · rintro ⟨computes, within, ⟨serializedSize, isSize⟩, nonempty⟩
    refine ⟨_, findIxPerTx_eq_some.mpr
      ⟨compute, serializedSize, isSimulated, isSize, nonempty, computes, rfl⟩, ?_⟩
    have copies : 0 < (packetDataSize - serializedSize + sizePerIx indexed.1) /
        sizePerIx indexed.1 := Nat.div_pos (Nat.le_add_left _ _) nonempty
    exact Nat.lt_min.mpr ⟨copies, Nat.div_pos within computes⟩
  · rintro ⟨size, found, positive⟩
    rcases findIxPerTx_eq_some.mp found with
      ⟨other, serializedSize, isOther, isSize, nonempty, computes, rfl⟩
    cases isSimulated.symm.trans isOther
    have units : 0 < maxCuPerTx / compute := (Nat.lt_min.mp positive).2
    exact ⟨computes, (Nat.div_pos_iff.mp units).2, ⟨serializedSize, isSize⟩, nonempty⟩

/-- The instructions whose simulation succeeds, each with the size of its group. -/
theorem instructionsWithGrouping_eq_ok {indexed : List Indexed}
    {grouped : List (Indexed × Nat)}
    (isGrouped : instructionsWithGrouping node maxCuPerTx indexed = .ok grouped) :
    grouped.map Prod.fst = indexed.filter (fun item => (simulated node item.2).isSome) ∧
      ∀ item ∈ grouped, findIxPerTx node maxCuPerTx item.1.1 item.1.2 = .ok (some item.2) := by
  induction indexed generalizing grouped with
  | nil =>
      cases isGrouped
      exact ⟨rfl, fun _ member => absurd member List.not_mem_nil⟩
  | cons first rest induction =>
      simp only [instructionsWithGrouping, Outcome.bind_eq_ok] at isGrouped
      rcases isGrouped with ⟨ixPerTx, isFirst, others, isOthers, isGrouped⟩
      rcases induction isOthers with ⟨remaining, sizes⟩
      cases ixPerTx with
      | none =>
          cases isGrouped
          rw [List.filter_cons_of_neg (by simp [findIxPerTx_eq_none.mp isFirst])]
          exact ⟨remaining, sizes⟩
      | some size =>
          cases isGrouped
          rcases findIxPerTx_eq_some.mp isFirst with ⟨compute, _, isSimulated, _⟩
          rw [List.map_cons, List.filter_cons_of_pos (by simp [isSimulated]), remaining]
          exact ⟨rfl, List.forall_mem_cons.mpr ⟨isFirst, sizes⟩⟩

theorem exists_instructionsWithGrouping {indexed : List Indexed}
    (found : ∀ item ∈ indexed, ∃ size, findIxPerTx node maxCuPerTx item.1 item.2 = .ok size) :
    ∃ grouped, instructionsWithGrouping node maxCuPerTx indexed = .ok grouped := by
  induction indexed with
  | nil => exact ⟨[], rfl⟩
  | cons first rest induction =>
      rw [List.forall_mem_cons] at found
      rcases found.1 with ⟨ixPerTx, isFirst⟩
      rcases induction found.2 with ⟨others, isOthers⟩
      rw [instructionsWithGrouping, isFirst, isOthers]
      cases ixPerTx with
      | none => exact ⟨others, rfl⟩
      | some size => exact ⟨(first, size) :: others, rfl⟩

theorem packIndexed_eq_ok {instructions : List Instruction} {groups : List (List Indexed)} :
    packIndexed node maxCuPerTx instructions = .ok groups ↔
      ∃ grouped, instructionsWithGrouping node maxCuPerTx instructions.zipIdx = .ok grouped ∧
        (∀ item ∈ grouped, 0 < item.2) ∧
        groups = (node.order (grouped.map Prod.snd).dedup).flatMap fun size =>
          chunks size ((grouped.filter (·.2 = size)).map Prod.fst) := by
  rw [packIndexed, Outcome.bind_eq_ok]
  refine exists_congr fun grouped => and_congr_right fun _ => ?_
  have isSize : ∀ size, size ∈ node.order (grouped.map Prod.snd).dedup ↔
      ∃ item ∈ grouped, item.2 = size := by
    intro size
    rw [(node.order_perm _).mem_iff, List.mem_dedup, List.mem_map]
  dsimp only
  split
  case isTrue zero =>
    refine iff_of_false (fun impossible => ?_) ?_
    · cases impossible
    · rintro ⟨positive, _⟩
      rcases (isSize 0).mp zero with ⟨item, member, isZero⟩
      exact absurd isZero (Nat.ne_of_gt (positive item member))
  case isFalse nonzero =>
    have positive : ∀ item ∈ grouped, 0 < item.2 := fun item member =>
      Nat.pos_of_ne_zero fun isZero => nonzero ((isSize 0).mpr ⟨item, member, isZero⟩)
    rw [Except.ok.injEq]
    exact ⟨fun same => ⟨positive, same.symm⟩, fun same => same.2.symm⟩

/-- Packing panics exactly if some instruction whose simulation succeeds cannot be packed. -/
theorem packIndexed_isOk_iff {instructions : List Instruction} :
    (packIndexed node maxCuPerTx instructions).isOk = true ↔
      Packable node maxCuPerTx instructions := by
  constructor
  · intro succeeds indexed member compute isSimulated
    rcases Outcome.exists_eq_ok succeeds with ⟨groups, packed⟩
    rcases packIndexed_eq_ok.mp packed with ⟨grouped, isGrouped, positive, _⟩
    rcases instructionsWithGrouping_eq_ok isGrouped with ⟨remaining, sizes⟩
    have isIncluded : indexed ∈ grouped.map Prod.fst := by
      rw [remaining]
      exact List.mem_filter.mpr ⟨member, by simp [isSimulated]⟩
    rcases List.mem_map.mp isIncluded with ⟨item, inGrouped, rfl⟩
    exact (packs_iff isSimulated).mpr ⟨item.2, sizes item inGrouped, positive item inGrouped⟩
  · intro packable
    have found : ∀ item ∈ instructions.zipIdx,
        ∃ size, findIxPerTx node maxCuPerTx item.1 item.2 = .ok size := by
      intro item member
      cases isSimulated : simulated node item.2 with
      | none => exact ⟨none, findIxPerTx_eq_none.mpr isSimulated⟩
      | some compute =>
          rcases (packs_iff isSimulated).mp (packable item member compute isSimulated) with
            ⟨size, found, _⟩
          exact ⟨some size, found⟩
    rcases exists_instructionsWithGrouping found with ⟨grouped, isGrouped⟩
    rcases instructionsWithGrouping_eq_ok isGrouped with ⟨remaining, sizes⟩
    have positive : ∀ item ∈ grouped, 0 < item.2 := by
      intro item inGrouped
      have isIncluded : item.1 ∈ grouped.map Prod.fst := List.mem_map_of_mem inGrouped
      rw [remaining, List.mem_filter] at isIncluded
      rcases Option.isSome_iff_exists.mp isIncluded.2 with ⟨compute, isSimulated⟩
      rcases (packs_iff isSimulated).mp (packable _ isIncluded.1 compute isSimulated) with
        ⟨size, found, isPositive⟩
      cases found.symm.trans (sizes item inGrouped)
      exact isPositive
    rw [packIndexed_eq_ok.mpr ⟨grouped, isGrouped, positive, rfl⟩]
    rfl

/-- The units that an instruction consumed in its simulation. -/
def unitsOf (node : Node) (indexed : Indexed) : Nat := (simulated node indexed.2).getD 0

/-- The batches of a size keep within the limits that this size was computed from. -/
theorem sum_unitsOf_le {size : Nat} (positive : 0 < size) {group : List Indexed}
    (short : group.length ≤ size)
    (allows : ∀ indexed ∈ group, Allows node maxCuPerTx size indexed) :
    (group.map (unitsOf node)).sum ≤ maxCuPerTx := by
  have each : ∀ units ∈ group.map (unitsOf node), units ≤ maxCuPerTx / size := by
    intro units member
    rcases List.mem_map.mp member with ⟨indexed, inGroup, rfl⟩
    have allowed := allows indexed inGroup
    rcases allowed.units with ⟨compute, isSimulated, within⟩
    rw [unitsOf, isSimulated, Option.getD_some, Nat.le_div_iff_mul_le positive, Nat.mul_comm]
    exact within
  calc (group.map (unitsOf node)).sum
      ≤ (group.map (unitsOf node)).length * (maxCuPerTx / size) :=
        List.sum_le_card_nsmul _ _ each
    _ ≤ size * (maxCuPerTx / size) := by
        rw [List.length_map]
        exact Nat.mul_le_mul_right _ short
    _ ≤ maxCuPerTx := Nat.mul_div_le _ _

/-- Every instruction whose simulation succeeds is in one group, and no group is larger than any of
its instructions allows. -/
theorem packIndexed_groups {instructions : List Instruction} {groups : List (List Indexed)}
    (packed : packIndexed node maxCuPerTx instructions = .ok groups) :
    groups.flatten.Perm
        (instructions.zipIdx.filter fun indexed => (simulated node indexed.2).isSome) ∧
      ∀ group ∈ groups, group ≠ [] ∧ ∃ size, 0 < size ∧ group.length ≤ size ∧
        ∀ indexed ∈ group, Allows node maxCuPerTx size indexed := by
  rcases packIndexed_eq_ok.mp packed with ⟨grouped, isGrouped, positive, rfl⟩
  rcases instructionsWithGrouping_eq_ok isGrouped with ⟨remaining, found⟩
  let sizes := node.order (grouped.map Prod.snd).dedup
  have sized : sizes.Perm (grouped.map Prod.snd).dedup := node.order_perm _
  have isPositive : ∀ size ∈ sizes, 0 < size := by
    intro size member
    rcases List.mem_map.mp (List.mem_dedup.mp (sized.mem_iff.mp member)) with ⟨item, found, rfl⟩
    exact positive item found
  constructor
  · have batches : (sizes.flatMap fun size =>
          chunks size ((grouped.filter (·.2 = size)).map Prod.fst)).flatten =
        (sizes.flatMap fun size => grouped.filter (·.2 = size)).map Prod.fst := by
      rw [List.flatMap, List.flatten_flatten, List.map_map, List.map_flatMap, List.flatMap]
      refine congrArg List.flatten (List.map_congr_left fun size member => ?_)
      exact flatten_chunks (isPositive size member) _
    have groups : (sizes.flatMap fun size => grouped.filter (·.2 = size)).Perm grouped := by
      refine flatMap_filter_perm (sized.nodup_iff.mpr (List.nodup_dedup _)) fun item member => ?_
      exact sized.mem_iff.mpr (List.mem_dedup.mpr (List.mem_map_of_mem member))
    rw [batches, ← remaining]
    exact groups.map Prod.fst
  · intro group member
    rcases List.mem_flatMap.mp member with ⟨size, inSizes, inChunks⟩
    have positive := isPositive size inSizes
    have short := length_le_of_mem_chunks positive inChunks
    have allowed : ∀ indexed ∈ group, Allows node maxCuPerTx size indexed := by
      intro indexed inGroup
      have among := mem_of_mem_chunks positive inChunks inGroup
      rcases List.mem_map.mp among with ⟨item, filtered, rfl⟩
      rw [List.mem_filter, decide_eq_true_eq] at filtered
      exact filtered.2 ▸ allows_of_findIxPerTx (found item filtered.1)
    exact ⟨ne_nil_of_mem_chunks positive inChunks, size, positive, short, allowed⟩

/-- Three copies of vote accounts, of which the second is refused. -/
def sampleInstructions : List Instruction :=
  [60, 61, 62].map fun voteAccount => {
    programId := 5
    accounts := [⟨20 + voteAccount, false, true⟩, ⟨voteAccount, false, false⟩, ⟨7, true, true⟩]
    data := [11, 22, 33, 44, 55, 66, 77, 88] }

/-- The size of a transaction of one instruction whose accounts differ: the signature, the header,
the keys of the payer, the accounts and the program, the blockhash, and the instruction. -/
def packetSize (instruction : Instruction) : Nat :=
  65 + 3 + (1 + 32 * (instruction.accounts.length + 2)) + 32 +
    (1 + 1 + (1 + instruction.accounts.length) + (1 + instruction.data.length))

/-- A node for which every instruction but the second takes 50000 units. -/
def sampleNode : Node where
  hasBlockhash _ := true
  simulate index _ :=
    if index = 1 then some ⟨some (.other "custom program error"), some 3000⟩
    else some ⟨none, some 50000⟩
  serializedSize instruction :=
    if packetSize instruction ≤ packetDataSize then some (packetSize instruction) else none
  order sizes := sizes
  serializedSize_le := by
    intro instruction size isSize
    rw [Option.ite_none_right_eq_some, Option.some.injEq] at isSize
    exact isSize.2 ▸ isSize.1
  order_perm _ := .rfl

section Delivery

variable {σ : Type} [DecidableEq σ]

omit [DecidableEq σ] in
/-- Without errors every transaction is confirmed. -/
theorem confirmed_of_no_errors {client : Client Instruction σ}
    {transactions : List (List Instruction)} {results : List SendResult}
    {log : Log Instruction σ} (backed : Backed client transactions results log)
    (noErrors : (submitStats results).errors = 0) :
    ∀ transaction ∈ transactions, ∃ blockhash, ∃ event ∈ log,
      event.Confirms (client.sign ⟨transaction, blockhash⟩) := by
  intro transaction member
  rcases List.getElem_of_mem member with ⟨index, bounded, isTransaction⟩
  have all : ∀ result ∈ results, result.isOk = true := by
    rw [← List.countP_eq_length]
    have most : results.countP Except.isOk ≤ results.length := List.countP_le_length
    have none : results.length - results.countP Except.isOk = 0 := noErrors
    omega
  have inResults : index < results.length := backed.length ▸ bounded
  have isOk : results[index]? = some (.ok ()) := by
    rcases Outcome.exists_eq_ok (all _ (List.getElem_mem inResults)) with ⟨_, isResult⟩
    rw [List.getElem?_eq_getElem inResults, isResult]
  rcases backed.confirmed index isOk with ⟨event, inLog, instructions, blockhash, found,
    confirms⟩
  rw [List.getElem?_eq_getElem bounded, Option.some.injEq, isTransaction] at found
  subst found
  exact ⟨blockhash, event, inLog, confirms⟩

/-- Every instruction that is to be delivered is in a transaction. -/
theorem mem_buildTransactions {instructions : List Instruction} {priorityFee : Nat}
    {limit : Option Nat} {noPack : Bool} {transactions : List (List Instruction)}
    (built : buildTransactions node instructions priorityFee limit noPack = .ok transactions)
    {index : Nat} (bounded : index < instructions.length)
    (delivered : noPack = true ∨ (simulated node index).isSome = true) :
    ∃ transaction ∈ transactions, instructions[index] ∈ transaction := by
  have budget : ∀ (priorityFee limit : Nat) (transaction : List Instruction),
      transaction ⊆ withBudget priorityFee limit transaction := by
    intro priorityFee limit transaction instruction member
    rw [withBudget]
    split
    · exact List.mem_cons_of_mem _ (List.mem_cons_of_mem _ member)
    · exact List.mem_cons_of_mem _ member
  simp only [buildTransactions, Outcome.bind_eq_ok] at built
  rcases built with ⟨unpriced, isUnpriced, built⟩
  cases built
  have found : ∃ transaction ∈ unpriced, instructions[index] ∈ transaction := by
    split at isUnpriced
    case isTrue =>
      cases isUnpriced
      have member : instructions[index] ∈ (chunks 1 instructions).flatten := by
        rw [flatten_chunks (by decide)]
        exact List.getElem_mem bounded
      rcases List.mem_flatten.mp member with ⟨chunk, inChunks, inChunk⟩
      exact ⟨_, List.mem_map_of_mem inChunks, List.mem_cons_of_mem _ inChunk⟩
    case isFalse isPacked =>
      simp only [packInstructions, Outcome.bind_eq_ok] at isUnpriced
      rcases isUnpriced with ⟨groups, packed, isUnpriced⟩
      cases isUnpriced
      have complete := (packIndexed_groups packed).1
      have member : (instructions[index], index) ∈ groups.flatten := by
        refine complete.mem_iff.mpr (List.mem_filter.mpr ⟨?_, delivered.resolve_left isPacked⟩)
        exact List.mem_zipIdx_iff_getElem?.mpr (List.getElem?_eq_getElem bounded)
      rcases List.mem_flatten.mp member with ⟨group, inGroups, inGroup⟩
      exact ⟨_, List.mem_map_of_mem inGroups, List.mem_map_of_mem inGroup⟩
  rcases found with ⟨transaction, member, among⟩
  exact ⟨_, List.mem_map_of_mem member, budget _ _ _ among⟩

/-- When a submission of instructions ends without errors, every instruction is in a transaction
that was confirmed, except for those that are left out because their simulation failed. -/
theorem instructions_delivered (client : Client Instruction σ) (node : Node)
    (instructions : List Instruction) (retryCount priorityFee : Nat) (limit : Option Nat)
    (noPack : Bool) (fuel : Nat) (transactions : List (List Instruction))
    (built : buildTransactions node instructions priorityFee limit noPack = .ok transactions)
    (results : List SendResult) (log : Log Instruction σ)
    (finished : parallelExecuteInstructions client node instructions retryCount priorityFee limit
      noPack fuel = some (.results results, log))
    (noErrors : (submitStats results).errors = 0) (index : Nat)
    (bounded : index < instructions.length)
    (delivered : noPack = true ∨ (simulated node index).isSome = true) :
    ∃ transaction ∈ transactions, instructions[index] ∈ transaction ∧
      ∃ blockhash, ∃ event ∈ log, event.Confirms (client.sign ⟨transaction, blockhash⟩) := by
  rcases mem_buildTransactions built bounded delivered with ⟨transaction, member, among⟩
  have nonempty : ¬instructions.isEmpty := by
    rw [List.isEmpty_iff]
    exact fun none => absurd bounded (none ▸ Nat.not_lt_zero index)
  rw [parallelExecuteInstructions, if_neg nonempty, built] at finished
  have truthful : Truthful (Backed client transactions) (.results results, log) :=
    Backed.traces.truthful finished
  exact ⟨transaction, member, among,
    confirmed_of_no_errors (truthful.1 results rfl) noErrors transaction member⟩

/-- A client that confirms everything. -/
def confirmingClient : Client Instruction (SignedTransaction Instruction) where
  sign transaction := transaction
  latestBlockhash _ := .ok 1
  sendTransaction _ transaction := .ok transaction
  signatureStatuses _ signatures := .ok (signatures.map fun _ => some ⟨true, none⟩)
  isBlockhashValid _ _ := .ok true
  order _ signatures := signatures
  returnsSignature _ _ _ sent := (Except.ok.inj sent).symm
  order_perm _ _ := .rfl

theorem instructions_delivered_sample :
    ∃ transactions log, buildTransactions sampleNode sampleInstructions 7 none false =
        .ok transactions ∧
      parallelExecuteInstructions confirmingClient sampleNode sampleInstructions 3 7 none false 5 =
        some (.results [.ok ()], log) ∧
      ∃ transaction ∈ transactions, sampleInstructions[2] ∈ transaction ∧
        ∃ blockhash, ∃ event ∈ log,
          event.Confirms (confirmingClient.sign ⟨transaction, blockhash⟩) :=
  ⟨_, _, rfl, rfl, instructions_delivered confirmingClient sampleNode sampleInstructions 3 7 none
    false 5 _ rfl [.ok ()] _ rfl rfl 2 (by decide) (.inr rfl)⟩

end Delivery

end Stakenet.Keeper.InstructionPacking
