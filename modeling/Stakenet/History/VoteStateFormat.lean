import Stakenet.History.VoteState

/-! The four versions of a vote account in full, their encoding, and the agreement
of the parser with it. -/

namespace Stakenet.History

open Bytes (Byte)
open Bincode (Reader digits writeBool writeOption writeArray writeVec)

/-! ## Vote states -/

/-- A collection is shorter than the address space. -/
abbrev Vec (α : Type) := { items : List α // items.length < 2 ^ 64 }

structure Lockout where
  slot : BitVec 64
  confirmationCount : BitVec 32

structure LandedVote where
  latency : BitVec 8
  lockout : Lockout

structure BlockTimestamp where
  slot : BitVec 64
  timestamp : BitVec 64

/-- The buffer of prior voters. -/
structure PriorVoters (α : Type) where
  buf : Fin VoteStateVersions.maxPriorVoters → α
  idx : BitVec 64
  isEmpty : Bool

/-- A map from epochs to keys, in the order of the epochs. -/
structure AuthorizedVoters where
  authorizedVoters : Vec (BitVec 64 × Pubkey)
  ascending : authorizedVoters.val.Pairwise fun first second => first.1 < second.1

/-- Epoch, credits and previous credits. -/
abbrev CreditTriple := BitVec 64 × BitVec 64 × BitVec 64

structure VoteState0235 where
  nodePubkey : Pubkey
  authorizedVoter : Pubkey
  authorizedVoterEpoch : BitVec 64
  priorVoters : PriorVoters (Pubkey × BitVec 64 × BitVec 64 × BitVec 64)
  authorizedWithdrawer : Pubkey
  commission : BitVec 8
  votes : Vec Lockout
  rootSlot : Option (BitVec 64)
  epochCredits : Vec CreditTriple
  lastTimestamp : BlockTimestamp

structure VoteState11411 where
  nodePubkey : Pubkey
  authorizedWithdrawer : Pubkey
  commission : BitVec 8
  votes : Vec Lockout
  rootSlot : Option (BitVec 64)
  authorizedVoters : AuthorizedVoters
  priorVoters : PriorVoters (Pubkey × BitVec 64 × BitVec 64)
  epochCredits : Vec CreditTriple
  lastTimestamp : BlockTimestamp

structure VoteState1160 where
  nodePubkey : Pubkey
  authorizedWithdrawer : Pubkey
  commission : BitVec 8
  votes : Vec LandedVote
  rootSlot : Option (BitVec 64)
  authorizedVoters : AuthorizedVoters
  priorVoters : PriorVoters (Pubkey × BitVec 64 × BitVec 64)
  epochCredits : Vec CreditTriple
  lastTimestamp : BlockTimestamp

structure BLSPubkey where
  bytes : Fin 48 → Byte

structure VoteState where
  nodePubkey : Pubkey
  authorizedWithdrawer : Pubkey
  inflationRewardsCollector : Pubkey
  blockRevenueCollector : Pubkey
  inflationRewardsCommissionBps : BitVec 16
  blockRevenueCommissionBps : BitVec 16
  pendingDelegatorRewards : BitVec 64
  blsPubkeyCompressed : Option BLSPubkey
  votes : Vec LandedVote
  rootSlot : Option (BitVec 64)
  authorizedVoters : AuthorizedVoters
  epochCredits : Vec CreditTriple
  lastTimestamp : BlockTimestamp

inductive VoteStateVersions
  | v0235 (state : VoteState0235)
  | v11411 (state : VoteState11411)
  | v1160 (state : VoteState1160)
  | current (state : VoteState)

/-! ## Encoding -/

/-- An integer of so many bytes. -/
def writeInt (width : Nat) (value : BitVec (8 * width)) : List Byte := digits width value.toNat

def writePubkey (key : Pubkey) : List Byte := digits 32 key.toNat

def Lockout.write (lockout : Lockout) : List Byte :=
  writeInt 8 lockout.slot ++ writeInt 4 lockout.confirmationCount

def LandedVote.write (vote : LandedVote) : List Byte :=
  writeInt 1 vote.latency ++ vote.lockout.write

def BlockTimestamp.write (timestamp : BlockTimestamp) : List Byte :=
  writeInt 8 timestamp.slot ++ writeInt 8 timestamp.timestamp

def PriorVoters.write (writeVoter : α → List Byte) (voters : PriorVoters α) : List Byte :=
  writeArray writeVoter voters.buf ++ writeInt 8 voters.idx ++ writeBool voters.isEmpty

def writeAuthorizedVoter (voter : BitVec 64 × Pubkey) : List Byte :=
  writeInt 8 voter.1 ++ writePubkey voter.2

def AuthorizedVoters.write (voters : AuthorizedVoters) : List Byte :=
  writeVec writeAuthorizedVoter voters.authorizedVoters.val

def writePriorVoter (voter : Pubkey × BitVec 64 × BitVec 64) : List Byte :=
  writePubkey voter.1 ++ writeInt 8 voter.2.1 ++ writeInt 8 voter.2.2

def writePriorVoter0235 (voter : Pubkey × BitVec 64 × BitVec 64 × BitVec 64) : List Byte :=
  writePubkey voter.1 ++ writeInt 8 voter.2.1 ++ writeInt 8 voter.2.2.1 ++ writeInt 8 voter.2.2.2

def writeCreditTriple (credits : CreditTriple) : List Byte :=
  writeInt 8 credits.1 ++ writeInt 8 credits.2.1 ++ writeInt 8 credits.2.2

def VoteState0235.write (state : VoteState0235) : List Byte :=
  writePubkey state.nodePubkey ++ writePubkey state.authorizedVoter ++
    writeInt 8 state.authorizedVoterEpoch ++ state.priorVoters.write writePriorVoter0235 ++
    writePubkey state.authorizedWithdrawer ++ writeInt 1 state.commission ++
    writeVec Lockout.write state.votes.val ++ writeOption (writeInt 8) state.rootSlot ++
    writeVec writeCreditTriple state.epochCredits.val ++ state.lastTimestamp.write

def VoteState11411.write (state : VoteState11411) : List Byte :=
  writePubkey state.nodePubkey ++ writePubkey state.authorizedWithdrawer ++
    writeInt 1 state.commission ++ writeVec Lockout.write state.votes.val ++
    writeOption (writeInt 8) state.rootSlot ++ state.authorizedVoters.write ++
    state.priorVoters.write writePriorVoter ++
    writeVec writeCreditTriple state.epochCredits.val ++ state.lastTimestamp.write

def VoteState1160.write (state : VoteState1160) : List Byte :=
  writePubkey state.nodePubkey ++ writePubkey state.authorizedWithdrawer ++
    writeInt 1 state.commission ++ writeVec LandedVote.write state.votes.val ++
    writeOption (writeInt 8) state.rootSlot ++ state.authorizedVoters.write ++
    state.priorVoters.write writePriorVoter ++
    writeVec writeCreditTriple state.epochCredits.val ++ state.lastTimestamp.write

/-- The 48 bytes have no length in front. -/
def BLSPubkey.write (key : BLSPubkey) : List Byte := writeArray (fun byte => [byte]) key.bytes

def VoteState.write (state : VoteState) : List Byte :=
  writePubkey state.nodePubkey ++ writePubkey state.authorizedWithdrawer ++
    writePubkey state.inflationRewardsCollector ++ writePubkey state.blockRevenueCollector ++
    writeInt 2 state.inflationRewardsCommissionBps ++
    writeInt 2 state.blockRevenueCommissionBps ++ writeInt 8 state.pendingDelegatorRewards ++
    writeOption BLSPubkey.write state.blsPubkeyCompressed ++
    writeVec LandedVote.write state.votes.val ++ writeOption (writeInt 8) state.rootSlot ++
    state.authorizedVoters.write ++ writeVec writeCreditTriple state.epochCredits.val ++
    state.lastTimestamp.write

/-- The version is the index of the variant. -/
def VoteStateVersions.write : VoteStateVersions → List Byte
  | .v0235 state => digits 4 0 ++ state.write
  | .v11411 state => digits 4 1 ++ state.write
  | .v1160 state => digits 4 2 ++ state.write
  | .current state => digits 4 3 ++ state.write

/-! ## What is read -/

def CreditTriple.toEpochCredits (credits : CreditTriple) : EpochCredits :=
  ⟨credits.1.toNat, credits.2.1.toNat, credits.2.2.toNat⟩

def VoteStateVersions.epochCredits : VoteStateVersions → List CreditTriple
  | .v0235 state => state.epochCredits.val
  | .v11411 state => state.epochCredits.val
  | .v1160 state => state.epochCredits.val
  | .current state => state.epochCredits.val

/-- The newest version has the commission in basis points, and no more than
10,000 of them are valid. -/
def VoteStateVersions.commission : VoteStateVersions → Result Nat
  | .v0235 state => .ok state.commission.toNat
  | .v11411 state => .ok state.commission.toNat
  | .v1160 state => .ok state.commission.toNat
  | .current state =>
      if 10000 < state.inflationRewardsCommissionBps.toNat then
        .error (.voteState .voteAccountDataNotValid)
      else
        .ok (state.inflationRewardsCommissionBps.toNat / 100)

/-! ## Sizes -/

@[simp] theorem length_writeInt (width : Nat) (value : BitVec (8 * width)) :
    (writeInt width value).length = width :=
  Bincode.length_digits _ _

@[simp] theorem length_writePubkey (key : Pubkey) : (writePubkey key).length = 32 :=
  Bincode.length_digits _ _

theorem Lockout.length_write (lockout : Lockout) : lockout.write.length = 12 := by
  simp [write]

theorem LandedVote.length_write (vote : LandedVote) : vote.write.length = 13 := by
  simp [write, Lockout.length_write]

theorem length_writeAuthorizedVoter (voter : BitVec 64 × Pubkey) :
    (writeAuthorizedVoter voter).length = 40 := by
  simp [writeAuthorizedVoter]

theorem length_writePriorVoter (voter : Pubkey × BitVec 64 × BitVec 64) :
    (writePriorVoter voter).length = 48 := by
  simp [writePriorVoter]

theorem length_writePriorVoter0235 (voter : Pubkey × BitVec 64 × BitVec 64 × BitVec 64) :
    (writePriorVoter0235 voter).length = 56 := by
  simp [writePriorVoter0235]

theorem length_writeCreditTriple (credits : CreditTriple) :
    (writeCreditTriple credits).length = 24 := by
  simp [writeCreditTriple]

theorem PriorVoters.length_write {writeVoter : α → List Byte} {size : Nat}
    (sizes : ∀ voter, (writeVoter voter).length = size) (voters : PriorVoters α) :
    (voters.write writeVoter).length = 32 * size + 9 := by
  have buffer := Bincode.length_writeArray sizes voters.buf
  rw [write, List.length_append, List.length_append, buffer, length_writeInt]
  rfl

theorem BLSPubkey.length_write (key : BLSPubkey) : key.write.length = 48 := by
  simp [write, writeArray]

theorem number_writeInt (width : Nat) (value : BitVec (8 * width)) :
    value.toNat % 256 ^ width = value.toNat := by
  apply Nat.mod_eq_of_lt
  have bound := value.isLt
  rwa [Nat.pow_mul] at bound

/-! ## Walking through the data -/

section Walk

variable {data front rest : List Byte} {index : Nat}

theorem drop_of_eq (split : data = front ++ rest) (length : front.length = index) :
    data.drop index = rest := by
  rw [split, List.drop_left' length]

/-- After a part of the data comes the next one. -/
theorem drop_next (here : data.drop index = front ++ rest) :
    data.drop (index + front.length) = rest := by
  rw [← List.drop_drop, here, List.drop_left]

theorem slice_here (here : data.drop index = front ++ rest) (nonempty : 0 < front.length) :
    slice data index (index + front.length) = .ok front := by
  have length := congrArg List.length here
  rw [List.length_drop, List.length_append] at length
  rw [slice_eq_ok, here, Nat.add_sub_cancel_left, List.take_left]
  exact ⟨by omega, rfl⟩

namespace VoteStateVersions

theorem deserializeAs_eq_ok {reader : Reader α} {value : α}
    (read : reader.run data = some (value, rest)) : deserializeAs reader data = .ok value := by
  rw [deserializeAs, Reader.deserialize_eq_some.mpr ⟨rest, read⟩]

theorem enumValueAtIndex_eq {version : Nat} (here : data = digits 4 version ++ rest)
    (valid : version < 4) : enumValueAtIndex data 0 = .ok version := by
  have atStart : data.drop 0 = digits 4 version ++ rest := here
  have tag := slice_here atStart (by simp)
  rw [Bincode.length_digits] at tag
  have read := Reader.word_digits 4 version []
  rw [List.append_nil, Nat.mod_eq_of_lt (by omega)] at read
  rw [enumValueAtIndex, enumLenBytes, tag]
  exact deserializeAs_eq_ok read

theorem collectionLengthAtIndex_eq {write : α → List Byte} {items : List α}
    (here : data.drop index = writeVec write items ++ rest) (bounded : items.length < 2 ^ 64) :
    collectionLengthAtIndex data index = .ok items.length := by
  rw [writeVec, List.append_assoc] at here
  have length := slice_here here (by simp)
  rw [Bincode.length_digits] at length
  have read := Reader.word_digits 8 items.length []
  have exact : items.length % 256 ^ 8 = items.length := Nat.mod_eq_of_lt bounded
  rw [List.append_nil, exact] at read
  rw [collectionLengthAtIndex, collectionLenBytes, length]
  exact deserializeAs_eq_ok read

theorem skipCollection_eq {write : α → List Byte} {items : List α} {size : Nat}
    (here : data.drop index = writeVec write items ++ rest) (bounded : items.length < 2 ^ 64)
    (sizes : ∀ item, (write item).length = size) :
    ∃ next, skipCollection data index size = .ok next ∧ data.drop next = rest := by
  refine ⟨_, ?_, drop_next here⟩
  rw [skipCollection, collectionLengthAtIndex_eq here bounded, writeVec, List.length_append,
    Bincode.length_digits, Bincode.length_flatMap sizes, ← Nat.add_assoc]
  rfl

theorem skipOption_eq {write : α → List Byte} {value : Option α} {size : Nat}
    (here : data.drop index = writeOption write value ++ rest)
    (sizes : ∀ value, (write value).length = size) :
    ∃ next, skipOption data index size = .ok next ∧ data.drop next = rest := by
  have tag : data[index]? = (writeOption write value ++ rest)[0]? := by
    rw [← here, List.getElem?_drop, Nat.add_zero]
  refine ⟨_, ?_, drop_next here⟩
  cases value with
  | none =>
      have found : byteAt data index = .ok 0 := by
        rw [byteAt, tag]
        rfl
      rw [skipOption, found]
      rfl
  | some value =>
      have found : byteAt data index = .ok 1 := by
        rw [byteAt, tag]
        rfl
      rw [skipOption, found, writeOption, List.length_cons, sizes, Nat.add_comm size,
        ← Nat.add_assoc]
      rfl

theorem epochCreditsReader_run (credits : CreditTriple) (rest : List Byte) :
    epochCreditsReader.run (writeCreditTriple credits ++ rest) =
      some (credits.toEpochCredits, rest) := by
  rw [epochCreditsReader, writeCreditTriple, List.append_assoc, List.append_assoc]
  simp only [writeInt, Reader.u64, Reader.run_bind, Reader.word_digits, Option.bind_some,
    Reader.run_pure]
  rw [number_writeInt 8, number_writeInt 8, number_writeInt 8]
  rfl

theorem deserializeEpochCreditsAtIndex_eq {credits : List CreditTriple}
    (here : data.drop index = writeVec writeCreditTriple credits ++ rest)
    (bounded : credits.length < 2 ^ 64) :
    deserializeEpochCreditsAtIndex data index =
      .ok (credits.map CreditTriple.toEpochCredits) := by
  have size : (writeVec writeCreditTriple credits).length = 8 + credits.length * 24 := by
    rw [writeVec, List.length_append, Bincode.length_digits,
      Bincode.length_flatMap length_writeCreditTriple]
  have whole := slice_here here (by omega)
  rw [size, ← Nat.add_assoc] at whole
  have read := Reader.vec_writeVec epochCreditsReader_run bounded []
  rw [List.append_nil] at read
  simp only [deserializeEpochCreditsAtIndex, collectionLengthAtIndex_eq here bounded,
    Outcome.ok_bind, collectionLenBytes, epochBytes]
  rw [whole, Outcome.ok_bind]
  exact deserializeAs_eq_ok read

theorem commissionAt_eq {commission : BitVec 8}
    (here : data.drop index = writeInt 1 commission ++ rest) :
    commissionAt data index = .ok commission.toNat := by
  have length := congrArg List.length here
  rw [List.length_drop, List.length_append, length_writeInt] at length
  have enough : index ≤ data.length := by omega
  have read := Reader.word_digits 1 commission.toNat rest
  rw [number_writeInt 1] at read
  have isSlice : sliceFrom data index = .ok (digits 1 commission.toNat ++ rest) :=
    sliceFrom_eq_ok.mpr ⟨enough, here⟩
  rw [commissionAt, if_neg (by omega), isSlice]
  exact deserializeAs_eq_ok read

end VoteStateVersions

end Walk

/-! ## Agreement -/

namespace VoteStateVersions

theorem deserialize_v0235 (state : VoteState0235) (trailing : List Byte) :
    let account : AccountInfo := ⟨true, (VoteStateVersions.v0235 state).write ++ trailing⟩
    deserializeEpochCredits account =
        .ok (state.epochCredits.val.map CreditTriple.toEpochCredits) ∧
      deserializeCommission account = .ok state.commission.toNat := by
  intro account
  have owned : ownedData account = .ok account.data := rfl
  have tag : enumValueAtIndex account.data 0 = .ok 0 :=
    enumValueAtIndex_eq (List.append_assoc _ _ _) (by decide)
  have prior := PriorVoters.length_write length_writePriorVoter0235 state.priorVoters
  have split : account.data = (digits 4 0 ++ writePubkey state.nodePubkey ++
      writePubkey state.authorizedVoter ++ writeInt 8 state.authorizedVoterEpoch ++
      state.priorVoters.write writePriorVoter0235 ++ writePubkey state.authorizedWithdrawer) ++
      (writeInt 1 state.commission ++ (writeVec Lockout.write state.votes.val ++
        (writeOption (writeInt 8) state.rootSlot ++
          (writeVec writeCreditTriple state.epochCredits.val ++
            (state.lastTimestamp.write ++ trailing))))) := by
    simp only [account, write, VoteState0235.write, List.append_assoc]
  have atCommission : account.data.drop 1909 = _ := drop_of_eq split (by simp [prior])
  rcases skipCollection_eq (drop_next atCommission) state.votes.property Lockout.length_write with
    ⟨rootSlotIdx, votes, atRootSlot⟩
  rcases skipOption_eq atRootSlot (length_writeInt 8) with
    ⟨epochCreditsIdx, rootSlot, atEpochCredits⟩
  constructor
  · simp only [deserializeEpochCredits, owned, Outcome.ok_bind, tag, enumLenBytes, pubkeyBytes,
      epochBytes, maxPriorVoters, slotBytes, Nat.reduceMul, Nat.reduceAdd]
    rw [length_writeInt] at votes
    rw [votes, Outcome.ok_bind, rootSlot, Outcome.ok_bind]
    exact deserializeEpochCreditsAtIndex_eq atEpochCredits state.epochCredits.property
  · simp only [deserializeCommission, owned, Outcome.ok_bind, tag]
    exact commissionAt_eq atCommission

/-- The votes, the root slot and the authorized voters, which come one after the
other in all later versions. -/
theorem skipVotes_eq {data rest : List Byte} {votesIdx size : Nat} {write : α → List Byte}
    {votes : Vec α} {rootSlot : Option (BitVec 64)} {voters : AuthorizedVoters}
    (here : data.drop votesIdx = writeVec write votes.val ++
      (writeOption (writeInt 8) rootSlot ++ (voters.write ++ rest)))
    (sizes : ∀ vote, (write vote).length = size) :
    ∃ rootSlotIdx authorizedVotersIdx next,
      skipCollection data votesIdx size = .ok rootSlotIdx ∧
      skipOption data rootSlotIdx 8 = .ok authorizedVotersIdx ∧
      skipCollection data authorizedVotersIdx 40 = .ok next ∧ data.drop next = rest := by
  rcases skipCollection_eq here votes.property sizes with ⟨rootSlotIdx, first, atRootSlot⟩
  rcases skipOption_eq atRootSlot (length_writeInt 8) with
    ⟨authorizedVotersIdx, second, atAuthorizedVoters⟩
  rcases skipCollection_eq atAuthorizedVoters voters.authorizedVoters.property
    length_writeAuthorizedVoter with ⟨next, third, atNext⟩
  exact ⟨rootSlotIdx, authorizedVotersIdx, next, first, second, third, atNext⟩

/-- Versions 1.14.11 and 1.16.0 differ only in their number and in the format of a vote. -/
theorem deserialize_later {version size : Nat} {write : α → List Byte}
    (layout : version = 1 ∧ size = 12 ∨ version = 2 ∧ size = 13)
    (sizes : ∀ vote, (write vote).length = size) (nodePubkey authorizedWithdrawer : Pubkey)
    (commission : BitVec 8) (votes : Vec α) (rootSlot : Option (BitVec 64))
    (voters : AuthorizedVoters) (priorVoters : PriorVoters (Pubkey × BitVec 64 × BitVec 64))
    (epochCredits : Vec CreditTriple) (lastTimestamp : BlockTimestamp) (trailing : List Byte) :
    let account : AccountInfo := ⟨true, digits 4 version ++ (writePubkey nodePubkey ++
      writePubkey authorizedWithdrawer ++ writeInt 1 commission ++ writeVec write votes.val ++
      writeOption (writeInt 8) rootSlot ++ voters.write ++ priorVoters.write writePriorVoter ++
      writeVec writeCreditTriple epochCredits.val ++ lastTimestamp.write) ++ trailing⟩
    deserializeEpochCredits account = .ok (epochCredits.val.map CreditTriple.toEpochCredits) ∧
      deserializeCommission account = .ok commission.toNat := by
  intro account
  have owned : ownedData account = .ok account.data := rfl
  have tag : enumValueAtIndex account.data 0 = .ok version :=
    enumValueAtIndex_eq (List.append_assoc _ _ _) (by omega)
  have split : account.data = (digits 4 version ++ writePubkey nodePubkey ++
      writePubkey authorizedWithdrawer) ++ (writeInt 1 commission ++ (writeVec write votes.val ++
        (writeOption (writeInt 8) rootSlot ++ (voters.write ++
          (priorVoters.write writePriorVoter ++
            (writeVec writeCreditTriple epochCredits.val ++
              (lastTimestamp.write ++ trailing))))))) := by
    simp only [account, List.append_assoc]
  have atCommission : account.data.drop 68 = _ := drop_of_eq split (by simp)
  have prior := PriorVoters.length_write length_writePriorVoter priorVoters
  have atVotes := drop_next atCommission
  rw [length_writeInt] at atVotes
  rcases skipVotes_eq atVotes sizes with
    ⟨rootSlotIdx, authorizedVotersIdx, priorVotersIdx, isRootSlot, isVoters, isPrior, atPrior⟩
  have atEpochCredits := drop_next atPrior
  rw [prior] at atEpochCredits
  have isCommission := commissionAt_eq atCommission
  have isEpochCredits := deserializeEpochCreditsAtIndex_eq atEpochCredits epochCredits.property
  simp only [deserializeEpochCredits, deserializeCommission, owned, Outcome.ok_bind, tag]
  rcases layout with ⟨rfl, rfl⟩ | ⟨rfl, rfl⟩
  all_goals
    refine ⟨?_, isCommission⟩
    simp only [enumLenBytes, pubkeyBytes, epochBytes, slotBytes, Nat.reduceMul, Nat.reduceAdd]
    rw [isRootSlot, Outcome.ok_bind, isVoters, Outcome.ok_bind, isPrior, Outcome.ok_bind]
    exact isEpochCredits

theorem deserialize_v11411 (state : VoteState11411) (trailing : List Byte) :
    let account : AccountInfo := ⟨true, (VoteStateVersions.v11411 state).write ++ trailing⟩
    deserializeEpochCredits account =
        .ok (state.epochCredits.val.map CreditTriple.toEpochCredits) ∧
      deserializeCommission account = .ok state.commission.toNat :=
  deserialize_later (.inl ⟨rfl, rfl⟩) Lockout.length_write state.nodePubkey
    state.authorizedWithdrawer state.commission state.votes state.rootSlot state.authorizedVoters
    state.priorVoters state.epochCredits state.lastTimestamp trailing

theorem deserialize_v1160 (state : VoteState1160) (trailing : List Byte) :
    let account : AccountInfo := ⟨true, (VoteStateVersions.v1160 state).write ++ trailing⟩
    deserializeEpochCredits account =
        .ok (state.epochCredits.val.map CreditTriple.toEpochCredits) ∧
      deserializeCommission account = .ok state.commission.toNat :=
  deserialize_later (.inr ⟨rfl, rfl⟩) LandedVote.length_write state.nodePubkey
    state.authorizedWithdrawer state.commission state.votes state.rootSlot state.authorizedVoters
    state.priorVoters state.epochCredits state.lastTimestamp trailing

theorem commissionFromBps_eq {data rest : List Byte} {bps : BitVec 16}
    (here : data.drop voteStateCommissionIndex = writeInt 2 bps ++ rest) :
    commissionFromBps data =
      if 10000 < bps.toNat then .error (.voteState .voteAccountDataNotValid)
      else .ok (bps.toNat / 100) := by
  have length := congrArg List.length here
  rw [List.length_drop, List.length_append, length_writeInt] at length
  have read := Reader.word_digits 2 bps.toNat rest
  rw [number_writeInt 2] at read
  have isSlice : sliceFrom data voteStateCommissionIndex = .ok (digits 2 bps.toNat ++ rest) :=
    sliceFrom_eq_ok.mpr ⟨by omega, here⟩
  have isBps : deserializeAs Reader.u16 (digits 2 bps.toNat ++ rest) = .ok bps.toNat :=
    deserializeAs_eq_ok read
  rw [commissionFromBps, if_neg (by rw [inflationRewardsCommissionBpsBytes]; omega), isSlice,
    Outcome.ok_bind, isBps, Outcome.ok_bind, maxCommissionBps, bpsPerPercent]
  by_cases tooLarge : 10000 < bps.toNat
  · rw [if_pos tooLarge, if_pos tooLarge]
    rfl
  · rw [if_neg tooLarge, if_neg tooLarge, if_pos (by omega)]

theorem deserialize_current (state : VoteState) (trailing : List Byte) :
    let account : AccountInfo := ⟨true, (VoteStateVersions.current state).write ++ trailing⟩
    deserializeEpochCredits account =
        .ok (state.epochCredits.val.map CreditTriple.toEpochCredits) ∧
      deserializeCommission account = (VoteStateVersions.current state).commission := by
  intro account
  have owned : ownedData account = .ok account.data := rfl
  have tag : enumValueAtIndex account.data 0 = .ok 3 :=
    enumValueAtIndex_eq (List.append_assoc _ _ _) (by decide)
  have split : account.data = (digits 4 3 ++ writePubkey state.nodePubkey ++
      writePubkey state.authorizedWithdrawer ++ writePubkey state.inflationRewardsCollector ++
      writePubkey state.blockRevenueCollector) ++ (writeInt 2 state.inflationRewardsCommissionBps ++
      (writeInt 2 state.blockRevenueCommissionBps ++ (writeInt 8 state.pendingDelegatorRewards ++
        (writeOption BLSPubkey.write state.blsPubkeyCompressed ++
          (writeVec LandedVote.write state.votes.val ++
            (writeOption (writeInt 8) state.rootSlot ++ (state.authorizedVoters.write ++
              (writeVec writeCreditTriple state.epochCredits.val ++
                (state.lastTimestamp.write ++ trailing))))))))) := by
    simp only [account, write, VoteState.write, List.append_assoc]
  have atCommission : account.data.drop 132 = _ := drop_of_eq split (by simp)
  have atBlsKey := drop_next (drop_next (drop_next atCommission))
  simp only [length_writeInt, Nat.reduceAdd] at atBlsKey
  rcases skipOption_eq atBlsKey BLSPubkey.length_write with ⟨votesIdx, blsKey, atVotes⟩
  rcases skipVotes_eq atVotes LandedVote.length_write with
    ⟨rootSlotIdx, authorizedVotersIdx, epochCreditsIdx, votes, rootSlot, voters, atEpochCredits⟩
  constructor
  · simp only [deserializeEpochCredits, owned, Outcome.ok_bind, tag, enumLenBytes, pubkeyBytes,
      epochBytes, slotBytes, inflationRewardsCommissionBpsBytes, blockRevenueCommissionBpsBytes,
      pendingDelegatorRewardsBytes, Nat.reduceMul, Nat.reduceAdd]
    rw [blsKey, Outcome.ok_bind, votes, Outcome.ok_bind, rootSlot, Outcome.ok_bind, voters,
      Outcome.ok_bind]
    exact deserializeEpochCreditsAtIndex_eq atEpochCredits state.epochCredits.property
  · simp only [deserializeCommission, owned, Outcome.ok_bind, tag]
    exact commissionFromBps_eq atCommission

/-- The parser finds in every encoded vote state what the state holds, whatever
follows the encoding. -/
theorem deserialize_write (state : VoteStateVersions) (trailing : List Byte) :
    deserializeEpochCredits ⟨true, state.write ++ trailing⟩ =
        .ok (state.epochCredits.map CreditTriple.toEpochCredits) ∧
      deserializeCommission ⟨true, state.write ++ trailing⟩ = state.commission := by
  cases state with
  | v0235 state => exact deserialize_v0235 state trailing
  | v11411 state => exact deserialize_v11411 state trailing
  | v1160 state => exact deserialize_v1160 state trailing
  | current state => exact deserialize_current state trailing

end VoteStateVersions

end Stakenet.History
