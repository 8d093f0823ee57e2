import Mathlib.Data.List.ReduceOption
import Stakenet.Foundation.Standings
import Stakenet.History.CircBuf
import Stakenet.Keeper.Basic

/-! The ranks by stake and the superminority that the keeper uploads. -/

namespace Stakenet.Keeper

open History (CircBuf ValidatorHistoryEntry)
open Standings (descending numbered outweighing)
open Tally (Totals)

abbrev Pubkey := BitVec 256

def u64Max : Nat := 2 ^ 64 - 1

/-! ## Ranks and threshold -/

/-- Of the credits only the epochs, which come first, are read. -/
structure RpcVoteAccountInfo where
  votePubkey : String
  activatedStake : Nat
  epochCredits : List (Nat × Nat × Nat)
  deriving DecidableEq, Repr

/-- `u64` addition in a build with overflow checks. -/
def addU64 (left right : Nat) : Result Nat :=
  if left + right ≤ u64Max then .ok (left + right) else .error .panicked

/-- `sum::<u64>()` -/
def sumU64 (amounts : List Nat) : Result Nat :=
  amounts.foldlM addU64 0

/-- `value as u32` -/
def castU32 (value : Nat) : Nat := value % 2 ^ 32

/-- The loop over the sorted stakes, from position `i` on. -/
def findSuperminority (totalStake : Nat) : (i cumulativeStake : Nat) → List (String × Nat) →
    Result Nat
  | _, _, [] => .ok 0
  | i, cumulativeStake, (_, stake) :: rest => do
      let cumulativeStake ← addU64 cumulativeStake stake
      if totalStake / 3 < cumulativeStake then
        return castU32 i
      else
        findSuperminority totalStake (i + 1) cumulativeStake rest

def stakeVec (voteAccounts : List RpcVoteAccountInfo) : List (String × Nat) :=
  voteAccounts.map fun va => (va.votePubkey, va.activatedStake)

/-- `sort_by` is stable, as `descending` is. -/
def getStakeRankMapAndSuperminorityCount (voteAccounts : List RpcVoteAccountInfo) :
    Result (Totals String × Nat) := do
  let totalStake ← sumU64 ((stakeVec voteAccounts).map Prod.snd)
  let sorted := descending Prod.snd (stakeVec voteAccounts)
  let superminorityThreshold ← findSuperminority totalStake 0 0 sorted
  return (numbered castU32 (sorted.map Prod.fst), superminorityThreshold)

/-! ## The entries to upload -/

structure StakeHistoryEntry where
  stake : Nat
  rank : Nat
  isSuperminority : Bool
  voteAccount : Pubkey
  address : Pubkey
  config : Pubkey
  signer : Pubkey
  programId : Pubkey
  epoch : Nat
  deriving DecidableEq

/-- What the upload reads besides the vote accounts. The parser of keys and the derived
addresses come from libraries. -/
structure Uploader where
  pubkeyFromStr : String → Option Pubkey
  validatorHistoryAddress : Pubkey → Pubkey
  validatorHistoryConfigAddress : Pubkey
  signer : Pubkey
  programId : Pubkey
  epoch : Nat
  validatorHistoryMap : Pubkey → Option CircBuf

def stakeEntryUploaded (uploader : Uploader) (voteAccount : RpcVoteAccountInfo) : Result Bool := do
  let voteAccount ← unwrap (uploader.pubkeyFromStr voteAccount.votePubkey)
  match (uploader.validatorHistoryMap voteAccount).bind CircBuf.last with
  | some latestEntry =>
      return decide (latestEntry.epoch = uploader.epoch % 2 ^ 16 ∧
        latestEntry.isSuperminority ≠ ValidatorHistoryEntry.unset.isSuperminority ∧
        latestEntry.rank ≠ ValidatorHistoryEntry.unset.rank ∧
        latestEntry.activatedStakeLamports ≠ ValidatorHistoryEntry.unset.activatedStakeLamports)
  | none => return false

/-- `StakeHistoryEntry::new` -/
def StakeHistoryEntry.new (uploader : Uploader) (voteAccount : RpcVoteAccountInfo) (rank : Nat)
    (isSuperminority : Bool) : Result StakeHistoryEntry := do
  let votePubkey ← unwrap (uploader.pubkeyFromStr voteAccount.votePubkey)
  return {
    stake := voteAccount.activatedStake
    rank := rank
    isSuperminority := isSuperminority
    voteAccount := votePubkey
    address := uploader.validatorHistoryAddress votePubkey
    config := uploader.validatorHistoryConfigAddress
    signer := uploader.signer
    programId := uploader.programId
    epoch := uploader.epoch }

def entryToUpdate (uploader : Uploader) (stakeRankMap : Totals String)
    (superminorityThreshold : Nat) (voteAccount : RpcVoteAccountInfo) :
    Result (Option StakeHistoryEntry) := do
  let rank ← unwrap (stakeRankMap.lookup voteAccount.votePubkey)
  let isSuperminority := decide (rank ≤ superminorityThreshold)
  if ← stakeEntryUploaded uploader voteAccount then
    return none
  else
    return some (← StakeHistoryEntry.new uploader voteAccount rank isSuperminority)

/-- `updateStakeHistory` up to the submission of the entries. -/
def updateStakeHistory (uploader : Uploader) (voteAccounts : List RpcVoteAccountInfo) :
    Result (List StakeHistoryEntry) := do
  let maxVoteAccountEpoch :=
    ((voteAccounts.flatMap RpcVoteAccountInfo.epochCredits).map Prod.fst).foldl max 0
  let (stakeRankMap, superminorityThreshold) ← getStakeRankMapAndSuperminorityCount voteAccounts
  if maxVoteAccountEpoch ≠ uploader.epoch then
    .error (.error (.custom "EpochMismatch"))
  else
    let entries ← voteAccounts.mapM
      (entryToUpdate uploader stakeRankMap superminorityThreshold)
    return entries.reduceOption

/-! ## Ranks by stake -/

/-- Every account has one of the first ranks, every such rank is that of one account, and a
higher rank has no more stake. No other key is ranked. -/
structure RankedByStake (voteAccounts : List RpcVoteAccountInfo) (ranks : Totals String) :
    Prop where
  assigned : ∀ account ∈ voteAccounts, ∃ rank < voteAccounts.length,
    ranks.lookup account.votePubkey = some rank
  unique : ∀ rank < voteAccounts.length, ∃! account,
    account ∈ voteAccounts ∧ ranks.lookup account.votePubkey = some rank
  keys : ∀ key, key ∈ ranks ↔ key ∈ voteAccounts.map RpcVoteAccountInfo.votePubkey
  ordered : ∀ first ∈ voteAccounts, ∀ second ∈ voteAccounts, ∀ firstRank secondRank,
    ranks.lookup first.votePubkey = some firstRank →
    ranks.lookup second.votePubkey = some secondRank →
    firstRank < secondRank → second.activatedStake ≤ first.activatedStake

def totalStake (voteAccounts : List RpcVoteAccountInfo) : Nat :=
  (voteAccounts.map RpcVoteAccountInfo.activatedStake).sum

def isAmongFirst (ranks : Totals String) (length : Nat) (account : RpcVoteAccountInfo) : Bool :=
  (ranks.lookup account.votePubkey).any fun rank => decide (rank < length)

/-- The stake of the first accounts by rank. -/
def stakeOfFirst (voteAccounts : List RpcVoteAccountInfo) (ranks : Totals String)
    (length : Nat) : Nat :=
  totalStake (voteAccounts.filter (isAmongFirst ranks length))

/-- The shortest prefix of the ranks with more than a third of the stake is that of the ranks
up to the threshold, and of the entries that the uploader flags. -/
structure SuperminorityPrefix (voteAccounts : List RpcVoteAccountInfo) (ranks : Totals String)
    (superminorityThreshold length : Nat) : Prop where
  shortest : IsLeast
    {length | totalStake voteAccounts < 3 * stakeOfFirst voteAccounts ranks length} length
  upToThreshold : ∀ account ∈ voteAccounts, ∀ rank,
    ranks.lookup account.votePubkey = some rank →
      (rank ≤ superminorityThreshold ↔ rank < length)
  flagged : ∀ uploader entries, updateStakeHistory uploader voteAccounts = .ok entries →
    ∀ entry ∈ entries, ∃ account ∈ voteAccounts,
      uploader.pubkeyFromStr account.votePubkey = some entry.voteAccount ∧
      ranks.lookup account.votePubkey = some entry.rank ∧
      (entry.isSuperminority = true ↔ entry.rank < length)

/-! ## The loops -/

theorem foldlM_addU64 {start : Nat} {amounts : List Nat} (fits : start + amounts.sum ≤ u64Max) :
    amounts.foldlM addU64 start = .ok (start + amounts.sum) := by
  induction amounts generalizing start with
  | nil => rfl
  | cons amount amounts induction =>
      rw [List.sum_cons, ← Nat.add_assoc] at fits ⊢
      rw [List.foldlM_cons, addU64, if_pos (by omega), Outcome.ok_bind, induction fits]

theorem sumU64_eq {amounts : List Nat} (fits : amounts.sum ≤ u64Max) :
    sumU64 amounts = .ok amounts.sum := by
  rw [sumU64, foldlM_addU64 (by omega), Nat.zero_add]

/-- The loop stops where the running sum first exceeds a third. -/
theorem findSuperminority_eq {totalStake i cumulativeStake position : Nat}
    {stakes : List (String × Nat)}
    (fits : cumulativeStake + (stakes.map Prod.snd).sum ≤ u64Max)
    (bounded : position < stakes.length)
    (short : ∀ length ≤ position,
      cumulativeStake + ((stakes.map Prod.snd).take length).sum ≤ totalStake / 3)
    (reached : totalStake / 3 <
      cumulativeStake + ((stakes.map Prod.snd).take (position + 1)).sum) :
    findSuperminority totalStake i cumulativeStake stakes = .ok (castU32 (i + position)) := by
  induction stakes generalizing i cumulativeStake position with
  | nil => exact absurd bounded (Nat.not_lt_zero _)
  | cons entry rest induction =>
      rcases entry with ⟨votePubkey, stake⟩
      simp only [List.map_cons, List.sum_cons, List.take_succ_cons, ← Nat.add_assoc] at fits reached
      rw [findSuperminority, addU64, if_pos (by omega), Outcome.ok_bind]
      cases position with
      | zero =>
          rw [List.take_zero, List.sum_nil, Nat.add_zero] at reached
          rw [if_pos reached]
          rfl
      | succ position =>
          have laterShort : ∀ length ≤ position, cumulativeStake + stake +
              ((rest.map Prod.snd).take length).sum ≤ totalStake / 3 := by
            intro length within
            have behind := short (length + 1) (by omega)
            rwa [List.map_cons, List.take_succ_cons, List.sum_cons, ← Nat.add_assoc] at behind
          have notYet := laterShort 0 (Nat.zero_le _)
          rw [List.take_zero, List.sum_nil, Nat.add_zero] at notYet
          rw [if_neg (Nat.not_lt.mpr notYet),
            induction fits (Nat.lt_of_succ_lt_succ bounded) laterShort reached]
          congr 2
          omega

/-! ## The uploaded entries -/

/-- An entry has the rank of an account, and the flag of that rank. -/
theorem entry_of_updateStakeHistory {uploader : Uploader}
    {voteAccounts : List RpcVoteAccountInfo} {entries : List StakeHistoryEntry}
    (updated : updateStakeHistory uploader voteAccounts = .ok entries)
    {entry : StakeHistoryEntry} (member : entry ∈ entries) :
    ∃ account ∈ voteAccounts, ∃ ranks superminorityThreshold,
      getStakeRankMapAndSuperminorityCount voteAccounts = .ok (ranks, superminorityThreshold) ∧
      uploader.pubkeyFromStr account.votePubkey = some entry.voteAccount ∧
      ranks.lookup account.votePubkey = some entry.rank ∧
      entry.isSuperminority = decide (entry.rank ≤ superminorityThreshold) := by
  simp only [updateStakeHistory, Outcome.bind_eq_ok] at updated
  rcases updated with ⟨⟨ranks, superminorityThreshold⟩, computed, updated⟩
  split at updated
  · cases updated
  · simp only [Outcome.bind_eq_ok, Outcome.pure_eq_ok] at updated
    rcases updated with ⟨all, collected, rfl⟩
    rw [List.reduceOption_mem_iff] at member
    rcases Outcome.exists_of_mem_mapM collected member with ⟨account, inAccounts, produced⟩
    simp only [entryToUpdate, Outcome.bind_eq_ok, unwrap_eq_ok] at produced
    rcases produced with ⟨rank, ranked, uploaded, _, produced⟩
    split at produced
    · cases produced
    · simp only [StakeHistoryEntry.new, Outcome.bind_eq_ok, Outcome.pure_eq_ok, unwrap_eq_ok,
        Option.some.injEq] at produced
      rcases produced with ⟨_, ⟨votePubkey, parsed, rfl⟩, rfl⟩
      exact ⟨account, inAccounts, ranks, superminorityThreshold, computed, parsed, ranked, rfl⟩

/-! ## The order -/

section Order

variable {voteAccounts : List RpcVoteAccountInfo}

/-- The accounts in the order of the sorted stakes. -/
def byStake (voteAccounts : List RpcVoteAccountInfo) : List RpcVoteAccountInfo :=
  descending RpcVoteAccountInfo.activatedStake voteAccounts

def rankMap (voteAccounts : List RpcVoteAccountInfo) : Totals String :=
  numbered castU32 ((byStake voteAccounts).map RpcVoteAccountInfo.votePubkey)

theorem byStake_perm (voteAccounts : List RpcVoteAccountInfo) :
    (byStake voteAccounts).Perm voteAccounts :=
  Standings.descending_perm _ _

theorem length_byStake : (byStake voteAccounts).length = voteAccounts.length :=
  (byStake_perm voteAccounts).length_eq

theorem map_snd_stakeVec (accounts : List RpcVoteAccountInfo) :
    (stakeVec accounts).map Prod.snd = accounts.map RpcVoteAccountInfo.activatedStake :=
  List.map_map

theorem map_fst_stakeVec (accounts : List RpcVoteAccountInfo) :
    (stakeVec accounts).map Prod.fst = accounts.map RpcVoteAccountInfo.votePubkey :=
  List.map_map

theorem descending_stakeVec :
    descending Prod.snd (stakeVec voteAccounts) = stakeVec (byStake voteAccounts) :=
  Standings.map_descending (fun _ => rfl) voteAccounts

/-- The map numbers the order, and the threshold is the last position of the shortest prefix
that outweighs a third. -/
theorem getStakeRankMapAndSuperminorityCount_eq (positive : 0 < totalStake voteAccounts)
    (fits : totalStake voteAccounts ≤ u64Max) :
    ∃ position < voteAccounts.length,
      IsLeast (outweighing ((byStake voteAccounts).map RpcVoteAccountInfo.activatedStake)
        (totalStake voteAccounts / 3)) (position + 1) ∧
      getStakeRankMapAndSuperminorityCount voteAccounts =
        .ok (rankMap voteAccounts, castU32 position) := by
  have sum : ((byStake voteAccounts).map RpcVoteAccountInfo.activatedStake).sum =
      totalStake voteAccounts :=
    ((byStake_perm voteAccounts).map _).sum_eq
  have third : totalStake voteAccounts / 3 <
      ((byStake voteAccounts).map RpcVoteAccountInfo.activatedStake).sum := by
    omega
  rcases Standings.exists_isLeast_outweighing third with ⟨position, bounded, least⟩
  rw [List.length_map, length_byStake] at bounded
  refine ⟨position, bounded, least, ?_⟩
  have stopped : findSuperminority (totalStake voteAccounts) 0 0 (stakeVec (byStake voteAccounts)) =
      .ok (castU32 (0 + position)) := by
    apply findSuperminority_eq
    · rw [map_snd_stakeVec, sum, Nat.zero_add]
      exact fits
    · rwa [stakeVec, List.length_map, length_byStake]
    · intro length within
      rw [map_snd_stakeVec, Nat.zero_add]
      by_contra outweighs
      have longer : position + 1 ≤ length := least.2 (Nat.lt_of_not_le outweighs)
      omega
    · rw [map_snd_stakeVec, Nat.zero_add]
      exact least.1
  rw [getStakeRankMapAndSuperminorityCount, map_snd_stakeVec, sumU64_eq fits, Outcome.ok_bind,
    descending_stakeVec]
  dsimp only
  rw [← totalStake, stopped, map_fst_stakeVec, Nat.zero_add]
  rfl

section Distinct

variable (distinct : (voteAccounts.map RpcVoteAccountInfo.votePubkey).Nodup)

include distinct

/-- The account at a position has that position as its rank, as far as it fits `u32`. -/
theorem lookup_rankMap {position : Nat}
    (bounded : position < (byStake voteAccounts).length) :
    (rankMap voteAccounts).lookup (byStake voteAccounts)[position].votePubkey =
      some (castU32 position) := by
  have keysDistinct : ((byStake voteAccounts).map RpcVoteAccountInfo.votePubkey).Nodup :=
    ((byStake_perm voteAccounts).map _).nodup_iff.mpr distinct
  have found := Standings.lookup_numbered castU32 keysDistinct
    (show position < ((byStake voteAccounts).map RpcVoteAccountInfo.votePubkey).length by
      rwa [List.length_map])
  rwa [List.getElem_map] at found

variable (short : voteAccounts.length ≤ 2 ^ 32)

include short

theorem lookup_rankMap_of_short {position : Nat}
    (bounded : position < (byStake voteAccounts).length) :
    (rankMap voteAccounts).lookup (byStake voteAccounts)[position].votePubkey = some position := by
  have fits : castU32 position = position :=
    Nat.mod_eq_of_lt (by rw [length_byStake] at bounded; omega)
  rw [lookup_rankMap distinct bounded, fits]

/-- Every account is at some position. -/
theorem exists_position {account : RpcVoteAccountInfo}
    (member : account ∈ voteAccounts) :
    ∃ (position : Nat) (bounded : position < (byStake voteAccounts).length),
      (byStake voteAccounts)[position] = account ∧
      (rankMap voteAccounts).lookup account.votePubkey = some position := by
  rcases List.mem_iff_getElem.mp ((byStake_perm voteAccounts).mem_iff.mpr member) with
    ⟨position, bounded, rfl⟩
  exact ⟨position, bounded, rfl, lookup_rankMap_of_short distinct short bounded⟩

/-- An account with a rank is at that position. -/
theorem getElem_of_lookup {account : RpcVoteAccountInfo} {rank : Nat}
    (member : account ∈ voteAccounts)
    (ranked : (rankMap voteAccounts).lookup account.votePubkey = some rank) :
    ∃ bounded : rank < (byStake voteAccounts).length, (byStake voteAccounts)[rank] = account := by
  rcases exists_position distinct short member with ⟨position, bounded, found, lookup⟩
  have same : position = rank := Option.some.inj (lookup.symm.trans ranked)
  subst rank
  exact ⟨bounded, found⟩

theorem rankedByStake_rankMap : RankedByStake voteAccounts (rankMap voteAccounts) where
  assigned := by
    intro account member
    rcases exists_position distinct short member with ⟨position, bounded, _, lookup⟩
    exact ⟨position, by rwa [length_byStake] at bounded, lookup⟩
  unique := by
    intro rank bounded
    rw [← length_byStake] at bounded
    have member : (byStake voteAccounts)[rank] ∈ voteAccounts :=
      (byStake_perm voteAccounts).mem_iff.mp (List.getElem_mem bounded)
    refine ⟨(byStake voteAccounts)[rank],
      ⟨member, lookup_rankMap_of_short distinct short bounded⟩, ?_⟩
    rintro other ⟨otherMember, ranked⟩
    rcases getElem_of_lookup distinct short otherMember ranked with ⟨_, found⟩
    exact found.symm
  keys := by
    intro key
    rw [rankMap, Standings.mem_numbered]
    exact ((byStake_perm voteAccounts).map _).mem_iff
  ordered := by
    intro first firstMember second secondMember firstRank secondRank firstRanked secondRanked lower
    rcases getElem_of_lookup distinct short firstMember firstRanked with ⟨firstBound, rfl⟩
    rcases getElem_of_lookup distinct short secondMember secondRanked with ⟨secondBound, rfl⟩
    exact List.pairwise_iff_getElem.mp
      (Standings.descending_pairwise RpcVoteAccountInfo.activatedStake voteAccounts)
      firstRank secondRank firstBound secondBound lower

/-- The first accounts by rank are the first ones of the order. -/
theorem stakeOfFirst_eq (length : Nat) :
    stakeOfFirst voteAccounts (rankMap voteAccounts) length =
      (((byStake voteAccounts).map RpcVoteAccountInfo.activatedStake).take length).sum := by
  have positions : ∀ position (bounded : position < (byStake voteAccounts).length),
      isAmongFirst (rankMap voteAccounts) length (byStake voteAccounts)[position] =
        decide (position < length) := by
    intro position bounded
    rw [isAmongFirst, lookup_rankMap_of_short distinct short bounded]
    rfl
  have before : ∀ account ∈ (byStake voteAccounts).take length,
      isAmongFirst (rankMap voteAccounts) length account = true := by
    intro account member
    rcases List.mem_take_iff_getElem.mp member with ⟨position, below, rfl⟩
    rw [positions position (by omega)]
    exact decide_eq_true (by omega)
  have behind : ∀ account ∈ (byStake voteAccounts).drop length,
      isAmongFirst (rankMap voteAccounts) length account = false := by
    intro account member
    rcases List.mem_drop_iff_getElem.mp member with ⟨offset, bounded, rfl⟩
    rw [positions (length + offset) (by omega)]
    exact decide_eq_false (by omega)
  rw [stakeOfFirst, totalStake, ← List.map_take,
    (Standings.take_eq_filter before behind).1]
  exact (((byStake_perm voteAccounts).filter _).map _).sum_eq.symm

theorem superminorityPrefix_rankMap {position : Nat}
    (bounded : position < voteAccounts.length)
    (least : IsLeast (outweighing ((byStake voteAccounts).map RpcVoteAccountInfo.activatedStake)
      (totalStake voteAccounts / 3)) (position + 1))
    (computed : getStakeRankMapAndSuperminorityCount voteAccounts =
      .ok (rankMap voteAccounts, castU32 position)) :
    SuperminorityPrefix voteAccounts (rankMap voteAccounts) (castU32 position)
      (position + 1) := by
  have fits : castU32 position = position := Nat.mod_eq_of_lt (by omega)
  rw [fits] at computed ⊢
  refine ⟨?_, fun account _ rank _ => Nat.lt_succ_iff.symm, ?_⟩
  · have lengths : {length | totalStake voteAccounts <
        3 * stakeOfFirst voteAccounts (rankMap voteAccounts) length} =
          outweighing ((byStake voteAccounts).map RpcVoteAccountInfo.activatedStake)
            (totalStake voteAccounts / 3) := by
      ext length
      rw [outweighing, Set.mem_ofPred_eq, Set.mem_ofPred_eq, stakeOfFirst_eq distinct short]
      omega
    rwa [lengths]
  · intro uploader entries updated entry member
    rcases entry_of_updateStakeHistory updated member with
      ⟨account, inAccounts, ranks, threshold, obtained, parsed, ranked, flag⟩
    rw [computed, Except.ok.injEq, Prod.mk.injEq] at obtained
    rcases obtained with ⟨rfl, rfl⟩
    refine ⟨account, inAccounts, parsed, ranked, ?_⟩
    rw [flag, decide_eq_true_iff]
    exact Nat.lt_succ_iff.symm

end Distinct

/-- A rank above `u32` is given to no account. -/
theorem RankedByStake.length_le (ranked : RankedByStake voteAccounts (rankMap voteAccounts)) :
    voteAccounts.length ≤ 2 ^ 32 := by
  by_contra long
  rcases ranked.unique (2 ^ 32) (Nat.lt_of_not_le long) with ⟨account, ⟨_, lookup⟩, _⟩
  rcases Standings.exists_of_lookup_numbered lookup with ⟨position, _, cast⟩
  have fits : castU32 position < 2 ^ 32 := Nat.mod_lt _ (by decide)
  omega

/-- The ranks are those by stake, and the superminority the shortest prefix above a third,
for all lists of accounts that `u32` can number. -/
theorem getStakeRankMapAndSuperminorityCount_correct_iff
    (distinct : (voteAccounts.map RpcVoteAccountInfo.votePubkey).Nodup)
    (positive : 0 < totalStake voteAccounts) (fits : totalStake voteAccounts ≤ u64Max) :
    (∃ ranks superminorityThreshold length,
      getStakeRankMapAndSuperminorityCount voteAccounts = .ok (ranks, superminorityThreshold) ∧
      RankedByStake voteAccounts ranks ∧
      SuperminorityPrefix voteAccounts ranks superminorityThreshold length) ↔
        voteAccounts.length ≤ 2 ^ 32 := by
  rcases getStakeRankMapAndSuperminorityCount_eq positive fits with
    ⟨position, bounded, least, computed⟩
  constructor
  · rintro ⟨ranks, threshold, length, obtained, ranked, _⟩
    rw [computed, Except.ok.injEq, Prod.mk.injEq] at obtained
    rcases obtained with ⟨rfl, _⟩
    exact ranked.length_le
  · intro short
    exact ⟨_, _, _, computed, rankedByStake_rankMap distinct short,
      superminorityPrefix_rankMap distinct short bounded least computed⟩

def sampleAccounts : List RpcVoteAccountInfo :=
  [⟨"first", 2, []⟩, ⟨"second", 4, []⟩, ⟨"third", 4, []⟩, ⟨"fourth", 1, []⟩]

/-- Of eleven lamports the first four are more than a third. -/
theorem sampleAccounts_correct :
    ∃ ranks superminorityThreshold length,
      getStakeRankMapAndSuperminorityCount sampleAccounts = .ok (ranks, superminorityThreshold) ∧
      RankedByStake sampleAccounts ranks ∧
      SuperminorityPrefix sampleAccounts ranks superminorityThreshold length :=
  (getStakeRankMapAndSuperminorityCount_correct_iff (by decide) (by decide) (by decide)).mpr
    (by decide)

/-- Keys of 43 letters, which say 32 bytes: the digits of a number follow the first letter. -/
def crowdKey (i : Nat) : String :=
  String.ofList ('A' :: (List.range 42).map fun bit => if i.testBit bit then '2' else '1')

/-- Accounts with a lamport each. -/
def crowd (count : Nat) : List RpcVoteAccountInfo :=
  (List.range count).map fun i =>
    { votePubkey := crowdKey i, activatedStake := 1, epochCredits := [] }

theorem length_crowd (count : Nat) : (crowd count).length = count := by
  rw [crowd, List.length_map, List.length_range]

theorem totalStake_crowd (count : Nat) : totalStake (crowd count) = count := by
  rw [totalStake, crowd, List.map_map]
  have ones : (List.range count).map (RpcVoteAccountInfo.activatedStake ∘ fun i =>
      { votePubkey := crowdKey i, activatedStake := 1, epochCredits := [] }) =
      (List.range count).map fun _ => 1 := rfl
  rw [ones, List.map_const', List.sum_replicate_nat, List.length_range, Nat.mul_one]

theorem crowdKey_inj {first second : Nat} (firstFits : first < 2 ^ 42)
    (secondFits : second < 2 ^ 42) (same : crowdKey first = crowdKey second) :
    first = second := by
  have letters := (List.cons.inj (String.ofList_inj.mp same)).2
  apply Nat.eq_of_testBit_eq
  intro bit
  by_cases inside : bit < 42
  · have letter := List.map_inj_left.mp letters bit (List.mem_range.mpr inside)
    revert letter
    cases first.testBit bit <;> cases second.testBit bit <;> decide
  · have high : 2 ^ 42 ≤ 2 ^ bit := Nat.pow_le_pow_right (by decide) (Nat.le_of_not_lt inside)
    rw [Nat.testBit_lt_two_pow (firstFits.trans_le high),
      Nat.testBit_lt_two_pow (secondFits.trans_le high)]

theorem nodup_crowd {count : Nat} (fits : count ≤ 2 ^ 42) :
    ((crowd count).map RpcVoteAccountInfo.votePubkey).Nodup := by
  rw [crowd, List.map_map]
  apply List.Nodup.map_on _ List.nodup_range
  intro first firstMember second secondMember same
  rw [List.mem_range] at firstMember secondMember
  exact crowdKey_inj (firstMember.trans_le fits) (secondMember.trans_le fits) same

/-- The rank of the last account wraps around. -/
theorem crowd_not_ranked :
    ((crowd (2 ^ 32 + 1)).map RpcVoteAccountInfo.votePubkey).Nodup ∧
      0 < totalStake (crowd (2 ^ 32 + 1)) ∧ totalStake (crowd (2 ^ 32 + 1)) ≤ u64Max ∧
      ¬ ∃ ranks superminorityThreshold length,
        getStakeRankMapAndSuperminorityCount (crowd (2 ^ 32 + 1)) =
          .ok (ranks, superminorityThreshold) ∧
        RankedByStake (crowd (2 ^ 32 + 1)) ranks ∧
        SuperminorityPrefix (crowd (2 ^ 32 + 1)) ranks superminorityThreshold length := by
  have positive : 0 < totalStake (crowd (2 ^ 32 + 1)) := by
    rw [totalStake_crowd]
    decide
  have fits : totalStake (crowd (2 ^ 32 + 1)) ≤ u64Max := by
    rw [totalStake_crowd]
    decide
  refine ⟨nodup_crowd (by decide), positive, fits, ?_⟩
  rintro ⟨ranks, superminorityThreshold, length, obtained, ranked, _⟩
  rcases getStakeRankMapAndSuperminorityCount_eq positive fits with ⟨position, _, _, computed⟩
  rw [computed, Except.ok.injEq, Prod.mk.injEq] at obtained
  rcases obtained with ⟨rfl, _⟩
  have short := ranked.length_le
  rw [length_crowd] at short
  omega

end Order

end Stakenet.Keeper
