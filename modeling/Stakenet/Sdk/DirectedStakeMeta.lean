import Mathlib.Data.Multiset.Filter
import Stakenet.Sdk.DirectedTargets

/-! The instructions that upload the targets of directed stake for one steward config, and what
they owe to tickets of other configs. -/

namespace Stakenet.Sdk

open Steward (Pubkey DirectedStakePreference DirectedStakeTicket TicketAt basisPointsMax
  defaultPubkey u64Max u128Max)
open Tally (Totals)

/-! ## The computation -/

structure StakePool where
  totalLamports : Nat
  poolTokenSupply : Nat
  validatorList : Pubkey

/-- Of the config only the stake pool is read. -/
structure StewardConfig where
  stakePool : Pubkey

/-- The answers of the RPC node, but for the program accounts. The amount of a token account is
the text of a `u64`. Validator lists are given by their vote accounts. -/
structure RpcClient where
  getTokenAccountBalance : Pubkey → Option (Fin (2 ^ 64))
  getStakePoolAccount : Pubkey → Result StakePool
  getStewardConfigAccount : Pubkey → Result StewardConfig
  getValidatorListAccount : Pubkey → Result (List Pubkey)

/-- The derived addresses of one program. -/
structure Addresses where
  programId : Pubkey
  clock : Pubkey
  getAssociatedTokenAddress : (wallet mint : Pubkey) → Pubkey
  getDirectedStakeMetaAddress : (config : Pubkey) → Pubkey
  getDirectedStakeTicketAddress : (config authority : Pubkey) → Pubkey

/-- The accounts and the data of an instruction. -/
structure CopyDirectedStakeTargets where
  programId : Pubkey
  config : Pubkey
  directedStakeMeta : Pubkey
  authority : Pubkey
  clock : Pubkey
  validatorList : Pubkey
  votePubkey : Pubkey
  totalTargetLamports : Nat
  validatorListIndex : Nat
  deriving DecidableEq

/-- The keys that a computation is called with. -/
structure MetaRequest where
  tokenMintAddress : Pubkey
  stakePoolAddress : Pubkey
  stewardConfig : Pubkey
  authorityPubkey : Pubkey

variable {α : Type u}

/-- Accounts that are no tickets are passed over. -/
def getDirectedStakeTickets (tryDeserialize : α → Option DirectedStakeTicket)
    (accounts : List (Pubkey × α)) : List (Pubkey × DirectedStakeTicket) :=
  accounts.filterMap fun (pda, account) =>
    (tryDeserialize account).map fun ticket => (pda, ticket)

/-- A wallet without a token account has no tokens. -/
def getTokenBalance (client : RpcClient) (addresses : Addresses)
    (tokenMintAddress walletAddress : Pubkey) : Nat :=
  let tokenAccount := addresses.getAssociatedTokenAddress walletAddress tokenMintAddress
  match client.getTokenAccountBalance tokenAccount with
  | some amount => amount
  | none => 0

/-- The balances of all ticket holders. -/
def jitosolBalances (client : RpcClient) (addresses : Addresses) (tokenMintAddress : Pubkey)
    (tickets : List DirectedStakeTicket) : Totals Pubkey :=
  tickets.foldl (fun balances ticket => balances.insert ticket.ticketUpdateAuthority
    (getTokenBalance client addresses tokenMintAddress ticket.ticketUpdateAuthority)) ∅

/-- Validators outside of the list get no instruction. -/
def copyInstruction (addresses : Addresses) (request : MetaRequest) (validatorList : Pubkey)
    (validators : List Pubkey) (votePubkey : Pubkey) (totalTargetLamports : Nat) :
    Option CopyDirectedStakeTargets :=
  (validators.findIdx? fun validator => decide (validator = votePubkey)).map
    fun validatorListIndex => {
      programId := addresses.programId
      config := request.stewardConfig
      directedStakeMeta := addresses.getDirectedStakeMetaAddress request.stewardConfig
      authority := request.authorityPubkey
      clock := addresses.clock
      validatorList := validatorList
      votePubkey := votePubkey
      totalTargetLamports := totalTargetLamports
      validatorListIndex := validatorListIndex % 2 ^ 32 }

/-- The instructions come in the order of a hash map, which is none. -/
def copyInstructions (addresses : Addresses) (request : MetaRequest) (validatorList : Pubkey)
    (validators : List Pubkey) (targets : Totals Pubkey) : Multiset CopyDirectedStakeTargets :=
  targets.entries.filterMap fun target =>
    copyInstruction addresses request validatorList validators target.1 target.2

/-- `accounts` are the program accounts in the order of the ticket map. -/
def computeDirectedStakeMeta (tryDeserialize : α → Option DirectedStakeTicket)
    (client : RpcClient) (addresses : Addresses) (request : MetaRequest)
    (accounts : List (Pubkey × α)) : Result (Multiset CopyDirectedStakeTargets) := do
  let ticketMap := getDirectedStakeTickets tryDeserialize accounts
  let stakePool ← client.getStakePoolAccount request.stakePoolAddress
  let conversionRateBps ←
    calculateConversionRateBps stakePool.totalLamports stakePool.poolTokenSupply
  let tickets := ticketMap.map Prod.snd
  let balances := jitosolBalances client addresses request.tokenMintAddress tickets
  let validatorTargets ← aggregateValidatorTargets tickets balances conversionRateBps
  let config ← client.getStewardConfigAccount request.stewardConfig
  let configPool ← client.getStakePoolAccount config.stakePool
  let validators ← client.getValidatorListAccount configPool.validatorList
  return copyInstructions addresses request configPool.validatorList validators validatorTargets

/-! ## The instructions of two computations -/

section Instructions

variable {addresses : Addresses} {request : MetaRequest} {validatorList : Pubkey}
variable {validators : List Pubkey}

theorem copyInstruction_inj {first second : Pubkey} {firstLamports secondLamports : Nat}
    {result : CopyDirectedStakeTargets}
    (fromFirst : copyInstruction addresses request validatorList validators first firstLamports =
      some result)
    (fromSecond : copyInstruction addresses request validatorList validators second
      secondLamports = some result) :
    first = second ∧ firstLamports = secondLamports := by
  rw [copyInstruction, Option.map_eq_some_iff] at fromFirst fromSecond
  rcases fromFirst with ⟨_, _, rfl⟩
  rcases fromSecond with ⟨_, _, same⟩
  injection same with _ _ _ _ _ _ sameValidator sameLamports
  exact ⟨sameValidator.symm, sameLamports.symm⟩

theorem mem_copyInstructions_iff {targets : Totals Pubkey} {validator : Pubkey} {lamports : Nat}
    {result : CopyDirectedStakeTargets}
    (built : copyInstruction addresses request validatorList validators validator lamports =
      some result) :
    result ∈ copyInstructions addresses request validatorList validators targets ↔
      targets.lookup validator = some lamports := by
  rw [copyInstructions, Multiset.mem_filterMap, ← Tally.mem_entries_iff]
  constructor
  · rintro ⟨⟨other, otherLamports⟩, member, otherBuilt⟩
    obtain ⟨rfl, rfl⟩ := copyInstruction_inj otherBuilt built
    exact member
  · intro member
    exact ⟨_, member, built⟩

theorem nodup_copyInstructions (targets : Totals Pubkey) :
    (copyInstructions addresses request validatorList validators targets).Nodup := by
  apply Multiset.Nodup.filterMap _ _ targets.nodup_entries
  rintro ⟨first, firstLamports⟩ ⟨second, secondLamports⟩ result fromFirst fromSecond
  obtain ⟨rfl, rfl⟩ := copyInstruction_inj fromFirst fromSecond
  rfl

theorem copyInstruction_eq_none_iff {validator : Pubkey} {lamports : Nat} :
    copyInstruction addresses request validatorList validators validator lamports = none ↔
      validator ∉ validators := by
  rw [copyInstruction, Option.map_eq_none_iff, List.findIdx?_eq_none_iff]
  constructor
  · intro different member
    exact of_decide_eq_false (different validator member) rfl
  · intro absent other member
    exact decide_eq_false fun same => absent (same ▸ member)

/-- The instructions show the targets of the listed validators, and nothing else. -/
theorem copyInstructions_eq_iff {targets others : Totals Pubkey} :
    copyInstructions addresses request validatorList validators targets =
        copyInstructions addresses request validatorList validators others ↔
      ∀ validator ∈ validators, targets.lookup validator = others.lookup validator := by
  constructor
  · intro same validator listed
    apply Option.ext
    intro lamports
    cases built : copyInstruction addresses request validatorList validators validator lamports with
    | none => exact absurd listed (copyInstruction_eq_none_iff.mp built)
    | some result =>
        rw [← mem_copyInstructions_iff built, ← mem_copyInstructions_iff built, same]
  · intro same
    rw [Multiset.Nodup.ext (nodup_copyInstructions _) (nodup_copyInstructions _)]
    have oneWay : ∀ {left right : Totals Pubkey}, (∀ validator ∈ validators,
        left.lookup validator = right.lookup validator) → ∀ result,
        result ∈ copyInstructions addresses request validatorList validators left →
          result ∈ copyInstructions addresses request validatorList validators right := by
      intro left right agree result member
      have inEntries := member
      rw [copyInstructions, Multiset.mem_filterMap] at inEntries
      rcases inEntries with ⟨⟨validator, lamports⟩, _, built⟩
      have listed : validator ∈ validators := by
        by_contra unlisted
        rw [copyInstruction_eq_none_iff.mpr unlisted] at built
        cases built
      rw [mem_copyInstructions_iff built] at member ⊢
      exact (agree validator listed).symm.trans member
    intro result
    exact ⟨oneWay same result, oneWay (fun validator listed => (same validator listed).symm) result⟩

end Instructions

/-! ## What the tickets give -/

section Given

/-- A ticket account that is not derived from the config and its authority. -/
def isForeignTicket (tryDeserialize : α → Option DirectedStakeTicket) (addresses : Addresses)
    (config : Pubkey) (account : Pubkey × α) : Bool :=
  match tryDeserialize account.2 with
  | some ticket =>
      decide (account.1 ≠
        addresses.getDirectedStakeTicketAddress config ticket.ticketUpdateAuthority)
  | none => false

/-- The lamports of a preference cut to a `u64`. -/
def castLamports (conversionRateBps jitosolBalance : Nat)
    (preference : DirectedStakePreference) : Nat :=
  castU64 (preference.getAllocation jitosolBalance * conversionRateBps / basisPointsMax)

/-- The lamports that the tickets among the accounts give to validators. -/
def given (tryDeserialize : α → Option DirectedStakeTicket) (client : RpcClient)
    (addresses : Addresses) (request : MetaRequest) (conversionRateBps : Nat)
    (accounts : List (Pubkey × α)) : List (Pubkey × Nat) :=
  contributions (castLamports conversionRateBps)
    (fun ticket => getTokenBalance client addresses request.tokenMintAddress
      ticket.ticketUpdateAuthority)
    ((getDirectedStakeTickets tryDeserialize accounts).map Prod.snd)

variable {tryDeserialize : α → Option DirectedStakeTicket} {client : RpcClient}
variable {addresses : Addresses} {request : MetaRequest} {conversionRateBps : Nat}
variable {accounts others : List (Pubkey × α)}

theorem given_append : given tryDeserialize client addresses request conversionRateBps
    (accounts ++ others) =
      given tryDeserialize client addresses request conversionRateBps accounts ++
        given tryDeserialize client addresses request conversionRateBps others := by
  rw [given, getDirectedStakeTickets, List.filterMap_append, List.map_append, contributions,
    List.flatMap_append]
  rfl

theorem given_perm (perm : accounts.Perm others) :
    (given tryDeserialize client addresses request conversionRateBps accounts).Perm
      (given tryDeserialize client addresses request conversionRateBps others) := by
  apply List.Perm.flatMap_right
  exact (perm.filterMap _).map _

theorem given_le : ∀ item ∈ given tryDeserialize client addresses request conversionRateBps
    accounts, item.2 ≤ u64Max := by
  intro item member
  rw [given, contributions, List.mem_flatMap] at member
  rcases member with ⟨ticket, _, member⟩
  rw [ticketContributions] at member
  split at member
  · cases member
  · rw [List.mem_map] at member
    rcases member with ⟨preference, _, rfl⟩
    exact Nat.le_of_lt_succ (Nat.mod_lt _ (by decide))

theorem getTokenBalance_le (wallet mint : Pubkey) :
    getTokenBalance client addresses mint wallet ≤ u64Max := by
  rw [getTokenBalance]
  split
  · exact Nat.le_of_lt_succ (Fin.isLt _)
  · exact Nat.zero_le _

theorem lookup_jitosolBalances {tickets : List DirectedStakeTicket} {ticket : DirectedStakeTicket}
    (member : ticket ∈ tickets) (mint : Pubkey) :
    balanceOf (jitosolBalances client addresses mint tickets) ticket =
      getTokenBalance client addresses mint ticket.ticketUpdateAuthority := by
  induction tickets using List.reverseRecOn with
  | nil => cases member
  | append_singleton tickets last induction =>
      rw [balanceOf, jitosolBalances, List.foldl_append, List.foldl_cons, List.foldl_nil]
      by_cases same : ticket.ticketUpdateAuthority = last.ticketUpdateAuthority
      · rw [same, Finmap.lookup_insert]
        rfl
      · rw [Finmap.lookup_insert_of_ne _ same]
        apply induction
        rcases List.mem_append.mp member with earlier | atLast
        · exact earlier
        · exact absurd (congrArg _ (List.mem_singleton.mp atLast)) same

theorem calculateConversionRateBps_le {totalLamports poolTokenSupply : Nat}
    (computed : calculateConversionRateBps totalLamports poolTokenSupply = .ok conversionRateBps) :
    conversionRateBps ≤ u64Max := by
  rw [calculateConversionRateBps] at computed
  split at computed
  · cases computed
  · rw [Outcome.bind_eq_ok] at computed
    rcases computed with ⟨_, _, rate⟩
    rw [Outcome.pure_eq_ok] at rate
    rw [← rate]
    exact Nat.le_of_lt_succ (Nat.mod_lt _ (by decide))

theorem allocationLamports_eq_cast {jitosolBalance : Nat} {preference : DirectedStakePreference}
    (balance : jitosolBalance ≤ u64Max) (share : preference.stakeShareBps ≤ 10000)
    (rate : conversionRateBps ≤ u64Max) :
    allocationLamports jitosolBalance conversionRateBps preference =
      .ok (castLamports conversionRateBps jitosolBalance preference) := by
  have product : jitosolBalance * preference.stakeShareBps ≤ u64Max * 10000 :=
    Nat.mul_le_mul balance share
  have part : preference.getAllocation jitosolBalance ≤ u64Max :=
    Nat.div_le_of_le_mul ((min_le_left _ _).trans (product.trans (Nat.mul_comm _ _).le))
  have unchecked : preference.getAllocation jitosolBalance * conversionRateBps ≤ u128Max :=
    (Nat.mul_le_mul part rate).trans (by decide)
  rw [allocationLamports, checkedMulU128, if_pos unchecked, Outcome.ok_bind]
  rfl

/-- Tickets of the program never overflow the aggregation. -/
theorem aggregateValidatorTargets_eq_given (client : RpcClient) (request : MetaRequest)
    (reachable : ∀ account ∈ accounts, ∀ ticket, tryDeserialize account.2 = some ticket →
      TicketAt addresses.getDirectedStakeTicketAddress account.1 ticket)
    (rate : conversionRateBps ≤ u64Max) :
    let tickets := (getDirectedStakeTickets tryDeserialize accounts).map Prod.snd
    aggregateValidatorTargets tickets
        (jitosolBalances client addresses request.tokenMintAddress tickets) conversionRateBps =
      .ok (Tally.collect u64Max
        (given tryDeserialize client addresses request conversionRateBps accounts)) := by
  intro tickets
  have shared : ∀ ticket ∈ tickets, ticket.totalBps ≤ 10000 := by
    intro ticket member
    simp only [tickets, getDirectedStakeTickets, List.mem_map, List.mem_filterMap,
      Option.map_eq_some_iff] at member
    rcases member with ⟨_, ⟨account, inAccounts, _, deserialized, rfl⟩, rfl⟩
    exact (reachable account inAccounts _ deserialized).totalBps_le
  have sameBalances : contributions (castLamports conversionRateBps)
      (balanceOf (jitosolBalances client addresses request.tokenMintAddress tickets)) tickets =
        given tryDeserialize client addresses request conversionRateBps accounts := by
    apply List.flatMap_congr
    intro ticket member
    rw [ticketContributions, ticketContributions, lookup_jitosolBalances member]
  rw [← sameBalances]
  apply aggregateValidatorTargets_eq
  intro ticket member _ preference inTicket
  have share : preference.stakeShareBps ≤ 10000 :=
    (List.le_sum_of_mem (List.mem_map_of_mem inTicket)).trans (shared ticket member)
  apply allocationLamports_eq_cast _ share rate
  rw [lookup_jitosolBalances member]
  exact getTokenBalance_le _ _

end Given

/-! ## Tickets of other configs -/

section ForeignTickets

/-- What a computation reads apart from tickets and their balances. -/
structure Reads where
  conversionRateBps : Nat
  validatorList : Pubkey
  validators : List Pubkey

def readAccounts (client : RpcClient) (request : MetaRequest) : Result Reads := do
  let stakePool ← client.getStakePoolAccount request.stakePoolAddress
  let conversionRateBps ←
    calculateConversionRateBps stakePool.totalLamports stakePool.poolTokenSupply
  let config ← client.getStewardConfigAccount request.stewardConfig
  let configPool ← client.getStakePoolAccount config.stakePool
  let validators ← client.getValidatorListAccount configPool.validatorList
  return ⟨conversionRateBps, configPool.validatorList, validators⟩

/-- Any tickets of other configs may be absent, and the result is the same. -/
def IgnoresForeignTickets (tryDeserialize : α → Option DirectedStakeTicket) (client : RpcClient)
    (addresses : Addresses) (request : MetaRequest) (accounts : List (Pubkey × α)) : Prop :=
  ∀ kept removed, accounts.Perm (kept ++ removed) →
    (∀ account ∈ removed,
      isForeignTicket tryDeserialize addresses request.stewardConfig account = true) →
    computeDirectedStakeMeta tryDeserialize client addresses request kept =
      computeDirectedStakeMeta tryDeserialize client addresses request accounts

/-- Listed validators that get lamports from tickets of other configs get them from tickets of
the config too, and as much as a `u64` holds unless the others give zero lamports. -/
def ForeignTicketsIdle (tryDeserialize : α → Option DirectedStakeTicket) (client : RpcClient)
    (addresses : Addresses) (request : MetaRequest) (accounts : List (Pubkey × α))
    (reads : Reads) : Prop :=
  let foreign := isForeignTicket tryDeserialize addresses request.stewardConfig
  let fromForeign := given tryDeserialize client addresses request reads.conversionRateBps
    (accounts.filter foreign)
  let fromOwn := given tryDeserialize client addresses request reads.conversionRateBps
    (accounts.filter fun account => !foreign account)
  ∀ validator ∈ reads.validators, validator ∈ fromForeign.map Prod.fst →
    validator ∈ fromOwn.map Prod.fst ∧
      (Tally.received validator fromForeign = 0 ∨ u64Max ≤ Tally.received validator fromOwn)

variable {tryDeserialize : α → Option DirectedStakeTicket} {client : RpcClient}
variable {addresses : Addresses} {request : MetaRequest}
variable {accounts kept removed : List (Pubkey × α)}

theorem computeDirectedStakeMeta_eq
    (reachable : ∀ account ∈ accounts, ∀ ticket, tryDeserialize account.2 = some ticket →
      TicketAt addresses.getDirectedStakeTicketAddress account.1 ticket) :
    computeDirectedStakeMeta tryDeserialize client addresses request accounts =
      (readAccounts client request).map fun reads =>
        copyInstructions addresses request reads.validatorList reads.validators
          (Tally.collect u64Max
            (given tryDeserialize client addresses request reads.conversionRateBps accounts)) := by
  rw [computeDirectedStakeMeta, readAccounts]
  cases client.getStakePoolAccount request.stakePoolAddress with
  | error error => rfl
  | ok stakePool =>
      rw [Outcome.ok_bind, Outcome.ok_bind]
      cases rate : calculateConversionRateBps stakePool.totalLamports stakePool.poolTokenSupply with
      | error error => rfl
      | ok conversionRateBps =>
          rw [Outcome.ok_bind, Outcome.ok_bind]
          have aggregated := aggregateValidatorTargets_eq_given client request reachable
            (calculateConversionRateBps_le rate)
          dsimp only at aggregated ⊢
          rw [aggregated, Outcome.ok_bind]
          cases client.getStewardConfigAccount request.stewardConfig with
          | error error => rfl
          | ok config =>
              rw [Outcome.ok_bind, Outcome.ok_bind]
              cases client.getStakePoolAccount config.stakePool with
              | error error => rfl
              | ok configPool =>
                  rw [Outcome.ok_bind, Outcome.ok_bind]
                  cases client.getValidatorListAccount configPool.validatorList with
                  | error error => rfl
                  | ok validators => rfl

/-- What the removed tickets give decides on the instructions. -/
theorem computeDirectedStakeMeta_eq_iff
    (reachable : ∀ account ∈ accounts, ∀ ticket, tryDeserialize account.2 = some ticket →
      TicketAt addresses.getDirectedStakeTicketAddress account.1 ticket)
    (split : accounts.Perm (kept ++ removed)) :
    computeDirectedStakeMeta tryDeserialize client addresses request kept =
        computeDirectedStakeMeta tryDeserialize client addresses request accounts ↔
      ∀ reads, readAccounts client request = .ok reads → ∀ validator ∈ reads.validators,
        let fromKept := given tryDeserialize client addresses request reads.conversionRateBps kept
        let fromRemoved :=
          given tryDeserialize client addresses request reads.conversionRateBps removed
        validator ∈ fromRemoved.map Prod.fst → validator ∈ fromKept.map Prod.fst ∧
          (Tally.received validator fromRemoved = 0 ∨
            u64Max ≤ Tally.received validator fromKept) := by
  have keptReachable : ∀ account ∈ kept, ∀ ticket, tryDeserialize account.2 = some ticket →
      TicketAt addresses.getDirectedStakeTicketAddress account.1 ticket :=
    fun account member => reachable account (split.mem_iff.mpr (List.mem_append_left _ member))
  rw [computeDirectedStakeMeta_eq reachable, computeDirectedStakeMeta_eq keptReachable]
  cases readAccounts client request with
  | error error => exact iff_of_true rfl fun _ impossible => by cases impossible
  | ok reads =>
      have all : Tally.collect u64Max
          (given tryDeserialize client addresses request reads.conversionRateBps accounts) =
            Tally.collect u64Max
              (given tryDeserialize client addresses request reads.conversionRateBps kept ++
                given tryDeserialize client addresses request reads.conversionRateBps removed) := by
        rw [← given_append]
        exact Tally.collect_perm (given_perm split) given_le
      have bounded : ∀ item ∈
          given tryDeserialize client addresses request reads.conversionRateBps kept ++
            given tryDeserialize client addresses request reads.conversionRateBps removed,
          item.2 ≤ u64Max := by
        rw [← given_append]
        exact given_le
      simp only [Except.map, Except.ok.injEq, forall_eq', copyInstructions_eq_iff, all]
      apply forall₂_congr
      intro validator _
      rw [eq_comm]
      exact Tally.lookup_collect_append_eq_iff bounded validator

/-- Removing tickets of other configs leaves those of the config. -/
theorem idle_of_removed {reads : Reads}
    (idle : ForeignTicketsIdle tryDeserialize client addresses request accounts reads)
    (split : accounts.Perm (kept ++ removed))
    (foreign : ∀ account ∈ removed,
      isForeignTicket tryDeserialize addresses request.stewardConfig account = true)
    {validator : Pubkey} (listed : validator ∈ reads.validators) :
    let fromKept := given tryDeserialize client addresses request reads.conversionRateBps kept
    let fromRemoved := given tryDeserialize client addresses request reads.conversionRateBps removed
    validator ∈ fromRemoved.map Prod.fst → validator ∈ fromKept.map Prod.fst ∧
      (Tally.received validator fromRemoved = 0 ∨ u64Max ≤ Tally.received validator fromKept) := by
  intro fromKept fromRemoved inRemoved
  let isForeign := isForeignTicket tryDeserialize addresses request.stewardConfig
  let amounts := given tryDeserialize client addresses request reads.conversionRateBps
  have removedForeign : removed.filter isForeign = removed := List.filter_eq_self.mpr foreign
  have removedOwn : removed.filter (fun account => !isForeign account) = [] :=
    List.filter_eq_nil_iff.mpr fun account member => by simp [isForeign, foreign account member]
  have foreignSplit : (accounts.filter isForeign).Perm (kept.filter isForeign ++ removed) := by
    have filtered := split.filter isForeign
    rwa [List.filter_append, removedForeign] at filtered
  have ownSame : (accounts.filter fun account => !isForeign account).Perm
      (kept.filter fun account => !isForeign account) := by
    have filtered := split.filter fun account => !isForeign account
    rwa [List.filter_append, removedOwn, List.append_nil] at filtered
  have fromForeign : (amounts (accounts.filter isForeign)).Perm
      (amounts (kept.filter isForeign) ++ fromRemoved) := by
    rw [← given_append]
    exact given_perm foreignSplit
  have keptAmounts : fromKept.Perm (amounts (kept.filter isForeign) ++
      amounts (accounts.filter fun account => !isForeign account)) := by
    apply (given_perm (List.filter_append_perm isForeign kept).symm).trans
    rw [given_append]
    exact (given_perm ownSame.symm).append_left _
  have inForeign : validator ∈ (amounts (accounts.filter isForeign)).map Prod.fst := by
    rw [(fromForeign.map _).mem_iff, List.map_append]
    exact List.mem_append_right _ inRemoved
  rcases idle validator listed inForeign with ⟨inOwn, unchanged⟩
  have inKept : validator ∈ fromKept.map Prod.fst := by
    rw [(keptAmounts.map _).mem_iff, List.map_append]
    exact List.mem_append_right _ inOwn
  have foreignSum := Tally.received_perm fromForeign validator
  have keptSum := Tally.received_perm keptAmounts validator
  rw [Tally.received_append] at foreignSum keptSum
  refine ⟨inKept, unchanged.imp (fun nothing => ?_) fun saturated => ?_⟩
  · exact Nat.eq_zero_of_add_eq_zero_left (foreignSum.symm.trans nothing)
  · exact saturated.trans (keptSum ▸ Nat.le_add_left _ _)

theorem computeDirectedStakeMeta_ignoresForeignTickets_iff
    (reachable : ∀ account ∈ accounts, ∀ ticket, tryDeserialize account.2 = some ticket →
      TicketAt addresses.getDirectedStakeTicketAddress account.1 ticket) :
    IgnoresForeignTickets tryDeserialize client addresses request accounts ↔
      ∀ reads, readAccounts client request = .ok reads →
        ForeignTicketsIdle tryDeserialize client addresses request accounts reads := by
  constructor
  · intro ignores reads read
    let isForeign := isForeignTicket tryDeserialize addresses request.stewardConfig
    have split : accounts.Perm
        (accounts.filter (fun account => !isForeign account) ++ accounts.filter isForeign) :=
      (List.filter_append_perm isForeign accounts).symm.trans List.perm_append_comm
    have withoutForeign := ignores _ _ split fun account member => (List.mem_filter.mp member).2
    exact (computeDirectedStakeMeta_eq_iff reachable split).mp withoutForeign reads read
  · intro idle kept removed split foreign
    rw [computeDirectedStakeMeta_eq_iff reachable split]
    intro reads read validator listed
    exact idle_of_removed (idle reads read) split foreign listed

end ForeignTickets

/-! ### One authority under two configs -/

section TwoConfigs

def sampleAddresses : Addresses where
  programId := 100
  clock := 101
  getAssociatedTokenAddress := fun wallet mint => mint * 1000 + wallet
  getDirectedStakeMetaAddress := fun config => config * 1000 + 999
  getDirectedStakeTicketAddress := sampleAddress

/-- The wallet 7 holds 500 tokens of the mint 50. -/
def sampleClient : RpcClient where
  getTokenAccountBalance := fun tokenAccount => if tokenAccount = 50007 then some 500 else none
  getStakePoolAccount := fun _ => .ok ⟨1200, 1000, 61⟩
  getStewardConfigAccount := fun _ => .ok ⟨60⟩
  getValidatorListAccount := fun _ => .ok [21, 22]

def sampleRequest : MetaRequest := ⟨50, 60, 1, 9⟩

/-- The authority 7 has a ticket under the config 1, and the override authority of the config 2
made another one for it. -/
def sampleAccounts : List (Pubkey × DirectedStakeTicket) :=
  [(sampleAddress 1 7, sampleTicket 7), (sampleAddress 2 7, sampleTicket 7)]

/-- Tickets that the override authorities of their configs created. -/
theorem sampleTickets_reachable (tickets : List (Pubkey × Pubkey)) :
    ∀ account ∈ tickets.map fun owner => (sampleAddress owner.1 owner.2, sampleTicket owner.2),
      ∀ ticket, some account.2 = some ticket →
        TicketAt sampleAddresses.getDirectedStakeTicketAddress account.1 ticket := by
  rw [List.forall_mem_map]
  intro owner _ ticket same
  obtain rfl := Option.some.inj same
  exact sampleTicket_at owner.1 owner.2

theorem sampleAccounts_reachable : ∀ account ∈ sampleAccounts, ∀ ticket,
    some account.2 = some ticket →
      TicketAt sampleAddresses.getDirectedStakeTicketAddress account.1 ticket :=
  sampleTickets_reachable [(1, 7), (2, 7)]

/-- Both tickets count. -/
theorem not_computeDirectedStakeMeta_ignoresForeignTickets :
    (∀ account ∈ sampleAccounts, ∀ ticket, some account.2 = some ticket →
      TicketAt sampleAddresses.getDirectedStakeTicketAddress account.1 ticket) ∧
    ¬ IgnoresForeignTickets some sampleClient sampleAddresses sampleRequest sampleAccounts := by
  refine ⟨sampleAccounts_reachable, fun ignores => ?_⟩
  have withoutOther := ignores [(sampleAddress 1 7, sampleTicket 7)]
    [(sampleAddress 2 7, sampleTicket 7)] (.refl _) (by decide)
  revert withoutOther
  decide

/-- The wallet 8, which has a ticket under the config 2, holds no tokens. -/
def idleAccounts : List (Pubkey × DirectedStakeTicket) :=
  [(sampleAddress 1 7, sampleTicket 7), (sampleAddress 2 8, sampleTicket 8)]

theorem idleAccounts_reachable : ∀ account ∈ idleAccounts, ∀ ticket,
    some account.2 = some ticket →
      TicketAt sampleAddresses.getDirectedStakeTicketAddress account.1 ticket :=
  sampleTickets_reachable [(1, 7), (2, 8)]

/-- The ticket of the other config may be absent, as it gives no lamports. -/
theorem computeDirectedStakeMeta_ignoresForeignTickets_iff_idleTicket :
    isForeignTicket some sampleAddresses sampleRequest.stewardConfig
        (sampleAddress 2 8, sampleTicket 8) = true ∧
      IgnoresForeignTickets some sampleClient sampleAddresses sampleRequest idleAccounts := by
  refine ⟨by decide, ?_⟩
  apply (computeDirectedStakeMeta_ignoresForeignTickets_iff idleAccounts_reachable).mpr
  intro reads _ validator _ inForeign
  have foreign : idleAccounts.filter (isForeignTicket some sampleAddresses
      sampleRequest.stewardConfig) = [(sampleAddress 2 8, sampleTicket 8)] := by decide
  have nothing : given some sampleClient sampleAddresses sampleRequest reads.conversionRateBps
      [(sampleAddress 2 8, sampleTicket 8)] = [] := rfl
  rw [foreign, nothing] at inForeign
  cases inForeign

end TwoConfigs

end Stakenet.Sdk
