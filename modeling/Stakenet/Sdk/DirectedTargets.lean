import Stakenet.Foundation.Tally
import Stakenet.Steward.DirectedStakeTicket

/-! The lamports that directed stake tickets ask for, as the SDK computes them from the pool
tokens of the ticket holders. -/

namespace Stakenet.Sdk

open Steward (Pubkey DirectedStakePreference DirectedStakeTicket basisPointsMax defaultPubkey
  u64Max u128Max)
open Tally (Totals)

/-! ## The computation -/

inductive JitoInstructionError
  | jitoTransactionError
  | clientError
  | arithmeticError
  | custom (message : String)
  deriving DecidableEq, Repr

abbrev Result (α : Type) := Except JitoInstructionError α

/-- `u128::checked_mul`. -/
def checkedMulU128 (left right : Nat) : Result Nat :=
  if left * right ≤ u128Max then .ok (left * right) else .error .arithmeticError

/-- `value as u64`. -/
def castU64 (value : Nat) : Nat := value % 2 ^ 64

/-- The lamports for ten thousand tokens. -/
def calculateConversionRateBps (totalLamports poolTokenSupply : Nat) : Result Nat :=
  if poolTokenSupply = 0 then
    .error (.custom "Pool token supply cannot be zero")
  else do
    return castU64 ((← checkedMulU128 totalLamports basisPointsMax) / poolTokenSupply)

/-- The lamports of one preference. -/
def allocationLamports (jitosolBalance conversionRateBps : Nat)
    (preference : DirectedStakePreference) : Result Nat := do
  let allocatedTokens := preference.getAllocation jitosolBalance
  return castU64 ((← checkedMulU128 allocatedTokens conversionRateBps) / basisPointsMax)

/-- Adds the allocation of a preference, unless it is an empty one. -/
def addPreference (jitosolBalance conversionRateBps : Nat) (targets : Totals Pubkey)
    (preference : DirectedStakePreference) : Result (Totals Pubkey) :=
  if preference.votePubkey = defaultPubkey then
    .ok targets
  else do
    let lamports ← allocationLamports jitosolBalance conversionRateBps preference
    return Tally.add u64Max targets (preference.votePubkey, lamports)

def balanceOf (jitosolBalances : Totals Pubkey) (ticket : DirectedStakeTicket) : Nat :=
  (jitosolBalances.lookup ticket.ticketUpdateAuthority).getD 0

def addTicket (jitosolBalances : Totals Pubkey) (conversionRateBps : Nat)
    (targets : Totals Pubkey) (ticket : DirectedStakeTicket) : Result (Totals Pubkey) :=
  let jitosolBalance := balanceOf jitosolBalances ticket
  if jitosolBalance = 0 then
    .ok targets
  else
    ticket.stakerPreferences.toList.foldlM (addPreference jitosolBalance conversionRateBps) targets

def aggregateValidatorTargets (tickets : List DirectedStakeTicket)
    (jitosolBalances : Totals Pubkey) (conversionRateBps : Nat) : Result (Totals Pubkey) :=
  tickets.foldlM (addTicket jitosolBalances conversionRateBps) ∅

/-! ## Contributions -/

/-- The lamports of a preference without any bound of a machine integer. -/
def exactLamports (conversionRateBps jitosolBalance : Nat)
    (preference : DirectedStakePreference) : Nat :=
  jitosolBalance * preference.stakeShareBps / 10000 * conversionRateBps / 10000

/-- The preferences of a ticket that count, with their amounts. -/
def ticketContributions (amount : Nat → DirectedStakePreference → Nat)
    (balance : DirectedStakeTicket → Nat) (ticket : DirectedStakeTicket) : List (Pubkey × Nat) :=
  if balance ticket = 0 then
    []
  else
    (ticket.stakerPreferences.toList.filter fun preference =>
      decide (preference.votePubkey ≠ defaultPubkey)).map
        fun preference => (preference.votePubkey, amount (balance ticket) preference)

def contributions (amount : Nat → DirectedStakePreference → Nat)
    (balance : DirectedStakeTicket → Nat) (tickets : List DirectedStakeTicket) :
    List (Pubkey × Nat) :=
  tickets.flatMap (ticketContributions amount balance)

/-- The amounts are those that the code computes. -/
def Computes (amount : Nat → DirectedStakePreference → Nat) (jitosolBalances : Totals Pubkey)
    (conversionRateBps : Nat) (ticket : DirectedStakeTicket) : Prop :=
  ∀ preference ∈ ticket.stakerPreferences.toList,
    allocationLamports (balanceOf jitosolBalances ticket) conversionRateBps preference =
      .ok (amount (balanceOf jitosolBalances ticket) preference)

section Aggregation

variable {amount : Nat → DirectedStakePreference → Nat} {jitosolBalances : Totals Pubkey}
variable {conversionRateBps : Nat}

theorem foldlM_addPreference {jitosolBalance : Nat} {preferences : List DirectedStakePreference}
    (computes : ∀ preference ∈ preferences,
      allocationLamports jitosolBalance conversionRateBps preference =
        .ok (amount jitosolBalance preference)) (targets : Totals Pubkey) :
    preferences.foldlM (addPreference jitosolBalance conversionRateBps) targets =
      .ok (((preferences.filter fun preference =>
        decide (preference.votePubkey ≠ defaultPubkey)).map
          fun preference => (preference.votePubkey, amount jitosolBalance preference)).foldl
            (Tally.add u64Max) targets) := by
  induction preferences generalizing targets with
  | nil => rfl
  | cons preference preferences induction =>
      rw [List.forall_mem_cons] at computes
      rw [List.foldlM_cons, addPreference]
      by_cases unused : preference.votePubkey = defaultPubkey
      · rw [if_pos unused, List.filter_cons_of_neg (by simpa using unused), Outcome.ok_bind]
        exact induction computes.2 targets
      · rw [if_neg unused, List.filter_cons_of_pos (by simpa using unused), computes.1,
          Outcome.ok_bind, List.map_cons, List.foldl_cons]
        exact induction computes.2 _

/-- The aggregation sums the contributions up, whatever their order. -/
theorem aggregateValidatorTargets_eq {tickets : List DirectedStakeTicket}
    (computes : ∀ ticket ∈ tickets, balanceOf jitosolBalances ticket ≠ 0 →
      Computes amount jitosolBalances conversionRateBps ticket) :
    aggregateValidatorTargets tickets jitosolBalances conversionRateBps =
      .ok (Tally.collect u64Max (contributions amount (balanceOf jitosolBalances) tickets)) := by
  have fromTargets : ∀ targets, tickets.foldlM (addTicket jitosolBalances conversionRateBps)
      targets = .ok ((contributions amount (balanceOf jitosolBalances) tickets).foldl
        (Tally.add u64Max) targets) := by
    induction tickets with
    | nil => exact fun _ => rfl
    | cons ticket tickets induction =>
        intro targets
        rw [List.forall_mem_cons] at computes
        rw [List.foldlM_cons, contributions, List.flatMap_cons, List.foldl_append, addTicket,
          ticketContributions]
        by_cases unfunded : balanceOf jitosolBalances ticket = 0
        · rw [if_pos unfunded, if_pos unfunded, Outcome.ok_bind]
          exact induction computes.2 targets
        · rw [if_neg unfunded, if_neg unfunded, foldlM_addPreference (computes.1 unfunded),
            Outcome.ok_bind]
          exact induction computes.2 _
  exact fromTargets ∅

end Aggregation

/-! ## The whole pool bounds the targets -/

section Bound

variable {conversionRateBps jitosolBalance : Nat} {jitosolBalances : Totals Pubkey}

/-- Rounded down twice. -/
theorem exactLamports_mul_le (preference : DirectedStakePreference) :
    exactLamports conversionRateBps jitosolBalance preference * (10000 * 10000) ≤
      jitosolBalance * preference.stakeShareBps * conversionRateBps := by
  have outer : exactLamports conversionRateBps jitosolBalance preference * 10000 ≤
      jitosolBalance * preference.stakeShareBps / 10000 * conversionRateBps :=
    Nat.div_mul_le_self _ _
  have inner : jitosolBalance * preference.stakeShareBps / 10000 * 10000 ≤
      jitosolBalance * preference.stakeShareBps := Nat.div_mul_le_self _ _
  calc exactLamports conversionRateBps jitosolBalance preference * (10000 * 10000)
      = exactLamports conversionRateBps jitosolBalance preference * 10000 * 10000 := by
        rw [Nat.mul_assoc]
    _ ≤ jitosolBalance * preference.stakeShareBps / 10000 * conversionRateBps * 10000 :=
        Nat.mul_le_mul_right _ outer
    _ = jitosolBalance * preference.stakeShareBps / 10000 * 10000 * conversionRateBps := by
        rw [Nat.mul_right_comm]
    _ ≤ jitosolBalance * preference.stakeShareBps * conversionRateBps :=
        Nat.mul_le_mul_right _ inner

theorem sum_exactLamports_mul_le (preferences : List DirectedStakePreference) :
    (preferences.map (exactLamports conversionRateBps jitosolBalance)).sum * (10000 * 10000) ≤
      jitosolBalance * (preferences.map DirectedStakePreference.stakeShareBps).sum *
        conversionRateBps := by
  induction preferences with
  | nil => simp
  | cons preference preferences induction =>
      have first : exactLamports conversionRateBps jitosolBalance preference * (10000 * 10000) ≤
          jitosolBalance * preference.stakeShareBps * conversionRateBps :=
        exactLamports_mul_le preference
      rw [List.map_cons, List.map_cons, List.sum_cons, List.sum_cons, Nat.add_mul, Nat.mul_add,
        Nat.add_mul]
      exact Nat.add_le_add first induction

/-- A ticket gives no more than the whole balance of its holder. -/
theorem sum_ticketContributions_mul_le {ticket : DirectedStakeTicket}
    (shared : ticket.totalBps ≤ 10000) :
    ((ticketContributions (exactLamports conversionRateBps) (balanceOf jitosolBalances)
      ticket).map Prod.snd).sum * 10000 ≤ balanceOf jitosolBalances ticket * conversionRateBps := by
  rw [ticketContributions]
  by_cases unfunded : balanceOf jitosolBalances ticket = 0
  · rw [if_pos unfunded, List.map_nil, List.sum_nil, Nat.zero_mul]
    exact Nat.zero_le _
  · rw [if_neg unfunded, List.map_map]
    have fewer : ((ticket.stakerPreferences.toList.filter fun preference =>
        decide (preference.votePubkey ≠ defaultPubkey)).map
          (exactLamports conversionRateBps (balanceOf jitosolBalances ticket))).sum ≤
        (ticket.stakerPreferences.toList.map
          (exactLamports conversionRateBps (balanceOf jitosolBalances ticket))).sum :=
      (List.filter_sublist.map _).sum_le_sum fun _ _ => Nat.zero_le _
    have all : (ticket.stakerPreferences.toList.map
        (exactLamports conversionRateBps (balanceOf jitosolBalances ticket))).sum *
          (10000 * 10000) ≤
        balanceOf jitosolBalances ticket * ticket.totalBps * conversionRateBps :=
      sum_exactLamports_mul_le _
    have whole : balanceOf jitosolBalances ticket * ticket.totalBps * conversionRateBps ≤
        balanceOf jitosolBalances ticket * 10000 * conversionRateBps :=
      Nat.mul_le_mul_right _ (Nat.mul_le_mul_left _ shared)
    apply Nat.le_of_mul_le_mul_right (c := 10000) _ (by decide)
    calc ((ticket.stakerPreferences.toList.filter fun preference =>
          decide (preference.votePubkey ≠ defaultPubkey)).map
            (exactLamports conversionRateBps (balanceOf jitosolBalances ticket))).sum *
              10000 * 10000
        ≤ (ticket.stakerPreferences.toList.map
            (exactLamports conversionRateBps (balanceOf jitosolBalances ticket))).sum *
              (10000 * 10000) := by
          rw [Nat.mul_assoc]
          exact Nat.mul_le_mul_right _ fewer
      _ ≤ balanceOf jitosolBalances ticket * 10000 * conversionRateBps := all.trans whole
      _ = balanceOf jitosolBalances ticket * conversionRateBps * 10000 := by
          rw [Nat.mul_right_comm]

/-- All tickets together give no more than the balances of their holders. -/
theorem sum_contributions_mul_le {tickets : List DirectedStakeTicket}
    (shared : ∀ ticket ∈ tickets, ticket.totalBps ≤ 10000) :
    ((contributions (exactLamports conversionRateBps) (balanceOf jitosolBalances) tickets).map
      Prod.snd).sum * 10000 ≤
        (tickets.map (balanceOf jitosolBalances)).sum * conversionRateBps := by
  induction tickets with
  | nil => simp [contributions]
  | cons ticket tickets induction =>
      rw [List.forall_mem_cons] at shared
      have first : ((ticketContributions (exactLamports conversionRateBps)
          (balanceOf jitosolBalances) ticket).map Prod.snd).sum * 10000 ≤
          balanceOf jitosolBalances ticket * conversionRateBps :=
        sum_ticketContributions_mul_le shared.1
      rw [contributions, List.flatMap_cons, List.map_append, List.sum_append, Nat.add_mul,
        List.map_cons, List.sum_cons, Nat.add_mul]
      exact Nat.add_le_add first (induction shared.2)

end Bound

/-! ## Targets within the pool -/

section Pool

variable {ticketAddress : Pubkey → Pubkey → Pubkey} {tickets : List DirectedStakeTicket}
variable {jitosolBalances : Totals Pubkey} {totalLamports poolTokenSupply : Nat}

theorem calculateConversionRateBps_eq (total : totalLamports ≤ u64Max)
    (supply : 0 < poolTokenSupply)
    (fits : totalLamports * 10000 / poolTokenSupply ≤ u64Max) :
    calculateConversionRateBps totalLamports poolTokenSupply =
      .ok (totalLamports * 10000 / poolTokenSupply) := by
  have small : totalLamports * basisPointsMax ≤ u128Max := by
    rw [u64Max] at total
    rw [basisPointsMax, u128Max]
    omega
  rw [calculateConversionRateBps, if_neg supply.ne', checkedMulU128, if_pos small, Outcome.ok_bind,
    castU64, basisPointsMax, Nat.mod_eq_of_lt (by rw [u64Max] at fits; omega)]
  rfl

/-- Small enough values are neither cut nor saturated. -/
theorem allocationLamports_eq {jitosolBalance conversionRateBps : Nat}
    {preference : DirectedStakePreference} (balance : jitosolBalance ≤ u64Max)
    (share : preference.stakeShareBps ≤ 10000) (rate : conversionRateBps ≤ u64Max)
    (fits : exactLamports conversionRateBps jitosolBalance preference ≤ u64Max) :
    allocationLamports jitosolBalance conversionRateBps preference =
      .ok (exactLamports conversionRateBps jitosolBalance preference) := by
  have product : jitosolBalance * preference.stakeShareBps ≤ u64Max * 10000 :=
    Nat.mul_le_mul balance share
  have unsaturated : jitosolBalance * preference.stakeShareBps ≤ u128Max :=
    product.trans (by decide)
  have part : jitosolBalance * preference.stakeShareBps / 10000 ≤ u64Max :=
    Nat.div_le_of_le_mul (product.trans (Nat.mul_comm _ _).le)
  have unchecked : jitosolBalance * preference.stakeShareBps / 10000 * conversionRateBps ≤
      u128Max := (Nat.mul_le_mul part rate).trans (by decide)
  have uncut : exactLamports conversionRateBps jitosolBalance preference < 2 ^ 64 := by
    rw [u64Max] at fits
    omega
  rw [allocationLamports, DirectedStakePreference.getAllocation, Nat.min_eq_left unsaturated,
    checkedMulU128, if_pos unchecked, Outcome.ok_bind, castU64]
  exact congrArg Except.ok (Nat.mod_eq_of_lt uncut)

/-- The targets of one computation: what each validator gets, without any rounding but that
of the shares, and altogether no more than the pool has. -/
structure WithinPool (jitosolBalances : Totals Pubkey) (tickets : List DirectedStakeTicket)
    (totalLamports poolTokenSupply : Nat) (targets : Totals Pubkey) : Prop where
  rate : calculateConversionRateBps totalLamports poolTokenSupply =
    .ok (totalLamports * 10000 / poolTokenSupply)
  succeeds : ∀ others, tickets.Perm others →
    aggregateValidatorTargets others jitosolBalances
      (totalLamports * 10000 / poolTokenSupply) = .ok targets
  exactly : ∀ validator, targets.lookup validator =
    let given := contributions (exactLamports (totalLamports * 10000 / poolTokenSupply))
      (balanceOf jitosolBalances) tickets
    if validator ∈ given.map Prod.fst then some (Tally.received validator given) else none
  bounded : Tally.sum targets ≤ totalLamports

theorem aggregateValidatorTargets_withinPool
    (reachable : ∀ ticket ∈ tickets, ∃ address, Steward.TicketAt ticketAddress address ticket)
    (distinct : (tickets.map DirectedStakeTicket.ticketUpdateAuthority).Nodup)
    (held : ∑ authority ∈ (tickets.map DirectedStakeTicket.ticketUpdateAuthority).toFinset,
      (jitosolBalances.lookup authority).getD 0 ≤ poolTokenSupply)
    (positive : 0 < poolTokenSupply) (supply : poolTokenSupply ≤ u64Max)
    (total : totalLamports ≤ u64Max)
    (fits : totalLamports * 10000 / poolTokenSupply ≤ u64Max) :
    ∃ targets, WithinPool jitosolBalances tickets totalLamports poolTokenSupply targets := by
  have shared : ∀ ticket ∈ tickets, ticket.totalBps ≤ 10000 := by
    intro ticket member
    rcases reachable ticket member with ⟨address, ticketAt⟩
    exact ticketAt.totalBps_le
  have balances : (tickets.map (balanceOf jitosolBalances)).sum ≤ poolTokenSupply := by
    rw [List.sum_toFinset _ distinct, List.map_map] at held
    exact held
  have rateBound : totalLamports * 10000 / poolTokenSupply * poolTokenSupply ≤
      totalLamports * 10000 := Nat.div_mul_le_self _ _
  have given : ((contributions (exactLamports (totalLamports * 10000 / poolTokenSupply))
      (balanceOf jitosolBalances) tickets).map Prod.snd).sum ≤ totalLamports := by
    apply Nat.le_of_mul_le_mul_right (c := 10000) _ (by decide)
    calc _ ≤ (tickets.map (balanceOf jitosolBalances)).sum *
          (totalLamports * 10000 / poolTokenSupply) := sum_contributions_mul_le shared
      _ ≤ poolTokenSupply * (totalLamports * 10000 / poolTokenSupply) :=
          Nat.mul_le_mul_right _ balances
      _ ≤ totalLamports * 10000 := by rwa [Nat.mul_comm]
  have computes : ∀ ticket ∈ tickets, balanceOf jitosolBalances ticket ≠ 0 →
      Computes (exactLamports (totalLamports * 10000 / poolTokenSupply)) jitosolBalances
        (totalLamports * 10000 / poolTokenSupply) ticket := by
    intro ticket member _ preference inTicket
    have balance : balanceOf jitosolBalances ticket ≤ poolTokenSupply :=
      (List.le_sum_of_mem (List.mem_map_of_mem member)).trans balances
    have share : preference.stakeShareBps ≤ 10000 :=
      (List.le_sum_of_mem (List.mem_map_of_mem inTicket)).trans (shared ticket member)
    apply allocationLamports_eq (balance.trans supply) share fits
    have rounded : exactLamports (totalLamports * 10000 / poolTokenSupply)
        (balanceOf jitosolBalances ticket) preference * (10000 * 10000) ≤
          totalLamports * (10000 * 10000) := by
      calc _ ≤ balanceOf jitosolBalances ticket * preference.stakeShareBps *
            (totalLamports * 10000 / poolTokenSupply) := exactLamports_mul_le preference
        _ ≤ poolTokenSupply * 10000 * (totalLamports * 10000 / poolTokenSupply) :=
            Nat.mul_le_mul_right _ (Nat.mul_le_mul balance share)
        _ = totalLamports * 10000 / poolTokenSupply * poolTokenSupply * 10000 := by
            rw [Nat.mul_comm, Nat.mul_assoc]
        _ ≤ totalLamports * 10000 * 10000 := Nat.mul_le_mul_right _ rateBound
        _ = totalLamports * (10000 * 10000) := Nat.mul_assoc _ _ _
    exact (Nat.le_of_mul_le_mul_right rounded (by decide)).trans total
  have small : ∀ item ∈ contributions (exactLamports (totalLamports * 10000 / poolTokenSupply))
      (balanceOf jitosolBalances) tickets, item.2 ≤ u64Max := by
    intro item member
    exact (List.le_sum_of_mem (List.mem_map_of_mem member)).trans (given.trans total)
  refine ⟨_, calculateConversionRateBps_eq total positive fits, fun others perm => ?_,
    fun validator => ?_, (Tally.sum_collect_le u64Max _).trans given⟩
  · rw [aggregateValidatorTargets_eq fun ticket member =>
      computes ticket (perm.mem_iff.mpr member)]
    have samePerm := perm.flatMap_right
      (ticketContributions (exactLamports (totalLamports * 10000 / poolTokenSupply))
        (balanceOf jitosolBalances))
    exact congrArg Except.ok (Tally.collect_perm samePerm small).symm
  · have uncut := (Tally.received_le validator _).trans (given.trans total)
    rw [Tally.lookup_collect small, Nat.min_eq_left uncut]

end Pool

/-! ### Two tickets -/

/-- A derivation of addresses that keeps configs and authorities apart. -/
def sampleAddress (config authority : Pubkey) : Pubkey := config * 1000 + authority

/-- The validators 21 and 22 may be staked to. -/
def sampleWhitelist : Steward.DirectedStakeWhitelist :=
  { Steward.DirectedStakeWhitelist.empty with
    validators := ⟨fun row => if row = 0 then 21 else 22, 2⟩ }

def samplePreferences : List DirectedStakePreference := [⟨21, 6000⟩, ⟨22, 4000⟩]

theorem samplePreferences_permissioned : ∀ preference ∈ samplePreferences,
    sampleWhitelist.isValidatorPermissioned preference.votePubkey = true := by
  decide

def sampleTicket (authority : Pubkey) : DirectedStakeTicket where
  numPreferences := 2
  stakerPreferences := Steward.UpdateDirectedStakeTicket.writePreferences samplePreferences
  ticketUpdateAuthority := authority
  ticketHolderIsProtocol := false

/-- The override authority of the config creates the ticket. -/
theorem sampleTicket_at (config authority : Pubkey) :
    Steward.TicketAt sampleAddress (sampleAddress config authority) (sampleTicket authority) := by
  let context : Steward.TicketContext := ⟨config, 9, sampleWhitelist, 9⟩
  have overrides : context.signer = context.ticketOverrideAuthority := rfl
  exact Steward.TicketAt.of_override overrides authority false samplePreferences_permissioned
    (by decide) (by decide)

/-- Tokens of the authorities 7 and 8. -/
def sampleBalances : Totals Pubkey := ((∅ : Totals Pubkey).insert 7 500).insert 8 300

theorem aggregateValidatorTargets_withinPool_twoTickets :
    ∃ targets, WithinPool sampleBalances [sampleTicket 7, sampleTicket 8] 1200 1000 targets := by
  have reachable : ∀ ticket ∈ [sampleTicket 7, sampleTicket 8],
      ∃ address, Steward.TicketAt sampleAddress address ticket := by
    intro ticket member
    simp only [List.mem_cons, List.not_mem_nil, or_false] at member
    rcases member with rfl | rfl
    · exact ⟨_, sampleTicket_at 1 7⟩
    · exact ⟨_, sampleTicket_at 1 8⟩
  exact aggregateValidatorTargets_withinPool reachable (by decide) (by decide) (by decide)
    (by decide) (by decide) (by decide)

end Stakenet.Sdk
