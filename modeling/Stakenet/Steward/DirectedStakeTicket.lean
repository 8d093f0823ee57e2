import Mathlib.Data.List.Induction
import Stakenet.Steward.Whitelist

/-! Directed stake tickets: how the holder of pool tokens shares their stake out among
validators. -/

namespace Stakenet.Steward

def maxPreferencesPerTicket : Nat := 8

structure DirectedStakePreference where
  votePubkey : Pubkey
  stakeShareBps : Nat
  deriving DecidableEq, Repr

namespace DirectedStakePreference

def empty : DirectedStakePreference := ⟨defaultPubkey, 0⟩

/-- A `u128` that saturates. -/
def getAllocation (preference : DirectedStakePreference) (totalLamports : Nat) : Nat :=
  min (totalLamports * preference.stakeShareBps) u128Max / 10000

end DirectedStakePreference

abbrev StakerPreferences := Vector DirectedStakePreference maxPreferencesPerTicket

structure DirectedStakeTicket where
  numPreferences : Nat
  stakerPreferences : StakerPreferences
  ticketUpdateAuthority : Pubkey
  ticketHolderIsProtocol : Bool
  deriving DecidableEq

/-! ## Instructions -/

/-- What the ticket instructions read: the config with its override authority, the whitelist
of the config and the signer. -/
structure TicketContext where
  config : Pubkey
  ticketOverrideAuthority : Pubkey
  whitelist : DirectedStakeWhitelist
  signer : Pubkey

/-- The signer is permissioned and is the authority of the ticket, or overrides it. -/
def authTicket (context : TicketContext) (ticketUpdateAuthority : Pubkey) : Result Unit := do
  require (context.whitelist.isStakerPermissioned context.signer = true ∨
    context.signer = context.ticketOverrideAuthority) .unauthorized
  require (context.signer = ticketUpdateAuthority ∨
    context.signer = context.ticketOverrideAuthority) .unauthorized

namespace InitializeDirectedStakeTicket

def auth (context : TicketContext) (ticketUpdateAuthority : Pubkey) : Result Unit :=
  authTicket context ticketUpdateAuthority

/-- The address is checked by the seeds of the account. -/
def handler (context : TicketContext) (ticketUpdateAuthority : Pubkey)
    (ticketHolderIsProtocol : Bool) : Result DirectedStakeTicket := do
  auth context ticketUpdateAuthority
  return {
    numPreferences := 0
    stakerPreferences := Vector.replicate maxPreferencesPerTicket .empty
    ticketUpdateAuthority := ticketUpdateAuthority
    ticketHolderIsProtocol := ticketHolderIsProtocol }

end InitializeDirectedStakeTicket

namespace UpdateDirectedStakeTicket

def auth (context : TicketContext) (ticket : DirectedStakeTicket)
    (preferences : List DirectedStakePreference) : Result Unit := do
  authTicket context ticket.ticketUpdateAuthority
  require (∀ preference ∈ preferences,
    context.whitelist.isValidatorPermissioned preference.votePubkey = true) .unauthorized

/-- All preferences are replaced. -/
def writePreferences (preferences : List DirectedStakePreference) : StakerPreferences :=
  preferences.zipIdx.foldl (fun written (preference, i) => written.setIfInBounds i preference)
    (Vector.replicate maxPreferencesPerTicket .empty)

/-- `ticketAddress` derives the address of a ticket from the config and the authority. -/
def handler (ticketAddress : Pubkey → Pubkey → Pubkey) (context : TicketContext)
    (ticketAccount : Pubkey) (ticket : DirectedStakeTicket)
    (preferences : List DirectedStakePreference) : Result DirectedStakeTicket := do
  require (ticketAccount = ticketAddress context.config ticket.ticketUpdateAuthority) .unauthorized
  auth context ticket preferences
  require (preferences.length ≤ maxPreferencesPerTicket) .invalidParameterValue
  let totalBps := (preferences.map DirectedStakePreference.stakeShareBps).sum
  require (totalBps ≤ 10000) .invalidParameterValue
  return { ticket with
    numPreferences := preferences.length
    stakerPreferences := writePreferences preferences }

end UpdateDirectedStakeTicket

/-! ## Accounts -/

/-- The ticket accounts that the program creates and updates, under any config. -/
inductive TicketAt (ticketAddress : Pubkey → Pubkey → Pubkey) :
    Pubkey → DirectedStakeTicket → Prop
  | created {ticket : DirectedStakeTicket} (context : TicketContext) (authority : Pubkey)
      (isProtocol : Bool)
      (succeeded :
        InitializeDirectedStakeTicket.handler context authority isProtocol = .ok ticket) :
      TicketAt ticketAddress (ticketAddress context.config authority) ticket
  | updated {address : Pubkey} {ticket next : DirectedStakeTicket} (context : TicketContext)
      (preferences : List DirectedStakePreference)
      (ticketAt : TicketAt ticketAddress address ticket)
      (succeeded : UpdateDirectedStakeTicket.handler ticketAddress context address ticket
        preferences = .ok next) :
      TicketAt ticketAddress address next

/-- The basis points of all preferences, in use or not. -/
def DirectedStakeTicket.totalBps (ticket : DirectedStakeTicket) : Nat :=
  (ticket.stakerPreferences.toList.map DirectedStakePreference.stakeShareBps).sum

/-- Behind the new preferences there are only empty ones. -/
theorem toList_writePreferences {preferences : List DirectedStakePreference}
    (fits : preferences.length ≤ maxPreferencesPerTicket) :
    (UpdateDirectedStakeTicket.writePreferences preferences).toList =
      preferences ++
        List.replicate (maxPreferencesPerTicket - preferences.length) .empty := by
  induction preferences using List.reverseRecOn with
  | nil => rfl
  | append_singleton preferences preference induction =>
      rw [List.length_append, List.length_singleton] at fits
      have written : UpdateDirectedStakeTicket.writePreferences (preferences ++ [preference]) =
          (UpdateDirectedStakeTicket.writePreferences preferences).setIfInBounds
            preferences.length preference := by
        simp [UpdateDirectedStakeTicket.writePreferences, List.zipIdx_append]
      have rest : maxPreferencesPerTicket - preferences.length =
          maxPreferencesPerTicket - (preferences ++ [preference]).length + 1 := by
        rw [List.length_append, List.length_singleton]
        omega
      rw [written, Vector.toList_setIfInBounds, induction (by omega), rest, List.replicate_succ,
        List.set_append_right _ _ (Nat.le_refl _), Nat.sub_self, List.set_cons_zero,
        List.append_assoc]
      rfl

namespace TicketAt

variable {ticketAddress : Pubkey → Pubkey → Pubkey} {address : Pubkey}
variable {ticket : DirectedStakeTicket}

/-- No ticket shares out more than the whole. -/
theorem totalBps_le (ticketAt : TicketAt ticketAddress address ticket) :
    ticket.totalBps ≤ 10000 := by
  cases ticketAt with
  | created context authority isProtocol succeeded =>
      simp only [InitializeDirectedStakeTicket.handler, Outcome.bind_eq_ok, Outcome.pure_eq_ok]
        at succeeded
      rcases succeeded with ⟨_, _, rfl⟩
      exact Nat.zero_le _
  | updated context preferences _ succeeded =>
      simp only [UpdateDirectedStakeTicket.handler, Outcome.bind_eq_ok, Outcome.pure_eq_ok,
        require_eq_ok] at succeeded
      rcases succeeded with ⟨_, _, _, _, _, fits, _, shared, rfl⟩
      rw [DirectedStakeTicket.totalBps, toList_writePreferences fits, List.map_append,
        List.sum_append, List.map_replicate, List.sum_replicate]
      exact shared

/-- The override authority of a config may create a ticket for anyone and fill it in. -/
theorem of_override {context : TicketContext}
    (overrides : context.signer = context.ticketOverrideAuthority) (authority : Pubkey)
    (isProtocol : Bool) {preferences : List DirectedStakePreference}
    (permissioned : ∀ preference ∈ preferences,
      context.whitelist.isValidatorPermissioned preference.votePubkey = true)
    (fits : preferences.length ≤ maxPreferencesPerTicket)
    (shared : (preferences.map DirectedStakePreference.stakeShareBps).sum ≤ 10000) :
    TicketAt ticketAddress (ticketAddress context.config authority) {
      numPreferences := preferences.length
      stakerPreferences := UpdateDirectedStakeTicket.writePreferences preferences
      ticketUpdateAuthority := authority
      ticketHolderIsProtocol := isProtocol } := by
  have authorized : authTicket context authority = .ok () := by
    rw [authTicket, require_of (.inr overrides), Outcome.ok_bind, require_of (.inr overrides)]
  have created : InitializeDirectedStakeTicket.handler context authority isProtocol = .ok {
      numPreferences := 0
      stakerPreferences := Vector.replicate maxPreferencesPerTicket .empty
      ticketUpdateAuthority := authority
      ticketHolderIsProtocol := isProtocol } := by
    rw [InitializeDirectedStakeTicket.handler, InitializeDirectedStakeTicket.auth, authorized,
      Outcome.ok_bind]
    rfl
  apply TicketAt.updated context preferences (.created context authority isProtocol created)
  rw [UpdateDirectedStakeTicket.handler, require_of rfl, Outcome.ok_bind,
    UpdateDirectedStakeTicket.auth, authorized, Outcome.ok_bind, require_of permissioned,
    Outcome.ok_bind, require_of fits, Outcome.ok_bind]
  dsimp only
  rw [require_of shared, Outcome.ok_bind]
  rfl

end TicketAt

end Stakenet.Steward
