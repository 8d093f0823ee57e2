import Stakenet.Steward.Basic

/-! The directed stake whitelist account: the keys that may hold tickets, as users or as
protocols, and the validators that may be staked to. -/

namespace Stakenet.Steward

def maxPermissionedDirectedStakers : Nat := 2048

/-! ## One array of keys -/

/-- One of the arrays of the account with the number of its keys in use. -/
structure PermissionedKeys where
  keys : Nat → Pubkey
  total : Nat

namespace PermissionedKeys

/-- A new account is zeroed. -/
def empty : PermissionedKeys := ⟨fun _ => defaultPubkey, 0⟩

/-- An array access beyond the capacity panics. -/
def readKey (capacity : Nat) (keys : Nat → Pubkey) (row : Nat) : Result Pubkey :=
  if row < capacity then .ok (keys row) else .error .panicked

def writeKey (capacity : Nat) (keys : Nat → Pubkey) (row : Nat) (key : Pubkey) :
    Result (Nat → Pubkey) :=
  if row < capacity then .ok (Function.update keys row key) else .error .panicked

/-- `iter().take(total).any(|pk| pk == key)`. -/
def isPermissioned (capacity : Nat) (permissioned : PermissionedKeys) (key : Pubkey) : Bool :=
  (List.range (min permissioned.total capacity)).any fun row => permissioned.keys row == key

def canAdd (capacity : Nat) (permissioned : PermissionedKeys) : Bool :=
  decide (permissioned.total < capacity)

def add (capacity : Nat) (permissioned : PermissionedKeys) (key : Pubkey) :
    Result PermissionedKeys := do
  return {
    keys := ← writeKey capacity permissioned.keys permissioned.total key
    total := permissioned.total + 1 }

/-- The first key equal to the given one is removed: the rest is shifted to the left and
the last element cleared. -/
def remove (capacity : Nat) (missing : StewardError) (permissioned : PermissionedKeys)
    (key : Pubkey) : Result PermissionedKeys := do
  if permissioned.total = 0 then
    fail missing
  else
    let foundIndex ← findPosition
      (fun row => do return decide ((← readKey capacity permissioned.keys row) = key))
      0 permissioned.total
    match foundIndex with
    | none => fail missing
    | some index => do
        let shifted ← forRange index (permissioned.total - 1)
          (fun row keys => do writeKey capacity keys row (← readKey capacity keys (row + 1)))
          permissioned.keys
        return {
          keys := ← writeKey capacity shifted (permissioned.total - 1) defaultPubkey
          total := permissioned.total - 1 }

end PermissionedKeys

/-! ## The account -/

structure DirectedStakeWhitelist where
  userStakers : PermissionedKeys
  protocolStakers : PermissionedKeys
  validators : PermissionedKeys

namespace DirectedStakeWhitelist

def empty : DirectedStakeWhitelist := ⟨.empty, .empty, .empty⟩

def isUserStakerPermissioned (whitelist : DirectedStakeWhitelist) (staker : Pubkey) : Bool :=
  whitelist.userStakers.isPermissioned maxPermissionedDirectedStakers staker

def isProtocolStakerPermissioned (whitelist : DirectedStakeWhitelist) (staker : Pubkey) : Bool :=
  whitelist.protocolStakers.isPermissioned maxPermissionedDirectedStakers staker

def isStakerPermissioned (whitelist : DirectedStakeWhitelist) (staker : Pubkey) : Bool :=
  whitelist.isUserStakerPermissioned staker || whitelist.isProtocolStakerPermissioned staker

def isValidatorPermissioned (whitelist : DirectedStakeWhitelist) (validator : Pubkey) : Bool :=
  whitelist.validators.isPermissioned maxValidators validator

def canAddUserStaker (whitelist : DirectedStakeWhitelist) : Bool :=
  whitelist.userStakers.canAdd maxPermissionedDirectedStakers

def canAddProtocolStaker (whitelist : DirectedStakeWhitelist) : Bool :=
  whitelist.protocolStakers.canAdd maxPermissionedDirectedStakers

def canAddValidator (whitelist : DirectedStakeWhitelist) : Bool :=
  whitelist.validators.canAdd maxValidators

/-- What a call returns, and the account it leaves. -/
abbrev Called := Result Unit × DirectedStakeWhitelist

/-- The account before the call, for an error that is returned before anything is written. -/
def returned (whitelist : DirectedStakeWhitelist) (error : StewardError) : Called :=
  (fail error, whitelist)

/-- The outcome of a change of one of the arrays. A panic aborts the transaction, so that
the account is as before. -/
def changed (whitelist : DirectedStakeWhitelist)
    (change : PermissionedKeys → DirectedStakeWhitelist) : Result PermissionedKeys → Called
  | .ok keys => (.ok (), change keys)
  | .error failure => (.error failure, whitelist)

def addUserStaker (whitelist : DirectedStakeWhitelist) (staker : Pubkey) : Called :=
  if !whitelist.canAddUserStaker then
    whitelist.returned .alreadyPermissioned
  else if whitelist.isStakerPermissioned staker then
    whitelist.returned .alreadyPermissioned
  else
    whitelist.changed (fun keys => { whitelist with userStakers := keys })
      (whitelist.userStakers.add maxPermissionedDirectedStakers staker)

def addProtocolStaker (whitelist : DirectedStakeWhitelist) (staker : Pubkey) : Called :=
  if !whitelist.canAddProtocolStaker then
    whitelist.returned .alreadyPermissioned
  else if whitelist.isStakerPermissioned staker then
    whitelist.returned .alreadyPermissioned
  else
    whitelist.changed (fun keys => { whitelist with protocolStakers := keys })
      (whitelist.protocolStakers.add maxPermissionedDirectedStakers staker)

def addValidator (whitelist : DirectedStakeWhitelist) (validator : Pubkey) : Called :=
  if !whitelist.canAddValidator then
    whitelist.returned .directedStakeValidatorListFull
  else if whitelist.isValidatorPermissioned validator then
    whitelist.returned .directedStakeValidatorListFull
  else
    whitelist.changed (fun keys => { whitelist with validators := keys })
      (whitelist.validators.add maxValidators validator)

def removeUserStaker (whitelist : DirectedStakeWhitelist) (staker : Pubkey) : Called :=
  whitelist.changed (fun keys => { whitelist with userStakers := keys })
    (whitelist.userStakers.remove maxPermissionedDirectedStakers .stakerNotInWhitelist staker)

def removeProtocolStaker (whitelist : DirectedStakeWhitelist) (staker : Pubkey) : Called :=
  whitelist.changed (fun keys => { whitelist with protocolStakers := keys })
    (whitelist.protocolStakers.remove maxPermissionedDirectedStakers .stakerNotInWhitelist staker)

def removeValidator (whitelist : DirectedStakeWhitelist) (validator : Pubkey) : Called :=
  whitelist.changed (fun keys => { whitelist with validators := keys })
    (whitelist.validators.remove maxValidators .validatorNotInWhitelist validator)

/-- User stakers first, then protocol stakers. -/
def removeStaker (whitelist : DirectedStakeWhitelist) (staker : Pubkey) : Called :=
  if whitelist.isUserStakerPermissioned staker then
    whitelist.removeUserStaker staker
  else if whitelist.isProtocolStakerPermissioned staker then
    whitelist.removeProtocolStaker staker
  else
    whitelist.returned .stakerNotInWhitelist

end DirectedStakeWhitelist

/-! ## Calls -/

inductive WhitelistCall
  | addUserStaker (staker : Pubkey)
  | addProtocolStaker (staker : Pubkey)
  | addValidator (validator : Pubkey)
  | removeUserStaker (staker : Pubkey)
  | removeProtocolStaker (staker : Pubkey)
  | removeValidator (validator : Pubkey)
  | removeStaker (staker : Pubkey)

namespace WhitelistCall

def call (whitelist : DirectedStakeWhitelist) : WhitelistCall → DirectedStakeWhitelist.Called
  | .addUserStaker staker => whitelist.addUserStaker staker
  | .addProtocolStaker staker => whitelist.addProtocolStaker staker
  | .addValidator validator => whitelist.addValidator validator
  | .removeUserStaker staker => whitelist.removeUserStaker staker
  | .removeProtocolStaker staker => whitelist.removeProtocolStaker staker
  | .removeValidator validator => whitelist.removeValidator validator
  | .removeStaker staker => whitelist.removeStaker staker

/-- The account after a call, whether it failed or not. -/
def execute (whitelist : DirectedStakeWhitelist) (next : WhitelistCall) : DirectedStakeWhitelist :=
  (next.call whitelist).2

end WhitelistCall

end Stakenet.Steward
