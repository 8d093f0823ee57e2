import Stakenet.Foundation.Execution
import Stakenet.Foundation.ListedRows
import Stakenet.Steward.Whitelist

/-! The whitelist account keeps three sets of keys: its arrays hold the members of each in
the order of their addition, and no staker is both a user and a protocol. -/

namespace Stakenet.Steward

open Stakenet.Execution

/-! ## One array -/

namespace PermissionedKeys

/-- The array begins with the members, each of them once, and the counter is their number. -/
structure Holds (capacity : Nat) (permissioned : PermissionedKeys) (members : List Pubkey) :
    Prop where
  listed : Lists defaultPubkey members permissioned.keys
  total : permissioned.total = members.length
  bounded : members.length ≤ capacity
  distinct : members.Nodup

variable {capacity : Nat} {permissioned : PermissionedKeys} {members : List Pubkey}
variable {key : Pubkey} {missing : StewardError}

theorem holds_empty (capacity : Nat) : Holds capacity empty [] where
  listed := Lists.nil defaultPubkey
  total := rfl
  bounded := Nat.zero_le capacity
  distinct := List.nodup_nil

namespace Holds

variable (holds : Holds capacity permissioned members)
include holds

theorem isPermissioned_iff : permissioned.isPermissioned capacity key = true ↔ key ∈ members := by
  have inUse : min permissioned.total capacity = members.length := by
    rw [holds.total]
    exact Nat.min_eq_left holds.bounded
  rw [isPermissioned, inUse, List.any_eq_true, holds.listed.mem_iff]
  simp

theorem canAdd_iff : permissioned.canAdd capacity = true ↔ members.length < capacity := by
  rw [canAdd, holds.total, decide_eq_true_iff]

theorem add_eq_ok (room : members.length < capacity) (fresh : key ∉ members) :
    ∃ next, permissioned.add capacity key = .ok next ∧
      Holds capacity next (members ++ [key]) := by
  have written : writeKey capacity permissioned.keys permissioned.total key =
      .ok (Function.update permissioned.keys members.length key) := by
    rw [writeKey, holds.total, if_pos room]
  refine ⟨⟨Function.update permissioned.keys members.length key, permissioned.total + 1⟩, ?_, ?_⟩
  · rw [add, written]
    rfl
  · exact {
      listed := holds.listed.push key
      total := by simp [holds.total]
      bounded := by simp; omega
      distinct := by
        apply List.Nodup.append holds.distinct (List.nodup_singleton key)
        simpa using fresh }

/-- The shift of a removal reads and writes within the array. -/
theorem shift_eq_ok {index : Nat} (inside : index < members.length) :
    forRange index (members.length - 1)
        (fun row keys => do writeKey capacity keys row (← readKey capacity keys (row + 1)))
        permissioned.keys =
      .ok (shiftDown permissioned.keys index (members.length - 1)) := by
  have room := holds.bounded
  have bounded : index ≤ members.length - 1 := by omega
  have started : permissioned.keys = shiftDown permissioned.keys index index :=
    (shiftDown_of_le permissioned.keys (Nat.le_refl index)).symm
  have step : ∀ row current, index ≤ row → row < members.length - 1 →
      current = shiftDown permissioned.keys index row →
      ∃ next, (readKey capacity current (row + 1) >>= fun moved =>
        writeKey capacity current row moved) = .ok next ∧
          next = shiftDown permissioned.keys index (row + 1) := by
    intro row current lower upper reached
    refine ⟨Function.update current row (current (row + 1)), ?_, ?_⟩
    · rw [readKey, if_pos (by omega), Outcome.ok_bind, writeKey, if_pos (by omega)]
    · rw [reached, update_shiftDown permissioned.keys lower]
  rcases forRange.succeeds (fun row keys => keys = shiftDown permissioned.keys index row)
    bounded started step with ⟨final, finished, shifted⟩
  rw [finished, shifted]

theorem remove_eq_ok (member : key ∈ members) :
    ∃ next, permissioned.remove capacity missing key = .ok next ∧
      Holds capacity next (members.erase key) := by
  have room := holds.bounded
  have nonempty : permissioned.total ≠ 0 := by
    rw [holds.total]
    exact (List.length_pos_of_mem member).ne'
  have tested : ∀ row, 0 ≤ row → row < 0 + permissioned.total →
      ∃ outcome, (do return decide ((← readKey capacity permissioned.keys row) = key) :
        Result Bool) = .ok outcome := by
    intro row _ upper
    rw [holds.total] at upper
    refine ⟨decide (permissioned.keys row = key), ?_⟩
    rw [readKey, if_pos (by omega)]
    rfl
  rcases findPosition.succeeds tested with ⟨foundIndex, searched⟩
  cases foundIndex with
  | none =>
      exfalso
      rcases holds.listed.mem_iff.mp member with ⟨row, inside, found⟩
      have failed := findPosition.eq_none searched row (Nat.zero_le row)
        (by rw [holds.total]; omega)
      rw [readKey, if_pos (by omega), Outcome.ok_bind, Outcome.pure_eq_ok] at failed
      exact of_decide_eq_false failed found
  | some index =>
      rcases findPosition.eq_some searched with ⟨_, upper, passed, _⟩
      have inside : index < members.length := by
        rw [holds.total] at upper
        omega
      rw [readKey, if_pos (by omega), Outcome.ok_bind, Outcome.pure_eq_ok] at passed
      have found : permissioned.keys index = key := of_decide_eq_true passed
      have shifted := holds.shift_eq_ok inside
      have cleared : writeKey capacity (shiftDown permissioned.keys index (members.length - 1))
          (members.length - 1) defaultPubkey =
            .ok (deleteRow permissioned.keys index (members.length - 1) defaultPubkey) := by
        rw [writeKey, if_pos (by omega), update_shiftDown_filler]
      refine ⟨⟨deleteRow permissioned.keys index (members.length - 1) defaultPubkey,
        members.length - 1⟩, ?_, ?_⟩
      · simp only [remove, if_neg nonempty, searched, Outcome.ok_bind]
        rw [holds.total, shifted, Outcome.ok_bind, cleared]
        rfl
      · exact {
          listed := holds.listed.erase holds.distinct inside found
          total := (List.length_erase_of_mem member).symm
          bounded := (List.length_erase_of_mem member).trans_le (by omega)
          distinct := holds.distinct.erase key }

theorem remove_missing (absent : key ∉ members) :
    permissioned.remove capacity missing key = fail missing := by
  have room := holds.bounded
  by_cases none : permissioned.total = 0
  · rw [remove, if_pos none]
  · have tested : ∀ row, 0 ≤ row → row < 0 + permissioned.total →
        (do return decide ((← readKey capacity permissioned.keys row) = key) :
          Result Bool) = .ok false := by
      intro row _ upper
      rw [holds.total] at upper
      have other : permissioned.keys row ≠ key :=
        fun found => absent (holds.listed.mem_iff.mpr ⟨row, by omega, found⟩)
      rw [readKey, if_pos (by omega), Outcome.ok_bind, Outcome.pure_eq_ok]
      exact decide_eq_false other
    rcases findPosition.succeeds fun row lower upper => ⟨_, tested row lower upper⟩ with
      ⟨foundIndex, searched⟩
    cases foundIndex with
    | none => simp only [remove, if_neg none, searched, Outcome.ok_bind]
    | some index =>
        exfalso
        rcases findPosition.eq_some searched with ⟨lower, upper, passed, _⟩
        rw [tested index lower upper] at passed
        cases passed

end Holds

end PermissionedKeys

/-! ## The three sets -/

/-- The members of the three sets, each in the order of their addition. -/
structure WhitelistMembers where
  users : List Pubkey
  protocols : List Pubkey
  validators : List Pubkey

namespace WhitelistMembers

def none : WhitelistMembers := ⟨[], [], []⟩

/-- The members after a call that succeeds. -/
def apply (members : WhitelistMembers) : WhitelistCall → Option WhitelistMembers
  | .addUserStaker staker =>
      if members.users.length < maxPermissionedDirectedStakers ∧
          staker ∉ members.users ∧ staker ∉ members.protocols then
        some { members with users := members.users ++ [staker] }
      else Option.none
  | .addProtocolStaker staker =>
      if members.protocols.length < maxPermissionedDirectedStakers ∧
          staker ∉ members.users ∧ staker ∉ members.protocols then
        some { members with protocols := members.protocols ++ [staker] }
      else Option.none
  | .addValidator validator =>
      if members.validators.length < maxValidators ∧ validator ∉ members.validators then
        some { members with validators := members.validators ++ [validator] }
      else Option.none
  | .removeUserStaker staker =>
      if staker ∈ members.users then
        some { members with users := members.users.erase staker }
      else Option.none
  | .removeProtocolStaker staker =>
      if staker ∈ members.protocols then
        some { members with protocols := members.protocols.erase staker }
      else Option.none
  | .removeValidator validator =>
      if validator ∈ members.validators then
        some { members with validators := members.validators.erase validator }
      else Option.none
  | .removeStaker staker =>
      if staker ∈ members.users ∨ staker ∈ members.protocols then
        some { members with
          users := members.users.erase staker
          protocols := members.protocols.erase staker }
      else Option.none

/-- A call that fails changes nothing. -/
def step (members : WhitelistMembers) (call : WhitelistCall) : WhitelistMembers :=
  (members.apply call).getD members

end WhitelistMembers

/-- The guards of an addition: both refuse with the same result. -/
theorem guards_eq {β : Type} {canAdd permissioned : Bool} {room present : Prop} [Decidable room]
    [Decidable present] (hasRoom : canAdd = true ↔ room)
    (isPresent : permissioned = true ↔ present) (refused added : β) :
    (if !canAdd then refused else if permissioned then refused else added) =
      if room ∧ ¬present then added else refused := by
  have canAdd_eq : canAdd = decide room := by rw [Bool.eq_iff_iff, hasRoom, decide_eq_true_iff]
  have permissioned_eq : permissioned = decide present := by
    rw [Bool.eq_iff_iff, isPresent, decide_eq_true_iff]
  by_cases full : room
  · by_cases known : present
    · simp [canAdd_eq, permissioned_eq, full, known]
    · simp [canAdd_eq, permissioned_eq, full, known]
  · simp [canAdd_eq, full]

/-- The account holds the three sets. -/
structure RefinesSets (whitelist : DirectedStakeWhitelist) (members : WhitelistMembers) : Prop where
  users : whitelist.userStakers.Holds maxPermissionedDirectedStakers members.users
  protocols : whitelist.protocolStakers.Holds maxPermissionedDirectedStakers members.protocols
  validators : whitelist.validators.Holds maxValidators members.validators
  disjoint : members.users.Disjoint members.protocols

/-- What a call has to do where the sets have these members. -/
def Answers (members : WhitelistMembers) (call : WhitelistCall)
    (whitelist : DirectedStakeWhitelist) : Prop :=
  match members.apply call with
  | some next => (call.call whitelist).1 = .ok () ∧ RefinesSets (call.call whitelist).2 next
  | none => ∃ error, call.call whitelist = (fail error, whitelist)

namespace RefinesSets

open PermissionedKeys DirectedStakeWhitelist

variable {whitelist : DirectedStakeWhitelist} {members : WhitelistMembers} {key : Pubkey}

theorem empty : RefinesSets .empty .none where
  users := holds_empty maxPermissionedDirectedStakers
  protocols := holds_empty maxPermissionedDirectedStakers
  validators := holds_empty maxValidators
  disjoint := List.disjoint_nil_left []

variable (refines : RefinesSets whitelist members)
include refines

theorem isUserStakerPermissioned_iff :
    whitelist.isUserStakerPermissioned key = true ↔ key ∈ members.users :=
  refines.users.isPermissioned_iff

theorem isProtocolStakerPermissioned_iff :
    whitelist.isProtocolStakerPermissioned key = true ↔ key ∈ members.protocols :=
  refines.protocols.isPermissioned_iff

theorem isStakerPermissioned_iff :
    whitelist.isStakerPermissioned key = true ↔
      key ∈ members.users ∨ key ∈ members.protocols := by
  rw [isStakerPermissioned, Bool.or_eq_true, refines.isUserStakerPermissioned_iff,
    refines.isProtocolStakerPermissioned_iff]

theorem isValidatorPermissioned_iff :
    whitelist.isValidatorPermissioned key = true ↔ key ∈ members.validators :=
  refines.validators.isPermissioned_iff

/-! ### One call -/

theorem addUserStaker (staker : Pubkey) : Answers members (.addUserStaker staker) whitelist := by
  have guarded : whitelist.addUserStaker staker = _ :=
    guards_eq refines.users.canAdd_iff refines.isStakerPermissioned_iff _ _
  simp only [not_or] at guarded
  by_cases selectable : members.users.length < maxPermissionedDirectedStakers ∧
      staker ∉ members.users ∧ staker ∉ members.protocols
  · rcases refines.users.add_eq_ok selectable.1 selectable.2.1 with ⟨next, added, holds⟩
    simp only [Answers, WhitelistMembers.apply, if_pos selectable, WhitelistCall.call, guarded,
      added, changed, true_and]
    exact { refines with
      users := holds
      disjoint := List.disjoint_append_left.mpr
        ⟨refines.disjoint, List.singleton_disjoint.mpr selectable.2.2⟩ }
  · simp only [Answers, WhitelistMembers.apply, if_neg selectable, WhitelistCall.call, guarded]
    exact ⟨_, rfl⟩

theorem addProtocolStaker (staker : Pubkey) :
    Answers members (.addProtocolStaker staker) whitelist := by
  have guarded : whitelist.addProtocolStaker staker = _ :=
    guards_eq refines.protocols.canAdd_iff refines.isStakerPermissioned_iff _ _
  simp only [not_or] at guarded
  by_cases selectable : members.protocols.length < maxPermissionedDirectedStakers ∧
      staker ∉ members.users ∧ staker ∉ members.protocols
  · rcases refines.protocols.add_eq_ok selectable.1 selectable.2.2 with ⟨next, added, holds⟩
    simp only [Answers, WhitelistMembers.apply, if_pos selectable, WhitelistCall.call, guarded,
      added, changed, true_and]
    exact { refines with
      protocols := holds
      disjoint := List.disjoint_append_right.mpr
        ⟨refines.disjoint, List.disjoint_singleton.mpr selectable.2.1⟩ }
  · simp only [Answers, WhitelistMembers.apply, if_neg selectable, WhitelistCall.call, guarded]
    exact ⟨_, rfl⟩

theorem addValidator (validator : Pubkey) :
    Answers members (.addValidator validator) whitelist := by
  have guarded : whitelist.addValidator validator = _ :=
    guards_eq refines.validators.canAdd_iff refines.isValidatorPermissioned_iff _ _
  by_cases selectable : members.validators.length < maxValidators ∧
      validator ∉ members.validators
  · rcases refines.validators.add_eq_ok selectable.1 selectable.2 with ⟨next, added, holds⟩
    simp only [Answers, WhitelistMembers.apply, if_pos selectable, WhitelistCall.call, guarded,
      added, changed, true_and]
    exact { refines with validators := holds }
  · simp only [Answers, WhitelistMembers.apply, if_neg selectable, WhitelistCall.call, guarded]
    exact ⟨_, rfl⟩

theorem removeUserStaker_of_mem {staker : Pubkey} (member : staker ∈ members.users) :
    ∃ next, whitelist.removeUserStaker staker = (.ok (), next) ∧
      RefinesSets next { members with users := members.users.erase staker } := by
  rcases refines.users.remove_eq_ok member with ⟨keys, removed, holds⟩
  refine ⟨{ whitelist with userStakers := keys }, ?_, ?_⟩
  · rw [DirectedStakeWhitelist.removeUserStaker, removed]
    rfl
  · exact { refines with
      users := holds
      disjoint := List.disjoint_of_subset_left List.erase_subset refines.disjoint }

theorem removeProtocolStaker_of_mem {staker : Pubkey} (member : staker ∈ members.protocols) :
    ∃ next, whitelist.removeProtocolStaker staker = (.ok (), next) ∧
      RefinesSets next { members with protocols := members.protocols.erase staker } := by
  rcases refines.protocols.remove_eq_ok member with ⟨keys, removed, holds⟩
  refine ⟨{ whitelist with protocolStakers := keys }, ?_, ?_⟩
  · rw [DirectedStakeWhitelist.removeProtocolStaker, removed]
    rfl
  · exact { refines with
      protocols := holds
      disjoint := List.disjoint_of_subset_right List.erase_subset refines.disjoint }

theorem removeUserStaker (staker : Pubkey) :
    Answers members (.removeUserStaker staker) whitelist := by
  by_cases member : staker ∈ members.users
  · rcases refines.removeUserStaker_of_mem member with ⟨next, called, refined⟩
    simp only [Answers, WhitelistMembers.apply, if_pos member, WhitelistCall.call, called, true_and]
    exact refined
  · simp only [Answers, WhitelistMembers.apply, if_neg member, WhitelistCall.call]
    rw [DirectedStakeWhitelist.removeUserStaker, refines.users.remove_missing member]
    exact ⟨_, rfl⟩

theorem removeProtocolStaker (staker : Pubkey) :
    Answers members (.removeProtocolStaker staker) whitelist := by
  by_cases member : staker ∈ members.protocols
  · rcases refines.removeProtocolStaker_of_mem member with ⟨next, called, refined⟩
    simp only [Answers, WhitelistMembers.apply, if_pos member, WhitelistCall.call, called, true_and]
    exact refined
  · simp only [Answers, WhitelistMembers.apply, if_neg member, WhitelistCall.call]
    rw [DirectedStakeWhitelist.removeProtocolStaker, refines.protocols.remove_missing member]
    exact ⟨_, rfl⟩

theorem removeValidator (validator : Pubkey) :
    Answers members (.removeValidator validator) whitelist := by
  by_cases member : validator ∈ members.validators
  · rcases refines.validators.remove_eq_ok member with ⟨keys, removed, holds⟩
    simp only [Answers, WhitelistMembers.apply, if_pos member, WhitelistCall.call]
    rw [DirectedStakeWhitelist.removeValidator, removed]
    exact ⟨rfl, { refines with validators := holds }⟩
  · simp only [Answers, WhitelistMembers.apply, if_neg member, WhitelistCall.call]
    rw [DirectedStakeWhitelist.removeValidator, refines.validators.remove_missing member]
    exact ⟨_, rfl⟩

/-- A key is in one of the two lists of stakers only, so that erasing it from both removes
it from the one that holds it. -/
theorem removeStaker (staker : Pubkey) : Answers members (.removeStaker staker) whitelist := by
  have user : whitelist.isUserStakerPermissioned staker = true ↔ _ :=
    refines.isUserStakerPermissioned_iff
  have protocol : whitelist.isProtocolStakerPermissioned staker = true ↔ _ :=
    refines.isProtocolStakerPermissioned_iff
  by_cases isUser : staker ∈ members.users
  · rcases refines.removeUserStaker_of_mem isUser with ⟨next, called, refined⟩
    have notProtocol : staker ∉ members.protocols := fun both => refines.disjoint isUser both
    simp only [Answers, WhitelistMembers.apply, if_pos (Or.inl isUser), WhitelistCall.call,
      DirectedStakeWhitelist.removeStaker, if_pos (user.mpr isUser), called, true_and]
    rw [List.erase_of_not_mem notProtocol]
    exact refined
  · by_cases isProtocol : staker ∈ members.protocols
    · rcases refines.removeProtocolStaker_of_mem isProtocol with ⟨next, called, refined⟩
      simp only [Answers, WhitelistMembers.apply, if_pos (Or.inr isProtocol), WhitelistCall.call,
        DirectedStakeWhitelist.removeStaker, if_neg (mt user.mp isUser),
        if_pos (protocol.mpr isProtocol), called, true_and]
      rw [List.erase_of_not_mem isUser]
      exact refined
    · simp only [Answers, WhitelistMembers.apply, if_neg (not_or.mpr ⟨isUser, isProtocol⟩),
        WhitelistCall.call, DirectedStakeWhitelist.removeStaker, if_neg (mt user.mp isUser),
        if_neg (mt protocol.mp isProtocol)]
      exact ⟨_, rfl⟩

theorem answers (call : WhitelistCall) : Answers members call whitelist := by
  cases call with
  | addUserStaker staker => exact refines.addUserStaker staker
  | addProtocolStaker staker => exact refines.addProtocolStaker staker
  | addValidator validator => exact refines.addValidator validator
  | removeUserStaker staker => exact refines.removeUserStaker staker
  | removeProtocolStaker staker => exact refines.removeProtocolStaker staker
  | removeValidator validator => exact refines.removeValidator validator
  | removeStaker staker => exact refines.removeStaker staker

theorem execute (call : WhitelistCall) :
    RefinesSets (call.execute whitelist) (members.step call) := by
  have answered := refines.answers call
  rw [Answers] at answered
  rw [WhitelistCall.execute, WhitelistMembers.step]
  cases next : members.apply call with
  | none =>
      rw [next] at answered
      rcases answered with ⟨error, returned⟩
      rw [returned]
      exact refines
  | some next' =>
      rw [next] at answered
      exact answered.2

end RefinesSets

/-! ## Runs -/

/-- What the account tells about three sets of keys, and what every call does to them. -/
structure KeepsSets (whitelist : DirectedStakeWhitelist) (members : WhitelistMembers) : Prop where
  refines : RefinesSets whitelist members
  users : ∀ key, whitelist.isUserStakerPermissioned key = true ↔ key ∈ members.users
  protocols : ∀ key, whitelist.isProtocolStakerPermissioned key = true ↔ key ∈ members.protocols
  stakers : ∀ key, whitelist.isStakerPermissioned key = true ↔
    key ∈ members.users ∨ key ∈ members.protocols
  validators : ∀ key, whitelist.isValidatorPermissioned key = true ↔ key ∈ members.validators
  answers : ∀ call, Answers members call whitelist
  failing : ∀ call : WhitelistCall, (call.call whitelist).1 ≠ .ok () →
    (call.call whitelist).2 = whitelist
  removing : ∀ staker, staker ∈ members.users ∨ staker ∈ members.protocols →
    (whitelist.removeStaker staker).1 = .ok () ∧
      RefinesSets (whitelist.removeStaker staker).2 { members with
        users := members.users.erase staker
        protocols := members.protocols.erase staker }

theorem RefinesSets.keepsSets {whitelist : DirectedStakeWhitelist} {members : WhitelistMembers}
    (refines : RefinesSets whitelist members) : KeepsSets whitelist members where
  refines := refines
  users _ := refines.isUserStakerPermissioned_iff
  protocols _ := refines.isProtocolStakerPermissioned_iff
  stakers _ := refines.isStakerPermissioned_iff
  validators _ := refines.isValidatorPermissioned_iff
  answers := refines.answers
  failing := by
    intro call failed
    have answered := refines.answers call
    rw [Answers] at answered
    cases next : members.apply call with
    | none =>
        rw [next] at answered
        rcases answered with ⟨error, returned⟩
        rw [returned]
    | some after =>
        rw [next] at answered
        exact absurd answered.1 failed
  removing := by
    intro staker member
    have answered := refines.removeStaker staker
    simp only [Answers, WhitelistMembers.apply, if_pos member] at answered
    exact answered

/-- The account keeps the members that the calls added and did not remove since, whatever
the calls and their order. -/
theorem run_keepsSets (calls : List WhitelistCall) :
    KeepsSets (run WhitelistCall.execute .empty calls)
      (run WhitelistMembers.step .none calls) := by
  have refined : ∀ whitelist members, RefinesSets whitelist members →
      RefinesSets (run WhitelistCall.execute whitelist calls)
        (run WhitelistMembers.step members calls) := by
    induction calls with
    | nil => exact fun _ _ refines => refines
    | cons call rest induction =>
        intro whitelist members refines
        exact induction _ _ (refines.execute call)
  exact (refined .empty .none .empty).keepsSets

end Stakenet.Steward
