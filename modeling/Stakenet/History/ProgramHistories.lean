import Stakenet.History.ProgramWrites

/-! The entries of history accounts over whole runs of the program: their order, what stays of a
record, and who can change it. -/

namespace Stakenet.History

/-! ## Entries that are kept -/

/-- The entry of an epoch has a value, or it has been dropped for younger ones. -/
def Kept (view : ValidatorHistoryEntry → β) (epoch : Nat) (value : β)
    (stored : List ValidatorHistoryEntry) : Prop :=
  (∃ entry ∈ stored, entry.epoch = epoch ∧ view entry = value) ∨
    (stored ≠ [] ∧ ∀ entry ∈ stored, epoch < entry.epoch)

/-- Every entry has the value of an earlier entry of its epoch, or that of a blank entry. -/
def Traced (view : ValidatorHistoryEntry → β) (earlier stored : List ValidatorHistoryEntry) :
    Prop :=
  ∀ entry ∈ stored, (∃ origin ∈ earlier, origin.epoch = entry.epoch ∧ view origin = view entry) ∨
    view entry = view .unset

section Lists

variable {view : ValidatorHistoryEntry → β} {value : β} {epoch written : Nat}
  {change : ValidatorHistoryEntry → ValidatorHistoryEntry}
  {earlier stored : List ValidatorHistoryEntry}

theorem Kept.newest (sorted : Sorted stored) (kept : Kept view epoch value stored) :
    Kept view epoch value (newest stored) := by
  have nonempty : stored ≠ [] := by
    rcases kept with ⟨entry, member, _⟩ | ⟨nonempty, _⟩
    · exact List.ne_nil_of_mem member
    · exact nonempty
  have stays : History.newest stored ≠ [] := by
    have positive := List.length_pos_iff.mpr nonempty
    have length := Window.length_last maxItems stored
    rw [History.newest, ← List.length_pos_iff, length]
    exact Nat.lt_min.mpr ⟨maxItems_pos, positive⟩
  rcases kept with ⟨entry, member, atEpoch, hasValue⟩ | ⟨_, later⟩
  · have split := member
    rw [← Window.take_append_last maxItems stored, List.mem_append] at split
    rcases split with isCut | isKept
    · refine .inr ⟨stays, fun other isKept => ?_⟩
      rw [← atEpoch]
      exact Window.cut_lt_last sorted.increasing isCut isKept
    · exact .inl ⟨entry, isKept, atEpoch, hasValue⟩
  · exact .inr ⟨stays, fun entry member => later entry (Window.mem_of_mem_last member)⟩

theorem Kept.map (kept : Kept view epoch value stored)
    (keepsEpoch : ∀ entry, (change entry).epoch = entry.epoch)
    (keeps : ∀ entry ∈ stored, entry.epoch = epoch → view entry = value →
      view (change entry) = value) : Kept view epoch value (stored.map change) := by
  rcases kept with ⟨entry, member, atEpoch, hasValue⟩ | ⟨nonempty, later⟩
  · exact .inl ⟨change entry, List.mem_map_of_mem member, by rw [keepsEpoch, atEpoch],
      keeps entry member atEpoch hasValue⟩
  · refine .inr ⟨by rwa [ne_eq, List.map_eq_nil_iff], fun entry member => ?_⟩
    rcases List.mem_map.mp member with ⟨original, isStored, rfl⟩
    rw [keepsEpoch]
    exact later original isStored

theorem Kept.record (sorted : Sorted stored) (kept : Kept view epoch value stored)
    (valid : written < epochDefault) (keepsEpoch : ∀ entry, (change entry).epoch = entry.epoch)
    (keeps : ∀ entry ∈ stored, entry.epoch = epoch → view entry = value → epoch = written →
      view (change entry) = value) : Kept view epoch value (record written change stored) := by
  unfold History.record
  split
  case isTrue later =>
    have itemEpoch : (change (.ofEpoch written)).epoch = written := keepsEpoch _
    apply Kept.newest
    · apply sorted.append <;> rwa [itemEpoch]
    · rcases kept with ⟨entry, member, atEpoch, hasValue⟩ | ⟨nonempty, above⟩
      · exact .inl ⟨entry, List.mem_append_left _ member, atEpoch, hasValue⟩
      · refine .inr ⟨List.append_ne_nil_of_left_ne_nil nonempty _, fun entry member => ?_⟩
        rcases List.mem_append.mp member with isStored | isItem
        · exact above entry isStored
        · rcases List.exists_mem_of_ne_nil _ nonempty with ⟨oldest, isOldest⟩
          rw [List.mem_singleton.mp isItem, itemEpoch]
          exact Nat.lt_trans (above oldest isOldest) (later oldest isOldest)
  case isFalse =>
    apply kept.map
    · intro entry
      split
      · exact keepsEpoch entry
      · rfl
    · intro entry member atEpoch hasValue
      split
      case isTrue isWritten =>
        exact keeps entry member atEpoch hasValue (atEpoch.symm.trans isWritten)
      case isFalse => exact hasValue

theorem Kept.backfill (sorted : Sorted stored) (kept : Kept view epoch value stored)
    (valid : written < epochDefault) : Kept view epoch value (backfill written stored) := by
  unfold History.backfill
  split
  case isFalse => exact kept
  case isTrue missing =>
    apply Kept.newest (sorted.insertByEpoch missing.2 valid)
    rcases kept with ⟨entry, member, atEpoch, hasValue⟩ | ⟨nonempty, above⟩
    · exact .inl ⟨entry, Window.mem_insert.mpr (.inr member), atEpoch, hasValue⟩
    · refine .inr ⟨List.ne_nil_of_mem (Window.mem_insert.mpr (.inl rfl)), fun entry member => ?_⟩
      rcases Window.mem_insert.mp member with rfl | isStored
      · rcases missing.1.1 with ⟨oldest, isOldest, atMost⟩
        exact Nat.lt_of_lt_of_le (above oldest isOldest) atMost
      · exact above entry isStored

theorem mem_record {entry : ValidatorHistoryEntry} (member : entry ∈ record written change stored) :
    entry ∈ stored ∨ entry = change (.ofEpoch written) ∨
      ∃ original ∈ stored, original.epoch = written ∧ entry = change original := by
  unfold record at member
  split at member
  case isTrue =>
    rcases List.mem_append.mp (Window.mem_of_mem_last member) with isStored | isItem
    · exact .inl isStored
    · exact .inr (.inl (List.mem_singleton.mp isItem))
  case isFalse =>
    rcases List.mem_map.mp member with ⟨original, isStored, rfl⟩
    split
    case isTrue isWritten => exact .inr (.inr ⟨original, isStored, isWritten, rfl⟩)
    case isFalse => exact .inl isStored

theorem mem_backfill {entry : ValidatorHistoryEntry} (member : entry ∈ backfill written stored) :
    entry ∈ stored ∨ (InRange stored written ∧ entry = .ofEpoch written) := by
  unfold backfill at member
  split at member
  case isTrue missing =>
    rcases Window.mem_insert.mp (Window.mem_of_mem_last member) with isItem | isStored
    · exact .inr ⟨missing.1, isItem⟩
    · exact .inl isStored
  case isFalse => exact .inl member

theorem Sorted.record (sorted : Sorted stored) (valid : written < epochDefault)
    (keepsEpoch : ∀ entry, (change entry).epoch = entry.epoch) :
    Sorted (record written change stored) := by
  unfold History.record
  split
  case isTrue later =>
    apply Sorted.newest
    have itemEpoch : (change (.ofEpoch written)).epoch = written := keepsEpoch _
    apply sorted.append <;> rwa [itemEpoch]
  case isFalse =>
    apply sorted.map
    intro entry
    split
    · exact keepsEpoch entry
    · rfl

theorem Sorted.backfill (sorted : Sorted stored) (valid : written < epochDefault) :
    Sorted (backfill written stored) := by
  unfold History.backfill
  split
  case isTrue missing => exact (sorted.insertByEpoch missing.2 valid).newest
  case isFalse => exact sorted

/-- A value that a change does not touch. -/
theorem Traced.record (traced : Traced view earlier stored)
    (blank : ∀ epoch, view (.ofEpoch epoch) = view .unset)
    (keepsEpoch : ∀ entry, (change entry).epoch = entry.epoch)
    (keeps : ∀ entry, view (change entry) = view entry) :
    Traced view earlier (record written change stored) := by
  intro entry member
  rcases mem_record member with isStored | rfl | ⟨original, isStored, _, rfl⟩
  · exact traced entry isStored
  · exact .inr ((keeps _).trans (blank written))
  · rw [keepsEpoch, keeps]
    exact traced original isStored

end Lists

/-! ## Rewritten entries -/

namespace Program

section Rewrites

variable {config : Option Config} {clock : Clock} {signer : Pubkey}
  {stored later : List ValidatorHistoryEntry}

theorem Rewrite.sorted (sorted : Sorted stored)
    (rewritten : Rewrite config clock signer stored later) :
    Sorted later := by
  cases rewritten with
  | write permitted => exact sorted.record permitted.valid permitted.keepsEpoch
  | fill valid => exact sorted.backfill valid
  | credit creditsMap => exact sorted.map (credit_epoch creditsMap)

/-- What every change keeps. -/
theorem Rewrites.keeps {Property : List ValidatorHistoryEntry → Prop}
    (kept : ∀ stored later, Sorted stored → Rewrite config clock signer stored later →
      Property stored → Property later)
    (rewritten : Rewrites config clock signer stored later) (sorted : Sorted stored)
    (holds : Property stored) : Sorted later ∧ Property later := by
  induction rewritten with
  | refl => exact ⟨sorted, holds⟩
  | tail _ last induction =>
      exact ⟨last.sorted induction.1, kept _ _ induction.1 last induction.2⟩

/-- No entry gets the epoch of a later clock. -/
theorem Rewrite.notFuture {bound : Nat} (bounded : clock.epoch ≤ bound)
    (rewritten : Rewrite config clock signer stored later)
    (atMost : ∀ entry ∈ stored, entry.epoch ≤ bound) : ∀ entry ∈ later, entry.epoch ≤ bound := by
  intro entry member
  cases rewritten with
  | write permitted =>
      have itemEpoch := permitted.keepsEpoch
      rcases mem_record member with isStored | rfl | ⟨original, isStored, _, rfl⟩
      · exact atMost entry isStored
      · rw [itemEpoch]
        exact permitted.notFuture.trans bounded
      · rw [itemEpoch]
        exact atMost original isStored
  | fill valid =>
      rcases mem_backfill member with isStored | ⟨inRange, rfl⟩
      · exact atMost entry isStored
      · rcases inRange.2 with ⟨newer, isStored, reached⟩
        exact reached.trans (atMost newer isStored)
  | credit creditsMap =>
      rcases List.mem_map.mp member with ⟨original, isStored, rfl⟩
      rw [credit_epoch]
      exact atMost original isStored

/-- The fields other than the credits do not depend on them. -/
def IgnoresCredits (view : ValidatorHistoryEntry → β) : Prop :=
  ∀ (entry : ValidatorHistoryEntry) (credits : Nat),
    view { entry with epochCredits := credits } = view entry

theorem IgnoresCredits.credit {view : ValidatorHistoryEntry → β} (ignores : IgnoresCredits view)
    (creditsMap : List (Nat × Nat)) (entry : ValidatorHistoryEntry) :
    view (History.credit creditsMap entry) = view entry := by
  unfold History.credit
  split
  · exact ignores entry _
  · rfl

section Views

variable {view : ValidatorHistoryEntry → β} {epoch : Nat} {value : β}
  {earlier : List ValidatorHistoryEntry}

/-- A value that no write to its entry changes stays. -/
theorem Rewrite.view_kept (sorted : Sorted stored) (ignores : IgnoresCredits view)
    (rewritten : Rewrite config clock signer stored later)
    (untouched : ∀ {change}, Permitted config clock signer stored epoch change →
      ∀ entry ∈ stored, entry.epoch = epoch → view entry = value → view (change entry) = value)
    (kept : Kept view epoch value stored) : Kept view epoch value later := by
  cases rewritten with
  | write permitted =>
      apply kept.record sorted permitted.valid permitted.keepsEpoch
      intro entry member atEpoch hasValue isWritten
      subst isWritten
      exact untouched permitted entry member atEpoch hasValue
  | fill valid => exact kept.backfill sorted valid
  | credit creditsMap =>
      apply kept.map (credit_epoch creditsMap)
      intro entry _ _ hasValue
      rw [ignores.credit, hasValue]

theorem Rewrite.view_traced (ignores : IgnoresCredits view)
    (blank : ∀ epoch, view (.ofEpoch epoch) = view .unset)
    (rewritten : Rewrite config clock signer stored later)
    (untouched : ∀ {epoch change}, Permitted config clock signer stored epoch change →
      ∀ entry, view (change entry) = view entry)
    (traced : Traced view earlier stored) : Traced view earlier later := by
  cases rewritten with
  | write permitted => exact traced.record blank permitted.keepsEpoch (untouched permitted)
  | fill valid =>
      intro entry member
      rcases mem_backfill member with isStored | ⟨_, rfl⟩
      · exact traced entry isStored
      · exact .inr (blank _)
  | credit creditsMap =>
      intro entry member
      rcases List.mem_map.mp member with ⟨original, isStored, rfl⟩
      rw [credit_epoch, ignores.credit]
      exact traced original isStored

end Views

end Rewrites

/-! ## Runs -/

/-- The entries of a vote account, from the oldest to the newest. -/
def State.entries (state : State) (voteAccount : Pubkey) : List ValidatorHistoryEntry :=
  match state.histories voteAccount with
  | some (.complete account) => account.history.entries
  | _ => []

theorem State.entries_of_complete {state : State} {voteAccount : Pubkey}
    {account : ValidatorHistoryAccount} (isComplete : state.Complete voteAccount account) :
    state.entries voteAccount = account.history.entries := by
  unfold State.entries
  rw [isComplete]

theorem State.exists_complete_of_mem {state : State} {voteAccount : Pubkey}
    {entry : ValidatorHistoryEntry} (member : entry ∈ state.entries voteAccount) :
    ∃ account, state.Complete voteAccount account := by
  unfold State.entries at member
  split at member
  case h_1 account isComplete => exact ⟨account, isComplete⟩
  case h_2 => cases member

theorem State.entries_of_incomplete {state : State} {voteAccount : Pubkey}
    (incomplete : ∀ account, ¬state.Complete voteAccount account) :
    state.entries voteAccount = [] := by
  unfold State.entries
  split
  case h_1 account isComplete => exact absurd isComplete (incomplete account)
  case h_2 => rfl

theorem State.entries_congr {state next : State} {voteAccount : Pubkey}
    (same : next.histories voteAccount = state.histories voteAccount) :
    next.entries voteAccount = state.entries voteAccount := by
  unfold State.entries
  rw [same]

/-- Registered accounts, whose rings are in order. -/
structure Sound (state : State) : Prop where
  registered : Registered state
  holds : ∀ voteAccount account, state.Complete voteAccount account →
    account.history.Holds (state.entries voteAccount)

theorem sound_empty : Sound .empty where
  registered := registered_empty
  holds := fun _ _ isComplete => by cases isComplete

section Execution

variable {shortU16 : Bincode.Reader Nat} {arr : Nat → ValidatorHistoryEntry} {state : State}

/-- A call rewrites the entries of each account by the rules. -/
theorem Sound.execute (sound : Sound state) {call : Call} (genuine : call.instruction.Genuine) :
    Sound (execute shortU16 arr state call) ∧ ∀ voteAccount,
      Rewrites state.config call.clock call.signer (state.entries voteAccount)
        ((Program.execute shortU16 arr state call).entries voteAccount) := by
  have registered : Registered (Program.execute shortU16 arr state call) :=
    sound.registered.execute genuine
  generalize reached : Program.execute shortU16 arr state call = next at registered ⊢
  have effect : Effect shortU16 state call next := reached ▸ effect_of_execute state call
  suffices later : ∀ voteAccount, Rewrites state.config call.clock call.signer
      (state.entries voteAccount) (next.entries voteAccount) ∧
      ∀ account, next.Complete voteAccount account →
        account.history.Holds (next.entries voteAccount) from
    ⟨⟨registered, fun voteAccount => (later voteAccount).2⟩,
      fun voteAccount => (later voteAccount).1⟩
  intro voteAccount
  have untouched : next.histories voteAccount = state.histories voteAccount →
      Rewrites state.config call.clock call.signer (state.entries voteAccount)
        (next.entries voteAccount) ∧ ∀ account, next.Complete voteAccount account →
          account.history.Holds (next.entries voteAccount) := by
    intro same
    rw [State.entries_congr same]
    refine ⟨.refl, fun account isComplete => sound.holds voteAccount account ?_⟩
    rwa [State.Complete, ← same]
  cases effect with
  | unchanged => exact untouched rfl
  | configured => exact untouched rfl
  | @allocated changed size incomplete =>
      by_cases same : voteAccount = changed
      · subst same
        rw [State.entries_of_incomplete incomplete, State.entries_of_incomplete]
        · exact ⟨.refl, fun account isComplete => by
            cases State.complete_setHistory_same.mp isComplete⟩
        · intro account isComplete
          cases State.complete_setHistory_same.mp isComplete
      · exact untouched (State.setHistory_of_ne same)
  | @registered changed info config counted fresh bytes isRealloc owned _ _ _ _ isEmpty
      unregistered =>
      by_cases same : voteAccount = changed
      · subst same
        have incomplete : ∀ account, ¬state.Complete voteAccount account := by
          intro account isComplete
          have key := sound.registered.keyed voteAccount account isComplete
          exact key.2 (key.1.symm.trans (unregistered account isComplete))
        have fill : fresh.history.Holds [] := isEmpty ▸ CircBuf.holds_initial bytes
        have complete : State.Complete
            { state.setHistory voteAccount (.complete fresh) with config := some counted }
            voteAccount fresh := State.setHistory_same
        rw [State.entries_of_incomplete incomplete, State.entries_of_complete complete,
          fill.entries_eq]
        refine ⟨.refl, fun account isComplete => ?_⟩
        cases State.complete_setHistory_same.mp isComplete
        exact fill
      · exact untouched (State.setHistory_of_ne same)
  | @written changed info instruction account data _ isComplete handled =>
      by_cases same : voteAccount = changed
      · subst same
        rcases rewritten_of_handle (sound.holds voteAccount account isComplete) handled with
          ⟨later, holds, rewritten⟩
        have complete : State.Complete
            (state.setHistory voteAccount (.complete { account with toValidatorHistory := data }))
            voteAccount { account with toValidatorHistory := data } := State.setHistory_same
        rw [State.entries_of_complete complete, holds.entries_eq]
        refine ⟨rewritten, fun found isFound => ?_⟩
        cases State.complete_setHistory_same.mp isFound
        exact holds
      · exact untouched (State.setHistory_of_ne same)

theorem Sound.sorted (sound : Sound state) (voteAccount : Pubkey) :
    Sorted (state.entries voteAccount) := by
  by_cases complete : ∃ account, state.Complete voteAccount account
  · rcases complete with ⟨account, isComplete⟩
    exact (sound.holds voteAccount account isComplete).sorted
  · rw [State.entries_of_incomplete fun account isComplete => complete ⟨account, isComplete⟩]
    exact ⟨List.Pairwise.nil, fun _ member => (List.not_mem_nil member).elim⟩

/-- What every change of the entries keeps holds after a run. -/
theorem Sound.run (sound : Sound state) {voteAccount : Pubkey}
    {Property : List ValidatorHistoryEntry → Prop} {condition : State → Call → Prop}
    (kept : ∀ state call stored later, condition state call → Sorted stored →
      Rewrite state.config call.clock call.signer stored later → Property stored → Property later)
    {calls : List Call}
    (conditions : Execution.EveryStep (Program.execute shortU16 arr)
      (fun state call => call.instruction.Genuine ∧ condition state call) state calls)
    (holds : Property (state.entries voteAccount)) :
    Sound (Execution.run (Program.execute shortU16 arr) state calls) ∧
      Property
        ((Execution.run (Program.execute shortU16 arr) state calls).entries voteAccount) := by
  refine Execution.run_invariant
    (fun reached => Sound reached ∧ Property (reached.entries voteAccount)) ?_ ⟨sound, holds⟩
    conditions
  intro reached call invariant required
  rcases invariant.1.execute required.1 with ⟨nextSound, rewritten⟩
  exact ⟨nextSound, ((rewritten voteAccount).keeps
    (fun stored later => kept reached call stored later required.2)
    (invariant.1.sorted voteAccount) invariant.2).2⟩

theorem sound_run {calls : List Call} (genuine : ∀ call ∈ calls, call.instruction.Genuine) :
    Sound (Execution.run (Program.execute shortU16 arr) .empty calls) :=
  Execution.run_invariant Sound (fun _ _ sound isGenuine => (sound.execute isGenuine).1) sound_empty
    (Execution.everyStep_of_forall genuine _)

theorem entries_notFuture {calls : List Call}
    (genuine : ∀ call ∈ calls, call.instruction.Genuine) {latest : Nat}
    (clocks : ∀ call ∈ calls, call.clock.epoch ≤ latest) (voteAccount : Pubkey) :
    ∀ entry ∈ (Execution.run (Program.execute shortU16 arr) .empty calls).entries voteAccount,
      entry.epoch ≤ latest := by
  have conditions : Execution.EveryStep (Program.execute shortU16 arr) (fun _ call =>
      call.instruction.Genuine ∧ call.clock.epoch ≤ latest) .empty calls :=
    Execution.everyStep_of_forall (fun call member => ⟨genuine call member, clocks call member⟩) _
  have initially : ∀ entry ∈ State.empty.entries voteAccount, entry.epoch ≤ latest :=
    fun _ member => (List.not_mem_nil member).elim
  exact (sound_empty.run
    (fun _ _ _ _ bounded _ rewritten => rewritten.notFuture bounded) conditions initially).2

/-! ## Gossip -/

/-- The call copies gossip data to the history of a vote account. -/
def Call.Copies (shortU16 : Bincode.Reader Nat) (arr : Nat → ValidatorHistoryEntry) (state : State)
    (voteAccount : Pubkey) (update : GossipUpdate) (call : Call) : Prop :=
  ∃ info transaction next,
    call.instruction = .copy voteAccount info (.copyGossipContactInfo transaction) ∧
    checkGossip shortU16 call.clock.toClock transaction info = .ok update ∧
    call.handle shortU16 arr state = .ok next

/-- A copied update replaces what is not newer, and leaves its own time behind. -/
theorem Call.Copies.timestamps {voteAccount : Pubkey} {update : GossipUpdate} {call : Call}
    (copies : call.Copies shortU16 arr state voteAccount update) :
    ∃ account data, state.Complete voteAccount account ∧
      (Program.execute shortU16 arr state call).Complete voteAccount
        { account with toValidatorHistory := data } ∧
      account.setCrdsData update.epoch update.lastSignedTs update.crdsData = .ok data := by
  rcases copies with ⟨info, transaction, next, isCopy, checked, handled⟩
  have executed : Program.execute shortU16 arr state call = next := by
    rw [Program.execute, handled, Outcome.commit_ok]
  rw [executed]
  simp only [Call.handle, isCopy, DataInstruction.execute, Outcome.bind_eq_ok, loadMut_eq_ok,
    Outcome.pure_eq_ok, DataInstruction.handle, lift_eq_ok, handleCopyGossipContactInfo,
    checked, Except.ok.injEq, exists_eq_left'] at handled
  rcases handled with ⟨account, isComplete, _, _, _, _, data, ⟨_, _, stored⟩, rfl⟩
  exact ⟨account, data, isComplete, State.setHistory_same, stored⟩

/-- The account of a key, with times that are not earlier. -/
def State.NotOlder (state : State) (voteAccount : Pubkey) (earlier : ValidatorHistory) : Prop :=
  ∃ account, state.Complete voteAccount account ∧
    Program.NotOlder earlier account.toValidatorHistory

theorem State.NotOlder.execute {voteAccount : Pubkey} {earlier : ValidatorHistory}
    (registered : Registered state) (notOlder : state.NotOlder voteAccount earlier) (call : Call) :
    (Program.execute shortU16 arr state call).NotOlder voteAccount earlier := by
  rcases notOlder with ⟨account, isComplete, notOlder⟩
  rcases registered.complete_kept call isComplete with ⟨data, isNext, rfl | ⟨_, _, handled⟩⟩
  · exact ⟨_, isNext, notOlder⟩
  · exact ⟨_, isNext, notOlder.trans (notOlder_of_handle handled)⟩

end Execution

/-! ## Results -/

section Results

variable (shortU16 : Bincode.Reader Nat) (arr : Nat → ValidatorHistoryEntry)

/-- After any calls every history is in order, epochs are looked up in it correctly, and none of
its entries has an epoch later than all the clocks of the calls. -/
theorem run_histories_ordered (calls : List Call)
    (genuine : ∀ call ∈ calls, call.instruction.Genuine) (latest : Nat)
    (clocks : ∀ call ∈ calls, call.clock.epoch ≤ latest) :
    ∀ voteAccount account,
      (Execution.run (execute shortU16 arr) .empty calls).Complete voteAccount account →
        account.history.Ordered ∧ (∀ entry ∈ account.history.entries, entry.epoch ≤ latest) ∧
        ∀ startEpoch endEpoch, endEpoch < epochDefault →
          account.history.epochRange startEpoch endEpoch =
            (CircBuf.epochs startEpoch endEpoch).map account.history.entryOf := by
  intro voteAccount account isComplete
  have sound : Sound (Execution.run (execute shortU16 arr) .empty calls) := sound_run genuine
  have holds := sound.holds voteAccount account isComplete
  refine ⟨holds.ordered, ?_, fun _ _ valid => holds.epochRange_eq_entryOf valid⟩
  rw [← State.entries_of_complete isComplete]
  exact entries_notFuture genuine clocks voteAccount

/-- The fees of epoch 9, from a distribution account of 500 basis points. -/
def copyFees (signer : Pubkey) : Call where
  clock := ⟨⟨10, 1700000000⟩, 4320000⟩
  signer := signer
  instruction := .copy 7 fiveEpochs
    (.copyPriorityFeeDistribution 9 ⟨0, 7, 9, 0, some ⟨tipRouterAuthority, 500, 90000⟩⟩)

def feesOfNine : ValidatorHistoryEntry :=
  { ValidatorHistoryEntry.ofEpoch 9 with
    priorityFeeCommission := 500
    priorityFeeTips := 90000
    priorityFeeMerkleRootUploadAuthority := .tipRouter }

theorem entries_copyFees :
    (Execution.run (execute (varint 16) fun _ => .unset) .empty
      (oneRegistration ++ [copyFees 5])).entries 7 = [feesOfNine] := by
  decide +kernel

theorem oneRegistration_genuine : ∀ call ∈ oneRegistration, call.instruction.Genuine := by
  simp [oneRegistration, Instruction.Genuine]

theorem copyFees_genuine : ∀ call ∈ oneRegistration ++ [copyFees 5] ++ [copyFees 6],
    call.instruction.Genuine := by
  simp [oneRegistration, copyFees, Instruction.Genuine]

theorem run_histories_ordered_copyFees :
    ∃ account, (Execution.run (execute (varint 16) fun _ => .unset) .empty
        (oneRegistration ++ [copyFees 5])).Complete 7 account ∧
      account.history.Ordered ∧ (∀ entry ∈ account.history.entries, entry.epoch ≤ 10) ∧
      ∀ startEpoch endEpoch, endEpoch < epochDefault →
        account.history.epochRange startEpoch endEpoch =
          (CircBuf.epochs startEpoch endEpoch).map account.history.entryOf := by
  rcases State.exists_complete_of_mem (entries_copyFees ▸ List.mem_singleton_self feesOfNine) with
    ⟨account, isComplete⟩
  exact ⟨account, isComplete, run_histories_ordered (varint 16) (fun _ => .unset)
    (oneRegistration ++ [copyFees 5])
    (fun call member => copyFees_genuine call (List.mem_append_left _ member)) 10
    (by simp [oneRegistration, copyFees]) 7 account isComplete⟩

/-- Once the fee record of an epoch has been set it never changes, whatever is called: the entry
is there with the same record, or it has been dropped and all entries are younger. -/
theorem run_feeRecord_permanent (calls later : List Call)
    (genuine : ∀ call ∈ calls ++ later, call.instruction.Genuine) (voteAccount : Pubkey)
    (entry : ValidatorHistoryEntry)
    (recorded : entry ∈
      (Execution.run (execute shortU16 arr) .empty calls).entries voteAccount)
    (isSet : entry.priorityFeeMerkleRootUploadAuthority ≠ .unset) :
    Kept ValidatorHistoryEntry.feeRecord entry.epoch entry.feeRecord
      ((Execution.run (execute shortU16 arr) .empty (calls ++ later)).entries voteAccount) := by
  have sound : Sound (Execution.run (execute shortU16 arr) .empty calls) :=
    sound_run fun call member => genuine call (List.mem_append_left later member)
  rw [Execution.run_append]
  have conditions : Execution.EveryStep (execute shortU16 arr)
      (fun _ call => call.instruction.Genuine ∧ True)
      (Execution.run (execute shortU16 arr) .empty calls) later :=
    Execution.everyStep_of_forall
      (fun call member => ⟨genuine call (List.mem_append_right calls member), trivial⟩) _
  refine (sound.run ?_ conditions (.inl ⟨entry, recorded, rfl, rfl⟩)).2
  intro state call stored reached _ sorted rewritten kept
  refine rewritten.view_kept sorted (fun _ _ => rfl) ?_ kept
  intro change permitted other member atEpoch sameRecord
  rcases permitted.feeRecord with keeps | unset
  · rw [keeps, sameRecord]
  · have isAuthority : other.priorityFeeMerkleRootUploadAuthority =
        entry.priorityFeeMerkleRootUploadAuthority :=
      congrArg (fun value => value.2.2) sameRecord
    exact absurd (isAuthority.symm.trans (unset other member atEpoch)) isSet

theorem run_feeRecord_permanent_copyFees :
    Kept ValidatorHistoryEntry.feeRecord feesOfNine.epoch feesOfNine.feeRecord
      ((Execution.run (execute (varint 16) fun _ => .unset) .empty
        (oneRegistration ++ [copyFees 5] ++ [copyFees 6])).entries 7) :=
  run_feeRecord_permanent (varint 16) (fun _ => .unset) (oneRegistration ++ [copyFees 5])
    [copyFees 6] copyFees_genuine 7 feesOfNine (by
      rw [entries_copyFees]
      exact List.mem_singleton_self _) (by decide)

/-- In a run of calls that the present holder of an authority does not sign, the fields that this
authority publishes do not change: each entry keeps them until it is dropped, and a new entry
has none. -/
theorem run_published_unsigned (publisher : Publisher) (calls later : List Call)
    (genuine : ∀ call ∈ calls ++ later, call.instruction.Genuine)
    (unsigned : Execution.EveryStep (execute shortU16 arr)
      (fun state call => ∀ config, state.config = some config →
        call.signer ≠ publisher.key config)
      (Execution.run (execute shortU16 arr) .empty calls) later) (voteAccount : Pubkey) :
    let start := (Execution.run (execute shortU16 arr) .empty calls).entries voteAccount
    let final := (Execution.run (execute shortU16 arr) .empty (calls ++ later)).entries voteAccount
    (∀ entry ∈ start, Kept publisher.fields entry.epoch (publisher.fields entry) final) ∧
      Traced publisher.fields start final := by
  intro start final
  have sound : Sound (Execution.run (execute shortU16 arr) .empty calls) :=
    sound_run fun call member => genuine call (List.mem_append_left later member)
  have isGenuine : Execution.EveryStep (execute shortU16 arr)
      (fun _ call => call.instruction.Genuine)
      (Execution.run (execute shortU16 arr) .empty calls) later :=
    Execution.everyStep_of_forall
      (fun call member => genuine call (List.mem_append_right calls member)) _
  have conditions := isGenuine.and unsigned
  have untouched : ∀ {state : State} {call : Call} {stored epoch change},
      (∀ config, state.config = some config → call.signer ≠ publisher.key config) →
      Permitted state.config call.clock call.signer stored epoch change →
        ∀ entry, publisher.fields (change entry) = publisher.fields entry := by
    intro state call stored epoch change notSigned permitted
    rcases permitted.published publisher with keeps | ⟨config, isConfig, signed⟩
    · exact keeps
    · exact absurd signed.symm (notSigned config isConfig)
  have ignores : IgnoresCredits publisher.fields := fun _ _ => by cases publisher <;> rfl
  rw [show final = (Execution.run (execute shortU16 arr)
    (Execution.run (execute shortU16 arr) .empty calls) later).entries voteAccount from
      congrArg (State.entries · voteAccount) (Execution.run_append _ _ _)]
  refine ⟨fun entry member => ?_, ?_⟩
  · refine (sound.run ?_ conditions (.inl ⟨entry, member, rfl, rfl⟩)).2
    intro state call stored reached notSigned sorted rewritten kept
    refine rewritten.view_kept sorted ignores ?_ kept
    intro change permitted other _ _ sameFields
    rw [untouched notSigned permitted, sameFields]
  · refine (sound.run ?_ conditions fun entry member => .inl ⟨entry, member, rfl, rfl⟩).2
    intro state call stored reached notSigned _ rewritten traced
    refine rewritten.view_traced ignores (fun _ => by cases publisher <;> rfl) ?_ traced
    exact fun permitted => untouched notSigned permitted

theorem run_published_unsigned_copyFees :
    let start := (Execution.run (execute (varint 16) fun _ => .unset) .empty
      (oneRegistration ++ [copyFees 5])).entries 7
    let final := (Execution.run (execute (varint 16) fun _ => .unset) .empty
      (oneRegistration ++ [copyFees 5] ++ [copyFees 6])).entries 7
    (∀ entry ∈ start, Kept (Publisher.fields .oracle) entry.epoch
      (Publisher.fields .oracle entry) final) ∧ Traced (Publisher.fields .oracle) start final :=
  run_published_unsigned (varint 16) (fun _ => .unset) .oracle (oneRegistration ++ [copyFees 5])
    [copyFees 6] copyFees_genuine (by
      have isConfig : (Execution.run (execute (varint 16) fun _ => .unset) .empty
          (oneRegistration ++ [copyFees 5])).config.map Config.oracleAuthority = some 3 := by
        decide +kernel
      refine ⟨fun config found => ?_, trivial⟩
      rw [found, Option.map_some, Option.some.injEq] at isConfig
      rw [Publisher.key, isConfig]
      decide) 7

/-- Gossip data of a validator is copied in the order of its timestamps, as far as two pieces of
it set the same field, whatever is called between them. -/
theorem run_gossip_in_order (calls between : List Call) (first second : Call)
    (genuine : ∀ call ∈ calls ++ first :: between, call.instruction.Genuine)
    (voteAccount : Pubkey) (early late : GossipUpdate)
    (copiesFirst : first.Copies shortU16 arr (Execution.run (execute shortU16 arr) .empty calls)
      voteAccount early)
    (copiesSecond : second.Copies shortU16 arr
      (Execution.run (execute shortU16 arr) .empty (calls ++ first :: between)) voteAccount late) :
    (early.crdsData.setsIp = true → late.crdsData.setsIp = true →
      early.lastSignedTs ≤ late.lastSignedTs) ∧
    (early.crdsData.setsVersion = true → late.crdsData.setsVersion = true →
      early.lastSignedTs ≤ late.lastSignedTs) := by
  rw [List.forall_mem_append, List.forall_mem_cons] at genuine
  rw [Execution.run_append, Execution.run_cons] at copiesSecond
  rcases copiesFirst.timestamps with ⟨account, data, _, isComplete, stored⟩
  have sound : Sound (Execution.run (execute shortU16 arr) .empty calls) := sound_run genuine.1
  have start : Sound (execute shortU16 arr (Execution.run (execute shortU16 arr) .empty calls)
      first) := (sound.execute genuine.2.1).1
  have conditions : Execution.EveryStep (execute shortU16 arr)
      (fun _ call => call.instruction.Genuine) _ between :=
    Execution.everyStep_of_forall genuine.2.2
      (execute shortU16 arr (Execution.run (execute shortU16 arr) .empty calls) first)
  have kept := Execution.run_invariant
    (fun reached => Sound reached ∧ reached.NotOlder voteAccount data)
    (fun reached call invariant isGenuine =>
      ⟨(invariant.1.execute isGenuine).1, invariant.2.execute invariant.1.registered call⟩)
    ⟨start, _, isComplete, .of_eq rfl rfl⟩ conditions
  rcases kept.2 with ⟨reached, isReached, notOlder⟩
  rcases copiesSecond.timestamps with ⟨found, next, isFound, _, storedSecond⟩
  rw [State.Complete, isReached, Option.some.injEq] at isFound
  cases isFound
  rcases ValidatorHistory.setCrdsData_eq_ok stored with ⟨_, _, ipTimestamp, versionTimestamp, _⟩
  rcases ValidatorHistory.setCrdsData_eq_ok storedSecond with ⟨ipRecent, versionRecent, _⟩
  constructor
  · intro sets setsAgain
    rw [if_pos sets] at ipTimestamp
    exact ipTimestamp ▸ notOlder.1.trans (ipRecent setsAgain)
  · intro sets setsAgain
    rw [if_pos sets] at versionTimestamp
    exact versionTimestamp ▸ notOlder.2.trans (versionRecent setsAgain)

/-- The oracle copies a version message of the node. -/
def copyVersion (wallclock : Nat) : Call where
  clock := ⟨⟨10, 1700000000⟩, 4320000⟩
  signer := 3
  instruction := .copy 7 nodeVoteAccount (.copyGossipContactInfo (versionTransaction wallclock))

def versionUpdate (wallclock : Nat) : GossipUpdate where
  epoch := 10
  lastSignedTs := wallclock
  crdsData := .version ⟨BitVec.ofNat 256 (Bincode.number (List.replicate 32 7)), wallclock,
    ⟨2, 0, 14, none, 0⟩⟩

theorem copyVersion_copies {state : State} {wallclock : Nat}
    (checked : checkGossip shortLength ⟨10, 1700000000⟩ (versionTransaction wallclock)
      nodeVoteAccount = .ok (versionUpdate wallclock))
    (accepted : ((copyVersion wallclock).handle shortLength (fun _ => .unset) state).isOk = true) :
    (copyVersion wallclock).Copies shortLength (fun _ => .unset) state 7
      (versionUpdate wallclock) := by
  rcases Outcome.exists_eq_ok accepted with ⟨next, handled⟩
  exact ⟨nodeVoteAccount, versionTransaction wallclock, next, rfl, checked, handled⟩

/-- The oracle sets the stake of the same epoch. -/
def updateStake : Call where
  clock := ⟨⟨10, 1700000000⟩, 4320000⟩
  signer := 3
  instruction := .copy 7 nodeVoteAccount (.updateStakeHistory 10 90000 4 false)

/-- Between two messages the stake is set, and the first message cannot be repeated. -/
theorem run_gossip_in_order_copyVersion :
    ((versionUpdate 5000).crdsData.setsVersion = true →
      (versionUpdate 6000).crdsData.setsVersion = true →
        (versionUpdate 5000).lastSignedTs ≤ (versionUpdate 6000).lastSignedTs) ∧
    ((copyVersion 5000).handle shortLength (fun _ => .unset)
      (Execution.run (execute shortLength fun _ => .unset) .empty
        (oneRegistration ++ [copyVersion 5000, updateStake, copyVersion 6000]))).isOk = false :=
  ⟨(run_gossip_in_order shortLength (fun _ => .unset) oneRegistration [updateStake]
    (copyVersion 5000) (copyVersion 6000)
    (by simp [oneRegistration, copyVersion, updateStake, Instruction.Genuine]) 7 _ _
    (copyVersion_copies (by decide +kernel) (by decide +kernel))
    (copyVersion_copies (by decide +kernel) (by decide +kernel))).2, by decide +kernel⟩

end Results

end Program

end Stakenet.History
