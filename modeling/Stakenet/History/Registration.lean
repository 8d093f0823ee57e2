import Stakenet.History.Program

/-! The registration of history accounts over whole runs of the program: each gets an index of
its own, and keeps it. -/

namespace Stakenet.History.Program

variable {shortU16 : Bincode.Reader Nat} {arr : Nat → ValidatorHistoryEntry}

/-! ## What a call can do -/

namespace State

variable {state : State} {voteAccount other : Pubkey} {account : HistoryAccount}

@[simp] theorem setHistory_config : (state.setHistory voteAccount account).config = state.config :=
  rfl

@[simp] theorem setHistory_same :
    (state.setHistory voteAccount account).histories voteAccount = some account :=
  Function.update_self _ _ _

theorem setHistory_of_ne (different : other ≠ voteAccount) :
    (state.setHistory voteAccount account).histories other = state.histories other :=
  Function.update_of_ne different _ _

/-- The number of accounts that have been counted. -/
def counter (state : State) : Nat := (state.config.map Config.counter).getD 0

/-- The account of a key has its full size. -/
def Complete (state : State) (voteAccount : Pubkey) (account : ValidatorHistoryAccount) : Prop :=
  state.histories voteAccount = some (.complete account)

theorem complete_setHistory_of_ne {complete : ValidatorHistoryAccount}
    (different : other ≠ voteAccount) :
    (state.setHistory voteAccount account).Complete other complete ↔
      state.Complete other complete := by
  rw [Complete, Complete, setHistory_of_ne different]

theorem complete_setHistory_same {complete : ValidatorHistoryAccount} :
    (state.setHistory voteAccount account).Complete voteAccount complete ↔
      account = .complete complete := by
  rw [Complete, setHistory_same, Option.some.injEq]

end State

/-- A vote account whose owner is the vote program does not have the key zero, which is that of
the system program. -/
def Instruction.Genuine : Instruction → Prop
  | .configure _ => True
  | .initializeValidatorHistoryAccount voteAccount info
  | .reallocValidatorHistoryAccount voteAccount info
  | .copy voteAccount info _ => info.ownedByVoteProgram = true → voteAccount ≠ 0

/-- The kinds of state that a call can lead to. -/
inductive Effect (shortU16 : Bincode.Reader Nat) (state : State) (call : Call) : State → Prop
  | unchanged : Effect shortU16 state call state
  | configured {config : Config} (instruction : ConfigInstruction)
      (isConfig : call.instruction = .configure instruction)
      (handled : instruction.handle state.config call.signer = .ok config) :
      Effect shortU16 state call { state with config := some config }
  | allocated {voteAccount : Pubkey} {size : Fin validatorHistorySize}
      (incomplete : ∀ account, ¬state.Complete voteAccount account) :
      Effect shortU16 state call (state.setHistory voteAccount (.allocated size))
  | registered {voteAccount : Pubkey} {info : AccountInfo} {config counted : Config}
      {account : ValidatorHistoryAccount} {bytes : Nat → ValidatorHistoryEntry}
      (isRealloc : call.instruction = .reallocValidatorHistoryAccount voteAccount info)
      (owned : info.ownedByVoteProgram = true) (isConfig : state.config = some config)
      (isCounted : config.count = .ok counted) (hasIndex : account.index = config.counter)
      (hasKey : account.voteAccount = voteAccount) (isEmpty : account.history = .initial bytes)
      (unregistered : ∀ earlier, state.Complete voteAccount earlier → earlier.voteAccount = 0) :
      Effect shortU16 state call
        { state.setHistory voteAccount (.complete account) with config := some counted }
  | written {voteAccount : Pubkey} {info : AccountInfo} {instruction : DataInstruction}
      {account : ValidatorHistoryAccount} {data : ValidatorHistory}
      (isCopy : call.instruction = .copy voteAccount info instruction)
      (isComplete : state.Complete voteAccount account)
      (handled : instruction.handle shortU16 state.config call.clock call.signer voteAccount info
        account.toValidatorHistory = .ok data) :
      Effect shortU16 state call
        (state.setHistory voteAccount (.complete { account with toValidatorHistory := data }))

theorem Config.count_eq_ok {config counted : Config} (isCounted : config.count = .ok counted) :
    counted = { config with counter := config.counter + 1 } := by
  unfold Config.count at isCounted
  split at isCounted <;> cases isCounted
  rfl

theorem loadMut_eq_ok {state : State} {voteAccount : Pubkey} {account : ValidatorHistoryAccount} :
    loadMut state voteAccount = .ok account ↔ state.Complete voteAccount account := by
  rw [State.Complete, loadMut, Outcome.bind_eq_ok]
  constructor
  · intro loaded
    rcases loaded with ⟨found, isFound, loaded⟩
    cases found with
    | allocated size => cases loaded
    | complete stored =>
        cases loaded
        exact present_eq_ok.mp isFound
  · exact fun found => ⟨_, present_eq_ok.mpr found, rfl⟩

/-- Whatever is called in whatever state, it has one of these effects. -/
theorem effect_of_handle {state next : State} {call : Call}
    (handled : call.handle shortU16 arr state = .ok next) : Effect shortU16 state call next := by
  unfold Call.handle at handled
  split at handled
  case h_1 instruction isConfig =>
    rw [Outcome.bind_eq_ok] at handled
    rcases handled with ⟨config, handled, returned⟩
    cases returned
    exact .configured instruction isConfig handled
  case h_2 voteAccount info _ =>
    simp only [handleInitializeValidatorHistoryAccount, Outcome.bind_eq_ok, require_eq_ok,
      Outcome.pure_eq_ok, Option.isNone_iff_eq_none] at handled
    rcases handled with ⟨_, missing, _, _, _, _, _, _, rfl⟩
    refine .allocated fun account isComplete => ?_
    rw [State.Complete, missing] at isComplete
    cases isComplete
  case h_3 voteAccount info isRealloc =>
    simp only [handleReallocValidatorHistoryAccount, Outcome.bind_eq_ok, present_eq_ok,
      require_eq_ok] at handled
    rcases handled with ⟨config, isConfig, _, owned, found, isFound, handled⟩
    cases found with
    | allocated size =>
        have incomplete : ∀ account, ¬state.Complete voteAccount account := by
          intro account isComplete
          rw [State.Complete, isFound] at isComplete
          cases isComplete
        dsimp only at handled
        split at handled
        case isTrue larger =>
          cases handled
          exact .allocated incomplete
        case isFalse =>
          rw [Outcome.bind_eq_ok] at handled
          rcases handled with ⟨counted, isCounted, returned⟩
          cases returned
          exact .registered isRealloc owned isConfig isCounted rfl rfl rfl
            fun earlier isComplete => absurd isComplete (incomplete earlier)
    | complete account =>
        dsimp only at handled
        split at handled
        case isTrue unset =>
          rw [Outcome.bind_eq_ok] at handled
          rcases handled with ⟨counted, isCounted, returned⟩
          cases returned
          refine .registered isRealloc owned isConfig isCounted rfl rfl rfl ?_
          intro earlier isComplete
          rw [State.Complete, isFound] at isComplete
          cases isComplete
          exact unset
        case isFalse =>
          cases handled
          exact .unchanged
  case h_4 voteAccount info instruction isCopy =>
    simp only [DataInstruction.execute, Outcome.bind_eq_ok, loadMut_eq_ok, require_eq_ok,
      Outcome.pure_eq_ok] at handled
    rcases handled with ⟨account, isComplete, _, _, _, _, data, handled, rfl⟩
    exact .written isCopy isComplete handled

theorem effect_of_execute (state : State) (call : Call) :
    Effect shortU16 state call (execute shortU16 arr state call) := by
  rcases Outcome.commit_cases state (call.handle shortU16 arr state) with failed | succeeded
  · rw [execute, failed]
    exact .unchanged
  · exact effect_of_handle succeeded

/-! ## Registered accounts -/

/-- Every account of full size is registered under its key, and the indices that were given out
are those below the counter, each of them once. -/
structure Registered (state : State) : Prop where
  keyed : ∀ voteAccount account, state.Complete voteAccount account →
    account.voteAccount = voteAccount ∧ voteAccount ≠ 0
  counted : ∀ index, index < state.counter ↔
    ∃ voteAccount account, state.Complete voteAccount account ∧ account.index = index
  distinct : ∀ first second firstAccount secondAccount, state.Complete first firstAccount →
    state.Complete second secondAccount → firstAccount.index = secondAccount.index →
      first = second

theorem registered_empty : Registered .empty where
  keyed := fun _ _ isComplete => by cases isComplete
  counted := by
    intro index
    constructor
    · exact fun below => absurd below (Nat.not_lt_zero index)
    · intro given
      rcases given with ⟨_, _, isComplete, _⟩
      cases isComplete
  distinct := fun _ _ _ _ isComplete => by cases isComplete

/-- A configuration keeps the counter, and a new one starts without accounts. -/
theorem ConfigInstruction.counter_eq {instruction : ConfigInstruction} {state : State}
    {signer : Pubkey} {config : Config}
    (handled : instruction.handle state.config signer = .ok config) :
    config.counter = state.counter := by
  cases instruction with
  | initializeConfig authority =>
      simp only [handle, handleInitializeConfig, Outcome.bind_eq_ok, require_eq_ok,
        Outcome.pure_eq_ok, Option.isNone_iff_eq_none] at handled
      rcases handled with ⟨_, missing, rfl⟩
      rw [State.counter, missing]
      rfl
  | setNewTipDistributionProgram newProgram executable =>
      simp only [handle, Outcome.bind_eq_ok, authorized_eq_ok, Outcome.pure_eq_ok] at handled
      rcases handled with ⟨earlier, ⟨isConfig, _⟩, _, _, rfl⟩
      rw [State.counter, isConfig]
      rfl
  | setNewAdmin | setNewOracleAuthority | setNewPriorityFeeDistributionProgram
  | setNewPriorityFeeOracleAuthority =>
      simp only [handle, Outcome.bind_eq_ok, authorized_eq_ok, Outcome.pure_eq_ok] at handled
      rcases handled with ⟨earlier, ⟨isConfig, _⟩, rfl⟩
      rw [State.counter, isConfig]
      rfl

theorem Registered.of_same {state next : State} (registered : Registered state)
    (sameCounter : next.counter = state.counter)
    (same : ∀ voteAccount account, next.Complete voteAccount account →
      ∃ earlier, state.Complete voteAccount earlier ∧ earlier.index = account.index ∧
        earlier.voteAccount = account.voteAccount)
    (kept : ∀ voteAccount account, state.Complete voteAccount account →
      ∃ later, next.Complete voteAccount later ∧ later.index = account.index) :
    Registered next where
  keyed := by
    intro voteAccount account isComplete
    rcases same voteAccount account isComplete with ⟨earlier, wasComplete, _, sameKey⟩
    rw [← sameKey]
    exact registered.keyed voteAccount earlier wasComplete
  counted := by
    intro index
    rw [sameCounter, registered.counted]
    constructor
    · intro given
      rcases given with ⟨voteAccount, account, isComplete, rfl⟩
      exact ⟨voteAccount, kept voteAccount account isComplete⟩
    · intro given
      rcases given with ⟨voteAccount, account, isComplete, rfl⟩
      rcases same voteAccount account isComplete with ⟨earlier, wasComplete, sameIndex, _⟩
      exact ⟨voteAccount, earlier, wasComplete, sameIndex⟩
  distinct := by
    intro first second firstAccount secondAccount firstComplete secondComplete sameIndex
    rcases same first firstAccount firstComplete with ⟨_, firstEarlier, firstIndex, _⟩
    rcases same second secondAccount secondComplete with ⟨_, secondEarlier, secondIndex, _⟩
    exact registered.distinct _ _ _ _ firstEarlier secondEarlier
      (firstIndex.trans (sameIndex.trans secondIndex.symm))

/-- An account that is registered stays, with its index, and only its handlers change its data. -/
theorem Registered.complete_kept {state : State} (registered : Registered state) (call : Call)
    {voteAccount : Pubkey} {account : ValidatorHistoryAccount}
    (isComplete : state.Complete voteAccount account) :
    ∃ data, (execute shortU16 arr state call).Complete voteAccount
        { account with toValidatorHistory := data } ∧
      (data = account.toValidatorHistory ∨
        ∃ (info : AccountInfo) (instruction : DataInstruction),
          instruction.handle shortU16 state.config call.clock call.signer voteAccount info
            account.toValidatorHistory = .ok data) := by
  generalize reached : execute shortU16 arr state call = next
  have effect : Effect shortU16 state call next := reached ▸ effect_of_execute state call
  have key := registered.keyed voteAccount account isComplete
  cases effect with
  | unchanged => exact ⟨_, isComplete, .inl rfl⟩
  | configured => exact ⟨_, isComplete, .inl rfl⟩
  | @allocated changed size incomplete =>
      have different : voteAccount ≠ changed := by
        rintro rfl
        exact incomplete account isComplete
      exact ⟨_, (State.complete_setHistory_of_ne different).mpr isComplete, .inl rfl⟩
  | @registered changed info config counted fresh bytes _ _ _ _ _ _ _ unregistered =>
      have different : voteAccount ≠ changed := by
        rintro rfl
        exact key.2 (key.1.symm.trans (unregistered account isComplete))
      exact ⟨_, (State.complete_setHistory_of_ne different).mpr isComplete, .inl rfl⟩
  | @written changed info instruction earlier data _ wasComplete handled =>
      by_cases same : voteAccount = changed
      · subst same
        rw [State.Complete] at isComplete wasComplete
        rw [isComplete, Option.some.injEq] at wasComplete
        cases wasComplete
        exact ⟨data, State.setHistory_same, .inr ⟨info, instruction, handled⟩⟩
      · exact ⟨_, (State.complete_setHistory_of_ne same).mpr isComplete, .inl rfl⟩

/-- The next account gets the index that the counter shows. -/
theorem Registered.register {state : State} (registered : Registered state)
    {voteAccount : Pubkey} {config counted : Config} {fresh : ValidatorHistoryAccount}
    (isConfig : state.config = some config) (isCounted : config.count = .ok counted)
    (hasIndex : fresh.index = config.counter) (hasKey : fresh.voteAccount = voteAccount)
    (nonzero : voteAccount ≠ 0) (new : ∀ account, ¬state.Complete voteAccount account) :
    Registered
      { state.setHistory voteAccount (.complete fresh) with config := some counted } := by
  have counter : fresh.index = state.counter := by
    rw [hasIndex, State.counter, isConfig]
    rfl
  have nextCounter : State.counter
      { state.setHistory voteAccount (.complete fresh) with config := some counted } =
        state.counter + 1 := by
    rw [State.counter, State.counter, isConfig, Config.count_eq_ok isCounted]
    rfl
  have earlier_or_new : ∀ other account,
      (state.setHistory voteAccount (.complete fresh)).Complete other account →
        (other = voteAccount ∧ account = fresh) ∨ state.Complete other account := by
    intro other account isComplete
    by_cases same : other = voteAccount
    · subst same
      cases State.complete_setHistory_same.mp isComplete
      exact .inl ⟨rfl, rfl⟩
    · exact .inr ((State.complete_setHistory_of_ne same).mp isComplete)
  have below : ∀ other account, state.Complete other account → account.index < state.counter :=
    fun other account isComplete =>
      (registered.counted account.index).mpr ⟨other, account, isComplete, rfl⟩
  constructor
  case keyed =>
    intro other account isComplete
    rcases earlier_or_new other account isComplete with ⟨rfl, rfl⟩ | wasComplete
    · exact ⟨hasKey, nonzero⟩
    · exact registered.keyed other account wasComplete
  case counted =>
    intro index
    rw [nextCounter, Nat.lt_succ_iff_lt_or_eq, registered.counted]
    constructor
    · intro given
      rcases given with ⟨other, account, isComplete, rfl⟩ | rfl
      · have different : other ≠ voteAccount := by
          rintro rfl
          exact new account isComplete
        exact ⟨other, account, (State.complete_setHistory_of_ne different).mpr isComplete, rfl⟩
      · exact ⟨voteAccount, fresh, State.complete_setHistory_same.mpr rfl, counter⟩
    · intro given
      rcases given with ⟨other, account, isComplete, rfl⟩
      rcases earlier_or_new other account isComplete with ⟨rfl, rfl⟩ | wasComplete
      · exact .inr counter
      · exact .inl ⟨other, account, wasComplete, rfl⟩
  case distinct =>
    intro first second firstAccount secondAccount firstComplete secondComplete sameIndex
    rcases earlier_or_new first firstAccount firstComplete with ⟨rfl, rfl⟩ | firstEarlier <;>
      rcases earlier_or_new second secondAccount secondComplete with ⟨rfl, rfl⟩ | secondEarlier
    · rfl
    · have := below second secondAccount secondEarlier
      omega
    · have := below first firstAccount firstEarlier
      omega
    · exact registered.distinct _ _ _ _ firstEarlier secondEarlier sameIndex

theorem Registered.execute {state : State} (registered : Registered state) {call : Call}
    (genuine : call.instruction.Genuine) : Registered (execute shortU16 arr state call) := by
  have kept : ∀ voteAccount account, state.Complete voteAccount account →
      ∃ later, (Program.execute shortU16 arr state call).Complete voteAccount later ∧
        later.index = account.index := by
    intro voteAccount account isComplete
    rcases registered.complete_kept call isComplete with ⟨data, isLater, _⟩
    exact ⟨_, isLater, rfl⟩
  generalize reached : Program.execute shortU16 arr state call = next at kept ⊢
  have effect : Effect shortU16 state call next := reached ▸ effect_of_execute state call
  cases effect with
  | unchanged => exact registered
  | configured instruction _ handled =>
      refine registered.of_same (instruction.counter_eq handled) ?_ kept
      exact fun voteAccount account isComplete => ⟨account, isComplete, rfl, rfl⟩
  | @allocated changed size incomplete =>
      refine registered.of_same rfl (fun voteAccount account isComplete => ?_) kept
      by_cases same : voteAccount = changed
      · subst same
        cases State.complete_setHistory_same.mp isComplete
      · exact ⟨account, (State.complete_setHistory_of_ne same).mp isComplete, rfl, rfl⟩
  | @written changed info instruction earlier data _ wasComplete _ =>
      refine registered.of_same rfl (fun voteAccount account isComplete => ?_) kept
      by_cases same : voteAccount = changed
      · subst same
        cases State.complete_setHistory_same.mp isComplete
        exact ⟨earlier, wasComplete, rfl, rfl⟩
      · exact ⟨account, (State.complete_setHistory_of_ne same).mp isComplete, rfl, rfl⟩
  | registered isRealloc owned isConfig isCounted hasIndex hasKey _ unregistered =>
      rw [isRealloc] at genuine
      refine registered.register isConfig isCounted hasIndex hasKey (genuine owned) ?_
      intro account isComplete
      have key := registered.keyed _ account isComplete
      exact key.2 (key.1.symm.trans (unregistered account isComplete))

theorem Registered.run {state : State} (registered : Registered state) {calls : List Call}
    (genuine : ∀ call ∈ calls, call.instruction.Genuine) :
    Registered (Execution.run (Program.execute shortU16 arr) state calls) :=
  Execution.run_invariant Registered
    (fun _ _ registered genuine => registered.execute genuine) registered
    (Execution.everyStep_of_forall genuine state)

/-- A run of the program gives the indices from zero on, each to one vote account. Whatever is
called afterwards, an account keeps its index and its key. -/
theorem run_indices (shortU16 : Bincode.Reader Nat) (arr : Nat → ValidatorHistoryEntry)
    (calls later : List Call) (genuine : ∀ call ∈ calls ++ later, call.instruction.Genuine) :
    let state := Execution.run (execute shortU16 arr) .empty calls
    let final := Execution.run (execute shortU16 arr) .empty (calls ++ later)
    (∀ index, index < state.counter ↔
      ∃ voteAccount account, state.Complete voteAccount account ∧ account.index = index) ∧
    (∀ first second firstAccount secondAccount, state.Complete first firstAccount →
      state.Complete second secondAccount → firstAccount.index = secondAccount.index →
        first = second) ∧
    ∀ voteAccount account, state.Complete voteAccount account →
      ∃ kept, final.Complete voteAccount kept ∧ kept.index = account.index ∧
        kept.voteAccount = voteAccount := by
  intro state final
  have registered : Registered state := registered_empty.run fun call member =>
    genuine call (List.mem_append_left later member)
  refine ⟨registered.counted, registered.distinct, fun voteAccount account isComplete => ?_⟩
  have key := (registered.keyed voteAccount account isComplete).1
  have kept : Registered final ∧ ∃ kept, final.Complete voteAccount kept ∧
      kept.index = account.index ∧ kept.voteAccount = voteAccount := by
    rw [show final = Execution.run (execute shortU16 arr) state later from
      Execution.run_append _ _ _]
    refine Execution.run_invariant (fun reached => Registered reached ∧ ∃ kept,
      reached.Complete voteAccount kept ∧ kept.index = account.index ∧
        kept.voteAccount = voteAccount) ?_ ⟨registered, account, isComplete, rfl, key⟩
      (Execution.everyStep_of_forall (fun call member =>
        genuine call (List.mem_append_right calls member)) state)
    intro reached call invariant isGenuine
    rcases invariant with ⟨stillRegistered, found, isFound, sameIndex, sameKey⟩
    rcases stillRegistered.complete_kept call isFound with ⟨data, isNext, _⟩
    exact ⟨stillRegistered.execute isGenuine, _, isNext, sameIndex, sameKey⟩
  exact kept.2

/-- A vote account of the second version with five epochs of credits. -/
def fiveEpochs : AccountInfo where
  ownedByVoteProgram := true
  data := Bincode.digits 4 1 ++ List.replicate (65 + 8 + 1 + 8 + 1545) 0 ++
    Bincode.writeVec
      (fun epoch => Bincode.digits 8 epoch ++ Bincode.digits 8 0 ++ Bincode.digits 8 0)
      [5, 6, 7, 8, 9]

/-- One account is created, and grows to its full size. -/
def oneRegistration : List Call :=
  [.configure (.initializeConfig 3), .initializeValidatorHistoryAccount 7 fiveEpochs].map
      (Call.mk ⟨⟨10, 1700000000⟩, 4320000⟩ 3) ++
    List.replicate 6 (Call.mk ⟨⟨10, 1700000000⟩, 4320000⟩ 3
      (.reallocValidatorHistoryAccount 7 fiveEpochs))

/-- So does a second one, for the vote account 8. -/
def secondRegistration : List Call :=
  (Call.mk ⟨⟨10, 1700000000⟩, 4320000⟩ 3 (.initializeValidatorHistoryAccount 8 fiveEpochs)) ::
    List.replicate 6 (Call.mk ⟨⟨10, 1700000000⟩, 4320000⟩ 3
      (.reallocValidatorHistoryAccount 8 fiveEpochs))

/-- Another attempt for the first one, which is there already, and its first data. -/
def laterCalls : List Call :=
  [.reallocValidatorHistoryAccount 7 fiveEpochs, .copy 7 fiveEpochs .copyVoteAccount].map
    (Call.mk ⟨⟨11, 1700172800⟩, 4752000⟩ 4)

theorem run_indices_twoRegistrations :
    let state := Execution.run (execute (varint 16) fun _ => .unset) .empty
      (oneRegistration ++ secondRegistration)
    let final := Execution.run (execute (varint 16) fun _ => .unset) .empty
      (oneRegistration ++ secondRegistration ++ laterCalls)
    state.counter = 2 ∧
    (∀ index < 2, ∃ voteAccount account,
      state.Complete voteAccount account ∧ account.index = index) ∧
    ∀ voteAccount account, state.Complete voteAccount account →
      ∃ kept, final.Complete voteAccount kept ∧ kept.index = account.index ∧
        kept.voteAccount = voteAccount := by
  intro state final
  have counter : state.counter = 2 := by decide +kernel
  rcases run_indices (varint 16) (fun _ => .unset) (oneRegistration ++ secondRegistration)
    laterCalls (by simp [oneRegistration, secondRegistration, laterCalls, Instruction.Genuine])
    with ⟨counted, _, kept⟩
  refine ⟨counter, fun index below => ?_, kept⟩
  exact (counted index).mp (counter ▸ below)

end Stakenet.History.Program
