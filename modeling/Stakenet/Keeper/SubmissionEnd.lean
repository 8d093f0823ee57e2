import Stakenet.Keeper.SubmissionRecord

/-! The end of a submission. A pass that is followed by another one either met a blockhash that is
still valid or signed the transactions anew, and both are limited. -/

namespace Stakenet.Keeper.Submission

variable {ι σ : Type}

namespace Event

def isValidAnswer : Event ι σ → Bool
  | .isBlockhashValid _ (.ok valid) => valid
  | _ => false

def sendsIndex (index : Nat) : Event ι σ → Bool
  | .sendTransaction sent _ _ => sent = index
  | _ => false

end Event

/-- How often the client called a blockhash valid. -/
def validAnswers (log : Log ι σ) : Nat := log.countP Event.isValidAnswer

def sendings (index : Nat) (log : Log ι σ) : Nat := log.countP (Event.sendsIndex index)

@[simp] theorem validAnswers_append (first second : Log ι σ) :
    validAnswers (first ++ second) = validAnswers first + validAnswers second :=
  List.countP_append

@[simp] theorem sendings_append (index : Nat) (first second : Log ι σ) :
    sendings index (first ++ second) = sendings index first + sendings index second :=
  List.countP_append

theorem validAnswers_eq_zero {log : Log ι σ}
    (none : ∀ event ∈ log, event.isValidAnswer = false) : validAnswers log = 0 :=
  List.countP_eq_zero.mpr fun event member => by simp [none event member]

theorem sendings_eq_zero {index : Nat} {log : Log ι σ}
    (none : ∀ event ∈ log, event.sendsIndex index = false) : sendings index log = 0 :=
  List.countP_eq_zero.mpr fun event member => by simp [none event member]

/-! ## One pass -/

variable [DecidableEq σ] {client : Client ι σ} {transactions : List (List ι)}

/-- Every transaction is sent at most once in a pass. -/
theorem sendAll_log (client : Client ι σ) (signedTxs : List (SignedTransaction ι))
    (results : List SendResult) (log : Log ι σ) :
    ∃ more, (sendAll client signedTxs results log).log = log ++ more ∧ validAnswers more = 0 ∧
      ∀ index, sendings index more ≤ 1 := by
  have later : ∀ (rest : List (SignedTransaction ι)) (start : Nat) (sends : Sends ι σ),
      ∃ more, ((rest.zipIdx start).foldl
          (fun sends tx => sendOne client sends tx.1 tx.2) sends).log = sends.log ++ more ∧
        validAnswers more = 0 ∧
        ∀ index, sendings index more ≤ 1 ∧ (index < start → sendings index more = 0) := by
    intro rest
    induction rest with
    | nil =>
        intro start sends
        exact ⟨[], (List.append_nil _).symm, rfl, fun index => ⟨Nat.zero_le 1, fun _ => rfl⟩⟩
    | cons transaction rest induction =>
        intro start sends
        have one : ∃ first, (sendOne client sends transaction start).log = sends.log ++ first ∧
            validAnswers first = 0 ∧
            ∀ index, sendings index first ≤ 1 ∧ (index ≠ start → sendings index first = 0) := by
          unfold sendOne
          split
          case isTrue =>
            exact ⟨[], (List.append_nil _).symm, rfl, fun index => ⟨Nat.zero_le 1, fun _ => rfl⟩⟩
          case isFalse =>
            refine ⟨[.sendTransaction start transaction
              (client.sendTransaction sends.log transaction)], ?_, rfl, fun index => ⟨?_, ?_⟩⟩
            · dsimp only
              split <;> rfl
            · exact List.countP_le_length
            · intro different
              exact sendings_eq_zero fun event member => by
                rw [List.mem_singleton.mp member]
                exact decide_eq_false (Ne.symm different)
        rcases one with ⟨first, firstLog, firstValid, firstSendings⟩
        rcases induction (start + 1) (sendOne client sends transaction start) with
          ⟨more, moreLog, moreValid, moreSendings⟩
        refine ⟨first ++ more, ?_, ?_, fun index => ?_⟩
        · rw [List.zipIdx_cons, List.foldl_cons, moreLog, firstLog, List.append_assoc]
        · rw [validAnswers_append, firstValid, moreValid]
        · rw [sendings_append]
          have head := firstSendings index
          have tail := moreSendings index
          by_cases isStart : index = start
          · have none := tail.2 (by omega)
            omega
          · have none := head.2 isStart
            refine ⟨by omega, fun before => ?_⟩
            have alsoNone := tail.2 (by omega)
            omega
  rcases later signedTxs 0 ⟨results, [], false, log⟩ with ⟨more, isLog, valid, sends⟩
  exact ⟨more, isLog, valid, fun index => (sends index).1⟩

omit [DecidableEq σ] in
theorem getLatestBlockhashWithRetry_counts (client : Client ι σ) (log : Log ι σ) :
    validAnswers (getLatestBlockhashWithRetry client log).2 = validAnswers log ∧
      ∀ index, sendings index (getLatestBlockhashWithRetry client log).2 = sendings index log := by
  rcases getLatestBlockhashWithRetry_log client log with ⟨more, isLog, latest⟩
  have isLatest : ∀ event ∈ more, event.isValidAnswer = false ∧
      ∀ index, event.sendsIndex index = false := by
    intro event member
    rcases latest event member with ⟨answer, rfl⟩
    exact ⟨rfl, fun _ => rfl⟩
  rw [isLog]
  constructor
  · rw [validAnswers_append, validAnswers_eq_zero fun event member => (isLatest event member).1,
      Nat.add_zero]
  · intro index
    rw [sendings_append, sendings_eq_zero fun event member => (isLatest event member).2 index,
      Nat.add_zero]

omit [DecidableEq σ] in
theorem confirming_counts {signatures : List σ} {more : Log ι σ} {answer : Option (List σ)}
    (confirming : Confirming signatures more answer) :
    validAnswers more = 0 ∧ ∀ index, sendings index more = 0 := by
  constructor
  · refine validAnswers_eq_zero fun event member => ?_
    rcases confirming.inquires event member with ⟨asked, answer, rfl, _⟩
    rfl
  · refine fun index => sendings_eq_zero fun event member => ?_
    rcases confirming.inquires event member with ⟨asked, answer, rfl, _⟩
    rfl

/-- The passes that can still follow, when the client calls the blockhash valid at most
`validities` times. -/
def passesLeft (retryCount validities : Nat) (state : State ι σ) : Nat :=
  (retryCount - state.retries) + (validities - validAnswers state.log)

/-- The next state has fewer passes left, and no transaction was sent more than `sent` times. -/
def Proceeds (retryCount validities sent : Nat) (state : State ι σ) :
    Flow (State ι σ) (Outcome × Log ι σ) → Prop
  | .next following =>
      passesLeft retryCount validities following < passesLeft retryCount validities state ∧
        ∀ index, sendings index following.log ≤ sendings index state.log + sent
  | .stop final => ∀ index, sendings index final.2 ≤ sendings index state.log + sent

section Passes

variable {first : Blockhash} {retryCount validities : Nat} {state : State ι σ}

omit [DecidableEq σ] in
theorem Proceeds.of_earlier {sent : Nat} {later : State ι σ}
    {flow : Flow (State ι σ) (Outcome × Log ι σ)}
    (proceeds : Proceeds retryCount validities 0 later flow)
    (left : passesLeft retryCount validities later ≤ passesLeft retryCount validities state)
    (sendingsLe : ∀ index, sendings index later.log ≤ sendings index state.log + sent) :
    Proceeds retryCount validities sent state flow := by
  cases flow with
  | next following =>
      exact ⟨Nat.lt_of_lt_of_le proceeds.1 left, fun index =>
        (proceeds.2 index).trans (sendingsLe index)⟩
  | stop final => exact fun index => (proceeds index).trans (sendingsLe index)

omit [DecidableEq σ] in
theorem refresh_proceeds (state : State ι σ)
    (expires : ∀ log, validities ≤ validAnswers log → client.isBlockhashValid log first ≠ .ok true)
    (remains : state.retries < retryCount) (isBlockhashNotFound : Bool) :
    Proceeds retryCount validities 0 state
      (refresh client transactions first state isBlockhashNotFound) := by
  have resigned : ∀ log, validAnswers log = validAnswers state.log →
      (∀ index, sendings index log = sendings index state.log) →
      Proceeds retryCount validities 0 state (resign client transactions state log) := by
    intro log sameValid sameSendings
    unfold resign
    have counts := getLatestBlockhashWithRetry_counts client log
    generalize getLatestBlockhashWithRetry client log = reply at counts ⊢
    rcases reply with ⟨answer, later⟩
    dsimp only at counts
    cases answer with
    | error e => exact fun index => Nat.le_of_eq ((counts.2 index).trans (sameSendings index))
    | ok fresh =>
        refine ⟨?_, fun index => Nat.le_of_eq ((counts.2 index).trans (sameSendings index))⟩
        unfold passesLeft
        dsimp only
        omega
  unfold refresh
  split
  case isTrue => exact resigned state.log rfl fun _ => rfl
  case isFalse =>
    have unsent : ∀ answer index, sendings index
        (state.log ++ [.isBlockhashValid first answer]) = sendings index state.log := by
      intro answer index
      rw [sendings_append]
      rfl
    dsimp only
    split
    case h_1 e _ => exact fun index => Nat.le_of_eq (unsent _ index)
    case h_2 isValid =>
      have notYet : validAnswers state.log < validities := by
        by_contra reached
        exact expires state.log (Nat.le_of_not_lt reached) isValid
      refine ⟨?_, fun index => Nat.le_of_eq (unsent _ index)⟩
      have counted : validAnswers (state.log ++
          [.isBlockhashValid first (client.isBlockhashValid state.log first)]) =
          validAnswers state.log + 1 := by
        rw [validAnswers_append, isValid]
        rfl
      unfold passesLeft
      dsimp only
      omega
    case h_3 isInvalid =>
      refine resigned _ ?_ (unsent _)
      rw [validAnswers_append, isInvalid]
      rfl

theorem pass_proceeds
    (expires : ∀ log, validities ≤ validAnswers log →
      client.isBlockhashValid log first ≠ .ok true)
    (remains : state.retries < retryCount) :
    Proceeds retryCount validities 1 state (pass client transactions retryCount first state) := by
  rcases sendAll_log client state.signedTxs state.results state.log with
    ⟨sent, sentLog, sentValid, sentOnce⟩
  unfold pass
  rw [if_pos remains]
  dsimp only
  generalize sendAll client state.signedTxs state.results state.log = sends at sentLog ⊢
  have once : ∀ index, sendings index sends.log ≤ sendings index state.log + 1 := by
    intro index
    rw [sentLog, sendings_append]
    exact Nat.add_le_add_left (sentOnce index) _
  split
  case isTrue => exact once
  case isFalse =>
    split
    case isTrue => exact once
    case isFalse =>
      rcases parallelConfirmTransactions_log client (sends.submitted.map Prod.fst)
        sends.log with ⟨more, isLog, confirming⟩
      have counts := confirming_counts confirming
      generalize parallelConfirmTransactions client (sends.submitted.map Prod.fst) sends.log =
        reply at isLog ⊢
      rcases reply with ⟨answer, later⟩
      dsimp only at isLog
      subst later
      have stillOnce : ∀ index,
          sendings index (sends.log ++ more) ≤ sendings index state.log + 1 := by
        intro index
        rw [sendings_append, counts.2 index]
        exact once index
      cases answer with
      | none => exact stillOnce
      | some confirmed =>
          dsimp only
          split
          case h_1 => exact stillOnce
          case h_2 marked _ =>
            split
            case isTrue => exact stillOnce
            case isFalse =>
              let marks : State ι σ :=
                ⟨marked, state.signedTxs, state.retries, sends.log ++ more⟩
              have proceeds : Proceeds retryCount validities 0 marks
                  (refresh client transactions first marks sends.isBlockhashNotFound) :=
                refresh_proceeds marks expires remains sends.isBlockhashNotFound
              refine proceeds.of_earlier ?_ stillOnce
              have sameValid : validAnswers (sends.log ++ more) = validAnswers state.log := by
                rw [sentLog, validAnswers_append, validAnswers_append, sentValid, counts.1,
                  Nat.add_zero]
              unfold passesLeft
              rw [sameValid]

/-- Another pass follows only while retries remain. -/
theorem pass_continues {following : State ι σ}
    (expires : ∀ log, validities ≤ validAnswers log →
      client.isBlockhashValid log first ≠ .ok true)
    (continued : pass client transactions retryCount first state = .next following) :
    passesLeft retryCount validities following < passesLeft retryCount validities state ∧
      ∀ index, sendings index following.log ≤ sendings index state.log + 1 := by
  by_cases remains : state.retries < retryCount
  · have proceeds : Proceeds retryCount validities 1 state
        (pass client transactions retryCount first state) := pass_proceeds expires remains
    rw [continued] at proceeds
    exact proceeds
  · unfold pass at continued
    rw [if_neg remains] at continued
    cases continued

/-- A transaction may be sent once more in the pass that ends the submission. -/
theorem pass_stops {final : Outcome × Log ι σ}
    (expires : ∀ log, validities ≤ validAnswers log →
      client.isBlockhashValid log first ≠ .ok true)
    (stopped : pass client transactions retryCount first state = .stop final) (index : Nat) :
    sendings index final.2 ≤ sendings index state.log + passesLeft retryCount validities state := by
  by_cases remains : state.retries < retryCount
  · have proceeds : Proceeds retryCount validities 1 state
        (pass client transactions retryCount first state) := pass_proceeds expires remains
    rw [stopped] at proceeds
    refine (proceeds index).trans (Nat.add_le_add_left ?_ _)
    unfold passesLeft
    omega
  · unfold pass at stopped
    rw [if_neg remains] at stopped
    cases stopped
    exact Nat.le_add_right _ _

end Passes

/-! ## All passes -/

/-- When the client calls the first blockhash valid at most `validities` times the submission ends,
and no transaction is sent more often than that and the number of retries together. -/
theorem submission_ends (client : Client ι σ) (transactions : List (List ι))
    (retryCount validities : Nat) (first : Blockhash)
    (isFirst : (getLatestBlockhashWithRetry client []).1 = .ok first)
    (expires : ∀ log, validities ≤ validAnswers log →
      client.isBlockhashValid log first ≠ .ok true) :
    ∃ outcome log, parallelExecuteTransactions client transactions retryCount
        (validities + retryCount + 1) = some (outcome, log) ∧
      ∀ index, sendings index log ≤ validities + retryCount := by
  unfold parallelExecuteTransactions
  dsimp only
  split
  case isTrue => exact ⟨_, _, rfl, fun index => Nat.zero_le _⟩
  case isFalse =>
    have counts := getLatestBlockhashWithRetry_counts client []
    generalize getLatestBlockhashWithRetry client [] = reply at isFirst counts ⊢
    rcases reply with ⟨answer, asked⟩
    dsimp only at isFirst counts
    subst answer
    dsimp only
    let start : State ι σ := ⟨List.replicate transactions.length (.error .exceededRetries),
      signTxs transactions first, 0, asked⟩
    have sendingsLeft : ∀ iteration state,
        Flow.Reaches (fun _ => pass client transactions retryCount first) start iteration state →
        ∀ index, sendings index state.log + passesLeft retryCount validities state ≤
          validities + retryCount := by
      intro iteration state reaches
      apply reaches.invariant fun state => ∀ index,
        sendings index state.log + passesLeft retryCount validities state ≤ validities + retryCount
      · intro index
        have none : sendings index start.log = 0 := counts.2 index
        have all : passesLeft retryCount validities start ≤ retryCount + validities :=
          Nat.add_le_add (Nat.sub_le _ _) (Nat.sub_le _ _)
        omega
      · intro _ state following left continued index
        have proceeds := pass_continues expires continued
        have earlier := left index
        have more := proceeds.2 index
        omega
    have decreases : ∀ iteration state following,
        Flow.Reaches (fun _ => pass client transactions retryCount first) start iteration state →
        pass client transactions retryCount first state = .next following →
        passesLeft retryCount validities following < passesLeft retryCount validities state :=
      fun _ _ _ _ continued => (pass_continues expires continued).1
    have enough : passesLeft retryCount validities start < validities + retryCount + 1 := by
      unfold passesLeft
      omega
    rcases Flow.run_of_decreases decreases enough with ⟨⟨outcome, log⟩, finished⟩
    refine ⟨outcome, log, finished, fun index => ?_⟩
    rcases Flow.run_eq_some finished with ⟨iteration, state, reaches, stopped⟩
    exact (pass_stops expires stopped index).trans (sendingsLeft iteration state reaches index)

/-- A client that confirms nothing, and whose blockhash is valid twice. -/
def expiringClient : Client Nat (SignedTransaction Nat) where
  sign transaction := transaction
  latestBlockhash _ := .ok 1
  sendTransaction _ transaction := .ok transaction
  signatureStatuses _ signatures := .ok (signatures.map fun _ => none)
  isBlockhashValid log _ := .ok (validAnswers log < 2)
  order _ signatures := signatures.reverse
  returnsSignature _ _ _ sent := (Except.ok.inj sent).symm
  order_perm _ signatures := signatures.reverse_perm

theorem submission_ends_sample :
    ∃ outcome log, parallelExecuteTransactions expiringClient [[1], [2]] 3 (2 + 3 + 1) =
        some (outcome, log) ∧
      ∀ index, sendings index log ≤ 2 + 3 :=
  submission_ends expiringClient [[1], [2]] 3 2 1 rfl fun log reached isValid => by
    rw [expiringClient, Except.ok.injEq, decide_eq_true_eq] at isValid
    exact Nat.not_lt.mpr reached isValid

end Stakenet.Keeper.Submission
