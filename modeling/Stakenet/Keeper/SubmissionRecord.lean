import Stakenet.Keeper.Submission

/-! What the results of a submission say: a transaction is reported as successful exactly if the
client has confirmed it, as rejected exactly if its simulation failed, and is not sent again
after either. -/

namespace Stakenet.Keeper.Submission

variable {ι σ : Type}

/-! ## What the log says -/

namespace Event

def Sends (event : Event ι σ) (index : Nat) : Prop :=
  ∃ transaction answer, event = .sendTransaction index transaction answer

/-- The simulation of the transaction fails. -/
def Refuses (event : Event ι σ) (index : Nat) : Prop :=
  ∃ transaction answer, event = .sendTransaction index transaction answer ∧
    classify answer = .failed .rpcSimulateTransactionResult

def Confirms (event : Event ι σ) (signature : σ) : Prop :=
  ∃ signatures statuses status, event = .signatureStatuses signatures (.ok statuses) ∧
    (signature, status) ∈ signatures.zip statuses ∧ isConfirmed status = true

end Event

/-- The transaction is confirmed, whichever blockhash it was signed with. -/
def ConfirmsAt (client : Client ι σ) (transactions : List (List ι)) (event : Event ι σ)
    (index : Nat) : Prop :=
  ∃ instructions blockhash, transactions[index]? = some instructions ∧
    event.Confirms (client.sign ⟨instructions, blockhash⟩)

def Settles (client : Client ι σ) (transactions : List (List ι)) (event : Event ι σ)
    (index : Nat) : Prop :=
  ConfirmsAt client transactions event index ∨ event.Refuses index

/-- No transaction is sent after it was settled. -/
def Quiet (client : Client ι σ) (transactions : List (List ι)) (log : Log ι σ) : Prop :=
  log.Pairwise fun earlier later =>
    ∀ index, Settles client transactions earlier index → ¬later.Sends index

/-- The results are those that the log tells. -/
structure Recorded (client : Client ι σ) (transactions : List (List ι))
    (results : List SendResult) (log : Log ι σ) : Prop where
  length : results.length = transactions.length
  confirmed : ∀ index, results[index]? = some (.ok ()) ↔
    ∃ event ∈ log, ConfirmsAt client transactions event index
  refused : ∀ index, results[index]? = some (.error .rpcSimulateTransactionResult) ↔
    ∃ event ∈ log, event.Refuses index
  quiet : Quiet client transactions log

/-- A transaction that is reported as successful was confirmed. -/
structure Backed (client : Client ι σ) (transactions : List (List ι))
    (results : List SendResult) (log : Log ι σ) : Prop where
  length : results.length = transactions.length
  confirmed : ∀ index, results[index]? = some (.ok ()) →
    ∃ event ∈ log, ConfirmsAt client transactions event index

/-- An event that is neither a sending nor about signatures. -/
def Event.Silent : Event ι σ → Prop
  | .sendTransaction _ _ _ => False
  | .signatureStatuses _ (.ok _) => False
  | _ => True

variable {client : Client ι σ} {transactions : List (List ι)} {results : List SendResult}
variable {log more : Log ι σ}

namespace Event

variable {event : Event ι σ} {index : Nat}

theorem Refuses.sends (refuses : event.Refuses index) : event.Sends index := by
  rcases refuses with ⟨transaction, answer, rfl, _⟩
  exact ⟨transaction, answer, rfl⟩

theorem Silent.not_sends (silent : event.Silent) : ¬event.Sends index := by
  rintro ⟨transaction, answer, rfl⟩
  exact silent

theorem Silent.not_confirms (silent : event.Silent) {signature : σ} :
    ¬event.Confirms signature := by
  rintro ⟨signatures, statuses, status, rfl, _⟩
  exact silent

theorem Sends.not_confirms (sends : event.Sends index) {signature : σ} :
    ¬event.Confirms signature := by
  rcases sends with ⟨transaction, answer, rfl⟩
  rintro ⟨signatures, statuses, status, same, _⟩
  cases same

end Event

theorem ConfirmsAt.lt {event : Event ι σ} {index : Nat}
    (confirms : ConfirmsAt client transactions event index) : index < transactions.length := by
  rcases confirms with ⟨instructions, blockhash, found, _⟩
  exact (List.getElem?_eq_some_iff.mp found).1

/-- Nothing is sent in what follows. -/
theorem Quiet.append (quiet : Quiet client transactions log)
    (unsent : ∀ event ∈ more, ∀ index, ¬event.Sends index) :
    Quiet client transactions (log ++ more) := by
  refine List.pairwise_append.mpr ⟨quiet, ?_, ?_⟩
  · refine List.pairwise_of_forall_mem_list fun earlier _ later member index _ => ?_
    exact unsent later member index
  · intro earlier _ later member index _
    exact unsent later member index

theorem Recorded.append (recorded : Recorded client transactions results log)
    (silent : ∀ event ∈ more, event.Silent) :
    Recorded client transactions results (log ++ more) where
  length := recorded.length
  confirmed := by
    intro index
    rw [recorded.confirmed]
    constructor
    · rintro ⟨event, member, confirms⟩
      exact ⟨event, List.mem_append_left more member, confirms⟩
    · rintro ⟨event, member, confirms⟩
      rcases List.mem_append.mp member with member | member
      · exact ⟨event, member, confirms⟩
      · rcases confirms with ⟨_, _, _, confirms⟩
        exact absurd confirms (silent event member).not_confirms
  refused := by
    intro index
    rw [recorded.refused]
    constructor
    · rintro ⟨event, member, refuses⟩
      exact ⟨event, List.mem_append_left more member, refuses⟩
    · rintro ⟨event, member, refuses⟩
      rcases List.mem_append.mp member with member | member
      · exact ⟨event, member, refuses⟩
      · exact absurd refuses.sends (silent event member).not_sends
  quiet := recorded.quiet.append fun event member _ => (silent event member).not_sends

/-- A transaction that the log settles is settled in the results. -/
theorem Recorded.settled (recorded : Recorded client transactions results log)
    {event : Event ι σ} (member : event ∈ log) {index : Nat}
    (settles : Settles client transactions event index) :
    (results[index]?).any isSettled = true := by
  rcases settles with confirms | refuses
  · rw [(recorded.confirmed index).mpr ⟨event, member, confirms⟩]
    rfl
  · rw [(recorded.refused index).mpr ⟨event, member, refuses⟩]
    rfl

/-! ## Sending -/

/-- What an answer makes of the results. -/
def reported (results : List SendResult) (index : Nat) (answer : Except ClientError σ) :
    List SendResult :=
  match classify answer with
  | .failed error => results.set index (.error error)
  | _ => results

theorem getElem?_reported_of_ne {answer : Except ClientError σ} {index other : Nat}
    (different : index ≠ other) : (reported results index answer)[other]? = results[other]? := by
  unfold reported
  split
  · exact List.getElem?_set_ne different
  · rfl

@[simp] theorem length_reported {answer : Except ClientError σ} {index : Nat} :
    (reported results index answer).length = results.length := by
  unfold reported
  split
  · exact List.length_set
  · rfl

/-- Sending makes no transaction successful. -/
theorem reported_eq_ok {answer : Except ClientError σ} {index other : Nat}
    (isOk : (reported results index answer)[other]? = some (.ok ())) :
    results[other]? = some (.ok ()) := by
  by_cases isIndex : index = other
  · subst other
    unfold reported at isOk
    split at isOk
    · rw [List.getElem?_set_self', Option.map_eq_map, Option.map_eq_some_iff] at isOk
      rcases isOk with ⟨_, _, impossible⟩
      cases impossible
    · exact isOk
  · rwa [getElem?_reported_of_ne isIndex] at isOk

/-- A transaction that is not settled is sent. -/
theorem Recorded.send (recorded : Recorded client transactions results log) {index : Nat}
    (bounded : index < transactions.length)
    (unsettled : (results[index]?).any isSettled = false) (transaction : SignedTransaction ι)
    (answer : Except ClientError σ) :
    Recorded client transactions (reported results index answer)
      (log ++ [.sendTransaction index transaction answer]) where
  length := length_reported.trans recorded.length
  confirmed := by
    intro other
    have same : (reported results index answer)[other]? = some (.ok ()) ↔
        results[other]? = some (.ok ()) := by
      refine ⟨reported_eq_ok, fun isOk => ?_⟩
      have different : index ≠ other := by
        rintro rfl
        rw [isOk] at unsettled
        cases unsettled
      rwa [getElem?_reported_of_ne different]
    rw [same, recorded.confirmed]
    constructor
    · rintro ⟨event, member, confirms⟩
      exact ⟨event, List.mem_append_left _ member, confirms⟩
    · rintro ⟨event, member, confirms⟩
      rcases List.mem_append.mp member with member | member
      · exact ⟨event, member, confirms⟩
      · rw [List.mem_singleton] at member
        rcases confirms with ⟨_, _, _, confirms⟩
        have sends : event.Sends index := ⟨transaction, answer, member⟩
        exact absurd confirms sends.not_confirms
  refused := by
    intro other
    have refused : (reported results index answer)[other]? =
          some (.error .rpcSimulateTransactionResult) ↔
        results[other]? = some (.error .rpcSimulateTransactionResult) ∨
          (index = other ∧ classify answer = .failed .rpcSimulateTransactionResult) := by
      by_cases isIndex : index = other
      · subst other
        have notRefused : results[index]? ≠ some (.error .rpcSimulateTransactionResult) := by
          intro isRefused
          rw [isRefused] at unsettled
          cases unsettled
        unfold reported
        split
        case h_1 error failed =>
          rw [List.getElem?_set_self (recorded.length ▸ bounded), failed]
          simp [notRefused]
        case h_2 notFailed =>
          simp only [notRefused, true_and, false_or, false_iff]
          exact notFailed _
      · rw [getElem?_reported_of_ne isIndex]
        simp [isIndex]
    rw [refused, recorded.refused]
    constructor
    · rintro (⟨event, member, refuses⟩ | ⟨rfl, failed⟩)
      · exact ⟨event, List.mem_append_left _ member, refuses⟩
      · exact ⟨_, List.mem_append_right log (List.mem_singleton_self _), transaction, answer, rfl,
          failed⟩
    · rintro ⟨event, member, refuses⟩
      rcases List.mem_append.mp member with member | member
      · exact .inl ⟨event, member, refuses⟩
      · rw [List.mem_singleton] at member
        rcases refuses with ⟨_, _, same, failed⟩
        cases member.symm.trans same
        exact .inr ⟨rfl, failed⟩
  quiet := by
    refine List.pairwise_append.mpr ⟨recorded.quiet, List.pairwise_singleton _ _, ?_⟩
    intro earlier before later isLast other settles
    rw [List.mem_singleton] at isLast
    rintro ⟨_, _, same⟩
    cases isLast.symm.trans same
    have settled := recorded.settled before settles
    rw [unsettled] at settled
    cases settled

variable [DecidableEq σ]

/-! ## Confirmation -/

/-- Some of the signatures are asked for. -/
def Inquires (signatures : List σ) (event : Event ι σ) : Prop :=
  ∃ asked answer, event = .signatureStatuses asked answer ∧ asked ⊆ signatures

omit [DecidableEq σ] in
theorem Inquires.not_sends {signatures : List σ} {event : Event ι σ}
    (inquires : Inquires signatures event) {index : Nat} : ¬event.Sends index := by
  rcases inquires with ⟨asked, answer, rfl, _⟩
  rintro ⟨transaction, sent, same⟩
  cases same

omit [DecidableEq σ] in
theorem Inquires.mono {signatures others : List σ} {event : Event ι σ}
    (inquires : Inquires signatures event) (subset : signatures ⊆ others) :
    Inquires others event := by
  rcases inquires with ⟨asked, answer, isEvent, among⟩
  exact ⟨asked, answer, isEvent, List.Subset.trans among subset⟩

omit [DecidableEq σ] in
/-- A request is recorded with each of its answers, the last of which is returned. -/
theorem withRetry_log (ask : Log ι σ → Except ClientError α)
    (record : Except ClientError α → Event ι σ) (retries : Nat) (log : Log ι σ) :
    ∃ failed, (withRetry ask record retries log).2 =
        log ++ (failed ++ [record (withRetry ask record retries log).1]) ∧
      ∀ event ∈ failed, ∃ error, event = record (.error error) := by
  induction retries generalizing log with
  | zero => exact ⟨[], rfl, fun _ member => absurd member List.not_mem_nil⟩
  | succ retries induction =>
      rw [withRetry]
      split
      case h_1 value _ => exact ⟨[], rfl, fun _ member => absurd member List.not_mem_nil⟩
      case h_2 error _ =>
        rcases induction (log ++ [record (.error error)]) with ⟨failed, recorded, failures⟩
        refine ⟨record (.error error) :: failed, ?_, ?_⟩
        · rw [recorded, List.append_assoc]
          rfl
        · intro event member
          rcases List.mem_cons.mp member with rfl | later
          · exact ⟨error, rfl⟩
          · exact failures event later

/-- What a request for confirmations adds to the log, and what its answer says about it. -/
structure Confirming (signatures : List σ) (more : Log ι σ) (answer : Option (List σ)) : Prop where
  inquires : ∀ event ∈ more, Inquires signatures event
  confirmed : ∀ confirmed, answer = some confirmed → ∀ signature,
    signature ∈ confirmed ↔ ∃ event ∈ more, event.Confirms signature

omit [DecidableEq σ] in
theorem mem_confirmed (ι : Type) {batch : List σ} {statuses : List (Option TransactionStatus)}
    {signature : σ} :
    signature ∈ (batch.zip statuses).filterMap (fun (signature, status) =>
        if isConfirmed status then some signature else none) ↔
      (.signatureStatuses batch (.ok statuses) : Event ι σ).Confirms signature := by
  rw [List.mem_filterMap]
  constructor
  · rintro ⟨⟨asked, status⟩, member, found⟩
    rw [Option.ite_none_right_eq_some, Option.some.injEq] at found
    rcases found with ⟨confirmed, rfl⟩
    exact ⟨batch, statuses, status, rfl, member, confirmed⟩
  · rintro ⟨_, _, status, same, member, confirmed⟩
    cases same
    exact ⟨(signature, status), member, if_pos confirmed⟩

omit [DecidableEq σ] in
theorem confirmBatch_log (client : Client ι σ) (batch : List σ) (log : Log ι σ) :
    ∃ more, (confirmBatch client batch log).2 = log ++ more ∧
      Confirming batch more (confirmBatch client batch log).1 := by
  rcases withRetry_log (client.signatureStatuses · batch) (.signatureStatuses batch) 3 log with
    ⟨failed, recorded, failures⟩
  have inquires : ∀ answer, ∀ event ∈ failed ++ [.signatureStatuses batch answer],
      Inquires batch event := by
    intro answer event member
    rcases List.mem_append.mp member with before | last
    · rcases failures event before with ⟨error, rfl⟩
      exact ⟨batch, .error error, rfl, List.Subset.refl batch⟩
    · exact ⟨batch, answer, List.mem_singleton.mp last, List.Subset.refl batch⟩
  have unconfirmed : ∀ event ∈ failed, ∀ signature, ¬event.Confirms signature := by
    rintro event member signature ⟨_, _, _, same, _⟩
    rcases failures event member with ⟨error, rfl⟩
    cases same
  unfold confirmBatch getSignatureStatusesWithRetry
  generalize withRetry (client.signatureStatuses · batch) (.signatureStatuses batch) 3 log =
    reply at recorded ⊢
  rcases reply with ⟨answer, later⟩
  dsimp only at recorded
  subst later
  refine ⟨failed ++ [.signatureStatuses batch answer], ?_⟩
  cases answer with
  | error error =>
      refine ⟨rfl, inquires _, fun confirmed isAnswer signature => ?_⟩
      cases isAnswer
      refine iff_of_false List.not_mem_nil ?_
      rintro ⟨event, member, confirms⟩
      rcases List.mem_append.mp member with before | last
      · exact unconfirmed event before signature confirms
      · rw [List.mem_singleton.mp last] at confirms
        rcases confirms with ⟨_, _, _, same, _⟩
        cases same
  | ok statuses =>
      dsimp only
      split
      case isFalse =>
        exact ⟨rfl, inquires _, fun _ isAnswer => nomatch isAnswer⟩
      case isTrue =>
        refine ⟨rfl, inquires _, fun confirmed isAnswer signature => ?_⟩
        cases isAnswer
        rw [mem_confirmed ι]
        constructor
        · intro confirms
          exact ⟨_, List.mem_append_right failed (List.mem_singleton_self _), confirms⟩
        · rintro ⟨event, member, confirms⟩
          rcases List.mem_append.mp member with before | last
          · exact absurd confirms (unconfirmed event before signature)
          · exact List.mem_singleton.mp last ▸ confirms

omit [DecidableEq σ] in
theorem confirmBatches_log {signatures : List σ} {batches : List (List σ)}
    (subsets : ∀ batch ∈ batches, batch ⊆ signatures) (log : Log ι σ) :
    ∃ more, (confirmBatches client batches log).2 = log ++ more ∧
      Confirming signatures more (confirmBatches client batches log).1 := by
  induction batches generalizing log with
  | nil =>
      refine ⟨[], (List.append_nil log).symm, fun _ member => absurd member List.not_mem_nil, ?_⟩
      intro confirmed isAnswer signature
      cases isAnswer
      simp
  | cons batch batches induction =>
      rw [List.forall_mem_cons] at subsets
      rcases confirmBatch_log client batch log with ⟨first, firstLog, confirming⟩
      have widened : ∀ event ∈ first, Inquires signatures event := fun event member =>
        (confirming.inquires event member).mono subsets.1
      rw [confirmBatches]
      generalize confirmBatch client batch log = reply at firstLog confirming ⊢
      rcases reply with ⟨answer, later⟩
      dsimp only at firstLog
      subst later
      cases answer with
      | none => exact ⟨first, rfl, widened, fun _ isAnswer => nomatch isAnswer⟩
      | some found =>
          rcases induction subsets.2 (log ++ first) with ⟨rest, restLog, restConfirming⟩
          dsimp only
          refine ⟨first ++ rest, ?_, ?_, ?_⟩
          · rw [restLog, List.append_assoc]
          · intro event member
            rcases List.mem_append.mp member with before | after
            · exact widened event before
            · exact restConfirming.inquires event after
          · intro confirmed isAnswer signature
            rw [Option.map_eq_some_iff] at isAnswer
            rcases isAnswer with ⟨others, isOthers, rfl⟩
            rw [List.mem_append, confirming.confirmed found rfl,
              restConfirming.confirmed others isOthers]
            simp only [List.mem_append, or_and_right, exists_or]

omit [DecidableEq σ] in
theorem parallelConfirmTransactions_log (client : Client ι σ) (submitted : List σ)
    (log : Log ι σ) :
    ∃ more, (parallelConfirmTransactions client submitted log).2 = log ++ more ∧
      Confirming submitted more (parallelConfirmTransactions client submitted log).1 := by
  refine confirmBatches_log (fun batch member signature inBatch => ?_) log
  exact (client.order_perm log submitted).mem_iff.mp
    (mem_of_mem_chunks (by decide) member inBatch)

theorem markConfirmed_eq {submitted : List (σ × Nat)} {confirmed : List σ}
    {marked : List SendResult}
    (isMarked : markConfirmed submitted results confirmed = some marked) :
    (∀ signature ∈ confirmed, ∃ index, submitted.lookup signature = some index) ∧
    marked.length = results.length ∧
    ∀ index, marked[index]? = if ∃ signature ∈ confirmed, submitted.lookup signature = some index
      then (results[index]?).map (fun _ => .ok ()) else results[index]? := by
  induction confirmed generalizing results with
  | nil =>
      cases isMarked
      exact ⟨fun _ member => absurd member List.not_mem_nil, rfl, fun index => by simp⟩
  | cons first rest induction =>
      rw [markConfirmed, List.foldlM_cons, Option.bind_eq_bind, Option.bind_eq_some_iff] at isMarked
      rcases isMarked with ⟨next, isNext, isMarked⟩
      rw [Option.map_eq_some_iff] at isNext
      rcases isNext with ⟨position, found, rfl⟩
      rcases induction isMarked with ⟨keys, length, marks⟩
      refine ⟨List.forall_mem_cons.mpr ⟨⟨position, found⟩, keys⟩, ?_, fun index => ?_⟩
      · rw [length, List.length_set]
      · rw [marks, List.getElem?_set']
        by_cases later : ∃ signature ∈ rest, submitted.lookup signature = some index
        · have now : ∃ signature ∈ first :: rest, submitted.lookup signature = some index := by
            rcases later with ⟨signature, member, isIndex⟩
            exact ⟨signature, List.mem_cons_of_mem first member, isIndex⟩
          rw [if_pos later, if_pos now]
          split
          · rw [Option.map_eq_map, Option.map_map]
            rfl
          · rfl
        · rw [if_neg later]
          by_cases same : position = index
          · subst same
            rw [if_pos rfl, if_pos ⟨first, List.mem_cons_self, found⟩]
            rfl
          · have other : ¬∃ signature ∈ first :: rest, submitted.lookup signature = some index := by
              rintro ⟨signature, member, isIndex⟩
              rcases List.mem_cons.mp member with rfl | member
              · exact same (Option.some.inj (found.symm.trans isIndex))
              · exact later ⟨signature, member, isIndex⟩
            rw [if_neg same, if_neg other]

theorem lookup_mem {submitted : List (σ × Nat)} {signature : σ} {index : Nat}
    (found : submitted.lookup signature = some index) : (signature, index) ∈ submitted := by
  rcases List.lookup_eq_some_iff.mp found with ⟨before, after, rfl, _⟩
  exact List.mem_append_right before List.mem_cons_self

/-! ## A relation of results and log -/

/-- What the caller relies on, of the results and the log. -/
abbrev Relation (ι σ : Type) := List SendResult → Log ι σ → Prop

/-- The transactions before `next` had their turn. Those that are submitted are not settled. -/
structure SentBefore (Holds : Relation ι σ) (client : Client ι σ) (transactions : List (List ι))
    (blockhash : Blockhash) (next : Nat) (sends : Sends ι σ) : Prop where
  holds : Holds sends.results sends.log
  submitted : ∀ signature index, (signature, index) ∈ sends.submitted →
    index < next ∧ (sends.results[index]?).any isSettled = false ∧
    ∃ instructions, transactions[index]? = some instructions ∧
      client.sign ⟨instructions, blockhash⟩ = signature

/-- What a relation has to survive in order to hold throughout a submission. -/
structure Traces (client : Client ι σ) (transactions : List (List ι)) (Holds : Relation ι σ) :
    Prop where
  start : Holds (List.replicate transactions.length (.error .exceededRetries)) []
  append : ∀ {results log more}, Holds results log → (∀ event ∈ more, event.Silent) →
    Holds results (log ++ more)
  send : ∀ {results log index}, Holds results log → index < transactions.length →
    (results[index]?).any isSettled = false → ∀ transaction answer,
    Holds (reported results index answer) (log ++ [.sendTransaction index transaction answer])
  confirm : ∀ {blockhash sends confirmed marked more},
    SentBefore Holds client transactions blockhash transactions.length sends →
    Confirming (sends.submitted.map Prod.fst) more (some confirmed) →
    markConfirmed sends.submitted sends.results confirmed = some marked →
    Holds marked (sends.log ++ more)

variable {Holds : Relation ι σ}

theorem SentBefore.sendOne (traces : Traces client transactions Holds) {blockhash : Blockhash}
    {next : Nat} {sends : Sends ι σ}
    (sent : SentBefore Holds client transactions blockhash next sends) {instructions : List ι}
    (found : transactions[next]? = some instructions) :
    SentBefore Holds client transactions blockhash (next + 1)
      (sendOne client sends ⟨instructions, blockhash⟩ next) := by
  have bounded : next < transactions.length := (List.getElem?_eq_some_iff.mp found).1
  unfold Submission.sendOne
  split
  case isTrue settled =>
    refine ⟨sent.holds, fun signature index member => ?_⟩
    rcases sent.submitted signature index member with ⟨before, rest⟩
    exact ⟨Nat.lt_succ_of_lt before, rest⟩
  case isFalse unsettled =>
    rw [Bool.not_eq_true] at unsettled
    have holds := traces.send sent.holds bounded unsettled ⟨instructions, blockhash⟩
      (client.sendTransaction sends.log ⟨instructions, blockhash⟩)
    dsimp only
    unfold reported at holds
    split
    case h_1 isSubmitted =>
      rw [isSubmitted] at holds
      refine ⟨holds, fun signature index member => ?_⟩
      rcases List.mem_cons.mp member with inserted | kept
      · cases inserted
        exact ⟨Nat.lt_succ_self _, unsettled, instructions, found, rfl⟩
      · rcases sent.submitted signature index (List.mem_of_mem_filter kept) with ⟨before, rest⟩
        exact ⟨Nat.lt_succ_of_lt before, rest⟩
    case h_2 notFound =>
      rw [notFound] at holds
      refine ⟨holds, fun signature index member => ?_⟩
      rcases sent.submitted signature index member with ⟨before, rest⟩
      exact ⟨Nat.lt_succ_of_lt before, rest⟩
    case h_3 error failed =>
      rw [failed] at holds
      refine ⟨holds, fun signature index member => ?_⟩
      rcases sent.submitted signature index member with ⟨before, rest⟩
      refine ⟨Nat.lt_succ_of_lt before, ?_⟩
      dsimp only
      rw [List.getElem?_set_ne (Nat.ne_of_gt before)]
      exact rest

theorem SentBefore.sendAll (traces : Traces client transactions Holds) {blockhash : Blockhash}
    (holds : Holds results log) :
    SentBefore Holds client transactions blockhash transactions.length
      (sendAll client (signTxs transactions blockhash) results log) := by
  have later : ∀ (rest : List (List ι)) (start : Nat) (sends : Sends ι σ),
      transactions.drop start = rest →
      SentBefore Holds client transactions blockhash start sends →
      SentBefore Holds client transactions blockhash (start + rest.length)
        (((signTxs rest blockhash).zipIdx start).foldl
          (fun sends tx => Submission.sendOne client sends tx.1 tx.2) sends) := by
    intro rest
    induction rest with
    | nil =>
        intro start sends _ sent
        exact sent
    | cons instructions rest induction =>
        intro start sends suffix sent
        have found : transactions[start]? = some instructions := by
          rw [← List.head?_drop, suffix]
          rfl
        have next : transactions.drop (start + 1) = rest := by
          rw [← List.drop_drop, suffix]
          rfl
        have following := induction (start + 1) _ next (sent.sendOne traces found)
        rw [List.length_cons, Nat.add_comm rest.length 1, ← Nat.add_assoc]
        exact following
  have start : SentBefore Holds client transactions blockhash 0
      (⟨results, [], false, log⟩ : Sends ι σ) :=
    ⟨holds, fun _ _ member => absurd member List.not_mem_nil⟩
  have all := later transactions 0 _ rfl start
  rw [Nat.zero_add] at all
  exact all

/-- Different transactions have different signatures. -/
def DistinctSignatures (client : Client ι σ) (transactions : List (List ι)) : Prop :=
  ∀ (first second : Nat) (instructions others : List ι) (blockhash other : Blockhash),
    transactions[first]? = some instructions → transactions[second]? = some others →
    client.sign ⟨instructions, blockhash⟩ = client.sign ⟨others, other⟩ → first = second

omit [DecidableEq σ] in
theorem confirmed_append {index : Nat}
    (confirmed : ∃ event ∈ log, ConfirmsAt client transactions event index) :
    ∃ event ∈ log ++ more, ConfirmsAt client transactions event index := by
  rcases confirmed with ⟨event, member, confirms⟩
  exact ⟨event, List.mem_append_left more member, confirms⟩

/-- A transaction that was marked as successful was confirmed. -/
theorem confirmed_of_marked {blockhash : Blockhash} {sends : Sends ι σ} {confirmed : List σ}
    {marked : List SendResult}
    (before : ∀ index, sends.results[index]? = some (.ok ()) →
      ∃ event ∈ sends.log, ConfirmsAt client transactions event index)
    (sent : SentBefore Holds client transactions blockhash transactions.length sends)
    (confirming : Confirming (sends.submitted.map Prod.fst) more (some confirmed))
    (isMarked : markConfirmed sends.submitted sends.results confirmed = some marked)
    (index : Nat) (isOk : marked[index]? = some (.ok ())) :
    ∃ event ∈ sends.log ++ more, ConfirmsAt client transactions event index := by
  rw [(markConfirmed_eq isMarked).2.2] at isOk
  split at isOk
  case isTrue found =>
    rcases found with ⟨signature, member, isIndex⟩
    rcases sent.submitted signature index (lookup_mem isIndex) with
      ⟨_, _, instructions, isInstructions, rfl⟩
    rcases (confirming.confirmed confirmed rfl _).mp member with ⟨event, inMore, confirms⟩
    exact ⟨event, List.mem_append_right _ inMore, instructions, blockhash, isInstructions,
      confirms⟩
  case isFalse => exact confirmed_append (before index isOk)

/-- The confirmed signatures are recorded as those of the submitted transactions. -/
theorem Recorded.confirm {blockhash : Blockhash} {sends : Sends ι σ} {confirmed : List σ}
    {marked : List SendResult} (distinct : DistinctSignatures client transactions)
    (sent : SentBefore (Recorded client transactions) client transactions blockhash
      transactions.length sends)
    (confirming : Confirming (sends.submitted.map Prod.fst) more (some confirmed))
    (isMarked : markConfirmed sends.submitted sends.results confirmed = some marked) :
    Recorded client transactions marked (sends.log ++ more) := by
  rcases markConfirmed_eq isMarked with ⟨keys, length, marks⟩
  refine ⟨length.trans sent.holds.length, fun index => ?_, fun index => ?_,
    sent.holds.quiet.append fun event member _ => (confirming.inquires event member).not_sends⟩
  · constructor
    · exact confirmed_of_marked (fun index => (sent.holds.confirmed index).mp) sent confirming
        isMarked index
    · rintro ⟨event, member, confirms⟩
      rw [marks]
      rcases List.mem_append.mp member with before | after
      · rw [(sent.holds.confirmed index).mpr ⟨event, before, confirms⟩]
        split <;> rfl
      · have bounded : index < sends.results.length := sent.holds.length ▸ confirms.lt
        rcases confirms with ⟨instructions, signed, isInstructions, confirms⟩
        have isConfirmed := (confirming.confirmed confirmed rfl _).mpr ⟨event, after, confirms⟩
        rcases keys _ isConfirmed with ⟨position, isPosition⟩
        rcases sent.submitted _ position (lookup_mem isPosition) with
          ⟨_, _, others, isOthers, sameSignature⟩
        have same : position = index := distinct _ _ _ _ _ _ isOthers isInstructions sameSignature
        subst same
        rw [if_pos ⟨_, isConfirmed, isPosition⟩, List.getElem?_eq_getElem bounded]
        rfl
  · have refused : marked[index]? = some (.error .rpcSimulateTransactionResult) ↔
        sends.results[index]? = some (.error .rpcSimulateTransactionResult) := by
      rw [marks]
      split
      case isTrue found =>
        rcases found with ⟨signature, _, isIndex⟩
        rcases sent.submitted signature index (lookup_mem isIndex) with ⟨_, unsettled, _⟩
        constructor
        · intro mapped
          rcases Option.map_eq_some_iff.mp mapped with ⟨_, _, impossible⟩
          cases impossible
        · intro isRefused
          rw [isRefused] at unsettled
          cases unsettled
      case isFalse => rfl
    rw [refused, sent.holds.refused]
    constructor
    · rintro ⟨event, member, refuses⟩
      exact ⟨event, List.mem_append_left _ member, refuses⟩
    · rintro ⟨event, member, refuses⟩
      rcases List.mem_append.mp member with before | after
      · exact ⟨event, before, refuses⟩
      · exact absurd refuses.sends (confirming.inquires event after).not_sends

theorem Recorded.traces (distinct : DistinctSignatures client transactions) :
    Traces client transactions (Recorded client transactions) where
  start := by
    refine ⟨List.length_replicate, fun index => ?_, fun index => ?_, List.Pairwise.nil⟩
    all_goals
      rw [List.getElem?_replicate]
      refine iff_of_false (fun same => ?_) (fun ⟨_, member, _⟩ => List.not_mem_nil member)
      split at same <;> cases same
  append := Recorded.append
  send recorded bounded unsettled := recorded.send bounded unsettled
  confirm := Recorded.confirm distinct

/-- What is reported as successful was confirmed, also where transactions share a signature. -/
theorem Backed.traces : Traces client transactions (Backed client transactions) where
  start := by
    refine ⟨List.length_replicate, fun index isOk => ?_⟩
    rw [List.getElem?_replicate] at isOk
    split at isOk <;> cases isOk
  append backed _ := ⟨backed.length, fun index isOk =>
    confirmed_append (backed.confirmed index isOk)⟩
  send backed _ _ _ _ := ⟨length_reported.trans backed.length, fun index isOk =>
    confirmed_append (backed.confirmed index (reported_eq_ok isOk))⟩
  confirm sent confirming isMarked := ⟨(markConfirmed_eq isMarked).2.1.trans sent.holds.length,
    confirmed_of_marked sent.holds.confirmed sent confirming isMarked⟩

/-! ## The loop -/

/-- The results that an outcome reports, also when a later request failed. -/
def Outcome.reported : Outcome → Option (List SendResult)
  | .results results => some results
  | .error (.transactionClientError _ results) => some results
  | _ => none

/-- What an outcome reports stands in the relation to the log. Nothing was sent since the relation
held. -/
def Truthful (Holds : Relation ι σ) (final : Outcome × Log ι σ) : Prop :=
  (∀ results, final.1.reported = some results → Holds results final.2) ∧
    ∃ results before more, final.2 = before ++ more ∧ Holds results before ∧
      ∀ event ∈ more, ∀ index, ¬event.Sends index

/-- The state between two passes. -/
structure Valid (Holds : Relation ι σ) (transactions : List (List ι)) (state : State ι σ) :
    Prop where
  holds : Holds state.results state.log
  signed : ∃ blockhash, state.signedTxs = signTxs transactions blockhash

omit [DecidableEq σ] in
theorem truthful_of_holds {outcome : Outcome} (holds : Holds results log)
    (reports : outcome.reported = some results) : Truthful Holds (outcome, log) := by
  refine ⟨fun reported isReported => ?_, results, log, [], (List.append_nil log).symm, holds,
    fun _ member => absurd member List.not_mem_nil⟩
  cases reports.symm.trans isReported
  exact holds

omit [DecidableEq σ] in
theorem getLatestBlockhashWithRetry_log (client : Client ι σ) (log : Log ι σ) :
    ∃ more, (getLatestBlockhashWithRetry client log).2 = log ++ more ∧
      ∀ event ∈ more, ∃ answer, event = .latestBlockhash answer := by
  rcases withRetry_log client.latestBlockhash .latestBlockhash 3 log with
    ⟨failed, recorded, failures⟩
  refine ⟨_, recorded, fun event member => ?_⟩
  rcases List.mem_append.mp member with before | last
  · rcases failures event before with ⟨error, rfl⟩
    exact ⟨_, rfl⟩
  · exact ⟨_, List.mem_singleton.mp last⟩

/-- What a pass leads to. -/
def Leads (Holds : Relation ι σ) (transactions : List (List ι)) :
    Flow (State ι σ) (Outcome × Log ι σ) → Prop
  | .next state => Valid Holds transactions state
  | .stop final => Truthful Holds final

/-- What `refresh` does once the blockhash is given up. -/
def resign (client : Client ι σ) (transactions : List (List ι)) (state : State ι σ)
    (log : Log ι σ) : Flow (State ι σ) (Outcome × Log ι σ) :=
  match getLatestBlockhashWithRetry client log with
  | (.error e, log) => .stop (.error (.transactionClientError e.text state.results), log)
  | (.ok fresh, log) =>
      .next { state with
        signedTxs := signTxs transactions fresh
        retries := state.retries + 1
        log := log }

theorem Valid.refresh (traces : Traces client transactions Holds) {state : State ι σ}
    (valid : Valid Holds transactions state) (blockhash : Blockhash)
    (isBlockhashNotFound : Bool) :
    Leads Holds transactions
      (refresh client transactions blockhash state isBlockhashNotFound) := by
  have resigned : ∀ log, Holds state.results log →
      Leads Holds transactions (resign client transactions state log) := by
    intro log holds
    unfold resign
    rcases getLatestBlockhashWithRetry_log client log with ⟨more, isLog, latest⟩
    have asked : Holds state.results (log ++ more) :=
      traces.append holds fun event member => by
        rcases latest event member with ⟨answer, rfl⟩
        trivial
    generalize getLatestBlockhashWithRetry client log = reply at isLog ⊢
    rcases reply with ⟨answer, later⟩
    dsimp only at isLog
    subst later
    cases answer with
    | error e => exact truthful_of_holds asked rfl
    | ok fresh => exact ⟨asked, fresh, rfl⟩
  unfold Submission.refresh
  split
  case isTrue => exact resigned state.log valid.holds
  case isFalse =>
    have asked : Holds state.results
        (state.log ++
          [.isBlockhashValid blockhash (client.isBlockhashValid state.log blockhash)]) :=
      traces.append valid.holds fun event member => by
        rw [List.mem_singleton.mp member]
        trivial
    dsimp only
    split
    case h_1 e _ => exact truthful_of_holds asked rfl
    case h_2 => exact ⟨asked, valid.signed⟩
    case h_3 => exact resigned _ asked

theorem Valid.pass (traces : Traces client transactions Holds) {state : State ι σ}
    (valid : Valid Holds transactions state) (retryCount : Nat) (blockhash : Blockhash) :
    Leads Holds transactions (pass client transactions retryCount blockhash state) := by
  unfold Submission.pass
  split
  case isFalse => exact truthful_of_holds valid.holds rfl
  case isTrue =>
    rcases valid.signed with ⟨signed, isSigned⟩
    rw [isSigned]
    have sent : SentBefore Holds client transactions signed transactions.length _ :=
      SentBefore.sendAll traces valid.holds
    dsimp only
    generalize sendAll client (signTxs transactions signed) state.results state.log = sends
      at sent ⊢
    rcases parallelConfirmTransactions_log client (sends.submitted.map Prod.fst)
      sends.log with ⟨more, isLog, confirming⟩
    generalize parallelConfirmTransactions client (sends.submitted.map Prod.fst) sends.log = reply
      at isLog confirming ⊢
    rcases reply with ⟨answer, later⟩
    dsimp only at isLog
    subst later
    -- A panic reports nothing, and it comes before anything else is sent.
    have panicked : Truthful Holds (.panicked, sends.log ++ more) :=
      ⟨fun _ isReported => (nomatch isReported), _, _, more, rfl, sent.holds,
        fun event member _ => (confirming.inquires event member).not_sends⟩
    split
    case isTrue => exact truthful_of_holds sent.holds rfl
    case isFalse =>
      split
      case isTrue => exact truthful_of_holds sent.holds rfl
      case isFalse =>
        cases answer with
        | none => exact panicked
        | some confirmed =>
            dsimp only
            split
            case h_1 => exact panicked
            case h_2 marked isMarked =>
              have holds := traces.confirm sent confirming isMarked
              split
              case isTrue => exact truthful_of_holds holds rfl
              case isFalse =>
                have next : Valid Holds transactions
                    ⟨marked, signTxs transactions signed, state.retries, sends.log ++ more⟩ :=
                  ⟨holds, signed, rfl⟩
                exact next.refresh traces blockhash sends.isBlockhashNotFound

/-- A relation that the steps of a submission keep holds at its end. -/
theorem Traces.truthful (traces : Traces client transactions Holds) {retryCount fuel : Nat}
    {outcome : Outcome}
    (finished : parallelExecuteTransactions client transactions retryCount fuel =
      some (outcome, log)) :
    Truthful Holds (outcome, log) := by
  unfold parallelExecuteTransactions at finished
  dsimp only at finished
  split at finished
  case isTrue =>
    cases finished
    exact truthful_of_holds traces.start rfl
  case isFalse =>
    rcases getLatestBlockhashWithRetry_log client [] with ⟨more, isLog, latest⟩
    have silent : ∀ event ∈ more, event.Silent := by
      intro event member
      rcases latest event member with ⟨answer, rfl⟩
      trivial
    have start := traces.append traces.start silent
    rw [← isLog] at start
    split at finished
    case h_1 e asked isAsked =>
      rw [isAsked] at start
      cases finished
      exact ⟨fun _ isReported => (nomatch isReported), _, log, [], (List.append_nil log).symm,
        start, fun _ member => absurd member List.not_mem_nil⟩
    case h_2 blockhash asked isAsked =>
      rw [isAsked] at start
      rcases Flow.run_eq_some finished with ⟨iteration, state, reaches, stopped⟩
      have valid : Valid Holds transactions state := by
        refine reaches.invariant _ ⟨start, blockhash, rfl⟩ ?_
        intro _ current following holds continued
        have leads := holds.pass traces retryCount blockhash
        rw [continued] at leads
        exact leads
      have leads := valid.pass traces retryCount blockhash
      rw [stopped] at leads
      exact leads

/-- A client that confirms what it accepts, and rejects the transaction of the instruction 2. -/
def sampleClient : Client Nat (SignedTransaction Nat) where
  sign transaction := transaction
  latestBlockhash _ := .ok 1
  sendTransaction _ transaction :=
    if transaction.instructions = [2] then
      .error ⟨.rpcError (.rpcResponseError (.sendTransactionPreflightFailure (some (.other "")))),
        "", ""⟩
    else
      .ok transaction
  signatureStatuses _ signatures := .ok (signatures.map fun _ => some ⟨true, none⟩)
  isBlockhashValid _ _ := .ok true
  order _ signatures := signatures
  returnsSignature := by
    intro _ transaction signature sent
    split at sent
    · cases sent
    · exact (Except.ok.inj sent).symm
  order_perm _ _ := .rfl

theorem distinctSignatures_sample : DistinctSignatures sampleClient [[1], [2]] := by
  intro first second instructions others blockhash other isFirst isSecond same
  cases same
  rcases List.getElem?_eq_some_iff.mp isFirst with ⟨firstBounded, rfl⟩
  rcases List.getElem?_eq_some_iff.mp isSecond with ⟨secondBounded, sameInstructions⟩
  have distinct : [[1], [2]].Nodup := by decide
  exact (distinct.getElem_inj_iff.mp sameInstructions).symm

end Stakenet.Keeper.Submission
