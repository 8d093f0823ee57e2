import Stakenet.Foundation.Batches
import Stakenet.Keeper.RemovalLoops

/-! The submission of transactions: they are sent one by one, the cluster is asked which of them it
has confirmed, and the others are sent again, signed anew when their blockhash has expired.

The RPC client is a partner in a conversation. Each answer may depend on all that was said before,
and all of it is kept in a log. -/

namespace Stakenet.Keeper.Submission

abbrev Blockhash := BitVec 256

/-! ## The answers of the client -/

/-- The two errors that the keeper looks for. -/
inductive TransactionError
  | alreadyProcessed
  | blockhashNotFound
  | other (debug : String)
  deriving DecidableEq, Repr

inductive RpcResponseErrorData
  | empty
  | sendTransactionPreflightFailure (err : Option TransactionError)
  | nodeUnhealthy (numSlotsBehind : String)
  deriving DecidableEq, Repr

inductive RpcError
  | rpcRequestError (debug : String)
  | rpcResponseError (data : RpcResponseErrorData)
  | parseError (debug : String)
  | forUser (debug : String)
  deriving DecidableEq, Repr

/-- The errors of other libraries are kept as they are printed. -/
inductive ClientErrorKind
  | io (debug : String)
  | reqwest (debug : String)
  | middleware (debug : String)
  | rpcError (error : RpcError)
  | serdeJson (debug : String)
  | signingError (debug : String)
  | transactionError (error : TransactionError) (debug : String)
  | custom (debug : String)
  deriving DecidableEq, Repr

structure ClientError where
  kind : ClientErrorKind
  text : String
  debug : String
  deriving DecidableEq, Repr

def ClientError.getTransactionError (error : ClientError) : Option TransactionError :=
  match error.kind with
  | .rpcError (.rpcResponseError (.sendTransactionPreflightFailure err)) => err
  | .transactionError transactionError _ => some transactionError
  | _ => none

/-- Whether the status satisfies the commitment `confirmed`, and the error of the transaction. -/
structure TransactionStatus where
  satisfiesConfirmed : Bool
  err : Option TransactionError
  deriving DecidableEq, Repr

section Client

variable (ι σ : Type)

/-- A transaction is known by what is signed. -/
structure SignedTransaction where
  instructions : List ι
  blockhash : Blockhash
  deriving DecidableEq, Repr

/-- A request with its answer. The index of a transaction is not part of the request. -/
inductive Event
  | latestBlockhash (answer : Except ClientError Blockhash)
  | sendTransaction (index : Nat) (transaction : SignedTransaction ι)
      (answer : Except ClientError σ)
  | signatureStatuses (signatures : List σ)
      (answer : Except ClientError (List (Option TransactionStatus)))
  | isBlockhashValid (blockhash : Blockhash) (answer : Except ClientError Bool)

abbrev Log := List (Event ι σ)

/-- The keeper and its client. The client returns the signature of the transaction it was given.
A hash set is gone through in any order. -/
structure Client where
  sign : SignedTransaction ι → σ
  latestBlockhash : Log ι σ → Except ClientError Blockhash
  sendTransaction : Log ι σ → SignedTransaction ι → Except ClientError σ
  signatureStatuses : Log ι σ → List σ → Except ClientError (List (Option TransactionStatus))
  isBlockhashValid : Log ι σ → Blockhash → Except ClientError Bool
  order : Log ι σ → List σ → List σ
  returnsSignature : ∀ log transaction signature,
    sendTransaction log transaction = .ok signature → signature = sign transaction
  order_perm : ∀ log signatures, (order log signatures).Perm signatures

end Client

variable {ι σ : Type} [DecidableEq σ] (client : Client ι σ)

/-! ## Requests -/

/-- A request is repeated up to three times when it fails. -/
def withRetry (ask : Log ι σ → Except ClientError α) (record : Except ClientError α → Event ι σ) :
    (retries : Nat) → Log ι σ → Except ClientError α × Log ι σ
  | 0, log => (ask log, log ++ [record (ask log)])
  | retries + 1, log =>
      match ask log with
      | .ok value => (.ok value, log ++ [record (.ok value)])
      | .error error => withRetry ask record retries (log ++ [record (.error error)])

def getLatestBlockhashWithRetry : Log ι σ → Except ClientError Blockhash × Log ι σ :=
  withRetry client.latestBlockhash .latestBlockhash 3

def getSignatureStatusesWithRetry (signatures : List σ) :
    Log ι σ → Except ClientError (List (Option TransactionStatus)) × Log ι σ :=
  withRetry (client.signatureStatuses · signatures) (.signatureStatuses signatures) 3

/-! ## Sending -/

abbrev SendResult := Except JitoSendTransactionError Unit

/-- What is reported for an error of the transaction. -/
def describe : ClientErrorKind → JitoSendTransactionError
  | .io e => .transactionError ("TX - Io Error: " ++ e)
  | .reqwest e => .transactionError ("TX - Reqwest Error: " ++ e)
  | .rpcError (.rpcRequestError e) => .transactionError ("TX - RPC Error (Request): " ++ e)
  | .rpcError (.rpcResponseError .empty) =>
      .transactionError "TX - RPC Error (Request - Empty)"
  | .rpcError (.rpcResponseError (.sendTransactionPreflightFailure _)) =>
      .rpcSimulateTransactionResult
  | .rpcError (.rpcResponseError (.nodeUnhealthy numSlotsBehind)) =>
      .transactionError ("TX - RPC Error (Request - Unhealthy):  slots behind: " ++ numSlotsBehind)
  | .rpcError (.parseError e) => .transactionError ("TX - RPC Error (Parse): " ++ e)
  | .rpcError (.forUser e) => .transactionError ("TX - RPC Error (For User): " ++ e)
  | .serdeJson e => .transactionError ("TX - Serde Json Error: " ++ e)
  | .signingError e => .transactionError ("TX - Signing Error: " ++ e)
  | .transactionError _ e => .transactionError ("TX - Transaction Error: " ++ e)
  | .custom e => .transactionError ("TX - Custom Error: " ++ e)
  | .middleware e => .transactionError ("TX - Middleware Error: " ++ e)

/-- The outcome of a transaction as far as the answer to its sending decides it. -/
inductive Sending
  | submitted
  | blockhashNotFound
  | failed (error : JitoSendTransactionError)
  deriving DecidableEq, Repr

def classify : Except ClientError σ → Sending
  | .ok _ => .submitted
  | .error e =>
      match e.getTransactionError with
      | some .blockhashNotFound => .blockhashNotFound
      | some .alreadyProcessed => .submitted
      | some (.other _) => .failed (describe e.kind)
      | none => .failed (.transactionError ("None transaction error " ++ e.debug))

/-- Transactions that are confirmed or fail in the simulation are not sent again. -/
def isSettled : SendResult → Bool
  | .ok _ => true
  | .error .rpcSimulateTransactionResult => true
  | _ => false

def isPreflightFailure : SendResult → Bool
  | .error .rpcSimulateTransactionResult => true
  | _ => false

/-- The variables of a pass while it sends. The submitted signatures are the keys of a hash map,
and the last transaction with a signature has it. -/
structure Sends (ι σ : Type) where
  results : List SendResult
  submitted : List (σ × Nat)
  isBlockhashNotFound : Bool
  log : Log ι σ

def insertSignature (signature : σ) (index : Nat) (submitted : List (σ × Nat)) : List (σ × Nat) :=
  (signature, index) :: submitted.filter (·.1 ≠ signature)

def sendOne (sends : Sends ι σ) (transaction : SignedTransaction ι) (index : Nat) : Sends ι σ :=
  if (sends.results[index]?).any isSettled then
    sends
  else
    let answer := client.sendTransaction sends.log transaction
    let event := Event.sendTransaction index transaction answer
    let sent := { sends with log := sends.log ++ [event] }
    match classify answer with
    | .submitted =>
        { sent with
          submitted := insertSignature (client.sign transaction) index sends.submitted }
    | .blockhashNotFound => { sent with isBlockhashNotFound := true }
    | .failed error => { sent with results := sends.results.set index (.error error) }

def sendAll (signedTxs : List (SignedTransaction ι)) (results : List SendResult) (log : Log ι σ) :
    Sends ι σ :=
  signedTxs.zipIdx.foldl (fun sends tx => sendOne client sends tx.1 tx.2) ⟨results, [], false, log⟩

/-! ## Confirmation -/

def sigStatusBatchSize : Nat := 256

def isConfirmed (status : Option TransactionStatus) : Bool :=
  status.any fun status => status.satisfiesConfirmed && status.err.isNone

/-- The signatures of a batch that are confirmed. It is looked up by the positions of the statuses,
so that more of them than signatures are a panic. -/
def confirmBatch (batch : List σ) (log : Log ι σ) : Option (List σ) × Log ι σ :=
  match getSignatureStatusesWithRetry client batch log with
  | (.error _, log) => (some [], log)
  | (.ok statuses, log) =>
      if statuses.length ≤ batch.length then
        (some ((batch.zip statuses).filterMap fun (signature, status) =>
          if isConfirmed status then some signature else none), log)
      else
        (none, log)

/-- The batches are asked for concurrently, and each is answered in its own way. -/
def confirmBatches : List (List σ) → Log ι σ → Option (List σ) × Log ι σ
  | [], log => (some [], log)
  | batch :: batches, log =>
      match confirmBatch client batch log with
      | (none, log) => (none, log)
      | (some confirmed, log) =>
          let (others, log) := confirmBatches batches log
          (others.map (confirmed ++ ·), log)

def parallelConfirmTransactions (submitted : List σ) (log : Log ι σ) :
    Option (List σ) × Log ι σ :=
  confirmBatches client (chunks sigStatusBatchSize (client.order log submitted)) log

/-- `results[submitted_signatures[&signature]] = Ok(())`, for each confirmed signature. -/
def markConfirmed (submitted : List (σ × Nat)) (results : List SendResult) (confirmed : List σ) :
    Option (List SendResult) :=
  confirmed.foldlM
    (fun results signature => (submitted.lookup signature).map (results.set · (.ok ()))) results

/-! ## The loop -/

inductive JitoTransactionExecutionError
  | clientError (text : String)
  | transactionClientError (text : String) (results : List SendResult)

/-- How the submission ends. -/
inductive Outcome
  | results (results : List SendResult)
  | error (error : JitoTransactionExecutionError)
  | panicked

def signTxs (transactions : List (List ι)) (blockhash : Blockhash) :
    List (SignedTransaction ι) :=
  transactions.map (⟨·, blockhash⟩)

/-- The variables of the loop. -/
structure State (ι σ : Type) where
  results : List SendResult
  signedTxs : List (SignedTransaction ι)
  retries : Nat
  log : Log ι σ

/-- What the end of a pass makes of the results: the transactions are signed anew if a blockhash
was not found or if the first blockhash, which is always the one asked for, is not valid any
more. -/
def refresh (transactions : List (List ι)) (blockhash : Blockhash) (state : State ι σ)
    (isBlockhashNotFound : Bool) : Flow (State ι σ) (Outcome × Log ι σ) :=
  let resign (log : Log ι σ) : Flow (State ι σ) (Outcome × Log ι σ) :=
    match getLatestBlockhashWithRetry client log with
    | (.error e, log) => .stop (.error (.transactionClientError e.text state.results), log)
    | (.ok fresh, log) =>
        .next { state with
          signedTxs := signTxs transactions fresh
          retries := state.retries + 1
          log := log }
  if isBlockhashNotFound then
    resign state.log
  else
    let answer := client.isBlockhashValid state.log blockhash
    let log := state.log ++ [.isBlockhashValid blockhash answer]
    match answer with
    | .error e => .stop (.error (.transactionClientError e.text state.results), log)
    | .ok true => .next { state with log := log }
    | .ok false => resign log

def pass (transactions : List (List ι)) (retryCount : Nat) (blockhash : Blockhash)
    (state : State ι σ) : Flow (State ι σ) (Outcome × Log ι σ) :=
  if state.retries < retryCount then
    let sends := sendAll client state.signedTxs state.results state.log
    if sends.results.all isPreflightFailure then
      .stop (.results sends.results, sends.log)
    else if sends.submitted.isEmpty then
      .stop (.results sends.results, sends.log)
    else
      match parallelConfirmTransactions client (sends.submitted.map Prod.fst) sends.log with
      | (none, log) => .stop (.panicked, log)
      | (some confirmed, log) =>
          match markConfirmed sends.submitted sends.results confirmed with
          | none => .stop (.panicked, log)
          | some results =>
              if results.all Except.isOk then
                .stop (.results results, log)
              else
                refresh client transactions blockhash { state with results := results, log := log }
                  sends.isBlockhashNotFound
  else
    .stop (.results state.results, state.log)

/-- `None` when the loop does not end within `fuel` passes. -/
def parallelExecuteTransactions (transactions : List (List ι)) (retryCount fuel : Nat) :
    Option (Outcome × Log ι σ) :=
  let results := List.replicate transactions.length (.error .exceededRetries)
  if transactions.isEmpty then
    some (.results results, [])
  else
    match getLatestBlockhashWithRetry client [] with
    | (.error e, log) => some (.error (.clientError e.text), log)
    | (.ok blockhash, log) =>
        Flow.run (fun _ => pass client transactions retryCount blockhash) fuel 0
          ⟨results, signTxs transactions blockhash, 0, log⟩

/-- What the callers make of the results. -/
def submitStats (results : List SendResult) : SubmitStats where
  successes := results.countP Except.isOk
  errors := results.length - results.countP Except.isOk
  results := results

end Stakenet.Keeper.Submission
