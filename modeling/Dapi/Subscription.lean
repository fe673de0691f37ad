/-
# One subscription to new transactions

`src/lib/transactionsFilter/subscribeToNewTransactions.js`, with
`src/lib/bloomFilter/emitter/BloomFilterEmitter.js`,
`src/lib/transactionsFilter/ProcessMediator.js` and the three mediator listeners
that the stream handler registers to send what the mediator emits.

A subscription has two emitters: the filter emitter receives notifications about
transactions, blocks and instant locks, the mediator connects the handler with
the sending loop.  The loop is an async function that waits after each
iteration; it is suspended in that wait (`Loop.waiting`) or over.

* The code is here: every listener, and the emission of every event through the
  listeners that are registered for it.
* `handle` and `step` say what each action does to a subscription, `run` what a
  list of them does.
* `trace` is a log of what happened, for stating theorems; the code never reads it.
-/
import Dapi.EventEmitter
import Dapi.TransactionFilter
import Dapi.TransactionHashesCache

namespace Dapi

/-! ## Events and listeners -/

/-- The events of a `BloomFilterEmitter`. -/
inductive FilterEvent
  | matched
  | block
  | instantLock
  deriving DecidableEq

/-- The listeners that are registered on a `BloomFilterEmitter`. -/
inductive FilterListener
  | storeTransaction
  | storeBlock
  | preMempoolSentInstantLockListener
  | sendInstantLock
  deriving DecidableEq

/-- `ProcessMediator.EVENTS` -/
inductive MediatorEventName
  | historicalDataSent
  | transaction
  | merkleBlock
  | clientDisconnected
  | historicalBlockSent
  | instantLock
  | memPoolDataSent
  deriving DecidableEq

/-- An event of the mediator with its argument. -/
inductive MediatorEvent
  | historicalDataSent
  | transaction (transaction : Transaction)
  | merkleBlock (merkleBlock : MerkleBlock)
  | clientDisconnected
  | historicalBlockSent (blockHash : Hash)
  | instantLock (instantLock : InstantLock)
  | memPoolDataSent
  deriving DecidableEq

/-- The name under which listeners are put on the mediator. -/
def MediatorEvent.name : MediatorEvent → MediatorEventName
  | .historicalDataSent => .historicalDataSent
  | .transaction _ => .transaction
  | .merkleBlock _ => .merkleBlock
  | .clientDisconnected => .clientDisconnected
  | .historicalBlockSent _ => .historicalBlockSent
  | .instantLock _ => .instantLock
  | .memPoolDataSent => .memPoolDataSent

/-- The listeners that are registered on the mediator, the first three by the handler. -/
inductive MediatorListener
  | sendTransactionsResponse
  | sendMerkleBlockResponse
  | sendInstantLockResponse
  | removeHistoricalBlock
  | sendNewData
  | disconnect
  deriving DecidableEq

/-- `TransactionsWithProofsResponse`, one of its three payloads. -/
inductive Response
  | rawTransactions (transactions : List Transaction)
  | rawMerkleBlock (merkleBlock : MerkleBlock)
  | instantSendLockMessages (messages : List InstantLock)
  deriving DecidableEq

/-- Where the sending loop is. -/
inductive Loop
  | notStarted
  | waiting
  | ended
  deriving DecidableEq

/-- What the log of a subscription records. -/
inductive TraceEvent
  | tested (transaction : Transaction) (verdict : Except ScriptError Bool)
  | transactionAdded (transaction : Transaction)
  | blockAdded (block : Block) (flags : List Bool) (merkleBlock : MerkleBlock)
  | blockEvicted (block : Block)
  | blockRemoved (block : Block)
  | emitted (event : MediatorEvent)
  | sentLive (response : Response)
  | sentHistorical (response : Response)
  | iterationEnded
  deriving DecidableEq

/-- The collaborators that `subscribeToNewTransactions` is given or imports. -/
structure Environment (F : Type) where
  testFunction : F → Transaction → Except ScriptError Bool × F
  build : MerkleBlockBuild

/-- The state that `subscribeToNewTransactions` creates and its listeners share;
`isRegistered` says whether `bloomFilterEmitterCollection` holds the filter emitter. -/
structure Subscription (F : Type) where
  filter : F
  cache : TransactionHashesCache
  isClientConnected : Bool
  isRegistered : Bool
  filterEmitter : EventEmitter FilterEvent FilterListener
  mediator : EventEmitter MediatorEventName MediatorListener
  loop : Loop
  trace : List TraceEvent

namespace TransactionHashesCache

/-! ## What the log says about the cache -/

/-- What `addTransaction` leaves in the trace: the transaction, if it is new. -/
def addTransactionEvents (cache : TransactionHashesCache) (tx : Transaction) :
    List TraceEvent :=
  if (cache.addTransaction tx).1 then [.transactionAdded tx] else []

/-- The block that `addBlock` evicts. -/
def evictedBlock (cache : TransactionHashesCache) (block : Block) : Option Block :=
  if cache.cacheSize ≤ cache.blocks.length then (cache.blocks ++ [block]).head? else none

/-- What `addBlock` leaves in the trace: the block with its flags and merkle block, and the block
that it evicts. -/
def addBlockEvents (build : MerkleBlockBuild) (cache : TransactionHashesCache) (block : Block) :
    List TraceEvent :=
  if cache.haveMatchingTransactions block then
    let flags := cache.matchedTransactionFlags block
    .blockAdded block flags (buildMerkleBlock build block flags) ::
      ((cache.evictedBlock block).map TraceEvent.blockEvicted).toList
  else []

/-- What `removeDataByBlockHash` leaves in the trace: the block, if there is one. -/
def removeDataByBlockHashEvents (cache : TransactionHashesCache) (blockHash : Hash) :
    List TraceEvent :=
  ((cache.findBlock blockHash).map TraceEvent.blockRemoved).toList

end TransactionHashesCache

namespace Subscription

variable {F : Type}

/-- Write to the log. -/
def log (s : Subscription F) (events : List TraceEvent) : Subscription F :=
  { s with trace := s.trace ++ events }

/-! ## The code: what the mediator sends -/

/-- The listeners of the handler, on the events that carry data. -/
def runSender (event : MediatorEvent) (listener : MediatorListener) (s : Subscription F) :
    Subscription F :=
  match listener, event with
  | .sendTransactionsResponse, .transaction tx => s.log [.sentLive (.rawTransactions [tx])]
  | .sendMerkleBlockResponse, .merkleBlock merkleBlock =>
    s.log [.sentLive (.rawMerkleBlock merkleBlock)]
  | .sendInstantLockResponse, .instantLock instantLock =>
    s.log [.sentLive (.instantSendLockMessages [instantLock])]
  | _, _ => s

/-- `mediator.emit` of `TRANSACTION`, `MERKLE_BLOCK` or `INSTANT_LOCK`. -/
def emitData (event : MediatorEvent) (s : Subscription F) : Subscription F :=
  EventEmitter.emit mediator (fun mediator s => { s with mediator }) (runSender event)
    event.name (s.log [.emitted event])

/-! ## The code: the listeners of the filter emitter -/

/-- The `match` listener. -/
def storeTransaction (tx : Transaction) (s : Subscription F) : Subscription F :=
  { s with cache := (s.cache.addTransaction tx).2 }.log (s.cache.addTransactionEvents tx)

/-- `filterEmitter.emit('match', tx)` -/
def emitMatched (tx : Transaction) (s : Subscription F) : Subscription F :=
  EventEmitter.emit filterEmitter (fun filterEmitter s => { s with filterEmitter })
    (fun listener s =>
      match listener with
      | .storeTransaction => s.storeTransaction tx
      | _ => s)
    .matched s

variable (env : Environment F)

/-- The call of `testTransactionAgainstFilter` on the filter of the subscription. -/
def testTransaction (tx : Transaction) (s : Subscription F) :
    Except ScriptError Bool × Subscription F :=
  let (result, filter) := env.testFunction s.filter tx
  (result, { s with filter }.log [.tested tx result])

/-- `BloomFilterEmitter.test` -/
def test (tx : Transaction) (s : Subscription F) : Except ScriptError Bool × Subscription F :=
  match s.testTransaction env tx with
  | (.ok true, s) => (.ok true, s.emitMatched tx)
  | r => r

/-- One round of `block.transactions.forEach(tx => filterEmitter.test(tx))`. -/
def testBody (tx : Transaction) (s : Subscription F) : Except ScriptError Unit × Subscription F :=
  match s.test env tx with
  | (.ok _, s) => (.ok (), s)
  | (.error e, s) => (.error e, s)

/-- The transactions of a block are tested when no block is cached. -/
def testBlock (block : Block) (s : Subscription F) : Except ScriptError Unit × Subscription F :=
  if s.cache.getBlockCount = 0 then forEach (testBody env) block.transactions s
  else (.ok (), s)

/-- `transactionsAndBlocksCache.addBlock(block)` -/
def addBlock (block : Block) (s : Subscription F) : Subscription F :=
  { s with cache := s.cache.addBlock env.build block }.log
    (s.cache.addBlockEvents env.build block)

/-- The `block` listener. -/
def storeBlock (block : Block) (s : Subscription F) : Except ScriptError Unit × Subscription F :=
  match s.testBlock env block with
  | (.ok (), s) => (.ok (), s.addBlock env block)
  | (.error e, s) => (.error e, s)

/-- The `instantLock` listener that is registered until the mempool data is sent. -/
def preMempoolSentInstantLockListener (tx : Transaction) (instantLock : InstantLock)
    (s : Subscription F) : Except ScriptError Unit × Subscription F :=
  match s.testTransaction env tx with
  | (.ok true, s) => (.ok (), { s with cache := s.cache.addInstantLock instantLock })
  | (.ok false, s) => (.ok (), s)
  | (.error e, s) => (.error e, s)

/-- The `instantLock` listener that is registered from then on. -/
def sendInstantLock (instantLock : InstantLock) (s : Subscription F) : Subscription F :=
  if s.cache.isInInstantLockCache instantLock.txid then
    { s with
      cache := s.cache.removeTransactionHashFromInstantSendLockWaitingList
        instantLock.txid }.emitData (.instantLock instantLock)
  else s

/-- `filterEmitter.emit('block', block)` -/
def emitBlock (block : Block) (s : Subscription F) : Except ScriptError Unit × Subscription F :=
  EventEmitter.emitThrowing filterEmitter (fun filterEmitter s => { s with filterEmitter })
    (fun listener s =>
      match listener with
      | .storeBlock => s.storeBlock env block
      | _ => (.ok (), s))
    .block s

/-- `filterEmitter.emit('instantLock', { transaction, instantLock })` -/
def emitInstantLock (tx : Transaction) (instantLock : InstantLock) (s : Subscription F) :
    Except ScriptError Unit × Subscription F :=
  EventEmitter.emitThrowing filterEmitter (fun filterEmitter s => { s with filterEmitter })
    (fun listener s =>
      match listener with
      | .preMempoolSentInstantLockListener =>
        s.preMempoolSentInstantLockListener env tx instantLock
      | .sendInstantLock => (.ok (), s.sendInstantLock instantLock)
      | _ => (.ok (), s))
    .instantLock s

/-! ## The code: the sending loop -/

/-- `unsentTransactions.forEach(tx => mediator.emit(TRANSACTION, tx))` -/
def sendTransactions (s : Subscription F) : Subscription F :=
  let (unsentTransactions, cache) := s.cache.getUnretrievedTransactions
  unsentTransactions.foldl (fun s tx => s.emitData (.transaction tx)) { s with cache }

/-- The stored instant locks of transactions on the waiting list are emitted, the others dropped. -/
def sendInstantLocks (s : Subscription F) : Subscription F :=
  -- the store is emptied, whether or not a lock is emitted
  let (unretrievedInstantLocks, cache) := s.cache.getUnretrievedInstantLocks
  unretrievedInstantLocks.foldl
    (fun s instantLock =>
      if s.cache.isInInstantLockCache instantLock.txid then
        s.emitData (.instantLock instantLock)
      else s)
    { s with cache }

/-- `unsentMerkleBlocks.forEach(merkleBlock => mediator.emit(MERKLE_BLOCK, merkleBlock))` -/
def sendMerkleBlocks (s : Subscription F) : Subscription F :=
  let (unsentMerkleBlocks, cache) := s.cache.getUnretrievedMerkleBlocks
  unsentMerkleBlocks.foldl (fun s merkleBlock => s.emitData (.merkleBlock merkleBlock))
    { s with cache }

/-- The loop from the test of its condition to the next `await wait(50)`, or to its end. -/
def continueLoop (s : Subscription F) : Subscription F :=
  if s.isClientConnected then
    { s.sendTransactions.sendInstantLocks.sendMerkleBlocks with
      loop := .waiting }.log [.iterationEnded]
  else { s with loop := .ended }

/-! ## The code: the listeners of the mediator -/

/-- The `HISTORICAL_BLOCK_SENT` listener. -/
def removeHistoricalBlock (blockHash : Hash) (s : Subscription F) : Subscription F :=
  { s with cache := s.cache.removeDataByBlockHash blockHash }.log
    (s.cache.removeDataByBlockHashEvents blockHash)

/-- The `MEMPOOL_DATA_SENT` listener, up to the first `await`. -/
def sendNewData (s : Subscription F) : Subscription F :=
  { s with
    filterEmitter :=
      (s.filterEmitter.removeListener .instantLock
        .preMempoolSentInstantLockListener).on .instantLock .sendInstantLock }.continueLoop

/-- The `CLIENT_DISCONNECTED` listener. -/
def disconnect (s : Subscription F) : Subscription F :=
  { s with
    isClientConnected := false
    mediator := s.mediator.removeAllListeners
    filterEmitter := s.filterEmitter.removeAllListeners
    isRegistered := false }

/-- One listener of the mediator runs on an event. -/
def runListener (event : MediatorEvent) (listener : MediatorListener) (s : Subscription F) :
    Subscription F :=
  match listener, event with
  | .removeHistoricalBlock, .historicalBlockSent blockHash => s.removeHistoricalBlock blockHash
  | .sendNewData, .memPoolDataSent => s.sendNewData
  | .disconnect, .clientDisconnected => s.disconnect
  | listener, event => s.runSender event listener

/-- `mediator.emit(event)` -/
def emit (event : MediatorEvent) (s : Subscription F) : Subscription F :=
  EventEmitter.emit mediator (fun mediator s => { s with mediator }) (runListener event)
    event.name (s.log [.emitted event])

/-- The mediator as the handler hands it over. -/
def handlerMediator : EventEmitter MediatorEventName MediatorListener :=
  ((EventEmitter.empty.on .transaction .sendTransactionsResponse).on
    .merkleBlock .sendMerkleBlockResponse).on .instantLock .sendInstantLockResponse

/-- The body of `subscribeToNewTransactions`. -/
def subscribeToNewTransactions (mediator : EventEmitter MediatorEventName MediatorListener)
    (filter : F) : Subscription F where
  filter := filter
  cache := .new
  isClientConnected := true
  isRegistered := true
  filterEmitter :=
    ((EventEmitter.empty.on .matched .storeTransaction).on .block .storeBlock).on
      .instantLock .preMempoolSentInstantLockListener
  mediator :=
    ((mediator.on .historicalBlockSent .removeHistoricalBlock).once
      .memPoolDataSent .sendNewData).once .clientDisconnected .disconnect
  loop := .notStarted
  trace := []

/-- A new subscription of the handler. -/
def start (filter : F) : Subscription F := subscribeToNewTransactions handlerMediator filter

/-! ## Runs of a subscription -/

/-- What can happen to a subscription. -/
inductive Action
  | matched (transaction : Transaction)
  | test (transaction : Transaction)
  | block (block : Block)
  | instantLock (transaction : Transaction) (instantLock : InstantLock)
  | historicalBlockSent (blockHash : Hash)
  | historicalDataSent
  | memPoolDataSent
  | clientDisconnected
  | wakeUp
  | sendHistorical (response : Response)

/-- An action, and the exception that its caller gets. -/
def handle (s : Subscription F) : Action → Except ScriptError Unit × Subscription F
  | .matched tx => (.ok (), s.emitMatched tx)
  | .test tx => s.testBody env tx
  | .block block => s.emitBlock env block
  | .instantLock tx instantLock => s.emitInstantLock env tx instantLock
  | .historicalBlockSent blockHash => (.ok (), s.emit (.historicalBlockSent blockHash))
  | .historicalDataSent => (.ok (), s.emit .historicalDataSent)
  | .memPoolDataSent => (.ok (), s.emit .memPoolDataSent)
  | .clientDisconnected => (.ok (), s.emit .clientDisconnected)
  -- the timer of `wait(50)`, when the loop is suspended in it
  | .wakeUp => (.ok (), if s.loop = .waiting then s.continueLoop else s)
  | .sendHistorical response => (.ok (), s.log [.sentHistorical response])

/-- The state after an action. -/
def step (s : Subscription F) (a : Action) : Subscription F := (s.handle env a).2

/-- A run of a subscription. -/
abbrev run : Subscription F → List Action → Subscription F := Machine.run (step env)

/-- A run goes on from where another one has ended. -/
theorem run_append (s : Subscription F) (as bs : List Action) :
    run env s (as ++ bs) = run env (run env s as) bs :=
  Machine.run_append (step env) s as bs

/-- The last step of a run. -/
theorem run_snoc (s : Subscription F) (as : List Action) (a : Action) :
    run env s (as ++ [a]) = step env (run env s as) a :=
  run_append env s as [a]

end Subscription

end Dapi
