/-
# The handler of `subscribeToTransactionsWithProofs`

`src/lib/grpcServer/handlers/tx-filter-stream/`
`subscribeToTransactionsWithProofsHandlerFactory.js`, with
`src/lib/transactionsFilter/getHistoricalTransactionsIteratorFactory.js` and
`src/lib/transactionsFilter/getMemPoolTransactionsFactory.js`.

The handler is an async function, a `Program` over the operations `HandlerOp` and
the requests `CoreRequest`.  What it calls of dashcore-lib is a `DashcoreLib`.

* A write to the stream is an operation that hands the response over, and then
  the acknowledgement is awaited.
* The historical iterator is an async generator consumed by a `for await` loop.  It
  is a program that runs the body of the loop at each `yield`.
* `Promise.all` over `getRawTransaction` is one request.
-/
import Dapi.Async
import Dapi.Subscription

namespace Dapi

open Async Program

/-! ## Requests, operations, failures -/

/-- `TransactionsWithProofsRequest.getBloomFilter()` -/
structure BloomFilterMessage where
  vData : Buffer
  nHashFuncs : ℕ
  nTweak : ℕ
  nFlags : ℕ
  deriving DecidableEq

/-- `TransactionsWithProofsRequest` -/
structure StreamRequest where
  bloomFilter : BloomFilterMessage
  fromBlockHash : Buffer
  fromBlockHeight : ℕ
  count : ℕ
  deriving DecidableEq

/-- What the handler and the functions it calls throw. -/
inductive Failure
  | invalidArgument (message : String)
  | notFound (message : String)
  /-- a rejected promise; Core rejects with a code -/
  | rejection (code : ℤ) (message : String)
  /-- an exception of dashcore-lib -/
  | library (message : String)
  /-- an exception of the test of a transaction -/
  | script (e : ScriptError)
  deriving DecidableEq

/-- The fields that the service reads of `getBlock`. -/
structure BlockInfo where
  height : ℕ
  confirmations : ℤ
  deriving DecidableEq

/-- What the historical iterator yields. -/
structure HistoricalItem where
  merkleBlock : MerkleBlock
  transactions : List Transaction
  index : ℕ
  deriving DecidableEq

/-- The functions of dashcore-lib that the handler calls. -/
structure DashcoreLib (F : Type) where
  newBloomFilter : BloomFilterMessage → Except String F
  newMerkleBlock : Buffer → Except String MerkleBlock
  getMatchedTransactionHashes : MerkleBlock → List Hash
  newTransaction : Buffer → Except String Transaction

/-- The operations of the handler that are answered at once. -/
inductive HandlerOp
  | newBloomFilter (bloomFilter : BloomFilterMessage)
  | subscribeToNewTransactions
  | filterToBuffer
  | yield (item : HistoricalItem)
  | write (response : Response)
  | emitHistoricalBlockSent (blockHash : Hash)
  | emitHistoricalDataSent
  | emitMemPoolDataSent
  | testCollection (transaction : Transaction)
  | endCall
  | onCancelled
  deriving DecidableEq

/-- What the subscription gives back for an operation. -/
def HandlerOp.Answer : HandlerOp → Type
  | .filterToBuffer => Buffer
  | _ => Unit

/-- What the handler awaits. -/
inductive CoreRequest
  | getBlockHash (height : ℕ)
  | getBlock (blockHash : Hash)
  | getBestBlockHeight
  | getMerkleBlocks (filter : Buffer) (blockHash : Hash) (count : ℤ)
  | getRawTransactions (transactionHashes : List Hash)
  | getRawMemPool
  | getRawTransaction (txId : Hash)
  | acknowledgement
  | wait (ms : ℕ)
  deriving DecidableEq

/-- What Core gives back for a request, when it answers. -/
def CoreRequest.Answer : CoreRequest → Type
  | .getBlockHash _ => Hash
  | .getBlock _ => BlockInfo
  | .getBestBlockHeight => ℕ
  | .getMerkleBlocks _ _ _ => List Buffer
  | .getRawTransactions _ => List Buffer
  | .getRawMemPool => List Hash
  | .getRawTransaction _ => Buffer
  | .acknowledgement => Unit
  | .wait _ => Unit

/-- The handler's kind of programs. -/
abbrev handlerSignature : Signature where
  Sync := HandlerOp
  SyncAnswer := HandlerOp.Answer
  Request := CoreRequest
  Answer := CoreRequest.Answer
  Failure := Failure

/-- A part of the stream handler. -/
abbrev HandlerProgram (α : Type) := Program handlerSignature α

namespace Core

/-- The hash of the block at a height. -/
def getBlockHash (height : ℕ) : HandlerProgram Hash :=
  issue (S := handlerSignature) (.getBlockHash height)

/-- The block with a hash, as far as the handler reads it. -/
def getBlock (blockHash : Hash) : HandlerProgram BlockInfo :=
  issue (S := handlerSignature) (.getBlock blockHash)

/-- The height of the tip. -/
def getBestBlockHeight : HandlerProgram ℕ :=
  issue (S := handlerSignature) .getBestBlockHeight

/-- The merkle blocks of `count` blocks from `blockHash` on that the filter matches. -/
def getMerkleBlocks (filter : Buffer) (blockHash : Hash) (count : ℤ) :
    HandlerProgram (List Buffer) :=
  issue (S := handlerSignature) (.getMerkleBlocks filter blockHash count)

/-- `Promise.all(transactionHashes.map(hash => coreRpcApi.getRawTransaction(hash)))` -/
def getRawTransactions (transactionHashes : List Hash) : HandlerProgram (List Buffer) :=
  issue (S := handlerSignature) (.getRawTransactions transactionHashes)

/-- The identifiers of the transactions in the mempool. -/
def getRawMemPool : HandlerProgram (List Hash) :=
  issue (S := handlerSignature) .getRawMemPool

/-- The bytes of one transaction. -/
def getRawTransaction (txId : Hash) : HandlerProgram Buffer :=
  issue (S := handlerSignature) (.getRawTransaction txId)

end Core

namespace Handler

/-- The acknowledgement of a write, which the handler awaits. -/
def acknowledgement : HandlerProgram Unit := issue (S := handlerSignature) .acknowledgement

/-- `wait` of `utils/wait.js`: the handler goes on after a timer. -/
def wait (ms : ℕ) : HandlerProgram Unit := issue (S := handlerSignature) (.wait ms)

/-- `new BloomFilter(bloomFilter)` of the request, which may raise. -/
def newBloomFilter (bloomFilter : BloomFilterMessage) : HandlerProgram Unit :=
  perform (S := handlerSignature) (.newBloomFilter bloomFilter)

/-- `subscribeToNewTransactions`: the listeners are put on the mediator. -/
def subscribeToNewTransactions : HandlerProgram Unit :=
  perform (S := handlerSignature) .subscribeToNewTransactions

/-- `filter.toBuffer()`, of the filter as the tests have left it. -/
def filterToBuffer : HandlerProgram Buffer := perform (S := handlerSignature) .filterToBuffer

/-- One `yield` of the generator of historical data. -/
def yield (item : HistoricalItem) : HandlerProgram Unit :=
  perform (S := handlerSignature) (.yield item)

/-- `call.write` of a response. -/
def write (response : Response) : HandlerProgram Unit :=
  perform (S := handlerSignature) (.write response)

/-- `mediator.emit(HISTORICAL_BLOCK_SENT, blockHash)`. -/
def emitHistoricalBlockSent (blockHash : Hash) : HandlerProgram Unit :=
  perform (S := handlerSignature) (.emitHistoricalBlockSent blockHash)

/-- `mediator.emit(HISTORICAL_DATA_SENT)`. -/
def emitHistoricalDataSent : HandlerProgram Unit :=
  perform (S := handlerSignature) .emitHistoricalDataSent

/-- `mediator.emit(MEMPOOL_DATA_SENT)`. -/
def emitMemPoolDataSent : HandlerProgram Unit :=
  perform (S := handlerSignature) .emitMemPoolDataSent

/-- `bloomFilterEmitterCollection.test` of a transaction of the mempool. -/
def testCollection (transaction : Transaction) : HandlerProgram Unit :=
  perform (S := handlerSignature) (.testCollection transaction)

/-- `call.end()`. -/
def endCall : HandlerProgram Unit := perform (S := handlerSignature) .endCall

/-- The handler puts its listener on `cancelled` of the call. -/
def onCancelled : HandlerProgram Unit := perform (S := handlerSignature) .onCancelled

end Handler

/-! ## Texts -/

/-- `e.message` -/
def Failure.message : Failure → String
  | .invalidArgument message | .notFound message | .rejection _ message | .library message =>
    message
  | .script .nullScript => "Cannot read property 'isPublicKeyOut' of null"
  | .script (.invalidBuffer e) => e.message

/-- One digit of a hexadecimal text, in lower case. -/
def hexDigit (n : UInt8) : Char :=
  if n < 10 then Char.ofNat (48 + n.toNat) else Char.ofNat (87 + n.toNat)

/-- `buffer.toString('hex')` -/
def Buffer.toHex (b : Buffer) : String :=
  String.ofList (b.flatMap fun byte => [hexDigit (byte / 16), hexDigit (byte % 16)])

/-- A call of dashcore-lib that may throw. -/
def ofLibrary {α : Type} (x : Except String α) : HandlerProgram α :=
  match x with
  | .ok a => .done a
  | .error message => .throw (.library message)

/-! ## Sending -/

/-- `await call.write(response)` -/
def writeResponse (response : Response) : HandlerProgram Unit := do
  Handler.write response
  Handler.acknowledgement

/-- The response with the bytes of transactions. -/
def sendTransactionsResponse (transactions : List Transaction) : HandlerProgram Unit :=
  writeResponse (.rawTransactions transactions)

/-- The response with the bytes of a merkle block. -/
def sendMerkleBlockResponse (merkleBlock : MerkleBlock) : HandlerProgram Unit :=
  writeResponse (.rawMerkleBlock merkleBlock)

/-! ## The historical iterator -/

/-- How many merkle blocks Core gives at once. -/
def MAX_HEADERS_PER_REQUEST : ℕ := 2000

section

variable {F : Type} (lib : DashcoreLib F)

/-- `rawTransactions.map(tx => new Transaction(tx))`, which raises at the first that does not parse.
-/
def newTransactions : List Buffer → HandlerProgram (List Transaction)
  | [] => pure []
  | raw :: raws => do
    let transaction ← ofLibrary (lib.newTransaction raw)
    let transactions ← newTransactions raws
    pure (transaction :: transactions)

/-- The parsed transactions of a list of hashes. -/
def getTransactions (transactionHashes : List Hash) : HandlerProgram (List Transaction) := do
  let rawTransactions ← Core.getRawTransactions transactionHashes
  newTransactions lib rawTransactions

/-- The size of a batch: the last one takes what is left. -/
def getBlocksToScan (batchIndex : ℕ) (numberOfBatches : ℕ) (totalCount : ℤ) : ℤ :=
  let isLastBatch := batchIndex + 1 = numberOfBatches
  if isLastBatch then totalCount - batchIndex * MAX_HEADERS_PER_REQUEST
  else MAX_HEADERS_PER_REQUEST

/-- The inner loop of the iterator: one item for each merkle block of a batch.  The result is the
next index. -/
def yieldMerkleBlocks (consume : HistoricalItem → HandlerProgram Unit) :
    List Buffer → ℕ → HandlerProgram ℕ
  | [], merkleBlockIndex => pure merkleBlockIndex
  | rawMerkleBlock :: rawMerkleBlocks, merkleBlockIndex => do
    let merkleBlock ← ofLibrary (lib.newMerkleBlock rawMerkleBlock)
    let reverseTransactionHashes := lib.getMatchedTransactionHashes merkleBlock
    let transactionHashes := reverseTransactionHashes.map List.reverse
    let transactions ← getTransactions lib transactionHashes
    let item : HistoricalItem := ⟨merkleBlock, transactions, merkleBlockIndex⟩
    Handler.yield item
    consume item
    yieldMerkleBlocks consume rawMerkleBlocks (merkleBlockIndex + 1)

/-- The outer loop of the iterator, with the number of batches that are left. -/
def scanBatches (consume : HistoricalItem → HandlerProgram Unit) (fromHeight : ℕ) (count : ℤ)
    (numberOfBatches : ℕ) : ℕ → ℕ → ℕ → HandlerProgram Unit
  | 0, _, _ => pure ()
  | remaining + 1, batchIndex, merkleBlockIndex => do
    let currentHeight := fromHeight + batchIndex * MAX_HEADERS_PER_REQUEST
    let blocksToScan := getBlocksToScan batchIndex numberOfBatches count
    let blockHash ← Core.getBlockHash currentHeight
    let filter ← Handler.filterToBuffer
    let rawMerkleBlocks ← Core.getMerkleBlocks filter blockHash blocksToScan
    let merkleBlockIndex ← yieldMerkleBlocks lib consume rawMerkleBlocks merkleBlockIndex
    scanBatches consume fromHeight count numberOfBatches remaining (batchIndex + 1)
      merkleBlockIndex

/-- `Math.ceil(count / MAX_HEADERS_PER_REQUEST)`, as the bound of a loop. -/
def getNumberOfBatches (count : ℤ) : ℕ :=
  ((count + (MAX_HEADERS_PER_REQUEST - 1)) / MAX_HEADERS_PER_REQUEST).toNat

/-- The iterator, run by a `for await` loop with body `consume`. -/
def getHistoricalTransactionsIterator (fromBlockHash : Hash) (count : ℤ)
    (consume : HistoricalItem → HandlerProgram Unit) : HandlerProgram Unit := do
  let fromBlock ← Core.getBlock fromBlockHash
  let numberOfBatches := getNumberOfBatches count
  scanBatches lib consume fromBlock.height count numberOfBatches numberOfBatches 0 0

/-! ## The mempool -/

/-- The loop of `getMemPoolTransactions`, which asks Core for one transaction after the other. -/
def getMemPoolTransactionsLoop : List Hash → HandlerProgram (List Transaction)
  | [] => pure []
  | txId :: txIds => do
    let rawTransaction ← Core.getRawTransaction txId
    let transaction ← ofLibrary (lib.newTransaction rawTransaction)
    let result ← getMemPoolTransactionsLoop txIds
    pure (transaction :: result)

/-- The parsed transactions of the mempool. -/
def getMemPoolTransactions : HandlerProgram (List Transaction) := do
  let memPoolTransactionIds ← Core.getRawMemPool
  getMemPoolTransactionsLoop lib memPoolTransactionIds

/-! ## The handler -/

/-- The block hash to start from: given, or that of the given height. -/
def resolveFromBlockHash (request : StreamRequest) : HandlerProgram Hash :=
  if request.fromBlockHash = [] then
    if request.fromBlockHeight = 0 then
      throw (.invalidArgument "minimum value for `fromBlockHeight` is 1")
    else
      (Core.getBlockHash request.fromBlockHeight).tryCatch fun e =>
        match e with
        -- block height out of range
        | .rejection (-8) _ => throw (.notFound "fromBlockHeight is bigger than block count")
        | e => throw e
  else pure request.fromBlockHash

/-- The block to start from, which has to be part of the best chain. -/
def getFromBlock (fromBlockHash : Hash) : HandlerProgram BlockInfo := do
  let fromBlock ← (Core.getBlock fromBlockHash).tryCatch fun e =>
    match e with
    -- block not found
    | .rejection (-5) _ => throw (.notFound "fromBlockHash is not found")
    | e => throw e
  if fromBlock.confirmations = -1 then
    throw (.notFound
      ("block " ++ fromBlockHash.toHex ++ " is not part of the best block chain"))
  else pure fromBlock

/-- How many blocks are scanned: up to the tip when new transactions are requested or the count
goes beyond it. -/
def getHistoricalCount (count : ℕ) (fromHeight bestBlockHeight : ℕ) : ℤ :=
  if count = 0 ∨ fromHeight + count > bestBlockHeight + 1 then
    (bestBlockHeight : ℤ) - fromHeight + 1
  else count

/-- The body of the `for await` loop. -/
def sendHistoricalItem (isNewTransactionsRequested : Bool) (item : HistoricalItem) :
    HandlerProgram Unit := do
  -- wait between the calls to Core, to reduce the load
  runIf (item.index > 0) (Handler.wait 50)
  sendTransactionsResponse item.transactions
  sendMerkleBlockResponse item.merkleBlock
  -- removes sent transactions and blocks from the cache
  runIf isNewTransactionsRequested
    (Handler.emitHistoricalBlockSent item.merkleBlock.header.hash)

/-- Read and test the transactions of the mempool. -/
def sendMemPoolData : HandlerProgram Unit := do
  let memPoolTransactions ← getMemPoolTransactions lib
  forEach Handler.testCollection memPoolTransactions
  Handler.emitMemPoolDataSent

/-- The end of the handler: the mempool, or the end of a stream of historical data only. -/
def sendMemPoolDataOrEnd (isNewTransactionsRequested : Bool) : HandlerProgram Unit :=
  if isNewTransactionsRequested then sendMemPoolData lib else Handler.endCall

/-- The handler of `subscribeToTransactionsWithProofs`, from the filter of the request to the end of
the call or the first exception. -/
def subscribeToTransactionsWithProofsHandler (request : StreamRequest) :
    HandlerProgram Unit := do
  (Handler.newBloomFilter request.bloomFilter).tryCatch fun e =>
    throw (.invalidArgument ("Invalid bloom filter: " ++ e.message))
  let isNewTransactionsRequested := decide (request.count = 0)
  runIf isNewTransactionsRequested Handler.subscribeToNewTransactions
  let fromBlockHash ← resolveFromBlockHash request
  let fromBlock ← getFromBlock fromBlockHash
  let bestBlockHeight ← Core.getBestBlockHeight
  let historicalCount := getHistoricalCount request.count fromBlock.height bestBlockHeight
  getHistoricalTransactionsIterator lib fromBlockHash historicalCount
    (sendHistoricalItem isNewTransactionsRequested)
  Handler.emitHistoricalDataSent
  sendMemPoolDataOrEnd lib isNewTransactionsRequested
  Handler.onCancelled

end

end Dapi
