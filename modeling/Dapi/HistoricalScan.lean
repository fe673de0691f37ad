/-
# The historical scan covers the requested range

The handler clamps the number of blocks to the tip of the chain, and the iterator
cuts it into batches of at most 2000.  On a chain that does not change, and for
a filter that is not updated, the batches together are one scan:

* `Yields x a items`: against the given answers the program `x` returns `a`, yields
  exactly `items`, and requests no block outside the chain.
* `yields_scanBatches`: the batches that are left yield the items of the heights that
  are left, by induction on their number.
* `historical_scan_exact`: the handler yields the items of the matching heights of
  the requested window, each once, in ascending order, numbered from zero.
-/
import Dapi.StreamHandler

namespace Dapi

open Async Program

/-! ## A chain that does not change -/

/-- A chain, the heights that match a filter, and what is served for them. -/
structure FixedChain where
  best : ℕ
  blockHash : ℕ → Hash
  matching : ℕ → Bool
  rawMerkleBlock : ℕ → Buffer
  merkleBlock : ℕ → MerkleBlock
  transactions : ℕ → List Transaction

namespace FixedChain

variable (chain : FixedChain)

/-- The matching heights among `h, ..., h + n - 1`, in ascending order. -/
def matchingHeights (h n : ℕ) : List ℕ := (List.range' h n).filter chain.matching

/-- The items of a list of heights, numbered from `index` on. -/
def items (heights : List ℕ) (index : ℕ) : List HistoricalItem :=
  (heights.zipIdx index).map fun x => ⟨chain.merkleBlock x.1, chain.transactions x.1, x.2⟩

/-- The hashes of the transactions that the iterator asks for at a height. -/
def transactionHashes {F : Type} (lib : DashcoreLib F) (h : ℕ) : List Hash :=
  (lib.getMatchedTransactionHashes (chain.merkleBlock h)).map List.reverse

/-- Core and the library answer from the chain: `getBlockHash` with the hash at a height,
`getBlock` with the height of a block of the best chain, `getMerkleBlocks` with the merkle
blocks of the matching blocks in ascending order.  Writes and waits succeed. -/
structure AnsweredBy {F : Type} (lib : DashcoreLib F) (filter : Buffer)
    (answer : (r : CoreRequest) → Except Failure r.Answer) : Prop where
  getBlockHash : ∀ h ≤ chain.best, answer (.getBlockHash h) = .ok (chain.blockHash h)
  getBlock : ∀ h ≤ chain.best, ∃ confirmations : ℤ, confirmations ≠ -1 ∧
    answer (.getBlock (chain.blockHash h)) = .ok ⟨h, confirmations⟩
  getBestBlockHeight : answer .getBestBlockHeight = .ok chain.best
  getMerkleBlocks : ∀ (h n : ℕ), h + n ≤ chain.best + 1 → 1 ≤ n → n ≤ MAX_HEADERS_PER_REQUEST →
    answer (.getMerkleBlocks filter (chain.blockHash h) n) =
      .ok ((chain.matchingHeights h n).map chain.rawMerkleBlock)
  newMerkleBlock : ∀ h, lib.newMerkleBlock (chain.rawMerkleBlock h) = .ok (chain.merkleBlock h)
  getRawTransactions : ∀ h, ∃ raws,
    answer (.getRawTransactions (chain.transactionHashes lib h)) = .ok raws ∧
      raws.map lib.newTransaction = (chain.transactions h).map Except.ok
  acknowledgement : answer .acknowledgement = .ok ()
  wait : ∀ ms, answer (.wait ms) = .ok ()

/-- A request for blocks stays within the chain and within the size of a batch. -/
def InRange (filter : Buffer) : CoreRequest → Prop
  | .getBlockHash h => h ≤ chain.best
  | .getMerkleBlocks filter' blockHash n => filter' = filter ∧ 1 ≤ n ∧ n ≤ 2000 ∧
    ∃ h, blockHash = chain.blockHash h ∧ (h : ℤ) + n ≤ chain.best + 1
  | _ => True

/-- The request starts at a height, given by the hash or by the height itself. -/
def StartsAt (request : StreamRequest) (h : ℕ) : Prop :=
  (request.fromBlockHash ≠ [] ∧ request.fromBlockHash = chain.blockHash h) ∨
    (request.fromBlockHash = [] ∧ request.fromBlockHeight = h ∧ h ≠ 0)

/-- The last height of the requested window. -/
def lastHeight (fromHeight count : ℕ) : ℕ :=
  if count = 0 then chain.best else min (fromHeight + count - 1) chain.best

end FixedChain

/-- The operations succeed, and the filter is not updated. -/
def quietAnswer (filter : Buffer) : (op : HandlerOp) → Except Failure op.Answer
  | .filterToBuffer => .ok filter
  | .newBloomFilter _ | .subscribeToNewTransactions | .yield _ | .write _
  | .emitHistoricalBlockSent _ | .emitHistoricalDataSent | .emitMemPoolDataSent
  | .testCollection _ | .endCall | .onCancelled => .ok ()

/-- What the log says was yielded. -/
def yieldedItems (log : List (Event handlerSignature)) : List HistoricalItem :=
  log.filterMap fun e =>
    match e with
    | .sync (.yield item) => some item
    | _ => none

/-- The items of one log, and of the next. -/
theorem yieldedItems_append (log log' : List (Event handlerSignature)) :
    yieldedItems (log ++ log') = yieldedItems log ++ yieldedItems log' :=
  List.filterMap_append

/-- The operation yields no item. -/
def NotYield : HandlerOp → Prop
  | .yield _ => False
  | _ => True

/-- A log without a `yield` has no items. -/
theorem yieldedItems_eq_nil {log : List (Event handlerSignature)}
    (h : ∀ op, .sync op ∈ log → NotYield op) : yieldedItems log = [] := by
  rw [yieldedItems, List.filterMap_eq_nil_iff]
  intro e he
  cases e with
  | sync op =>
      have hop := h op he
      cases op <;> first | rfl | exact hop.elim
  | await r => rfl

/-! ## What a program yields -/

section

variable {F : Type} {lib : DashcoreLib F} {chain : FixedChain} {filter : Buffer}
  {answer : (r : CoreRequest) → Except Failure r.Answer} {α β : Type}

variable (chain filter answer) in
/-- Against the answers the program returns `a`, yields exactly `items` and stays in range. -/
def Yields (x : HandlerProgram α) (a : α) (items : List HistoricalItem) : Prop :=
  ∃ log, x.eval (quietAnswer filter) answer = (.ok a, log) ∧ yieldedItems log = items ∧
    ∀ r, .await r ∈ log → chain.InRange filter r

theorem yields_done (a : α) : Yields chain filter answer (.done a) a [] :=
  ⟨[], rfl, rfl, by simp⟩

/-- A sequence yields what its parts do. -/
theorem yields_bind {x : HandlerProgram α} {f : α → HandlerProgram β} {a : α} {b : β}
    {is js : List HistoricalItem} (hx : Yields chain filter answer x a is)
    (hf : Yields chain filter answer (f a) b js) :
    Yields chain filter answer (x.bind f) b (is ++ js) := by
  obtain ⟨log, hlog, rfl, hrange⟩ := hx
  obtain ⟨log', hlog', rfl, hrange'⟩ := hf
  refine ⟨log ++ log', ?_, yieldedItems_append log log', ?_⟩
  · rw [eval_bind_ok _ _ hlog, hlog']
  · intro r hr
    rcases List.mem_append.mp hr with hr | hr
    · exact hrange r hr
    · exact hrange' r hr

/-- A first program that yields nothing. -/
theorem yields_step {x : HandlerProgram α} {f : α → HandlerProgram β} {a : α} {b : β}
    {is : List HistoricalItem} (hx : Yields chain filter answer x a [])
    (hf : Yields chain filter answer (f a) b is) : Yields chain filter answer (x.bind f) b is :=
  yields_bind hx hf

/-- What yields nothing yields nothing when it is left out, either. -/
theorem yields_runIf {c : Bool} {x : HandlerProgram Unit}
    (hx : Yields chain filter answer x () []) :
    Yields chain filter answer (runIf c x) () [] := by
  cases c with
  | true => exact hx
  | false => exact yields_done ()

/-- A handler of failures is not used when nothing fails. -/
theorem yields_tryCatch {x : HandlerProgram α} {handler : Failure → HandlerProgram α} {a : α}
    {is : List HistoricalItem} (hx : Yields chain filter answer x a is) :
    Yields chain filter answer (x.tryCatch handler) a is := by
  obtain ⟨log, hlog, hrest⟩ := hx
  exact ⟨log, eval_tryCatch_ok _ _ hlog, hrest⟩

/-- A request within range yields nothing. -/
theorem yields_issue {r : CoreRequest} {a : r.Answer} (ha : answer r = .ok a)
    (hr : chain.InRange filter r) :
    Yields chain filter answer (issue (S := handlerSignature) r) a [] :=
  ⟨[.await r], eval_issue_ok _ _ ha, rfl, by simpa using hr⟩

/-- An operation that is no `yield`. -/
theorem yields_perform (op : HandlerOp) {a : op.Answer} (ha : quietAnswer filter op = .ok a)
    (hop : NotYield op) :
    Yields chain filter answer (perform (S := handlerSignature) op) a [] := by
  refine ⟨[.sync op], eval_perform_ok _ _ ha, yieldedItems_eq_nil ?_, by simp⟩
  intro op' hop'
  obtain rfl : op' = op := by simpa using hop'
  exact hop

/-- A `yield` yields its item. -/
theorem yields_yield (item : HistoricalItem) :
    Yields chain filter answer (perform (S := handlerSignature) (.yield item)) () [item] :=
  ⟨[.sync (.yield item)], eval_perform_ok _ _ rfl, rfl, by simp⟩

/-- A library yields nothing. -/
theorem yields_ofLibrary {x : Except String α} {a : α} (hx : x = .ok a) :
    Yields chain filter answer (ofLibrary x) a [] := by
  rw [hx]
  exact yields_done a

variable (chain filter answer) in
/-- Against the answers the program yields exactly `items` and stays in range, however it ends. -/
def Scans (x : HandlerProgram α) (items : List HistoricalItem) : Prop :=
  yieldedItems (x.eval (quietAnswer filter) answer).2 = items ∧
    ∀ r, .await r ∈ (x.eval (quietAnswer filter) answer).2 → chain.InRange filter r

/-- What never yields scans nothing. -/
theorem scans_of_only {x : HandlerProgram α} (hx : x.Only NotYield (chain.InRange filter)) :
    Scans chain filter answer x [] := by
  obtain ⟨hops, hrequests⟩ := hx.of_mem_log (quietAnswer filter) answer
  exact ⟨yieldedItems_eq_nil hops, hrequests⟩

/-- A scan goes on with the rest. -/
theorem scans_bind {x : HandlerProgram α} {f : α → HandlerProgram β} {a : α}
    {is js : List HistoricalItem} (hx : Yields chain filter answer x a is)
    (hf : Scans chain filter answer (f a) js) :
    Scans chain filter answer (x.bind f) (is ++ js) := by
  obtain ⟨log, hlog, rfl, hrange⟩ := hx
  obtain ⟨rfl, hrange'⟩ := hf
  rw [Scans, eval_bind_ok _ _ hlog]
  refine ⟨yieldedItems_append log _, fun r hr => ?_⟩
  rcases List.mem_append.mp hr with hr | hr
  · exact hrange r hr
  · exact hrange' r hr

/-- A first part that yields nothing leaves the scan to the rest. -/
theorem scans_step {x : HandlerProgram α} {f : α → HandlerProgram β} {a : α}
    {is : List HistoricalItem} (hx : Yields chain filter answer x a [])
    (hf : Scans chain filter answer (f a) is) : Scans chain filter answer (x.bind f) is :=
  scans_bind hx hf

/-! ## The iterator -/

/-- The transactions of a block are parsed. -/
theorem yields_newTransactions {raws : List Buffer} {txs : List Transaction}
    (h : raws.map lib.newTransaction = txs.map Except.ok) :
    Yields chain filter answer (newTransactions lib raws) txs [] := by
  induction raws generalizing txs with
  | nil =>
      obtain rfl : txs = [] := by simpa using h.symm
      exact yields_done _
  | cons raw raws ih =>
      cases txs with
      | nil => simp at h
      | cons tx txs =>
          rw [List.map_cons, List.map_cons, List.cons.injEq] at h
          refine yields_step (yields_ofLibrary h.1) ?_
          exact yields_step (ih h.2) (yields_done _)

/-- The transactions of a block are read. -/
theorem yields_getTransactions (hc : chain.AnsweredBy lib filter answer) (h : ℕ) :
    Yields chain filter answer (getTransactions lib (chain.transactionHashes lib h))
      (chain.transactions h) [] := by
  obtain ⟨raws, hraws, htxs⟩ := hc.getRawTransactions h
  exact yields_step (yields_issue hraws trivial) (yields_newTransactions htxs)

/-- The items of a batch, one for each matching height. -/
theorem yields_yieldMerkleBlocks (hc : chain.AnsweredBy lib filter answer)
    {consume : HistoricalItem → HandlerProgram Unit}
    (hconsume : ∀ item, Yields chain filter answer (consume item) () []) (heights : List ℕ)
    (index : ℕ) :
    Yields chain filter answer
      (yieldMerkleBlocks lib consume (heights.map chain.rawMerkleBlock) index)
      (index + heights.length) (chain.items heights index) := by
  induction heights generalizing index with
  | nil => exact yields_done _
  | cons h heights ih =>
      have hrest := ih (index + 1)
      rw [Nat.add_assoc, Nat.add_comm 1] at hrest
      refine yields_step (yields_ofLibrary (hc.newMerkleBlock h)) ?_
      refine yields_step (yields_getTransactions hc h) ?_
      refine yields_bind (yields_yield ⟨chain.merkleBlock h, chain.transactions h, index⟩) ?_
      exact yields_step (hconsume _) hrest

/-- A batch and the heights after it. -/
theorem matchingHeights_append (h n m : ℕ) :
    chain.matchingHeights h (n + m) =
      chain.matchingHeights h n ++ chain.matchingHeights (h + n) m := by
  rw [FixedChain.matchingHeights, ← List.range'_append_1, List.filter_append]
  rfl

/-- The indices go on from one list of heights to the next. -/
theorem items_append (hs hs' : List ℕ) (index : ℕ) :
    chain.items (hs ++ hs') index = chain.items hs index ++
      chain.items hs' (index + hs.length) := by
  rw [FixedChain.items, List.zipIdx_append, List.map_append]
  rfl

/-- The size of a batch: 2000 blocks, or what is left of `left` blocks when it is the last. -/
theorem getBlocksToScan_eq {batchIndex remaining count left : ℕ}
    (hcount : count = batchIndex * MAX_HEADERS_PER_REQUEST + left)
    (hlo : remaining * MAX_HEADERS_PER_REQUEST < left)
    (hhi : left ≤ (remaining + 1) * MAX_HEADERS_PER_REQUEST) :
    getBlocksToScan batchIndex (batchIndex + (remaining + 1)) count =
      (min left MAX_HEADERS_PER_REQUEST : ℕ) := by
  rw [MAX_HEADERS_PER_REQUEST] at hcount hlo hhi
  rw [getBlocksToScan, MAX_HEADERS_PER_REQUEST]
  by_cases hlast : batchIndex + 1 = batchIndex + (remaining + 1)
  · rw [if_pos hlast, Nat.min_eq_left (by omega), hcount]
    push_cast
    ring
  · rw [if_neg hlast, Nat.min_eq_right (by omega)]

/-- **The batches that are left.**  `left` blocks are left, in `remaining` batches of which only the
last one may be smaller than 2000. -/
theorem yields_scanBatches (hc : chain.AnsweredBy lib filter answer)
    {consume : HistoricalItem → HandlerProgram Unit}
    (hconsume : ∀ item, Yields chain filter answer (consume item) () [])
    {fromHeight count : ℕ} (hbest : fromHeight + count ≤ chain.best + 1) (remaining : ℕ)
    (batchIndex index left : ℕ)
    (hcount : 0 < remaining → count = batchIndex * MAX_HEADERS_PER_REQUEST + left)
    (hlo : remaining * MAX_HEADERS_PER_REQUEST < left + MAX_HEADERS_PER_REQUEST)
    (hhi : left ≤ remaining * MAX_HEADERS_PER_REQUEST) :
    Yields chain filter answer
      (scanBatches lib consume fromHeight count (batchIndex + remaining) remaining batchIndex
        index) ()
      (chain.items
        (chain.matchingHeights (fromHeight + batchIndex * MAX_HEADERS_PER_REQUEST) left)
        index) := by
  induction remaining generalizing batchIndex index left with
  | zero =>
      -- no batch is left, and with it no block
      obtain rfl : left = 0 := by omega
      exact yields_done _
  | succ remaining ih =>
      replace hcount := hcount (Nat.succ_pos remaining)
      have hlo' : remaining * MAX_HEADERS_PER_REQUEST < left := by
        rw [Nat.succ_mul] at hlo
        omega
      have hscan := getBlocksToScan_eq hcount hlo' hhi
      set height := fromHeight + batchIndex * MAX_HEADERS_PER_REQUEST with hheight
      set n := min left MAX_HEADERS_PER_REQUEST with hn
      have hn2 : n ≤ 2000 := Nat.min_le_right _ _
      have hnleft : n ≤ left := Nat.min_le_left _ _
      have hn1 : 1 ≤ n := by
        rw [hn, MAX_HEADERS_PER_REQUEST]
        omega
      have hrange : height + n ≤ chain.best + 1 := by omega
      -- the heights of this batch, and those of the batches after it
      have hsplit : chain.matchingHeights height left =
          chain.matchingHeights height n ++
            chain.matchingHeights
              (fromHeight + (batchIndex + 1) * MAX_HEADERS_PER_REQUEST) (left - n) := by
        conv_lhs => rw [show left = n + (left - n) by omega, matchingHeights_append]
        -- a batch that is not full is the last one
        by_cases hfull : MAX_HEADERS_PER_REQUEST ≤ left
        · have hnmax : n = MAX_HEADERS_PER_REQUEST := Nat.min_eq_right hfull
          rw [hnmax, hheight, Nat.succ_mul, Nat.add_assoc]
        · have hzero : left - n = 0 := by
            rw [hn, Nat.min_eq_left (by omega)]
            omega
          rw [hzero]
          rfl
      have hnext := ih (batchIndex + 1)
        (index + (chain.matchingHeights height n).length) (left - n) ?_ ?_ ?_
      · rw [hsplit, items_append]
        have hheightBest : height ≤ chain.best := by omega
        refine yields_step (yields_issue (hc.getBlockHash height hheightBest) hheightBest) ?_
        refine yields_step (yields_perform .filterToBuffer rfl trivial) ?_
        have hmerkle : answer (.getMerkleBlocks filter (chain.blockHash height)
            (getBlocksToScan batchIndex (batchIndex + (remaining + 1)) count)) =
              .ok ((chain.matchingHeights height n).map chain.rawMerkleBlock) := by
          rw [hscan]
          exact hc.getMerkleBlocks height n hrange hn1 hn2
        refine yields_step (yields_issue hmerkle ?_) ?_
        · rw [hscan]
          exact ⟨rfl, by omega, by omega, height, rfl, by omega⟩
        · refine yields_bind (yields_yieldMerkleBlocks hc hconsume _ index) ?_
          rw [Nat.add_assoc, Nat.add_comm 1 remaining] at hnext
          exact hnext
      · intro hpos
        have hle := Nat.le_mul_of_pos_left MAX_HEADERS_PER_REQUEST hpos
        rw [Nat.succ_mul]
        omega
      · rw [Nat.succ_mul] at hhi
        omega
      · rw [Nat.succ_mul] at hhi
        omega

/-- **The scan yields the matching blocks** of its range, in order. -/
theorem yields_iterator (hc : chain.AnsweredBy lib filter answer)
    {consume : HistoricalItem → HandlerProgram Unit}
    (hconsume : ∀ item, Yields chain filter answer (consume item) () [])
    {fromHeight count : ℕ} (hfrom : fromHeight ≤ chain.best)
    (hbest : fromHeight + count ≤ chain.best + 1) :
    Yields chain filter answer
      (getHistoricalTransactionsIterator lib (chain.blockHash fromHeight) count consume) ()
      (chain.items (chain.matchingHeights fromHeight count) 0) := by
  obtain ⟨confirmations, -, hblock⟩ := hc.getBlock fromHeight hfrom
  refine yields_step (yields_issue hblock trivial) ?_
  -- `Math.ceil` leaves the last batch between 1 and 2000 blocks
  have hbatches : getNumberOfBatches count =
      (count + (MAX_HEADERS_PER_REQUEST - 1)) / MAX_HEADERS_PER_REQUEST := by
    rw [getNumberOfBatches, MAX_HEADERS_PER_REQUEST]
    omega
  have hscan := yields_scanBatches hc hconsume hbest (getNumberOfBatches count) 0 0 count
    (fun _ => by omega) (by rw [hbatches, MAX_HEADERS_PER_REQUEST]; omega)
    (by rw [hbatches, MAX_HEADERS_PER_REQUEST]; omega)
  rw [Nat.zero_mul, Nat.add_zero, Nat.zero_add] at hscan
  exact hscan

/-! ## The handler -/

theorem yields_writeResponse (hc : chain.AnsweredBy lib filter answer) (response : Response) :
    Yields chain filter answer (writeResponse response) () [] :=
  yields_step (yields_perform (.write response) rfl trivial)
    (yields_issue hc.acknowledgement trivial)

/-- The sending of an item yields nothing. -/
theorem yields_sendHistoricalItem (hc : chain.AnsweredBy lib filter answer)
    (isNewTransactionsRequested : Bool) (item : HistoricalItem) :
    Yields chain filter answer (sendHistoricalItem isNewTransactionsRequested item) () [] := by
  refine yields_step (yields_runIf (yields_issue (hc.wait 50) trivial)) ?_
  refine yields_step (yields_writeResponse hc _) ?_
  refine yields_step (yields_writeResponse hc _) ?_
  exact yields_runIf (yields_perform (.emitHistoricalBlockSent _) rfl trivial)

/-- The scan starts at the block that the request names. -/
theorem yields_resolveFromBlockHash (hc : chain.AnsweredBy lib filter answer)
    {request : StreamRequest} {fromHeight : ℕ} (hstart : chain.StartsAt request fromHeight)
    (hfrom : fromHeight ≤ chain.best) :
    Yields chain filter answer (resolveFromBlockHash request) (chain.blockHash fromHeight) [] := by
  rw [resolveFromBlockHash]
  rcases hstart with ⟨hne, heq⟩ | ⟨hnil, hheight, hpos⟩
  · rw [if_neg hne, heq]
    exact yields_done _
  · rw [if_pos hnil, hheight, if_neg hpos]
    exact yields_tryCatch (yields_issue (hc.getBlockHash fromHeight hfrom) hfrom)

/-- Its block is on the best chain. -/
theorem yields_getFromBlock (hc : chain.AnsweredBy lib filter answer) {h : ℕ}
    (hh : h ≤ chain.best) :
    ∃ fromBlock : BlockInfo, fromBlock.height = h ∧
      Yields chain filter answer (getFromBlock (chain.blockHash h)) fromBlock [] := by
  obtain ⟨confirmations, hne, hblock⟩ := hc.getBlock h hh
  refine ⟨⟨h, confirmations⟩, rfl, ?_⟩
  refine yields_step (yields_tryCatch (yields_issue hblock trivial)) ?_
  show Yields chain filter answer (if confirmations = -1 then _ else _) _ _
  rw [if_neg hne]
  exact yields_done _

/-- The clamp of the handler is the length of the requested window. -/
theorem getHistoricalCount_eq {fromHeight count : ℕ} (hfrom : fromHeight ≤ chain.best) :
    getHistoricalCount count fromHeight chain.best =
      (chain.lastHeight fromHeight count + 1 - fromHeight : ℕ) := by
  rw [getHistoricalCount, FixedChain.lastHeight]
  split_ifs <;> omega

/-- After the scan nothing is yielded and no block is requested. -/
theorem only_sendMemPoolDataOrEnd (lib : DashcoreLib F) (chain : FixedChain) (filter : Buffer)
    (isNewTransactionsRequested : Bool) :
    Only (S := handlerSignature) NotYield (chain.InRange filter)
      (sendMemPoolDataOrEnd lib isNewTransactionsRequested) := by
  have hloop : ∀ txIds, Only (S := handlerSignature) NotYield (chain.InRange filter)
      (getMemPoolTransactionsLoop lib txIds) := by
    intro txIds
    induction txIds with
    | nil => exact only_done _
    | cons txId txIds ih =>
        refine only_bind (only_issue trivial) fun raw => ?_
        refine only_bind ?_ fun tx => only_bind ih fun _ => only_done _
        cases lib.newTransaction raw <;> first | exact only_done _ | exact only_throw _
  cases isNewTransactionsRequested with
  | true =>
      refine only_bind (only_bind (only_issue trivial) hloop) fun txs => ?_
      exact only_bind (only_forEach fun tx _ => only_perform trivial) fun _ => only_perform trivial
  | false => exact only_perform trivial

/-- **The scan is exact.**  For a start height on the chain and any count, the handler yields the
items of the matching heights from the start to the last height of the window, in ascending
order and numbered from zero; every batch has between 1 and 2000 blocks, all on the chain. -/
theorem historical_scan_exact (hc : chain.AnsweredBy lib filter answer) (request : StreamRequest)
    (fromHeight : ℕ) (hstart : chain.StartsAt request fromHeight)
    (hfrom : fromHeight ≤ chain.best) :
    Scans chain filter answer (subscribeToTransactionsWithProofsHandler lib request)
      (chain.items
        (chain.matchingHeights fromHeight
          (chain.lastHeight fromHeight request.count + 1 - fromHeight)) 0) := by
  obtain ⟨fromBlock, rfl, hblock⟩ := yields_getFromBlock hc hfrom
  have hbest : fromBlock.height +
      (chain.lastHeight fromBlock.height request.count + 1 - fromBlock.height) ≤
        chain.best + 1 := by
    rw [FixedChain.lastHeight]
    split_ifs <;> omega
  have hscan := yields_iterator hc
    (yields_sendHistoricalItem hc (decide (request.count = 0))) hfrom hbest
  rw [← getHistoricalCount_eq hfrom] at hscan
  have hend : Scans chain filter answer
      ((sendMemPoolDataOrEnd lib (decide (request.count = 0))).bind fun _ =>
        Handler.onCancelled) [] :=
    scans_of_only (only_bind (only_sendMemPoolDataOrEnd lib chain filter _)
      fun _ => only_perform trivial)
  refine scans_step (yields_tryCatch (yields_perform (.newBloomFilter _) rfl trivial)) ?_
  refine scans_step (yields_runIf (yields_perform .subscribeToNewTransactions rfl trivial)) ?_
  refine scans_step (yields_resolveFromBlockHash hc hstart hfrom) ?_
  refine scans_step hblock ?_
  refine scans_step (yields_issue hc.getBestBlockHeight trivial) ?_
  rw [← List.append_nil (chain.items _ _)]
  refine scans_bind hscan ?_
  exact scans_step (yields_perform .emitHistoricalDataSent rfl trivial) hend

end

/-! ### A small chain -/

/-- Five blocks, the first and the last two of which match. -/
def smallChain : FixedChain where
  best := 4
  blockHash h := [UInt8.ofNat (h + 1)]
  matching h := h == 0 || decide (3 ≤ h)
  rawMerkleBlock h := [UInt8.ofNat (h + 1)]
  merkleBlock h := ⟨⟨[UInt8.ofNat (h + 1)]⟩, none⟩
  transactions _ := []

/-- Its merkle blocks are parsed; they match no transactions. -/
def smallLib : DashcoreLib ExactFilter where
  newBloomFilter message := .ok ⟨[], message.nFlags⟩
  newMerkleBlock raw := .ok ⟨⟨raw⟩, none⟩
  getMatchedTransactionHashes _ := []
  newTransaction _ := .error "Invalid Argument"

/-- The height of a block of the small chain. -/
def smallHeight (blockHash : Hash) : ℕ := (blockHash.headD 1).toNat - 1

/-- The answers of the small chain. -/
def smallAnswer : (r : CoreRequest) → Except Failure r.Answer
  | .getBlockHash h =>
    if h ≤ 4 then .ok (smallChain.blockHash h)
    else .error (.rejection (-8) "Block height out of range")
  | .getBlock blockHash => .ok (⟨smallHeight blockHash, 1⟩ : BlockInfo)
  | .getBestBlockHeight => .ok (4 : ℕ)
  | .getMerkleBlocks _ blockHash n =>
    .ok ((smallChain.matchingHeights (smallHeight blockHash) n.toNat).map
      smallChain.rawMerkleBlock)
  | .getRawTransactions _ => .ok ([] : List Buffer)
  | .getRawMemPool => .ok ([] : List Hash)
  | .getRawTransaction _ => .error (.rejection (-5) "No information available")
  | .acknowledgement => .ok ()
  | .wait _ => .ok ()

/-- The small chain answers as a chain should. -/
theorem smallChain_answeredBy : smallChain.AnsweredBy smallLib [] smallAnswer where
  getBlockHash h hh := if_pos hh
  getBlock h hh := by
    refine ⟨1, by decide, ?_⟩
    have hsmall : h ≤ 4 := hh
    interval_cases h <;> rfl
  getBestBlockHeight := rfl
  getMerkleBlocks h n hle _ _ := by
    have hsmall : h ≤ 4 := by
      have hle' : h + n ≤ 4 + 1 := hle
      omega
    have hheight : smallHeight (smallChain.blockHash h) = h := by
      interval_cases h <;> rfl
    show Except.ok ((smallChain.matchingHeights (smallHeight (smallChain.blockHash h))
      (n : ℤ).toNat).map smallChain.rawMerkleBlock) = _
    rw [hheight, Int.toNat_natCast]
    rfl
  newMerkleBlock h := rfl
  getRawTransactions h := ⟨[], rfl, rfl⟩
  acknowledgement := rfl
  wait ms := rfl

/-- From height 1 on, two blocks are asked for and none of them matches; four blocks give the
matching ones at heights 3 and 4. -/
theorem historical_scan_exact_smallChain :
    Scans smallChain [] smallAnswer
        (subscribeToTransactionsWithProofsHandler smallLib ⟨⟨[], 0, 0, 0⟩, [2], 0, 2⟩) [] ∧
      Scans smallChain [] smallAnswer
        (subscribeToTransactionsWithProofsHandler smallLib ⟨⟨[], 0, 0, 0⟩, [], 1, 0⟩)
        [⟨⟨⟨[4]⟩, none⟩, [], 0⟩, ⟨⟨⟨[5]⟩, none⟩, [], 1⟩] :=
  ⟨historical_scan_exact smallChain_answeredBy ⟨⟨[], 0, 0, 0⟩, [2], 0, 2⟩ 1
      (Or.inl ⟨by decide, rfl⟩) (by decide),
    historical_scan_exact smallChain_answeredBy ⟨⟨[], 0, 0, 0⟩, [], 1, 0⟩ 1
      (Or.inr ⟨rfl, rfl, by decide⟩) (by decide)⟩

end Dapi
