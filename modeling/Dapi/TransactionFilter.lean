/-
# `testTransactionAgainstFilter`: BIP37 transaction filtering

`src/lib/transactionsFilter/testTransactionAgainstFilter.js`.  A transaction
matches a filter by its hash, by a data push of an output script, by a spent
outpoint or by a data push of an input script, tried in this order; on a
matching output the outpoint may be inserted into the filter.

The outputs are searched with `Array.prototype.find`, so the search, and with
it the insertion, ends at the first matching output; and the outputs are not
looked at when the hash matches.  A search that reaches an output without a
script, or reads an input script that does not parse, raises.

`testTransactionAgainstFilter_eq` says what a call does to a transaction whose
output scripts parse, `firstMatch` being the output at which the search stops.
From it:

* `contains_updated_iff`: what the filter contains after the call;
* `spends_followed_iff`: exactly when every spend of a matched output is matched
  afterwards.
-/
import Dapi.CoreTypes

namespace Dapi

open BloomFilter

/-- The exceptions of the call: a property of a `null` script is read, or the getter of an input
script raises. -/
inductive ScriptError
  | nullScript
  | invalidBuffer (e : InvalidBuffer)
  deriving DecidableEq

variable {F : Type} [BloomFilter F]

/-! ## The code -/

/-- `indexBuffer.writeUInt32LE(inputIndex, 0)` -/
def writeUInt32LE (index : UInt32) : Buffer :=
  [index.toUInt8, (index >>> 8).toUInt8, (index >>> 16).toUInt8, (index >>> 24).toUInt8]

/-- The outpoint of an output: the transaction hash and the index of the output. -/
def inputIndexToBuffer (transactionHash : Buffer) (inputIndex : UInt32) : Buffer :=
  transactionHash ++ writeUInt32LE inputIndex

/-- Whether a chunk is a data push that the filter contains. -/
def chunkMatches (filter : F) (chunk : Chunk) : Bool :=
  match chunk.buf with
  | none => false
  | some buf => if chunk.opcodenum = 0 then false else contains filter buf

/-- Whether a script is there and has such a chunk. -/
def filterContainsScript (filter : F) (script : Option Script) : Bool :=
  match script with
  | none => false
  | some script => script.chunks.any (chunkMatches filter)

/-- Whether the flags ask to insert the outpoint of a matching output with this script. -/
def isFilterUpdateNeeded (filter : F) (script : Script) : Bool :=
  decide (nFlags filter = BLOOM_UPDATE_ALL) ||
    (decide (nFlags filter = BLOOM_UPDATE_P2PUBKEY_ONLY) &&
      (script.isPublicKeyOut || script.isMultisigOut))

/-- The callback of `transaction.outputs.find`, run over the outputs with their indices. -/
def findOutput (filter : F) (hash : Hash) : List (Output × ℕ) → Except ScriptError Bool × F
  | [] => (.ok false, filter)
  | (output, index) :: rest =>
    let isMatchFound := filterContainsScript filter output.script
    match output.script with
    -- `output.script.isPublicKeyOut()` on a script that did not parse
    | none => (.error .nullScript, filter)
    | some script =>
      if isMatchFound then
        if isFilterUpdateNeeded filter script then
          (.ok true, insert filter (inputIndexToBuffer hash (UInt32.ofNat index)))
        else (.ok true, filter)
      else findOutput filter hash rest

/-- Whether an output matches, and the filter after the search. -/
def checkOutputs (filter : F) (transaction : Transaction) : Except ScriptError Bool × F :=
  match transaction.outputs with
  | none => (.ok false, filter)
  | some outputs => findOutput filter transaction.hash outputs.zipIdx

/-- Whether the filter contains the outpoint that the input spends. -/
def containsPreviousOutput (filter : F) (input : Input) : Bool :=
  match input.prevTxId with
  | none => false
  | some prevTxId => contains filter (inputIndexToBuffer prevTxId input.outputIndex)

/-- The callback of `transaction.inputs.find`.  The script is not read when the outpoint is
contained. -/
def inputMatches (filter : F) (input : Input) : Except ScriptError Bool :=
  if containsPreviousOutput filter input then .ok true
  else
    match input.script with
    | .error e => .error (.invalidBuffer e)
    | .ok script => .ok (filterContainsScript filter script)

/-- The search among the inputs ends at the first one that matches or raises. -/
def findInput (filter : F) : List Input → Except ScriptError Bool
  | [] => .ok false
  | input :: rest =>
    match inputMatches filter input with
    | .ok false => findInput filter rest
    | r => r

/-- Whether an input matches. -/
def checkInputs (filter : F) (transaction : Transaction) : Except ScriptError Bool :=
  match transaction.inputs with
  | none => .ok false
  | some inputs => findInput filter inputs

/-- Whether the filter contains the hash of the transaction. -/
def checkHash (filter : F) (transaction : Transaction) : Bool :=
  contains filter transaction.hash

/-- The verdict on a transaction, and the filter afterwards. -/
def testTransactionAgainstFilter (filter : F) (data : Transaction) :
    Except ScriptError Bool × F :=
  if checkHash filter data then (.ok true, filter)
  else
    match checkOutputs filter data with
    | (.ok false, filter') => (checkInputs filter' data, filter')
    | r => r

/-! ## What a call does -/

/-- The outputs of a transaction with their indices. -/
def Transaction.indexedOutputs (tx : Transaction) : List (Output × ℕ) :=
  (tx.outputs.getD []).zipIdx

/-- The output at which the search stops. -/
def firstMatch (filter : F) (tx : Transaction) : Option (Output × ℕ) :=
  tx.indexedOutputs.find? (fun o => filterContainsScript filter o.1.script)

/-- Whether the flags ask to insert the outpoint of this output, should it match. -/
def outputFollowed (filter : F) (output : Output) : Bool :=
  match output.script with
  | none => false
  | some script => isFilterUpdateNeeded filter script

/-- The filter after a match at an output. -/
def updateOnMatch (filter : F) (hash : Hash) (o : Output × ℕ) : F :=
  if outputFollowed filter o.1 then insert filter (inputIndexToBuffer hash (UInt32.ofNat o.2))
  else filter

/-- The search among outputs that have scripts. -/
theorem findOutput_eq (filter : F) (hash : Hash) (os : List (Output × ℕ))
    (hparse : ∀ o ∈ os, o.1.script ≠ none) :
    findOutput filter hash os =
      match os.find? (fun o => filterContainsScript filter o.1.script) with
      | none => (.ok false, filter)
      | some o => (.ok true, updateOnMatch filter hash o) := by
  induction os with
  | nil => rfl
  | cons o os ih =>
      obtain ⟨output, index⟩ := o
      have hscript : output.script ≠ none := hparse _ List.mem_cons_self
      obtain ⟨script, hs⟩ := Option.ne_none_iff_exists'.mp hscript
      rw [findOutput, List.find?_cons]
      simp only [hs]
      by_cases hm : filterContainsScript filter (some script)
      · rw [if_pos hm]
        simp only [hm, updateOnMatch, outputFollowed, hs]
        split_ifs <;> rfl
      · rw [if_neg hm, ih (fun o ho => hparse o (List.mem_cons_of_mem _ ho))]
        simp only [hm]

/-- The search among the outputs of a transaction. -/
theorem checkOutputs_eq (filter : F) (tx : Transaction) (hparse : tx.OutputsParse) :
    checkOutputs filter tx =
      match firstMatch filter tx with
      | none => (.ok false, filter)
      | some o => (.ok true, updateOnMatch filter tx.hash o) := by
  rw [checkOutputs, firstMatch, Transaction.indexedOutputs]
  cases houts : tx.outputs with
  | none => rfl
  | some outputs =>
      apply findOutput_eq
      rintro ⟨output, index⟩ ho
      exact hparse outputs houts output (List.fst_mem_of_mem_zipIdx ho)

/-- **What a call does** to a transaction whose output scripts parse. -/
theorem testTransactionAgainstFilter_eq (filter : F) (tx : Transaction)
    (hparse : tx.OutputsParse) :
    testTransactionAgainstFilter filter tx =
      if contains filter tx.hash then (.ok true, filter)
      else
        match firstMatch filter tx with
        | none => (checkInputs filter tx, filter)
        | some o => (.ok true, updateOnMatch filter tx.hash o) := by
  rw [testTransactionAgainstFilter, checkHash, checkOutputs_eq filter tx hparse]
  split_ifs
  · rfl
  · cases firstMatch filter tx <;> rfl

/-- Whether an input matches whose script parses: by the outpoint or by the script. -/
def isMatchedInput (filter : F) (input : Input) : Bool :=
  containsPreviousOutput filter input ||
    match input.script with
    | .error _ => false
    | .ok script => filterContainsScript filter script

/-- An input whose script parses raises nothing. -/
theorem inputMatches_eq (filter : F) {input : Input} (h : ∃ script, input.script = .ok script) :
    inputMatches filter input = .ok (isMatchedInput filter input) := by
  obtain ⟨script, hs⟩ := h
  rw [inputMatches, isMatchedInput, hs]
  by_cases hc : containsPreviousOutput filter input = true
  · simp [hc]
  · simp [hc]

/-- The search among inputs whose scripts parse. -/
theorem findInput_eq (filter : F) (inputs : List Input)
    (hparse : ∀ input ∈ inputs, ∃ script, input.script = .ok script) :
    findInput filter inputs = .ok (inputs.any (isMatchedInput filter)) := by
  induction inputs with
  | nil => rfl
  | cons input inputs ih =>
      rw [findInput, inputMatches_eq filter (hparse input List.mem_cons_self), List.any_cons]
      cases isMatchedInput filter input with
      | true => rfl
      | false => exact ih fun input' h => hparse input' (List.mem_cons_of_mem _ h)

/-- The search among the inputs of a transaction. -/
theorem checkInputs_eq (filter : F) (tx : Transaction) (hparse : tx.InputsParse) :
    checkInputs filter tx = .ok ((tx.inputs.getD []).any (isMatchedInput filter)) := by
  unfold checkInputs
  cases hins : tx.inputs with
  | none => rfl
  | some inputs => exact findInput_eq filter inputs (hparse inputs hins)

/-- A transaction whose scripts parse raises nothing. -/
theorem verdict_ok (filter : F) (tx : Transaction) (hparse : tx.Parseable) :
    ∃ b, (testTransactionAgainstFilter filter tx).1 = .ok b := by
  rw [testTransactionAgainstFilter_eq filter tx hparse.outputs]
  split_ifs
  · exact ⟨true, rfl⟩
  · cases firstMatch filter tx with
    | none => exact ⟨_, checkInputs_eq filter tx hparse.inputs⟩
    | some o => exact ⟨true, rfl⟩

/-- A transaction that has an input spending a contained outpoint matches. -/
theorem verdict_of_contains_outpoint {filter : F} {tx : Transaction} (hparse : tx.Parseable)
    {inputs : List Input} {input : Input} {prevTxId : Buffer} (hins : tx.inputs = some inputs)
    (hin : input ∈ inputs) (hprev : input.prevTxId = some prevTxId)
    (hc : contains filter (inputIndexToBuffer prevTxId input.outputIndex) = true) :
    (testTransactionAgainstFilter filter tx).1 = .ok true := by
  have hmatched : isMatchedInput filter input = true := by
    simp [isMatchedInput, containsPreviousOutput, hprev, hc]
  have hcheck : checkInputs filter tx = .ok true := by
    rw [checkInputs_eq filter tx hparse.inputs, hins]
    exact congrArg Except.ok (List.any_eq_true.mpr ⟨input, hin, hmatched⟩)
  rw [testTransactionAgainstFilter_eq filter tx hparse.outputs]
  split_ifs
  · rfl
  · cases firstMatch filter tx with
    | none => exact hcheck
    | some o => rfl

/-! ## Spends of matched outputs -/

/-- The transaction has an input that spends output `index` of the transaction `hash`. -/
def Transaction.Spends (tx : Transaction) (hash : Hash) (index : ℕ) : Prop :=
  ∃ inputs, tx.inputs = some inputs ∧
    ∃ input ∈ inputs, input.prevTxId = some hash ∧ input.outputIndex = UInt32.ofNat index

/-- The element `d` is contained after `tx` was tested, said of the filter before the call: it
was contained, or inserting the outpoint of the first matching output makes it so, which
happens when the hash did not match and the flags ask for it at that output. -/
def ContainedAfter (filter : F) (tx : Transaction) (d : Buffer) : Prop :=
  contains filter d = true ∨
    (contains filter tx.hash = false ∧ ∃ o, firstMatch filter tx = some o ∧
      outputFollowed filter o.1 = true ∧
      contains (insert filter (inputIndexToBuffer tx.hash (UInt32.ofNat o.2))) d = true)

/-- **What the filter contains after a call.** -/
theorem contains_updated_iff [LawfulBloomFilter F] (filter : F) (tx : Transaction)
    (hparse : tx.OutputsParse) (d : Buffer) :
    contains (testTransactionAgainstFilter filter tx).2 d = true ↔
      ContainedAfter filter tx d := by
  rw [testTransactionAgainstFilter_eq filter tx hparse, ContainedAfter]
  by_cases hh : contains filter tx.hash = true
  · simp [hh]
  · rw [if_neg hh]
    cases hm : firstMatch filter tx with
    | none => simp
    | some o =>
        simp only [updateOnMatch, hh, Option.some.injEq, exists_eq_left']
        by_cases hf : outputFollowed filter o.1 = true
        · rw [if_pos hf]
          have hmono := LawfulBloomFilter.contains_insert_of_contains filter
            (inputIndexToBuffer tx.hash (UInt32.ofNat o.2)) d
          simp only [hf, true_and]
          tauto
        · rw [if_neg hf]
          simp [hf]

/-- The smallest transaction that spends an outpoint; its input is not signed. -/
def bareSpend (txHash hash : Hash) (index : ℕ) : Transaction where
  hash := txHash
  inputs := some [⟨some hash, UInt32.ofNat index, .ok (some ⟨[], false, false⟩)⟩]
  outputs := some []

/-- Its scripts parse. -/
theorem bareSpend_parseable (txHash hash : Hash) (index : ℕ) :
    (bareSpend txHash hash index).Parseable := by
  constructor
  · intro outputs houts output ho
    obtain rfl : outputs = [] := by simpa [bareSpend] using houts.symm
    simp at ho
  · intro inputs hins input hi
    obtain rfl := Option.some.inj hins
    obtain rfl := List.mem_singleton.mp hi
    exact ⟨_, rfl⟩

/-- It spends the outpoint. -/
theorem bareSpend_spends (txHash hash : Hash) (index : ℕ) :
    (bareSpend txHash hash index).Spends hash index :=
  ⟨_, rfl, _, List.mem_singleton_self _, rfl, rfl⟩

/-- Such a transaction matches by its hash or by the outpoint, by nothing else. -/
theorem bareSpend_verdict (filter : F) (txHash hash : Hash) (index : ℕ) :
    (testTransactionAgainstFilter filter (bareSpend txHash hash index)).1 =
      .ok (contains filter txHash ||
        contains filter (inputIndexToBuffer hash (UInt32.ofNat index))) := by
  have hparse := bareSpend_parseable txHash hash index
  rw [testTransactionAgainstFilter_eq filter _ hparse.outputs,
    checkInputs_eq filter _ hparse.inputs]
  by_cases hh : contains filter txHash = true
  · simp [bareSpend, hh]
  · rw [Bool.not_eq_true] at hh
    simp [bareSpend, hh, firstMatch, Transaction.indexedOutputs, isMatchedInput,
      containsPreviousOutput, filterContainsScript]

/-- Every spend of a matched output of `tx`, at which the flags ask for an update, is matched
once `tx` was tested. -/
def SpendsFollowed (filter : F) (tx : Transaction) : Prop :=
  ∀ o ∈ tx.indexedOutputs, filterContainsScript filter o.1.script = true →
    outputFollowed filter o.1 = true →
    ∀ tx' : Transaction, tx'.Parseable → tx'.Spends tx.hash o.2 →
      (testTransactionAgainstFilter (testTransactionAgainstFilter filter tx).2 tx').1 = .ok true

/-- **Spends of matched outputs are followed exactly when** each of these outpoints is contained
after the call, which is certain only of the output at which the search stops, and only when
the hash did not match (or when the filter matches every hash there is). -/
theorem spends_followed_iff [LawfulBloomFilter F] (filter : F) (tx : Transaction)
    (hparse : tx.OutputsParse) :
    SpendsFollowed filter tx ↔
      (∀ o ∈ tx.indexedOutputs, filterContainsScript filter o.1.script = true →
        outputFollowed filter o.1 = true →
        ContainedAfter filter tx (inputIndexToBuffer tx.hash (UInt32.ofNat o.2))) ∨
      ∀ hash : Hash, ContainedAfter filter tx hash := by
  constructor
  · intro h
    by_contra hno
    push Not at hno
    obtain ⟨⟨o, ho, hm, hf, hout⟩, hash, hhash⟩ := hno
    -- the bare spend with a hash outside the filter is missed
    have hverdict := h o ho hm hf (bareSpend hash tx.hash o.2)
      (bareSpend_parseable _ _ _) (bareSpend_spends _ _ _)
    rw [bareSpend_verdict] at hverdict
    rw [← contains_updated_iff filter tx hparse, Bool.not_eq_true] at hout hhash
    rw [hout, hhash] at hverdict
    simp at hverdict
  · rintro (h | h) o ho hm hf tx' hparse' ⟨inputs, hins, input, hin, hprev, hindex⟩
    · have hc := (contains_updated_iff filter tx hparse _).mpr (h o ho hm hf)
      exact verdict_of_contains_outpoint hparse' hins hin hprev (by rw [hindex]; exact hc)
    · have hc := (contains_updated_iff filter tx hparse _).mpr (h tx'.hash)
      rw [testTransactionAgainstFilter_eq _ tx' hparse'.outputs, if_pos hc]

/-- A script that pushes one piece of data. -/
def pushScript (d : Buffer) : Script := ⟨[⟨d.length, some d⟩], false, false⟩

/-- A transaction without inputs whose outputs push the given data. -/
def payment (hash : Hash) (pushes : List Buffer) : Transaction where
  hash := hash
  inputs := some []
  outputs := some (pushes.map fun d => ⟨some (pushScript d)⟩)

/-- Its scripts parse. -/
theorem payment_parseable (hash : Hash) (pushes : List Buffer) :
    (payment hash pushes).Parseable := by
  constructor
  · intro outputs houts output ho
    obtain rfl : pushes.map (fun d => (⟨some (pushScript d)⟩ : Output)) = outputs := by
      simpa [payment] using houts
    obtain ⟨d, -, rfl⟩ := List.mem_map.mp ho
    simp
  · intro inputs hins input hi
    obtain rfl := Option.some.inj hins
    cases hi

/-- With one matching output and a hash that does not match, the spends are followed. -/
theorem spends_followed_payment :
    SpendsFollowed (⟨[[1]], BLOOM_UPDATE_ALL⟩ : ExactFilter) (payment [9] [[2], [1]]) := by
  refine (spends_followed_iff _ _ (payment_parseable _ _).outputs).mpr (Or.inl ?_)
  intro o ho hm _
  have hmem : o = (⟨some (pushScript [2])⟩, 0) ∨ o = (⟨some (pushScript [1])⟩, 1) := by
    simpa [Transaction.indexedOutputs, payment] using ho
  rcases hmem with rfl | rfl
  · exact absurd hm (by decide)
  · exact Or.inr ⟨by decide, _, rfl, by decide, by decide⟩

/-- With two matching outputs the spends of the second one are missed. -/
theorem not_spends_followed_second_output :
    nFlags (⟨[[1]], BLOOM_UPDATE_ALL⟩ : ExactFilter) = BLOOM_UPDATE_ALL ∧
      (payment [9] [[1], [1]]).Parseable ∧
      ¬ SpendsFollowed (⟨[[1]], BLOOM_UPDATE_ALL⟩ : ExactFilter) (payment [9] [[1], [1]]) := by
  refine ⟨rfl, payment_parseable _ _, fun h => ?_⟩
  have hmiss := h (⟨some (pushScript [1])⟩, 1) (by decide) (by decide) (by decide)
    (bareSpend [8] [9] 1) (bareSpend_parseable _ _ _) (bareSpend_spends _ _ _)
  exact absurd hmiss (by decide)

end Dapi
