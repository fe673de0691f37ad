/-
# The verdict of the filter

`src/lib/transactionsFilter/testTransactionAgainstFilter.js` searches a transaction in
nested loops that end early, and may insert an outpoint into the filter in the middle of
the search.

* `Bip37` is what BIP37 asks of a transaction, said of the filter before the call.
* `verdict_iff_bip37`: it is the verdict of the call, and the filter afterwards is the
  old one, or the old one with the outpoint of the first matching output.
* `matches_forever`: along any sequence of calls the filter only grows, so that a
  transaction that matched goes on matching.
-/
import Dapi.FilterHandover

namespace Dapi

open BloomFilter

variable {F : Type} [BloomFilter F]

/-! ## The predicate of BIP37 -/

/-- A number in `k` bytes, the lowest one first. -/
def littleEndian : ℕ → ℕ → Buffer
  | 0, _ => []
  | k + 1, n => UInt8.ofNat n :: littleEndian k (n / 256)

/-- The outpoint of an output: the hash of its transaction, and its index in four bytes. -/
def outpoint (hash : Buffer) (index : ℕ) : Buffer := hash ++ littleEndian 4 index

/-- The script is there and has a data push, other than `OP_0`, that the filter contains. -/
def ScriptContained (filter : F) (script : Option Script) : Prop :=
  ∃ s, script = some s ∧ ∃ chunk ∈ s.chunks, chunk.opcodenum ≠ 0 ∧
    ∃ buf, chunk.buf = some buf ∧ contains filter buf = true

/-- The input names the outpoint that it spends, and the filter contains it. -/
def SpendContained (filter : F) (input : Input) : Prop :=
  ∃ prevTxId, input.prevTxId = some prevTxId ∧
    contains filter (outpoint prevTxId input.outputIndex.toNat) = true

/-- The input is contained: the outpoint that it spends, or a data push of its script. -/
def InputContained (filter : F) (input : Input) : Prop :=
  SpendContained filter input ∨
    ∃ script, input.script = .ok script ∧ ScriptContained filter script

/-- **The predicate of BIP37.** -/
def Bip37 (filter : F) (tx : Transaction) : Prop :=
  contains filter tx.hash = true ∨
    (∃ outputs, tx.outputs = some outputs ∧
      ∃ output ∈ outputs, ScriptContained filter output.script) ∨
    ∃ inputs, tx.inputs = some inputs ∧ ∃ input ∈ inputs, InputContained filter input

/-- The output is the first one of the transaction that matches, and stands at the index. -/
def FirstMatching (filter : F) (tx : Transaction) (index : ℕ) (output : Output) : Prop :=
  ∃ outputs, tx.outputs = some outputs ∧ outputs[index]? = some output ∧
    ScriptContained filter output.script ∧
    ∀ j < index, ∀ earlier, outputs[j]? = some earlier → ¬ ScriptContained filter earlier.script

/-- The flags ask for the outpoint of a matching output: of every one, or of those that pay to
public keys. -/
def FlagsAsk (filter : F) (output : Output) : Prop :=
  nFlags filter = BLOOM_UPDATE_ALL ∨
    (nFlags filter = BLOOM_UPDATE_P2PUBKEY_ONLY ∧
      ∃ script, output.script = some script ∧
        (script.isPublicKeyOut = true ∨ script.isMultisigOut = true))

/-! ## What the code computes of it -/

/-- The code writes the index byte by byte. -/
theorem writeUInt32LE_eq (index : UInt32) : writeUInt32LE index = littleEndian 4 index.toNat := by
  simp only [writeUInt32LE, littleEndian, List.cons.injEq, and_true]
  refine ⟨?_, ?_, ?_, ?_⟩
  · apply UInt8.toNat_inj.mp
    simp
  · apply UInt8.toNat_inj.mp
    simp [Nat.shiftRight_eq_div_pow]
  · apply UInt8.toNat_inj.mp
    simp [Nat.shiftRight_eq_div_pow, Nat.div_div_eq_div_mul]
  · apply UInt8.toNat_inj.mp
    simp [Nat.shiftRight_eq_div_pow, Nat.div_div_eq_div_mul]

/-- Only the low bytes are written. -/
theorem littleEndian_mod (k n : ℕ) : littleEndian k (n % 256 ^ k) = littleEndian k n := by
  induction k generalizing n with
  | zero => rfl
  | succ k ih =>
      -- the lowest byte, and the rest by induction
      have hlow : UInt8.ofNat (n % 256 ^ (k + 1)) = UInt8.ofNat n := by
        apply UInt8.toNat_inj.mp
        rw [UInt8.toNat_ofNat', UInt8.toNat_ofNat']
        exact Nat.mod_mod_of_dvd n (dvd_pow_self 256 (Nat.succ_ne_zero k))
      have hhigh : n % 256 ^ (k + 1) / 256 = n / 256 % 256 ^ k := by
        rw [pow_succ, mul_comm, Nat.mod_mul_right_div_self]
      rw [littleEndian, littleEndian, hlow, hhigh, ih]

/-- The code builds the outpoint. -/
theorem inputIndexToBuffer_eq (hash : Buffer) (index : ℕ) :
    inputIndexToBuffer hash (UInt32.ofNat index) = outpoint hash index := by
  rw [inputIndexToBuffer, writeUInt32LE_eq, UInt32.toNat_ofNat']
  exact congrArg (hash ++ ·) (littleEndian_mod 4 index)

/-- The code looks for a data push that is contained. -/
theorem filterContainsScript_iff (filter : F) (script : Option Script) :
    filterContainsScript filter script = true ↔ ScriptContained filter script := by
  cases script with
  | none => simp [filterContainsScript, ScriptContained]
  | some s =>
      have hchunk : ∀ chunk : Chunk, chunkMatches filter chunk = true ↔
          chunk.opcodenum ≠ 0 ∧ ∃ buf, chunk.buf = some buf ∧ contains filter buf = true := by
        rintro ⟨opcodenum, _ | buf⟩
        · simp [chunkMatches]
        · by_cases h : opcodenum = 0 <;> simp [chunkMatches, h]
      simp [filterContainsScript, ScriptContained, List.any_eq_true, hchunk]

/-- The outpoint of an input is looked up as BIP37 spells it. -/
theorem containsPreviousOutput_iff (filter : F) (input : Input) :
    containsPreviousOutput filter input = true ↔ SpendContained filter input := by
  unfold containsPreviousOutput SpendContained
  cases input.prevTxId with
  | none => simp
  | some prevTxId => simp [inputIndexToBuffer, outpoint, writeUInt32LE_eq]

/-- The search among the inputs stops at those that are contained. -/
theorem isMatchedInput_iff (filter : F) (input : Input) :
    isMatchedInput filter input = true ↔ InputContained filter input := by
  rw [isMatchedInput, Bool.or_eq_true, containsPreviousOutput_iff]
  refine or_congr_right ?_
  cases input.script with
  | error e => simp
  | ok script => simp [filterContainsScript_iff]

/-- The answer of the search among the inputs. -/
theorem checkInputs_iff (filter : F) (tx : Transaction) (hparse : tx.InputsParse) :
    ∃ verdict, checkInputs filter tx = .ok verdict ∧
      (verdict = true ↔ ∃ inputs, tx.inputs = some inputs ∧
        ∃ input ∈ inputs, InputContained filter input) := by
  refine ⟨_, checkInputs_eq filter tx hparse, ?_⟩
  cases tx.inputs with
  | none => simp
  | some inputs => simp [List.any_eq_true, isMatchedInput_iff]

/-- The search among the outputs stops at the first matching one. -/
theorem firstMatch_eq_some_iff (filter : F) (tx : Transaction) (index : ℕ) (output : Output) :
    firstMatch filter tx = some (output, index) ↔ FirstMatching filter tx index output := by
  rw [firstMatch, Transaction.indexedOutputs, List.find?_eq_some_iff_getElem,
    filterContainsScript_iff, FirstMatching]
  cases tx.outputs with
  | none => simp
  | some outputs =>
      simp only [Option.getD_some, Option.some.injEq, exists_eq_left']
      constructor
      · rintro ⟨hm, i, hi, heq, hfirst⟩
        rw [List.length_zipIdx] at hi
        rw [List.getElem_zipIdx, Prod.mk.injEq, zero_add] at heq
        obtain ⟨rfl, rfl⟩ := heq
        refine ⟨List.getElem?_eq_getElem hi, hm, fun j hj earlier hearlier hmatch => ?_⟩
        obtain ⟨hjlt, rfl⟩ := List.getElem?_eq_some_iff.mp hearlier
        -- every earlier output was tested and did not match
        have hnot := hfirst j hj
        rw [List.getElem_zipIdx, (filterContainsScript_iff filter _).mpr hmatch] at hnot
        cases hnot
      · rintro ⟨hget, hm, hfirst⟩
        obtain ⟨hi, rfl⟩ := List.getElem?_eq_some_iff.mp hget
        refine ⟨hm, index, by rwa [List.length_zipIdx], by simp, fun j hj => ?_⟩
        have hnot := hfirst j hj _ (List.getElem?_eq_getElem (hj.trans hi))
        rw [← filterContainsScript_iff, Bool.not_eq_true] at hnot
        simp [hnot]

/-- The search among the outputs stops when one of them matches. -/
theorem exists_firstMatch_iff (filter : F) (tx : Transaction) :
    (∃ o, firstMatch filter tx = some o) ↔ ∃ outputs, tx.outputs = some outputs ∧
      ∃ output ∈ outputs, ScriptContained filter output.script := by
  rw [← Option.isSome_iff_exists, firstMatch, List.find?_isSome, Transaction.indexedOutputs]
  cases tx.outputs with
  | none => simp
  | some outputs =>
      simp only [Option.getD_some, Option.some.injEq, exists_eq_left', filterContainsScript_iff]
      constructor
      · rintro ⟨⟨output, index⟩, hmem, hm⟩
        exact ⟨output, List.fst_mem_of_mem_zipIdx hmem, hm⟩
      · rintro ⟨output, hmem, hm⟩
        obtain ⟨index, hi, rfl⟩ := List.getElem_of_mem hmem
        exact ⟨(outputs[index], index), List.mk_mem_zipIdx_iff_getElem?.mpr
          (List.getElem?_eq_getElem hi), hm⟩

/-- The code asks the flags. -/
theorem outputFollowed_iff (filter : F) {output : Output} (hscript : output.script ≠ none) :
    outputFollowed filter output = true ↔ FlagsAsk filter output := by
  obtain ⟨script, hs⟩ := Option.ne_none_iff_exists'.mp hscript
  simp [outputFollowed, isFilterUpdateNeeded, FlagsAsk, hs]

/-! ## One call -/

/-- **The verdict is the predicate of BIP37 on the filter before the call**, and the call inserts
the outpoint of the first matching output when the hash did not match and the flags ask for it;
otherwise it leaves the filter as it was. -/
theorem verdict_iff_bip37 (filter : F) (tx : Transaction) (hparse : tx.Parseable) :
    (∃ verdict, (testTransactionAgainstFilter filter tx).1 = .ok verdict ∧
        (verdict = true ↔ Bip37 filter tx)) ∧
      (∀ index output, contains filter tx.hash = false → FirstMatching filter tx index output →
        FlagsAsk filter output →
          (testTransactionAgainstFilter filter tx).2 = insert filter (outpoint tx.hash index)) ∧
      ((¬ ∃ index output, contains filter tx.hash = false ∧
          FirstMatching filter tx index output ∧ FlagsAsk filter output) →
        (testTransactionAgainstFilter filter tx).2 = filter) := by
  rw [testTransactionAgainstFilter_eq filter tx hparse.outputs]
  by_cases hh : contains filter tx.hash = true
  · rw [if_pos hh]
    refine ⟨⟨true, rfl, fun _ => Or.inl hh, fun _ => rfl⟩, fun _ _ hnot => ?_, fun _ => rfl⟩
    rw [hh] at hnot
    cases hnot
  · rw [if_neg hh]
    rw [Bool.not_eq_true] at hh
    cases hfirst : firstMatch filter tx with
    | none =>
        -- the loop over the outputs ends without a match, and the inputs decide
        have hnone : ∀ index output, ¬ FirstMatching filter tx index output := by
          intro index output hm
          rw [← firstMatch_eq_some_iff, hfirst] at hm
          cases hm
        have hout := (exists_firstMatch_iff filter tx).not.mp (by simp [hfirst])
        obtain ⟨verdict, hcheck, hiff⟩ := checkInputs_iff filter tx hparse.inputs
        refine ⟨⟨verdict, hcheck, ?_⟩, fun index output _ hm => absurd hm (hnone index output),
          fun _ => rfl⟩
        rw [hiff, Bip37, or_iff_right (by simp [hh]), or_iff_right hout]
    | some o =>
        obtain ⟨output, index⟩ := o
        -- the loop ends at the first match, and the inputs are not looked at
        have hm := (firstMatch_eq_some_iff filter tx index output).mp hfirst
        have hscript : output.script ≠ none := by
          obtain ⟨-, -, -, ⟨script, hs, -⟩, -⟩ := hm
          rw [hs]
          exact Option.some_ne_none script
        have hask := outputFollowed_iff filter hscript
        refine ⟨⟨true, rfl, fun _ => ?_, fun _ => rfl⟩, ?_, fun hno => ?_⟩
        · exact Or.inr (Or.inl ((exists_firstMatch_iff filter tx).mp ⟨_, hfirst⟩))
        · rintro index' output' - hm' hflags
          rw [← firstMatch_eq_some_iff, hfirst, Option.some.injEq, Prod.mk.injEq] at hm'
          obtain ⟨rfl, rfl⟩ := hm'
          exact (if_pos (hask.mpr hflags)).trans (by rw [inputIndexToBuffer_eq])
        · exact if_neg fun hf => hno ⟨index, output, hh, hm, hask.mp hf⟩

/-- A payment to the pushed data matches, and its outpoint is inserted. -/
theorem verdict_iff_bip37_payment :
    Bip37 (⟨[[1]], BLOOM_UPDATE_ALL⟩ : ExactFilter) (payment [9] [[2], [1]]) ∧
      (testTransactionAgainstFilter (⟨[[1]], BLOOM_UPDATE_ALL⟩ : ExactFilter)
        (payment [9] [[2], [1]])).2 = ⟨[[1], outpoint [9] 1], BLOOM_UPDATE_ALL⟩ := by
  obtain ⟨⟨verdict, hverdict, hiff⟩, hinsert, -⟩ := verdict_iff_bip37
    (⟨[[1]], BLOOM_UPDATE_ALL⟩ : ExactFilter) (payment [9] [[2], [1]]) (payment_parseable _ _)
  constructor
  · apply hiff.mp
    have htrue : (testTransactionAgainstFilter (⟨[[1]], BLOOM_UPDATE_ALL⟩ : ExactFilter)
        (payment [9] [[2], [1]])).1 = .ok true := by decide
    exact Except.ok.inj (hverdict.symm.trans htrue)
  · exact hinsert 1 ⟨some (pushScript [1])⟩ (by decide)
      ((firstMatch_eq_some_iff _ _ _ _).mp (by decide)) (Or.inl rfl)

/-! ## Sequences of calls -/

/-- The predicate grows with what the filter contains. -/
theorem Bip37.mono {filter filter' : F} {tx : Transaction} (h : Bip37 filter tx)
    (hgrow : ∀ d, contains filter d = true → contains filter' d = true) : Bip37 filter' tx := by
  have hscript : ∀ {script}, ScriptContained filter script → ScriptContained filter' script := by
    rintro script ⟨s, hs, chunk, hchunk, hop, buf, hbuf, hc⟩
    exact ⟨s, hs, chunk, hchunk, hop, buf, hbuf, hgrow buf hc⟩
  rcases h with h | ⟨outputs, houts, output, ho, h⟩ | ⟨inputs, hins, input, hi, h⟩
  · exact Or.inl (hgrow _ h)
  · exact Or.inr (Or.inl ⟨outputs, houts, output, ho, hscript h⟩)
  · refine Or.inr (Or.inr ⟨inputs, hins, input, hi, ?_⟩)
    rcases h with ⟨prevTxId, hprev, hc⟩ | ⟨script, hs, h⟩
    · exact Or.inl ⟨prevTxId, hprev, hgrow _ hc⟩
    · exact Or.inr ⟨script, hs, hscript h⟩

/-- One test only adds to the filter, when inserting forgets nothing. -/
theorem contains_test_of_contains
    (hinsert : ∀ (filter : F) (d d' : Buffer), contains filter d' = true →
      contains (insert filter d) d' = true)
    (filter : F) (tx : Transaction) {d : Buffer} (hd : contains filter d = true) :
    contains (testTransactionAgainstFilter filter tx).2 d = true := by
  rw [testTransactionAgainstFilter_snd]
  split_ifs
  · exact hd
  · cases lastVisited filter tx with
    | none => exact hd
    | some o =>
        rw [Option.elim_some, updateOnMatch]
        split_ifs
        · exact hinsert _ _ _ hd
        · exact hd

/-- The tests of two lists, one after the other. -/
theorem filterAfter_append (filter : F) (before after : List Transaction) :
    filterAfter filter (before ++ after) = filterAfter (filterAfter filter before) after :=
  List.foldl_append

/-- Any tests only add to the filter. -/
theorem contains_filterAfter_of_contains
    (hinsert : ∀ (filter : F) (d d' : Buffer), contains filter d' = true →
      contains (insert filter d) d' = true)
    (filter : F) (txs : List Transaction) {d : Buffer} (hd : contains filter d = true) :
    contains (filterAfter filter txs) d = true := by
  induction txs using List.reverseRecOn with
  | nil => exact hd
  | append_singleton txs tx ih =>
      rw [filterAfter_snoc]
      exact contains_test_of_contains hinsert _ tx ih

/-- **A match is never lost.**  When inserting forgets nothing, any sequence of tests only adds to
what the filter contains, and a transaction that matched at some point matches at every later
one; and a filter with neither of the two flags stays the same. -/
theorem matches_forever
    (hinsert : ∀ (filter : F) (d d' : Buffer), contains filter d' = true →
      contains (insert filter d) d' = true)
    (filter : F) (before after : List Transaction) :
    (∀ d, contains (filterAfter filter before) d = true →
        contains (filterAfter filter (before ++ after)) d = true) ∧
      (∀ tx : Transaction, tx.Parseable →
        (testTransactionAgainstFilter (filterAfter filter before) tx).1 = .ok true →
          (testTransactionAgainstFilter (filterAfter filter (before ++ after)) tx).1 = .ok true) ∧
      (nFlags filter ≠ BLOOM_UPDATE_ALL → nFlags filter ≠ BLOOM_UPDATE_P2PUBKEY_ONLY →
        filterAfter filter before = filter) := by
  have hgrow : ∀ d, contains (filterAfter filter before) d = true →
      contains (filterAfter filter (before ++ after)) d = true := by
    intro d hd
    rw [filterAfter_append]
    exact contains_filterAfter_of_contains hinsert _ after hd
  refine ⟨hgrow, fun tx hparse hmatch => ?_, fun hall hkey => filterAfter_of_flags hall hkey before⟩
  obtain ⟨verdict, hverdict, hiff⟩ := (verdict_iff_bip37 (filterAfter filter before) tx hparse).1
  obtain ⟨verdict', hverdict', hiff'⟩ :=
    (verdict_iff_bip37 (filterAfter filter (before ++ after)) tx hparse).1
  obtain rfl : verdict = true := Except.ok.inj (hverdict.symm.trans hmatch)
  rw [hverdict', hiff'.mpr ((hiff.mp rfl).mono hgrow)]

/-- A spend of the payment goes on matching after more tests. -/
theorem matches_forever_spend :
    (testTransactionAgainstFilter
      (filterAfter (⟨[[1]], BLOOM_UPDATE_ALL⟩ : ExactFilter)
        ([payment [9] [[1]]] ++ [payment [8] [[1]], bareSpend [7] [8] 0]))
      (bareSpend [6] [9] 0)).1 = .ok true :=
  (matches_forever LawfulBloomFilter.contains_insert_of_contains
    (⟨[[1]], BLOOM_UPDATE_ALL⟩ : ExactFilter) [payment [9] [[1]]]
    [payment [8] [[1]], bareSpend [7] [8] 0]).2.1 (bareSpend [6] [9] 0)
      (bareSpend_parseable _ _ _) (by decide)

end Dapi
