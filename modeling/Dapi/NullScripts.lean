/-
# Scripts that do not parse

`src/lib/transactionsFilter/testTransactionAgainstFilter.js` under
`src/lib/bloomFilter/emitter/BloomFilterEmitterCollection.js`.  The script of an output is
`null` when its bytes do not parse.  `filterContainsScript` looks at such a script, but
`checkOutputs` goes on to ask it for its kind, and that raises.  The script of an input is
parsed when `checkInputs` reads it, and bytes that do not parse raise there.  The exception
ends the loop over the emitters.

* `Transaction.blanked`: the transaction with its null scripts counted as not matching.
* `Harmless`: the search reaches neither a null script nor an input script that raises.
* `undisturbed_iff`: a test of the collection goes as if the null scripts were blank exactly
  when the transaction is harmless to every filter.
-/
import Dapi.FilterVerdict
import Dapi.StreamSystem

namespace Dapi

open BloomFilter

/-! ## A search that stops at a good element, and fails at a bad one -/

section Search

variable {α : Type} {good bad : α → Prop}

/-- Every bad element of the list comes after a good one. -/
def BadAfterGood (good bad : α → Prop) (l : List α) : Prop :=
  ∀ before x after, l = before ++ x :: after → bad x → ∃ y ∈ before, good y

/-- There is no bad element in the empty list. -/
theorem badAfterGood_nil : BadAfterGood good bad [] := by
  intro before x after heq
  simp at heq

/-- The first element is not bad, and the others matter only when it is not good. -/
theorem badAfterGood_cons_iff {x : α} {l : List α} :
    BadAfterGood good bad (x :: l) ↔ ¬ bad x ∧ (good x ∨ BadAfterGood good bad l) := by
  constructor
  · intro h
    refine ⟨fun hbad => ?_, ?_⟩
    · obtain ⟨y, hmem, -⟩ := h [] x l rfl hbad
      exact absurd hmem List.not_mem_nil
    · by_cases hgood : good x
      · exact Or.inl hgood
      · refine Or.inr fun before x' after heq hbad => ?_
        obtain ⟨y, hmem, hy⟩ := h (x :: before) x' after (by rw [heq]; rfl) hbad
        rcases List.mem_cons.mp hmem with rfl | hmem
        · exact absurd hy hgood
        · exact ⟨y, hmem, hy⟩
  · rintro ⟨hx, h⟩ before x' after heq hbad
    -- either the bad element is the first one, or it comes later
    cases before with
    | nil =>
        obtain ⟨rfl, -⟩ := List.cons.inj heq
        exact absurd hbad hx
    | cons first before =>
        obtain ⟨rfl, rfl⟩ := List.cons.inj heq
        rcases h with hgood | h
        · exact ⟨x, List.mem_cons_self, hgood⟩
        · obtain ⟨y, hmem, hy⟩ := h before x' after rfl hbad
          exact ⟨y, List.mem_cons_of_mem _ hmem, hy⟩

end Search

/-! ## A test -/

/-- The output with a script that matches nothing in the place of a null script. -/
def Output.blanked (output : Output) : Output := ⟨some (output.script.getD ⟨[], false, false⟩)⟩

/-- The transaction with its null scripts counted as not matching. -/
def Transaction.blanked (tx : Transaction) : Transaction :=
  { tx with outputs := tx.outputs.map (List.map Output.blanked) }

section Filter

variable {F : Type} [BloomFilter F]

/-- Every null script comes after an output that matches. -/
def NullsAfterMatch (filter : F) (outputs : List Output) : Prop :=
  BadAfterGood (fun output => filterContainsScript filter output.script = true)
    (fun output => output.script = none) outputs

/-- Every input whose script is read and does not parse comes after an input that matches. -/
def InvalidAfterMatch (filter : F) (inputs : List Input) : Prop :=
  BadAfterGood (fun input => isMatchedInput filter input = true)
    (fun input => containsPreviousOutput filter input = false ∧ ∃ e, input.script = .error e) inputs

/-- The search reaches no script that raises: the hash matches, or every null script comes after
an output that matches, and then either there is such an output, or the same is true of the
inputs. -/
def Harmless (filter : F) (tx : Transaction) : Prop :=
  contains filter tx.hash = true ∨
    (NullsAfterMatch filter (tx.outputs.getD []) ∧
      ((∃ output ∈ tx.outputs.getD [], filterContainsScript filter output.script = true) ∨
        InvalidAfterMatch filter (tx.inputs.getD [])))

variable {filter : F} {hash : Hash} {tx : Transaction}

/-- The search among the outputs, when it reaches no null script. -/
theorem findOutput_blanked {outputs : List Output} (h : NullsAfterMatch filter outputs) (k : ℕ) :
    findOutput filter hash (outputs.zipIdx k) =
      findOutput filter hash ((outputs.map Output.blanked).zipIdx k) := by
  induction outputs generalizing k with
  | nil => rfl
  | cons output outputs ih =>
      obtain ⟨hscript, hrest⟩ := badAfterGood_cons_iff.mp h
      obtain ⟨script⟩ := output
      cases script with
      | none => exact absurd rfl hscript
      | some script =>
          rw [List.map_cons, List.zipIdx_cons, List.zipIdx_cons, findOutput, findOutput]
          by_cases hm : filterContainsScript filter (some script) = true
          · simp [Output.blanked, hm]
          · -- no match yet, and the search goes on
            have hnext := ih (hrest.resolve_left hm) (k + 1)
            simp [Output.blanked, hm, hnext]

/-- The search among the outputs, when it reaches one. -/
theorem findOutput_of_null {outputs : List Output} (h : ¬ NullsAfterMatch filter outputs) (k : ℕ) :
    (findOutput filter hash (outputs.zipIdx k)).1 = .error .nullScript := by
  induction outputs generalizing k with
  | nil => exact absurd badAfterGood_nil h
  | cons output outputs ih =>
      rw [NullsAfterMatch, badAfterGood_cons_iff] at h
      obtain ⟨script⟩ := output
      rw [List.zipIdx_cons, findOutput]
      cases script with
      | none => rfl
      | some script =>
          simp only [reduceCtorEq, not_false_eq_true, true_and, not_or] at h
          simp only [h.1]
          exact ih h.2 (k + 1)

/-- The search among the inputs raises nothing when it reaches no script that does. -/
theorem findInput_ok_iff {inputs : List Input} :
    (∃ b, findInput filter inputs = .ok b) ↔ InvalidAfterMatch filter inputs := by
  induction inputs with
  | nil => exact iff_of_true ⟨false, rfl⟩ badAfterGood_nil
  | cons input inputs ih =>
      rw [InvalidAfterMatch, badAfterGood_cons_iff, ← InvalidAfterMatch, ← ih, findInput,
        inputMatches, isMatchedInput]
      by_cases hc : containsPreviousOutput filter input = true
      · simp [hc]
      · rw [Bool.not_eq_true] at hc
        cases input.script with
        | error e => simp [hc]
        | ok script =>
            -- the script parses, and the search ends here or goes on
            cases hm : filterContainsScript filter script with
            | true => simp [hc, hm]
            | false => simp [hc, hm]

/-- **A test that meets no null script** is the one of the blanked transaction ... -/
theorem testTransactionAgainstFilter_blanked
    (h : contains filter tx.hash = true ∨ NullsAfterMatch filter (tx.outputs.getD [])) :
    testTransactionAgainstFilter filter tx = testTransactionAgainstFilter filter tx.blanked := by
  unfold testTransactionAgainstFilter checkHash
  by_cases hhash : contains filter tx.hash = true
  · rw [if_pos hhash, if_pos (show contains filter tx.blanked.hash = true from hhash)]
  · rw [if_neg hhash, if_neg (show ¬ contains filter tx.blanked.hash = true from hhash)]
    have houtputs : checkOutputs filter tx = checkOutputs filter tx.blanked := by
      have hnulls := h.resolve_left hhash
      unfold checkOutputs Transaction.blanked
      cases houts : tx.outputs with
      | none => rfl
      | some outputs =>
          rw [houts] at hnulls
          exact findOutput_blanked hnulls 0
    rw [houtputs]
    rfl

/-- ... and any other one raises. -/
theorem testTransactionAgainstFilter_of_null (hhash : ¬ contains filter tx.hash = true)
    (hnulls : ¬ NullsAfterMatch filter (tx.outputs.getD [])) :
    (testTransactionAgainstFilter filter tx).1 = .error .nullScript := by
  have houtputs : (checkOutputs filter tx).1 = .error .nullScript := by
    unfold checkOutputs
    cases houts : tx.outputs with
    | none =>
        rw [houts] at hnulls
        exact absurd badAfterGood_nil hnulls
    | some outputs =>
        rw [houts] at hnulls
        exact findOutput_of_null hnulls 0
  unfold testTransactionAgainstFilter checkHash
  rw [if_neg hhash]
  rcases hcheck : checkOutputs filter tx with ⟨r, filter'⟩
  rw [hcheck] at houtputs
  cases r with
  | ok b => cases houtputs
  | error e => exact houtputs

/-- The outputs of the blanked transaction have scripts. -/
theorem blanked_outputsParse (tx : Transaction) : tx.blanked.OutputsParse := by
  intro outputs houts output hmem
  obtain ⟨outputs', -, rfl⟩ := Option.map_eq_some_iff.mp houts
  obtain ⟨output', -, rfl⟩ := List.mem_map.mp hmem
  simp [Output.blanked]

/-- The blanked transaction has the matches of the transaction itself. -/
theorem exists_firstMatch_blanked_iff :
    (∃ o, firstMatch filter tx.blanked = some o) ↔
      ∃ output ∈ tx.outputs.getD [], filterContainsScript filter output.script = true := by
  have hblank : ∀ output : Output, ScriptContained filter output.blanked.script ↔
      filterContainsScript filter output.script = true := by
    rintro ⟨_ | script⟩
    · simp [Output.blanked, ScriptContained, filterContainsScript]
    · exact (filterContainsScript_iff filter (some script)).symm
  rw [exists_firstMatch_iff]
  unfold Transaction.blanked
  cases tx.outputs with
  | none => simp
  | some outputs => simp [hblank]

/-- The search among the inputs of a transaction raises nothing when it reaches no script that
does. -/
theorem checkInputs_ok_iff :
    (∃ b, checkInputs filter tx = .ok b) ↔ InvalidAfterMatch filter (tx.inputs.getD []) := by
  unfold checkInputs
  cases tx.inputs with
  | none => exact iff_of_true ⟨false, rfl⟩ badAfterGood_nil
  | some inputs => exact findInput_ok_iff

/-- A test is harmless exactly when it raises nothing. -/
theorem harmless_iff :
    Harmless filter tx ↔ ∃ b, (testTransactionAgainstFilter filter tx).1 = .ok b := by
  unfold Harmless
  by_cases hhash : contains filter tx.hash = true
  · refine iff_of_true (Or.inl hhash) ⟨true, ?_⟩
    simp [testTransactionAgainstFilter, checkHash, hhash]
  · by_cases hnulls : NullsAfterMatch filter (tx.outputs.getD [])
    · -- no null script is reached: an output matches, or the inputs decide
      rw [testTransactionAgainstFilter_blanked (Or.inr hnulls),
        testTransactionAgainstFilter_eq filter _ (blanked_outputsParse tx),
        if_neg (show ¬ contains filter tx.blanked.hash = true from hhash),
        ← exists_firstMatch_blanked_iff]
      cases hfirst : firstMatch filter tx.blanked with
      | some o => exact iff_of_true (Or.inr ⟨hnulls, Or.inl ⟨o, rfl⟩⟩) ⟨true, rfl⟩
      | none =>
          simp only [hhash, hnulls, reduceCtorEq, exists_false, false_or, true_and]
          exact checkInputs_ok_iff.symm
    · rw [testTransactionAgainstFilter_of_null hhash hnulls]
      simp [hhash, hnulls]

/-- An input script that does not parse raises where no output matches. -/
example : ¬ Harmless (⟨[[1]], BLOOM_UPDATE_ALL⟩ : ExactFilter)
    ⟨[7], some [⟨some [9], 0, .error ⟨"Invalid script buffer"⟩⟩],
      some [⟨some (pushScript [2])⟩]⟩ := by
  rw [harmless_iff]
  rintro ⟨b, hb⟩
  revert hb
  cases b <;> decide

/-- A harmless test is the one of the blanked transaction. -/
theorem Harmless.blanked (h : Harmless filter tx) :
    testTransactionAgainstFilter filter tx = testTransactionAgainstFilter filter tx.blanked :=
  testTransactionAgainstFilter_blanked (h.imp_right And.left)

end Filter

/-! ## One emitter -/

namespace Subscription

variable {F : Type} {env : Environment F} {s : Subscription F} {tx : Transaction}

/-- The listeners of a match only add to the log. -/
theorem exists_trace_emitMatched (tx : Transaction) (s : Subscription F) :
    ∃ later, (s.emitMatched tx).trace = s.trace ++ later := by
  refine EventEmitter.emit_invariant
    (I := fun s' : Subscription F => ∃ later, s'.trace = s.trace ++ later)
    (fun _ _ _ h => h) ?_ ⟨[], (List.append_nil _).symm⟩
  rintro l s' ⟨later, hlater⟩
  cases l with
  | storeTransaction =>
      refine ⟨later ++ s'.cache.addTransactionEvents tx, ?_⟩
      show s'.trace ++ s'.cache.addTransactionEvents tx = _
      rw [hlater, List.append_assoc]
  | _ => exact ⟨later, hlater⟩

/-- **An emitter tests a transaction**: the verdict is logged, and it raises what the test
raises. -/
theorem testBody_spec (env : Environment F) (tx : Transaction) (s : Subscription F) :
    ((s.testBody env tx).1 = .ok () ↔ ∃ b, (env.testFunction s.filter tx).1 = .ok b) ∧
      ∃ later, (s.testBody env tx).2.trace =
        s.trace ++ .tested tx (env.testFunction s.filter tx).1 :: later := by
  unfold testBody test testTransaction
  rcases env.testFunction s.filter tx with ⟨r, filter⟩
  cases r with
  | error e => exact ⟨iff_of_false (by simp) (by simp), [], rfl⟩
  | ok b =>
      refine ⟨iff_of_true (by cases b <;> rfl) ⟨b, rfl⟩, ?_⟩
      cases b with
      | false => exact ⟨[], rfl⟩
      | true =>
          obtain ⟨later, hlater⟩ := exists_trace_emitMatched tx
            ({ s with filter := filter }.log [.tested tx (.ok true)])
          refine ⟨later, hlater.trans ?_⟩
          show s.trace ++ [.tested tx (.ok true)] ++ later = _
          rw [List.append_assoc]
          rfl

end Subscription

/-! ## The collection -/

namespace StreamSystem

section

variable {F : Type} {env : Environment F} {sys : StreamSystem F}

/-- The rounds of a notification are about one call each. -/
theorem forEachEmitter_independent (env : Environment F) (a : Subscription.Action)
    (hset : sys.bloomFilterEmitterCollection.Nodup) :
    ((sys.forEachEmitter env a).1 = .ok () ↔
        ∀ i ∈ sys.bloomFilterEmitterCollection, ((sys.calls i).act env a).1 = .ok ()) ∧
      ((sys.forEachEmitter env a).1 = .ok () → ∀ i ∈ sys.bloomFilterEmitterCollection,
        (sys.forEachEmitter env a).2.calls i = ((sys.calls i).act env a).2) :=
  forEach_independent (fun sys : StreamSystem F => sys.calls) (Call.act env a)
    (fun _ _ => rfl) (fun _ _ => setCall_self _) (fun _ _ _ h => setCall_of_ne h _) hset sys

/-- A call in the collection has a subscription. -/
theorem exists_subscription {i : ℕ} (hi : i ∈ sys.bloomFilterEmitterCollection) :
    ∃ s, (sys.calls i).subscription = some s := by
  have hregistered : (sys.calls i).isRegistered = true := (List.mem_filter.mp hi).2
  unfold Call.isRegistered at hregistered
  cases hs : (sys.calls i).subscription with
  | none =>
      rw [hs] at hregistered
      cases hregistered
  | some s => exact ⟨s, rfl⟩

variable [BloomFilter F]

/-- The collection is a set: each emitter is there once, in every run. -/
theorem run_collection_nodup (env : Environment F) (lib : DashcoreLib F) (as : List Action) :
    (run env lib initial as).bloomFilterEmitterCollection.Nodup :=
  (run_accepted_nodup as).filter _

end

variable {F : Type} [BloomFilter F]

/-- **The test of a transaction disturbs nobody.**  It raises nothing, and every emitter in the
collection tests the transaction, with the verdict of the blanked one. -/
structure Undisturbed (build : MerkleBlockBuild) (sys : StreamSystem F) (tx : Transaction) :
    Prop where
  unraised : (sys.forEachEmitter (standardEnvironment build) (.test tx)).1 = .ok ()
  tested : ∀ i ∈ sys.bloomFilterEmitterCollection, ∃ filter later,
    (sys.calls i).currentFilter = some filter ∧
      (sys.forEachEmitter (standardEnvironment build) (.test tx)).2.trace i =
        sys.trace i ++ .tested tx (testTransactionAgainstFilter filter tx.blanked).1 :: later

/-- One round of the test. -/
theorem act_test (build : MerkleBlockBuild) {call : Call F} {s : Subscription F}
    (hs : call.subscription = some s) (tx : Transaction) :
    ((call.act (standardEnvironment build) (.test tx)).1 = .ok () ↔ Harmless s.filter tx) ∧
      ∃ later, ((call.act (standardEnvironment build) (.test tx)).2.subscription.map
        Subscription.trace).getD [] =
          s.trace ++ .tested tx (testTransactionAgainstFilter s.filter tx).1 :: later := by
  obtain ⟨hok, later, htrace⟩ := s.testBody_spec (standardEnvironment build) tx
  rw [Call.act_of_some hs, harmless_iff]
  exact ⟨hok, later, htrace⟩

/-- **A script that does not parse is harmless behind a match, and only there.**  For every set of
emitters and every transaction, the test of the collection raises nothing and each emitter has the
verdict of the blanked transaction if and only if the transaction is harmless to each filter. -/
theorem undisturbed_iff (build : MerkleBlockBuild) (sys : StreamSystem F) (tx : Transaction)
    (hset : sys.bloomFilterEmitterCollection.Nodup) :
    Undisturbed build sys tx ↔ ∀ i ∈ sys.bloomFilterEmitterCollection, ∀ filter,
      (sys.calls i).currentFilter = some filter → Harmless filter tx := by
  obtain ⟨hok, hcalls⟩ :=
    forEachEmitter_independent (standardEnvironment build) (.test tx) hset
  have hfilter : ∀ i s, (sys.calls i).subscription = some s →
      (sys.calls i).currentFilter = some s.filter := by
    intro i s hs
    unfold Call.currentFilter
    rw [hs]
    rfl
  constructor
  · intro h i hi filter hf
    obtain ⟨s, hs⟩ := exists_subscription hi
    obtain rfl : s.filter = filter := Option.some.inj ((hfilter i s hs).symm.trans hf)
    exact (act_test build hs tx).1.mp (hok.mp h.unraised i hi)
  · intro h
    -- no round raises, so each emitter has its round
    have hunraised := hok.mpr fun i hi => by
      obtain ⟨s, hs⟩ := exists_subscription hi
      exact (act_test build hs tx).1.mpr (h i hi s.filter (hfilter i s hs))
    refine ⟨hunraised, fun i hi => ?_⟩
    obtain ⟨s, hs⟩ := exists_subscription hi
    obtain ⟨later, htrace⟩ := (act_test build hs tx).2
    refine ⟨s.filter, later, hfilter i s hs, ?_⟩
    rw [← (h i hi s.filter (hfilter i s hs)).blanked, trace,
      hcalls hunraised i hi, htrace, trace, hs]
    rfl

/-- Two clients listen for the payments to `[1]`. -/
def twoListeners : StreamSystem ExactFilter :=
  paymentRun [.call 0 paymentRequest, .call 1 paymentRequest]

/-- A payment to `[1]`, and an output whose script does not parse. -/
def paymentThenNull : Transaction := ⟨[7], some [], some [⟨some (pushScript [1])⟩, ⟨none⟩]⟩

/-- The payment ends the search before the null script, for both listeners. -/
theorem undisturbed_iff_paymentThenNull :
    Undisturbed (fun header hashes _ => ⟨header, some hashes⟩) twoListeners paymentThenNull := by
  refine (undisturbed_iff _ twoListeners paymentThenNull
    (run_collection_nodup paymentEnvironment paymentLib _)).mpr fun i hi filter hf => ?_
  have hmem : i = 0 ∨ i = 1 := by
    have hcollection : twoListeners.bloomFilterEmitterCollection = [0, 1] := by decide +kernel
    simpa [hcollection] using hi
  have hfilter : (twoListeners.calls i).currentFilter = some ⟨[[1]], BLOOM_UPDATE_ALL⟩ := by
    rcases hmem with rfl | rfl <;> decide +kernel
  obtain rfl : ⟨[[1]], BLOOM_UPDATE_ALL⟩ = filter := Option.some.inj (hfilter.symm.trans hf)
  refine Or.inr ⟨badAfterGood_cons_iff.mpr ⟨by simp, Or.inl (by decide)⟩, Or.inl ?_⟩
  exact ⟨⟨some (pushScript [1])⟩, List.mem_cons_self, by decide⟩

/-- An output whose script does not parse, and nothing else. -/
def nullTransaction : Transaction := ⟨[7], some [], some [⟨none⟩]⟩

/-- The test raises for the first client, and the second one hears nothing of the transaction. -/
theorem not_undisturbed_null :
    ¬ Undisturbed (fun header hashes _ => ⟨header, some hashes⟩) twoListeners nullTransaction ∧
      (twoListeners.forEachEmitter paymentEnvironment (.test nullTransaction)).2.trace 1 =
        twoListeners.trace 1 := by
  refine ⟨fun h => ?_, by decide +kernel⟩
  have hunraised := h.unraised
  revert hunraised
  decide +kernel

end StreamSystem

end Dapi
