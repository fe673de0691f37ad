/-
# Runs and the traces they leave

A deterministic machine is a step function; a run of it is the fold of the step
function over a list of actions.  `run_induction` is the rule for facts about a
run and the actions it was made of, `Admissible` restricts a run to steps that
meet a condition at the state they start from (`admissible_iff_forall_run`: those before the
first bad state), `outputs` collects what the steps put out
(`Trace.countP_outputs_le_one_iff`: when that is at most one of a kind), and
`FollowsLast` cuts a run after the last step that meets a condition.

The second half is about traces, the lists of events that runs leave behind,
oldest first:

* `Always P t`: every event of `t` is related by `P` to the events before it, and
  `Sometime P t`: some event is;
* `Outstanding answers t d`: `d` happened in `t` and nothing after it answers it;
* `MeetsDeadline`: no duty is outstanding when a deadline passes;
* `GoesOn P t t'`: what `t'` adds to `t` is of the kind `P`.

Each has a rule for one more event and one for a block of events, so that a
property of a trace is proved event by event, along the run that produces it.
-/
import Mathlib

/-! ## Splitting a list before its end -/

/-- An element of a list with one more element is the last one, or an element of the list. -/
theorem List.snoc_eq_append_cons_iff {α : Type*} {as before after : List α} {a b : α} :
    as ++ [a] = before ++ b :: after ↔ (after = [] ∧ as = before ∧ a = b) ∨
      ∃ after', after = after' ++ [a] ∧ as = before ++ b :: after' := by
  constructor
  · intro h
    rcases List.eq_nil_or_concat after with rfl | ⟨after', a', rfl⟩
    · obtain ⟨rfl, ha⟩ := List.append_inj' h rfl
      exact Or.inl ⟨rfl, rfl, by simpa using ha⟩
    · rw [List.concat_eq_append] at h ⊢
      rw [← List.cons_append, ← List.append_assoc] at h
      obtain ⟨rfl, ha⟩ := List.append_inj' h rfl
      obtain rfl : a = a' := by simpa using ha
      exact Or.inr ⟨after', rfl, rfl⟩
  · rintro (⟨rfl, rfl, rfl⟩ | ⟨after', rfl, rfl⟩)
    · rfl
    · simp

/-! ## Runs of a step function -/

namespace Machine

variable {σ α : Type*} (step : σ → α → σ)

/-- The state that a list of actions leads to. -/
def run (s : σ) (as : List α) : σ := as.foldl step s

@[simp] theorem run_nil (s : σ) : run step s [] = s := rfl

@[simp] theorem run_cons (s : σ) (a : α) (as : List α) :
    run step s (a :: as) = run step (step s a) as := rfl

/-- A run goes on from where another one has ended. -/
@[simp] theorem run_append (s : σ) (as bs : List α) :
    run step s (as ++ bs) = run step (run step s as) bs :=
  List.foldl_append

variable {step}

/-- **Run rule.**  A relation between the actions taken and the state reached holds of every
run if it holds at the start and one more action keeps it. -/
theorem run_induction {P : List α → σ → Prop} {s : σ} (h0 : P [] s)
    (hstep : ∀ as a, P as (run step s as) → P (as ++ [a]) (step (run step s as) a))
    (as : List α) : P as (run step s as) := by
  induction as using List.reverseRecOn with
  | nil => exact h0
  | append_singleton as a ih =>
      rw [run_append]
      exact hstep as a ih

/-- **Invariant rule.**  What every step keeps, every run keeps. -/
theorem run_invariant {I : σ → Prop} (hstep : ∀ s a, I s → I (step s a)) {s : σ} (hs : I s)
    (as : List α) : I (run step s as) :=
  run_induction (P := fun _ s => I s) hs (fun _ a h => hstep _ a h) as

variable (step)

/-- Every step of the run meets the condition `ok` at the state it starts from. -/
def Admissible (ok : σ → α → Prop) : σ → List α → Prop
  | _, [] => True
  | s, a :: as => ok s a ∧ Admissible ok (step s a) as

instance decidableAdmissible (ok : σ → α → Prop) [∀ s a, Decidable (ok s a)] :
    (s : σ) → (as : List α) → Decidable (Admissible step ok s as)
  | _, [] => .isTrue trivial
  | s, a :: as =>
    have := decidableAdmissible ok (step s a) as
    inferInstanceAs (Decidable (ok s a ∧ Admissible step ok (step s a) as))

variable {step}

/-- A run is admissible when both its parts are. -/
theorem admissible_append {ok : σ → α → Prop} {s : σ} {as bs : List α} :
    Admissible step ok s (as ++ bs) ↔
      Admissible step ok s as ∧ Admissible step ok (run step s as) bs := by
  induction as generalizing s with
  | nil => simp [Admissible]
  | cons a as ih => simp [Admissible, ih, and_assoc]

/-- **Invariant rule for admissible runs.** -/
theorem Admissible.invariant {ok : σ → α → Prop} {I : σ → Prop}
    (hstep : ∀ s a, I s → ok s a → I (step s a)) {s : σ} {as : List α}
    (h : Admissible step ok s as) (hs : I s) : I (run step s as) := by
  induction as generalizing s with
  | nil => exact hs
  | cons a as ih => exact ih h.2 (hstep s a hs h.1)

/-- **Rule for the first bad step.**  When the steps that meet the condition are those that keep
`P`, the admissible runs are those with `P` in every state. -/
theorem admissible_iff_forall_run {ok : σ → α → Prop} {I P : σ → Prop}
    (hI : ∀ s a, I s → I (step s a)) (hP : ∀ s a, I s → P s → (P (step s a) ↔ ok s a)) {s : σ}
    (hs : I s) (h0 : P s) (as : List α) :
    Admissible step ok s as ↔ ∀ before after, as = before ++ after → P (run step s before) := by
  induction as generalizing s with
  | nil =>
      refine iff_of_true trivial fun before after h => ?_
      obtain ⟨rfl, -⟩ := List.append_eq_nil_iff.mp h.symm
      exact h0
  | cons a as ih =>
      constructor
      · rintro ⟨hok, hrest⟩ before after h
        have hnext : P (step s a) := (hP s a hs h0).mpr hok
        cases before with
        | nil => exact h0
        | cons b before =>
            obtain ⟨rfl, rfl⟩ := List.cons.inj h
            exact (ih (hI s a hs) hnext).mp hrest before after rfl
      · intro h
        have hnext : P (step s a) := h [a] as rfl
        refine ⟨(hP s a hs h0).mp hnext, (ih (hI s a hs) hnext).mpr ?_⟩
        rintro before after rfl
        exact h (a :: before) after rfl

variable (step)

/-- What the steps of a run put out, each at the state it starts from, one after the other. -/
def outputs {β : Type*} (f : σ → α → List β) : σ → List α → List β
  | _, [] => []
  | s, a :: as => f s a ++ outputs f (step s a) as

variable {step}

/-- The outputs of the last step come last. -/
theorem outputs_snoc {β : Type*} (f : σ → α → List β) (s : σ) (as : List α) (a : α) :
    outputs step f s (as ++ [a]) = outputs step f s as ++ f (run step s as) a := by
  induction as generalizing s with
  | nil => simp [outputs]
  | cons b as ih => simp [outputs, ih]

/-- What was put out, some step of the run put out. -/
theorem exists_of_mem_outputs {β : Type*} {f : σ → α → List β} {s : σ} {as : List α} {b : β}
    (h : b ∈ outputs step f s as) : ∃ s', ∃ a ∈ as, b ∈ f s' a := by
  induction as generalizing s with
  | nil => exact absurd h List.not_mem_nil
  | cons a as ih =>
      rcases List.mem_append.mp h with h | h
      · exact ⟨s, a, List.mem_cons_self, h⟩
      · obtain ⟨s', a', ha', h'⟩ := ih h
        exact ⟨s', a', List.mem_cons_of_mem a ha', h'⟩

/-- **Simulation rule.**  When each step is one of another machine, so is each run. -/
theorem run_outputs {τ β : Type*} {step' : τ → β → τ} {ok : α → Prop} {g : σ → τ}
    {f : σ → α → β} (hstep : ∀ s a, ok a → g (step s a) = step' (g s) (f s a)) {s : σ}
    {as : List α} (has : ∀ a ∈ as, ok a) :
    g (run step s as) = run step' (g s) (outputs step (fun s a => [f s a]) s as) := by
  induction as generalizing s with
  | nil => rfl
  | cons a as ih =>
      have ha := hstep s a (has a List.mem_cons_self)
      rw [run_cons, ih fun b hb => has b (List.mem_cons_of_mem a hb), ha]
      rfl

/-- **Refinement rule.**  When each step is a run of another machine, so is each run. -/
theorem run_refines {τ β : Type*} {step' : τ → β → τ} {g : σ → τ} {f : σ → α → List β}
    (hstep : ∀ s a, g (step s a) = run step' (g s) (f s a)) (s : σ) (as : List α) :
    g (run step s as) = run step' (g s) (outputs step f s as) := by
  induction as generalizing s with
  | nil => rfl
  | cons a as ih => rw [run_cons, ih, hstep, outputs, run_append]

variable (step)

/-- The run ends with `after`, and the step right before it is the last one that meets `P` at
the state it starts from. -/
def FollowsLast (P : σ → α → Prop) (s : σ) (as after : List α) : Prop :=
  ∃ before a, as = before ++ a :: after ∧ P (run step s before) a ∧
    ∀ between a' rest, after = between ++ a' :: rest →
      ¬ P (run step s (before ++ a :: between)) a'

variable {step} {P : σ → α → Prop} {s : σ} {as after : List α} {a : α}

/-- Nothing has happened in the empty run. -/
theorem not_followsLast_nil (after : List α) : ¬ FollowsLast step P s [] after := by
  rintro ⟨before, a, heq, -, -⟩
  simp at heq

/-- The last step is the one. -/
theorem followsLast_snoc_of_pos (h : P (run step s as) a) :
    FollowsLast step P s (as ++ [a]) after ↔ after = [] := by
  constructor
  · rintro ⟨before, a', heq, -, hlast⟩
    rcases List.snoc_eq_append_cons_iff.mp heq with ⟨hnil, -⟩ | ⟨after', rfl, rfl⟩
    · exact hnil
    · exact absurd h (hlast after' a [] rfl)
  · rintro rfl
    refine ⟨as, a, rfl, h, fun between a' rest heq => ?_⟩
    simp at heq

/-- The last step comes after the one. -/
theorem followsLast_snoc_of_neg (h : ¬ P (run step s as) a) :
    FollowsLast step P s (as ++ [a]) after ↔
      ∃ after', after = after' ++ [a] ∧ FollowsLast step P s as after' := by
  constructor
  · rintro ⟨before, a', heq, hP, hlast⟩
    rcases List.snoc_eq_append_cons_iff.mp heq with ⟨-, rfl, rfl⟩ | ⟨after', rfl, rfl⟩
    · exact absurd hP h
    · refine ⟨after', rfl, before, a', rfl, hP, fun between a'' rest hsplit => ?_⟩
      exact hlast between a'' (rest ++ [a]) (by simp [hsplit])
  · rintro ⟨after', rfl, before, a', rfl, hP, hlast⟩
    refine ⟨before, a', by simp, hP, fun between a'' rest hsplit => ?_⟩
    rcases List.snoc_eq_append_cons_iff.mp hsplit with ⟨-, rfl, rfl⟩ | ⟨rest', -, hsplit'⟩
    · exact h
    · exact hlast between a'' rest' hsplit'

end Machine

/-! ## Traces -/

namespace Trace

variable {E : Type*}

/-- Every event of the trace is related by `P` to the events before it. -/
def Always (P : List E → E → Prop) (t : List E) : Prop :=
  ∀ t₁ e t₂, t = t₁ ++ e :: t₂ → P t₁ e

theorem always_nil (P : List E → E → Prop) : Always P [] := by
  intro t₁ e t₂ h
  simp at h

/-- What always holds holds of the last event, too. -/
theorem always_snoc {P : List E → E → Prop} {t : List E} {e : E} :
    Always P (t ++ [e]) ↔ Always P t ∧ P t e := by
  constructor
  · intro h
    refine ⟨fun t₁ e' t₂ ht => h t₁ e' (t₂ ++ [e]) (by simp [ht]), h t e [] (by simp)⟩
  · rintro ⟨ht, he⟩ t₁ e' t₂ h
    rcases List.snoc_eq_append_cons_iff.mp h with ⟨-, rfl, rfl⟩ | ⟨t₂', -, ht'⟩
    · exact he
    · exact ht t₁ e' t₂' ht'

/-- A block of events is checked event by event, each against all that came before. -/
theorem always_append {P : List E → E → Prop} {t es : List E} :
    Always P (t ++ es) ↔ Always P t ∧ Always (fun past e => P (t ++ past) e) es := by
  induction es using List.reverseRecOn with
  | nil => simp [always_nil]
  | append_singleton es e ih => rw [← List.append_assoc, always_snoc, ih, always_snoc, and_assoc]

/-- A property of single events that holds of every event of a block. -/
theorem always_of_forall_mem {P : List E → E → Prop} {t : List E}
    (h : ∀ e ∈ t, ∀ past, P past e) : Always P t :=
  fun t₁ e t₂ ht => h e (by simp [ht]) t₁

/-- Some event of the trace is related by `P` to the events before it. -/
def Sometime (P : List E → E → Prop) (t : List E) : Prop :=
  ∃ t₁ e t₂, t = t₁ ++ e :: t₂ ∧ P t₁ e

theorem not_sometime_nil (P : List E → E → Prop) : ¬ Sometime P [] := by
  rintro ⟨t₁, e, t₂, h, -⟩
  simp at h

/-- It held of the last event, or before. -/
theorem sometime_snoc {P : List E → E → Prop} {t : List E} {e : E} :
    Sometime P (t ++ [e]) ↔ Sometime P t ∨ P t e := by
  constructor
  · rintro ⟨t₁, e', t₂, h, hP⟩
    rcases List.snoc_eq_append_cons_iff.mp h with ⟨-, rfl, rfl⟩ | ⟨t₂', -, ht'⟩
    · exact Or.inr hP
    · exact Or.inl ⟨t₁, e', t₂', ht', hP⟩
  · rintro (⟨t₁, e', t₂, rfl, hP⟩ | hP)
    · exact ⟨t₁, e', t₂ ++ [e], by simp, hP⟩
    · exact ⟨t, e, [], rfl, hP⟩

/-- Some event of a kind, among all events. -/
theorem sometime_filterMap {α : Type*} {f : α → Option E} {P : List E → E → Prop} {as : List α} :
    Sometime P (as.filterMap f) ↔
      Sometime (fun before a => ∃ e, f a = some e ∧ P (before.filterMap f) e) as := by
  induction as using List.reverseRecOn with
  | nil => exact iff_of_false (not_sometime_nil _) (not_sometime_nil _)
  | append_singleton as a ih =>
      rw [List.filterMap_append, sometime_snoc, ← ih]
      cases ha : f a with
      | none => simp [ha]
      | some e => simp [ha, sometime_snoc]

/-! ### What a run puts out -/

section Outputs

variable {σ α β : Type*} {step : σ → α → σ} {f : σ → α → List β} {s : σ} {as : List α}

/-- What was put out, some step put out. -/
theorem exists_mem_outputs_iff {p : β → Prop} :
    (∃ b ∈ Machine.outputs step f s as, p b) ↔
      Sometime (fun before a => ∃ b ∈ f (Machine.run step s before) a, p b) as := by
  induction as using List.reverseRecOn with
  | nil => exact iff_of_false (by simp [Machine.outputs]) (not_sometime_nil _)
  | append_singleton as a ih =>
      rw [Machine.outputs_snoc, sometime_snoc, ← ih]
      simp only [List.mem_append, or_and_right, exists_or]

/-- **Rule for what is put out at most once.**  When no step puts out two of a kind, a run puts
out at most one unless some step puts one out after an earlier step did. -/
theorem countP_outputs_le_one_iff {p : β → Bool}
    (hone : ∀ before a, (f (Machine.run step s before) a).countP p ≤ 1) :
    (Machine.outputs step f s as).countP p ≤ 1 ↔
      ¬ Sometime (fun before a => (∃ b ∈ f (Machine.run step s before) a, p b = true) ∧
        Sometime (fun before' a' => ∃ b ∈ f (Machine.run step s before') a', p b = true)
          before) as := by
  induction as using List.reverseRecOn with
  | nil => exact iff_of_true (by simp [Machine.outputs]) (not_sometime_nil _)
  | append_singleton as a ih =>
      have hnow := hone as a
      rw [Machine.outputs_snoc, List.countP_append, sometime_snoc, not_or, ← ih,
        ← exists_mem_outputs_iff (p := fun b => p b = true), ← List.countP_pos_iff,
        ← List.countP_pos_iff]
      omega

end Outputs

/-! ### Duties and answers -/

/-- The event `d` happened and no later event answers it. -/
def Outstanding (answers : E → E → Prop) (t : List E) (d : E) : Prop :=
  ∃ t₁ t₂, t = t₁ ++ d :: t₂ ∧ ∀ a ∈ t₂, ¬ answers a d

theorem not_outstanding_nil (answers : E → E → Prop) (d : E) : ¬ Outstanding answers [] d := by
  rintro ⟨t₁, t₂, h, -⟩
  simp at h

/-- The last event settles a duty, or is one. -/
theorem outstanding_snoc {answers : E → E → Prop} {t : List E} {e d : E} :
    Outstanding answers (t ++ [e]) d ↔ (Outstanding answers t d ∧ ¬ answers e d) ∨ e = d := by
  constructor
  · rintro ⟨t₁, t₂, h, hun⟩
    rcases List.snoc_eq_append_cons_iff.mp h with ⟨-, -, rfl⟩ | ⟨t₂', rfl, ht⟩
    · exact Or.inr rfl
    · exact Or.inl ⟨⟨t₁, t₂', ht, fun a ha => hun a (by simp [ha])⟩, hun e (by simp)⟩
  · rintro (⟨⟨t₁, t₂, rfl, hun⟩, he⟩ | rfl)
    · refine ⟨t₁, t₂ ++ [e], by simp, fun a ha => ?_⟩
      rcases List.mem_append.mp ha with ha | ha
      · exact hun a ha
      · rwa [List.mem_singleton.mp ha]
    · exact ⟨t, [], rfl, by simp⟩

/-- The later events settle a duty, or bring it. -/
theorem outstanding_append {answers : E → E → Prop} {t es : List E} {d : E} :
    Outstanding answers (t ++ es) d ↔
      (Outstanding answers t d ∧ ∀ a ∈ es, ¬ answers a d) ∨ Outstanding answers es d := by
  induction es using List.reverseRecOn with
  | nil => simp [not_outstanding_nil]
  | append_singleton es e ih =>
      rw [← List.append_assoc, outstanding_snoc, ih, outstanding_snoc]
      simp only [List.mem_append, List.mem_singleton, or_imp, forall_and, forall_eq]
      tauto

/-- A block of events that does not contain `d` can only answer it. -/
theorem outstanding_append_of_not_mem {answers : E → E → Prop} {t es : List E} {d : E}
    (hd : d ∉ es) :
    Outstanding answers (t ++ es) d ↔ Outstanding answers t d ∧ ∀ a ∈ es, ¬ answers a d := by
  rw [outstanding_append]
  constructor
  · rintro (h | ⟨t₁, t₂, rfl, -⟩)
    · exact h
    · simp at hd
  · exact Or.inl

/-- No duty is outstanding when a deadline passes. -/
def MeetsDeadline (due : E → Prop) (answers : E → E → Prop) (deadline : E → Prop)
    (t : List E) : Prop :=
  Always (fun past e => deadline e → ∀ d, due d → ¬ Outstanding answers past d) t

/-- At a deadline nothing that is due is outstanding. -/
theorem meetsDeadline_snoc {due answers deadline} {t : List E} {e : E} :
    MeetsDeadline due answers deadline (t ++ [e]) ↔
      MeetsDeadline due answers deadline t ∧
        (deadline e → ∀ d, due d → ¬ Outstanding answers t d) :=
  always_snoc

/-- A block of events in which no deadline passes. -/
theorem meetsDeadline_append {due answers deadline} {t es : List E}
    (h : ∀ e ∈ es, ¬ deadline e) :
    MeetsDeadline due answers deadline (t ++ es) ↔ MeetsDeadline due answers deadline t := by
  rw [MeetsDeadline, always_append]
  constructor
  · exact And.left
  · intro ht
    refine ⟨ht, always_of_forall_mem ?_⟩
    intro e he past hdead
    exact absurd hdead (h e he)

/-- **What meeting a deadline means.**  Between a duty and a later deadline there is an answer. -/
theorem MeetsDeadline.answered {due deadline : E → Prop} {answers : E → E → Prop}
    {t₁ t₂ t₃ : List E} {d e : E}
    (h : MeetsDeadline due answers deadline (t₁ ++ d :: t₂ ++ e :: t₃))
    (hd : due d) (he : deadline e) : ∃ a ∈ t₂, answers a d := by
  by_contra hno
  push Not at hno
  exact h (t₁ ++ d :: t₂) e t₃ rfl he d hd ⟨t₁, t₂, rfl, hno⟩

/-! ## Traces that go on with events of one kind -/

/-- The trace `t'` goes on after `t`, with events that satisfy `P`. -/
def GoesOn (P : E → Prop) (t t' : List E) : Prop := ∃ es, t' = t ++ es ∧ ∀ e ∈ es, P e

namespace GoesOn

variable {P : E → Prop} {t t' t'' : List E}

theorem of_eq (h : t' = t) : GoesOn P t t' :=
  ⟨[], by rw [h, List.append_nil], fun _ he => absurd he List.not_mem_nil⟩

theorem snoc {e : E} (he : P e) : GoesOn P t (t ++ [e]) :=
  ⟨[e], rfl, fun e' he' => by rwa [List.mem_singleton.mp he']⟩

theorem trans (h : GoesOn P t t') (h' : GoesOn P t' t'') : GoesOn P t t'' := by
  obtain ⟨es, rfl, hall⟩ := h
  obtain ⟨es', rfl, hall'⟩ := h'
  refine ⟨es ++ es', List.append_assoc _ _ _, fun e he => ?_⟩
  rcases List.mem_append.mp he with he | he
  · exact hall e he
  · exact hall' e he

/-- An event of another kind comes as often as before. -/
theorem count_eq [DecidableEq E] (h : GoesOn P t t') {e : E} (he : ¬ P e) :
    t'.count e = t.count e := by
  obtain ⟨es, rfl, hall⟩ := h
  have hnot : e ∉ es := fun hmem => he (hall e hmem)
  rw [List.count_append, List.count_eq_zero.mpr hnot, add_zero]

theorem mem_iff (h : GoesOn P t t') {e : E} (he : ¬ P e) : e ∈ t' ↔ e ∈ t := by
  obtain ⟨es, rfl, hall⟩ := h
  have hnot : e ∉ es := fun hmem => he (hall e hmem)
  rw [List.mem_append, or_iff_left hnot]

/-- A selection from the trace that drops every event of the kind. -/
theorem filterMap_eq {F : Type*} (h : GoesOn P t t') {f : E → Option F}
    (hf : ∀ e, P e → f e = none) : t'.filterMap f = t.filterMap f := by
  obtain ⟨es, rfl, hall⟩ := h
  have hnone : es.filterMap f = [] :=
    List.filterMap_eq_nil_iff.mpr fun e he => hf e (hall e he)
  rw [List.filterMap_append, hnone, List.append_nil]

/-- A sum over the trace to which the events of the kind add nothing. -/
theorem sum_map_eq (h : GoesOn P t t') {f : E → ℤ} (hf : ∀ e, P e → f e = 0) :
    (t'.map f).sum = (t.map f).sum := by
  obtain ⟨es, rfl, hall⟩ := h
  have hzero : (es.map f).sum = 0 := by
    refine List.sum_eq_zero fun x hx => ?_
    obtain ⟨e, he, rfl⟩ := List.mem_map.mp hx
    exact hf e (hall e he)
  rw [List.map_append, List.sum_append, hzero, add_zero]

end GoesOn

end Trace
