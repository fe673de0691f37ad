/-
# Backward loops that splice elements out of an array

An array is often pruned in place by an index loop that runs from the last
element to the first and calls `splice(i, 1)` on what it is looking for.  This
file gives the two forms of the loop, as the loop runs, and what each computes:

* `spliceAll` goes on after a hit; it is `List.filter` (`spliceAll_eq_filter`);
* `spliceLast` breaks at the first hit; it is `removeLast`, the removal of the
  last matching element (`spliceLast_eq_removeLast`).

The rest of the file is about `removeLast`: what stays, what goes, and what it
does to a list whose keys are pairwise distinct.
-/
import Mathlib

namespace Splice

variable {α β : Type*}

/-! ## The two loops -/

/-- `for (let i = n - 1; i >= 0; i--) if (p(l[i])) l.splice(i, 1);` -/
def spliceAll (p : α → Bool) : ℕ → List α → List α
  | 0, l => l
  | i + 1, l =>
    match l[i]? with
    | some a => if p a then spliceAll p i (l.eraseIdx i) else spliceAll p i l
    | none => spliceAll p i l

/-- The same loop with a `break` after the first `splice`. -/
def spliceLast (p : α → Bool) : ℕ → List α → List α
  | 0, l => l
  | i + 1, l =>
    match l[i]? with
    | some a => if p a then l.eraseIdx i else spliceLast p i l
    | none => spliceLast p i l

/-- The list without its last element that satisfies `p`. -/
def removeLast (p : α → Bool) (l : List α) : List α :=
  (l.reverse.eraseP p).reverse

/-! ## What the loops compute -/

/-- A loop that has `n` indices left has already settled everything from `n` on. -/
theorem spliceAll_eq (p : α → Bool) (n : ℕ) (l : List α) (hn : n ≤ l.length) :
    spliceAll p n l = (l.take n).filter (fun a => !p a) ++ l.drop n := by
  induction n generalizing l with
  | zero => simp [spliceAll]
  | succ n ih =>
      have hlt : n < l.length := by omega
      rw [spliceAll, List.getElem?_eq_getElem hlt]
      simp only
      rw [List.take_succ_eq_append_getElem hlt, List.filter_append]
      by_cases hp : p l[n]
      · have htake : (l.eraseIdx n).take n = l.take n := by
          rw [List.eraseIdx_eq_take_drop_succ, List.take_append_of_le_length (by simp; omega)]
          simp
        have hdrop : (l.eraseIdx n).drop n = l.drop (n + 1) := by
          rw [List.eraseIdx_eq_take_drop_succ, List.drop_append_of_le_length (by simp; omega)]
          simp
        rw [if_pos hp, ih _ (by rw [List.length_eraseIdx]; split <;> omega), htake, hdrop]
        simp [hp]
      · rw [if_neg hp, ih _ (by omega), List.drop_eq_getElem_cons hlt]
        simp [hp]

/-- **The loop without a `break` filters.** -/
theorem spliceAll_eq_filter (p : α → Bool) (l : List α) :
    spliceAll p l.length l = l.filter (fun a => !p a) := by
  rw [spliceAll_eq p l.length l le_rfl]
  simp

/-- The last element is tried first. -/
theorem removeLast_append_singleton (p : α → Bool) (l : List α) (a : α) :
    removeLast p (l ++ [a]) = if p a then l else removeLast p l ++ [a] := by
  unfold removeLast
  rw [List.reverse_append, List.reverse_singleton, List.singleton_append, List.eraseP_cons]
  by_cases hp : p a <;> simp [hp]

/-- The loop removes the last match among the first elements. -/
theorem spliceLast_eq (p : α → Bool) (n : ℕ) (l : List α) (hn : n ≤ l.length) :
    spliceLast p n l = removeLast p (l.take n) ++ l.drop n := by
  induction n with
  | zero => simp [spliceLast, removeLast]
  | succ n ih =>
      have hlt : n < l.length := by omega
      rw [spliceLast, List.getElem?_eq_getElem hlt]
      simp only
      rw [List.take_succ_eq_append_getElem hlt, removeLast_append_singleton]
      by_cases hp : p l[n]
      · rw [if_pos hp, if_pos hp, List.eraseIdx_eq_take_drop_succ]
      · rw [if_neg hp, if_neg hp, ih (by omega), List.drop_eq_getElem_cons hlt]
        simp

/-- **The loop with a `break` removes the last matching element.** -/
theorem spliceLast_eq_removeLast (p : α → Bool) (l : List α) :
    spliceLast p l.length l = removeLast p l := by
  rw [spliceLast_eq p l.length l le_rfl]
  simp

/-! ## What `removeLast` keeps -/

/-- Nothing is added or moved. -/
theorem removeLast_sublist (p : α → Bool) (l : List α) : (removeLast p l).Sublist l := by
  have h := (List.eraseP_sublist (p := p) (l := l.reverse)).reverse
  rwa [List.reverse_reverse] at h

theorem mem_of_mem_removeLast {p : α → Bool} {l : List α} {a : α}
    (h : a ∈ removeLast p l) : a ∈ l :=
  (removeLast_sublist p l).subset h

/-- Elements that do not match stay. -/
theorem mem_removeLast_of_neg {p : α → Bool} {l : List α} {a : α} (hp : ¬ p a) :
    a ∈ removeLast p l ↔ a ∈ l := by
  rw [removeLast, List.mem_reverse, List.mem_eraseP_of_neg hp, List.mem_reverse]

/-- Without a match nothing is removed. -/
theorem removeLast_eq_self {p : α → Bool} {l : List α} (h : ∀ a ∈ l, ¬ p a) :
    removeLast p l = l := by
  rw [removeLast, List.eraseP_of_forall_not, List.reverse_reverse]
  intro a ha
  exact h a (List.mem_reverse.mp ha)

/-- A matching element after which no other one matches is the one that goes. -/
theorem removeLast_append_cons_of_pos {p : α → Bool} {before after : List α} {a : α} (ha : p a)
    (h : ∀ b ∈ after, ¬ p b) : removeLast p (before ++ a :: after) = before ++ after := by
  have hafter : ∀ b ∈ after.reverse, ¬ p b := fun b hb => h b (List.mem_reverse.mp hb)
  rw [removeLast, List.reverse_append, List.reverse_cons, List.append_assoc,
    List.eraseP_append_right _ hafter]
  simp [ha]

/-- The only match is removed. -/
theorem removeLast_cons_of_pos {p : α → Bool} {a : α} {l : List α} (ha : p a)
    (h : ∀ b ∈ l, ¬ p b) : removeLast p (a :: l) = l := by
  have hnil : removeLast p ([] ++ a :: l) = [] ++ l := removeLast_append_cons_of_pos ha h
  exact hnil

/-- What goes is the first match from the end. -/
theorem perm_removeLast (p : α → Bool) (l : List α) :
    l.Perm (removeLast p l ++ (l.reverse.find? p).toList) := by
  induction l using List.reverseRecOn with
  | nil => exact .nil
  | append_singleton l a ih =>
      rw [removeLast_append_singleton, List.reverse_append, List.reverse_singleton,
        List.singleton_append, List.find?_cons]
      by_cases hp : p a
      · simp [hp]
      · simp only [hp, if_false, Bool.false_eq_true]
        refine (ih.append_right [a]).trans ?_
        rw [List.append_assoc, List.append_assoc]
        exact List.perm_append_comm.append_left _

/-- `removeLast` commutes with a map that the predicate factors through. -/
theorem map_removeLast (f : α → β) (q : β → Bool) (l : List α) :
    (removeLast (fun a => q (f a)) l).map f = removeLast q (l.map f) := by
  unfold removeLast
  rw [← List.map_reverse, List.eraseP_map, ← List.map_reverse]
  rfl

/-- `removeLast` commutes with a filter that keeps what it looks for. -/
theorem filter_removeLast {p q : α → Bool} (hpq : ∀ a, p a = true → q a = true) (l : List α) :
    (removeLast p l).filter q = removeLast p (l.filter q) := by
  induction l using List.reverseRecOn with
  | nil => rfl
  | append_singleton l a ih =>
      rw [removeLast_append_singleton, List.filter_append]
      by_cases hp : p a
      · simp [hp, hpq a hp, removeLast_append_singleton]
      · rw [if_neg hp, List.filter_append, ih]
        by_cases hq : q a
        · simp [hq, removeLast_append_singleton, hp]
        · simp [hq]

/-- A filter that drops what `removeLast` looks for does not see it. -/
theorem filter_removeLast_of_neg {p q : α → Bool} (hpq : ∀ a, p a = true → q a = false)
    (l : List α) : (removeLast p l).filter q = l.filter q := by
  induction l using List.reverseRecOn with
  | nil => rfl
  | append_singleton l a ih =>
      rw [removeLast_append_singleton, List.filter_append]
      by_cases hp : p a
      · simp [hp, hpq a hp]
      · rw [if_neg hp, List.filter_append, ih]

/-- With pairwise distinct keys, removing the last element with key `k` removes all of them. -/
theorem removeLast_eq_filter_of_nodup [DecidableEq β] (f : α → β) (k : β) (l : List α)
    (hnd : (l.map f).Nodup) :
    removeLast (fun a => decide (f a = k)) l = l.filter (fun a => decide (f a ≠ k)) := by
  induction l using List.reverseRecOn with
  | nil => rfl
  | append_singleton l a ih =>
      rw [List.map_append, List.map_singleton, List.nodup_append] at hnd
      obtain ⟨hl, -, hdisj⟩ := hnd
      rw [removeLast_append_singleton, List.filter_append]
      by_cases ha : f a = k
      · have hall : ∀ b ∈ l, f b ≠ k := fun b hb hbk =>
          hdisj (f b) (List.mem_map_of_mem hb) (f a) (List.mem_singleton_self _) (hbk.trans ha.symm)
        rw [if_pos (by simpa using ha), List.filter_eq_self.mpr (by simpa using hall)]
        simp [ha]
      · rw [if_neg (by simpa using ha), ih hl]
        simp [ha]

/-- `l'` is `l` without its only element that satisfies `p`; the others stay, in their order. -/
def DropsOnly (p : α → Prop) (l l' : List α) : Prop :=
  ∃ before a after, l = before ++ a :: after ∧ p a ∧ (∀ b ∈ before ++ after, ¬ p b) ∧
    l' = before ++ after

/-- With pairwise distinct keys, the element with key `k` is the only one to go. -/
theorem dropsOnly_removeLast [DecidableEq β] {f : α → β} {k : β} {l : List α}
    (hnd : (l.map f).Nodup) (hk : k ∈ l.map f) :
    DropsOnly (fun a => f a = k) l (removeLast (fun a => decide (f a = k)) l) := by
  obtain ⟨a, ha, rfl⟩ := List.mem_map.mp hk
  obtain ⟨before, after, rfl⟩ := List.append_of_mem ha
  have hothers : ∀ b ∈ before ++ after, f b ≠ f a := by
    intro b hb heq
    rw [List.map_append, List.map_cons] at hnd
    refine (List.nodup_middle.mp hnd).notMem ?_
    rw [← List.map_append, ← heq]
    exact List.mem_map_of_mem hb
  refine ⟨before, a, after, rfl, rfl, hothers, ?_⟩
  refine removeLast_append_cons_of_pos (by simp) fun b hb => ?_
  simpa using hothers b (List.mem_append_right _ hb)

/-- With pairwise distinct keys, no element with key `k` survives. -/
theorem key_ne_of_mem_removeLast [DecidableEq β] {f : α → β} {k : β} {l : List α}
    (hnd : (l.map f).Nodup) {a : α}
    (ha : a ∈ removeLast (fun a => decide (f a = k)) l) : f a ≠ k := by
  rw [removeLast_eq_filter_of_nodup f k l hnd] at ha
  simpa using (List.mem_filter.mp ha).2

end Splice
