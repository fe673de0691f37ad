/-
# The books of a queue

A queue hands out what was put into it, and may lose some of it before.  Its books are
four lists: what was added, handed out and lost so far, each in the order in which it
happened, and what waits.

`Balanced` says that nothing is handed out that was not added, that everything added was
handed out, waits or was lost, once, and that things are handed out in the order in which
they were added.  There is a rule for each thing that happens to a queue, and `count_eq`
is what the books add up to.
-/
import Mathlib

namespace Ledger

variable {α : Type*}

/-- The books of a queue are in order. -/
structure Balanced (added given waiting lost : List α) : Prop where
  perm : added.Perm (given ++ waiting ++ lost)
  order : (given ++ waiting).Sublist added

namespace Balanced

variable {added given waiting lost kept gone : List α}

/-- Empty books balance. -/
theorem empty : Balanced ([] : List α) [] [] [] := ⟨.nil, .slnil⟩

/-- Something is put into the queue, behind what waits. -/
theorem add (h : Balanced added given waiting lost) (new : List α) :
    Balanced (added ++ new) given (waiting ++ new) lost where
  perm := by
    have hperm := h.perm.append_right new
    refine hperm.trans ?_
    rw [List.append_assoc, ← List.append_assoc given, List.append_assoc (given ++ waiting)]
    exact List.perm_append_comm.append_left (given ++ waiting)
  order := by
    rw [← List.append_assoc]
    exact h.order.append (.refl new)

/-- All that waits is handed out. -/
theorem give (h : Balanced added given waiting lost) :
    Balanced added (given ++ waiting) [] lost where
  perm := by
    rw [List.append_nil]
    exact h.perm
  order := by
    rw [List.append_nil]
    exact h.order

/-- Some of what waits is lost; the rest stays in its order. -/
theorem lose (h : Balanced added given waiting lost) (hperm : waiting.Perm (kept ++ gone))
    (hsub : kept.Sublist waiting) : Balanced added given kept (lost ++ gone) where
  perm := by
    have hsplit : (given ++ waiting ++ lost).Perm (given ++ (kept ++ gone) ++ lost) :=
      (hperm.append_left given).append_right lost
    refine (h.perm.trans hsplit).trans ?_
    rw [← List.append_assoc, List.append_assoc (given ++ kept)]
    exact List.perm_append_comm.append_left (given ++ kept)
  order := ((List.Sublist.refl given).append hsub).trans h.order

/-- **The books add up**, for the elements of each kind. -/
theorem count_eq (h : Balanced added given waiting lost) (p : α → Bool) :
    added.countP p = given.countP p + waiting.countP p + lost.countP p := by
  rw [h.perm.countP_eq, List.countP_append, List.countP_append]

/-- **First in, first out.** -/
theorem given_sublist (h : Balanced added given waiting lost) : given.Sublist added :=
  (List.sublist_append_left given waiting).trans h.order

end Balanced

end Ledger
