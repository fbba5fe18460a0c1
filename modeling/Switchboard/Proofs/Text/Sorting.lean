import Mathlib.Data.List.Perm.Basic

/-!
Texts in ascending order. Sorting leaves nothing of the order that they came in, and no two that are
alike stand behind each other if none did before.
-/

namespace Switchboard.Text

theorem pairwise_le_mergeSort (texts : List String) :
    (texts.mergeSort fun a b => a ≤ b).Pairwise (· ≤ ·) := by
  have htrans (a b c : String) (hab : decide (a ≤ b)) (hbc : decide (b ≤ c)) : decide (a ≤ c) := by
    rw [decide_eq_true_eq] at *
    exact String.le_trans hab hbc
  have htotal (a b : String) : decide (a ≤ b) || decide (b ≤ a) := by
    simpa using String.le_total a b
  simpa using List.pairwise_mergeSort htrans htotal texts

theorem pairwise_lt_mergeSort {texts : List String} (h : texts.Nodup) :
    (texts.mergeSort fun a b => a ≤ b).Pairwise (· < ·) := by
  have hnodup := (List.mergeSort_perm texts fun a b => a ≤ b).nodup_iff.2 h
  refine ((pairwise_le_mergeSort texts).and (List.nodup_iff_pairwise_ne.1 hnodup)).imp ?_
  exact fun h => String.not_le.1 fun hge => h.2 (String.le_antisymm h.1 hge)

/-- In what order texts come does not matter. -/
theorem mergeSort_eq_of_perm {texts texts' : List String} (h : texts.Perm texts') :
    (texts.mergeSort fun a b => a ≤ b) = texts'.mergeSort fun a b => a ≤ b :=
  List.Perm.eq_of_pairwise (fun _ _ _ _ => String.le_antisymm) (pairwise_le_mergeSort texts)
    (pairwise_le_mergeSort texts')
    ((List.mergeSort_perm texts _).trans (h.trans (List.mergeSort_perm texts' _).symm))

end Switchboard.Text
