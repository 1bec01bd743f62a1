import Mathlib.Data.List.Basic

/-!
# One symbol sent behind another

A row of symbols in which one symbol, the mark, is always sent behind a second
one, the lead.  The mark then never stands without the lead ahead of it, and the
row that was sent determines the row it came from.
-/

namespace Foundation

namespace Escape

/-- Every mark has the lead immediately ahead of it. -/
def Led (mark lead : α) (items : List α) : Prop :=
  forall i, items[i]? = some mark -> exists j, j + 1 = i ∧ items[j]? = some lead

theorem led_cons {mark a : α} (h : a ≠ mark) {lead : α} {items : List α}
    (hitems : Led mark lead items) : Led mark lead (a :: items) := by
  intro i hi
  cases i with
  | zero =>
      rw [List.getElem?_cons_zero] at hi
      exact absurd (Option.some.inj hi) h
  | succ i =>
      rw [List.getElem?_cons_succ] at hi
      rcases hitems i hi with ⟨j, hj, hlead⟩
      exact ⟨j + 1, congrArg (· + 1) hj, hlead⟩

theorem led_lead_mark {mark lead : α} (h : lead ≠ mark) {items : List α}
    (hitems : Led mark lead items) : Led mark lead (lead :: mark :: items) := by
  intro i hi
  cases i with
  | zero =>
      rw [List.getElem?_cons_zero] at hi
      exact absurd (Option.some.inj hi) h
  | succ i =>
      cases i with
      | zero => exact ⟨0, rfl, rfl⟩
      | succ i =>
          rw [List.getElem?_cons_succ, List.getElem?_cons_succ] at hi
          rcases hitems i hi with ⟨j, hj, hlead⟩
          exact ⟨j + 2, congrArg (· + 2) hj, hlead⟩

section Expand

variable [DecidableEq α]

def expand (mark lead : α) (items : List α) : List α :=
  items.flatMap fun a => if a = mark then [lead, a] else [a]

theorem expand_mark (mark lead : α) (rest : List α) :
    expand mark lead (mark :: rest) = lead :: mark :: expand mark lead rest := by
  simp [expand]

theorem expand_other {mark a : α} (h : a ≠ mark) (lead : α) (rest : List α) :
    expand mark lead (a :: rest) = a :: expand mark lead rest := by
  simp [expand, h]

theorem expand_head {mark lead : α} (h : lead ≠ mark) (items rest : List α) :
    expand mark lead items ≠ mark :: rest := by
  cases items with
  | nil => simp [expand]
  | cons a items =>
      by_cases ha : a = mark
      · rw [ha, expand_mark]
        simp [h]
      · rw [expand_other ha]
        simp [ha]

theorem expand_injective {mark lead : α} (h : lead ≠ mark) {first second : List α}
    (heq : expand mark lead first = expand mark lead second) : first = second := by
  induction first generalizing second with
  | nil =>
      cases second with
      | nil => rfl
      | cons b second =>
          by_cases hb : b = mark
          · rw [hb, expand_mark] at heq
            cases heq
          · rw [expand_other hb] at heq
            cases heq
  | cons a first ih =>
      cases second with
      | nil =>
          by_cases ha : a = mark
          · rw [ha, expand_mark] at heq
            cases heq
          · rw [expand_other ha] at heq
            cases heq
      | cons b second =>
          by_cases ha : a = mark
          · by_cases hb : b = mark
            · rw [ha, hb, expand_mark, expand_mark] at heq
              injection heq with _ htail
              injection htail with _ hrest
              rw [ha, hb, ih hrest]
            · -- the mark of the first row would have to start the rest of the second
              rw [ha, expand_mark, expand_other hb] at heq
              injection heq with _ htail
              exact absurd htail.symm (expand_head h second _)
          · by_cases hb : b = mark
            · rw [hb, expand_mark, expand_other ha] at heq
              injection heq with _ htail
              exact absurd htail (expand_head h first _)
            · rw [expand_other ha, expand_other hb] at heq
              injection heq with hhead hrest
              rw [hhead, ih hrest]

theorem expand_led {mark lead : α} (h : lead ≠ mark) (items : List α) :
    Led mark lead (expand mark lead items) := by
  induction items with
  | nil =>
      intro i hi
      simp [expand] at hi
  | cons a rest ih =>
      by_cases ha : a = mark
      · rw [ha, expand_mark]
        exact led_lead_mark h ih
      · rw [expand_other ha]
        exact led_cons ha ih

end Expand

end Escape

end Foundation
