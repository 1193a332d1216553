import Mathlib.Data.List.Basic

/-!
# Loops over a list that grows

A `for` loop over a linked list visits what its body appends to the list as well.  A
`Visit` is such a loop under way: the list as it is, how many of its items have been
visited, and whatever else the body changes.

The items are visited in the order of the list, those that were there first before all
others (`after_items`, `after_pos_eq`), and the loop ends exactly if the list does not grow for
ever (`ends_iff`).
-/

namespace Datapath.Lib

/-- A loop over a list under way. -/
structure Visit (A U : Type*) where
  items : List A
  pos : ℕ
  state : U

namespace Visit

variable {A U : Type*} (body : A → U → U × List A)

/-- One round: the body visits an item, and appends others to the list. -/
def next (v : Visit A U) : Option (Visit A U) :=
  v.items[v.pos]?.map fun a ↦
    { items := v.items ++ (body a v.state).2, pos := v.pos + 1, state := (body a v.state).1 }

/-- What has become of the loop after so many rounds, if it has not ended before. -/
def after : ℕ → Visit A U → Visit A U
  | 0, v => v
  | n + 1, v =>
      match v.next body with
      | none => v
      | some v' => after n v'

/-- All items have been visited. -/
def Ended (v : Visit A U) : Prop := v.items.length ≤ v.pos

instance (v : Visit A U) : Decidable v.Ended := inferInstanceAs (Decidable (_ ≤ _))

variable {body} {v v' : Visit A U}

theorem next_eq_none : v.next body = none ↔ v.Ended := by
  rw [next, Option.map_eq_none_iff, List.getElem?_eq_none_iff]
  exact .rfl

theorem next_cases (h : v.next body = some v') : v.items <+: v'.items ∧ v'.pos = v.pos + 1 ∧
    v.pos < v.items.length := by
  obtain ⟨a, ha, rfl⟩ := Option.map_eq_some_iff.1 h
  exact ⟨List.prefix_append _ _, rfl, (List.getElem?_eq_some_iff.1 ha).1⟩

theorem after_succ (h : v.next body = some v') (n : ℕ) : v.after body (n + 1) = v'.after body n := by
  rw [after, h]

theorem after_of_ended (h : v.Ended) (n : ℕ) : v.after body n = v := by
  cases n with
  | zero => rfl
  | succ n => rw [after, next_eq_none.2 h]

/-- What the loop does to the list: it only appends. -/
theorem after_items (n : ℕ) : ∀ v : Visit A U, v.items <+: (v.after body n).items := by
  induction n with
  | zero =>
      intro v
      exact List.prefix_refl _
  | succ n ih =>
      intro v
      unfold after
      split
      · exact List.prefix_refl _
      · rename_i v' hnext
        exact (next_cases hnext).1.trans (ih v')

/-- Rounds add up. -/
theorem after_add (m n : ℕ) : ∀ v : Visit A U, v.after body (m + n) = (v.after body m).after body n := by
  induction m with
  | zero =>
      intro v
      rw [Nat.zero_add]
      rfl
  | succ m ih =>
      intro v
      rw [Nat.succ_add]
      cases hnext : v.next body with
      | none =>
          have hended := next_eq_none.1 hnext
          rw [after_of_ended hended, after_of_ended hended, after_of_ended hended]
      | some v' =>
          rw [after_succ hnext, after_succ hnext]
          exact ih v'

/-- A loop that has not ended after so many rounds has visited as many items. -/
theorem after_pos (body : A → U → U × List A) (n : ℕ) : ∀ v : Visit A U,
    (v.after body n).pos = v.pos + n ∨ ((v.after body n).Ended ∧ (v.after body n).pos ≤ v.pos + n) := by
  induction n with
  | zero =>
      intro v
      exact .inl rfl
  | succ n ih =>
      intro v
      cases hnext : v.next body with
      | none =>
          have hended := next_eq_none.1 hnext
          rw [after_of_ended hended]
          exact .inr ⟨hended, Nat.le_add_right _ _⟩
      | some v' =>
          have hpos := (next_cases hnext).2.1
          rw [after_succ hnext]
          rcases ih v' with heq | ⟨hended, hle⟩
          · left
            rw [heq, hpos]
            omega
          · refine .inr ⟨hended, ?_⟩
            rw [hpos] at hle
            omega

/-- The position stays within the list. -/
theorem after_pos_le (body : A → U → U × List A) (n : ℕ) : ∀ v : Visit A U, v.pos ≤ v.items.length →
    (v.after body n).pos ≤ (v.after body n).items.length := by
  induction n with
  | zero =>
      intro v h
      exact h
  | succ n ih =>
      intro v h
      unfold after
      split
      · exact h
      · rename_i v' hnext
        obtain ⟨hitems, hpos, hlt⟩ := next_cases hnext
        exact ih v' (hpos ▸ Nat.le_trans hlt hitems.length_le)

/-- As many rounds as there are items to visit do not run past them. -/
theorem after_pos_eq {n : ℕ} (h : v.pos + n ≤ v.items.length) : (v.after body n).pos = v.pos + n := by
  rcases after_pos body n v with heq | ⟨hended, hle⟩
  · exact heq
  · exact Nat.le_antisymm hle (Nat.le_trans h (Nat.le_trans (after_items n v).length_le hended))

/-- **The loop ends** exactly if the list stays below some length. -/
theorem ends_iff (body : A → U → U × List A) (hv : v.pos ≤ v.items.length) :
    (∃ n, (v.after body n).Ended) ↔ ∃ b, ∀ n, (v.after body n).items.length ≤ b := by
  constructor
  · rintro ⟨n, hended⟩
    refine ⟨(v.after body n).items.length, fun m ↦ ?_⟩
    rcases Nat.le_total m n with hle | hle
    · obtain ⟨k, rfl⟩ := Nat.exists_eq_add_of_le hle
      rw [after_add]
      exact (after_items k _).length_le
    · obtain ⟨k, rfl⟩ := Nat.exists_eq_add_of_le hle
      have hstays : v.after body (n + k) = v.after body n := by
        rw [after_add, after_of_ended hended]
      exact Nat.le_of_eq (congrArg (fun v' : Visit A U ↦ v'.items.length) hstays)
  · rintro ⟨b, hb⟩
    refine ⟨b + 1, ?_⟩
    rcases after_pos body (b + 1) v with heq | ⟨hended, -⟩
    · have hle := after_pos_le body (b + 1) v hv
      have hbound := hb (b + 1)
      exact absurd (heq ▸ hle) (by omega)
    · exact hended

end Visit

end Datapath.Lib
