import Mathlib.Data.List.Basic
import Mathlib.Order.Lattice

/-!
# The first of the lightest

A loop that keeps the lightest element seen so far, starting from none of them and a
sentinel that stands for its load.  An element replaces the one kept if it is lighter, so
that among equals the first one stays.
-/

namespace Datapath.Lib

variable {A : Type*} {load : A → ℕ} {cap : ℕ} {l : List A} {a b : A}

/-- One round of the loop. -/
def lighter (cap : ℕ) (load : A → ℕ) (best : Option A) (a : A) : Option A :=
  if load a < (best.map load).getD cap then some a else best

/-- The whole loop. -/
def lightest (cap : ℕ) (load : A → ℕ) (l : List A) : Option A := l.foldl (lighter cap load) none

/-- `a` is the first of the lightest elements of `l`. -/
def FirstLightest (load : A → ℕ) (l : List A) (a : A) : Prop :=
  ∃ l₁ l₂, l = l₁ ++ a :: l₂ ∧ (∀ b ∈ l₁, load a < load b) ∧ ∀ b ∈ l₂, load a ≤ load b

theorem FirstLightest.mem (h : FirstLightest load l a) : a ∈ l := by
  obtain ⟨l₁, l₂, rfl, -, -⟩ := h
  exact List.mem_append_right _ List.mem_cons_self

/-- In a list in the order of `key`, the first of the lightest comes before its equals. -/
theorem FirstLightest.lt_or {key : A → ℕ} (h : FirstLightest load l a)
    (hsorted : (l.map key).Pairwise (· < ·)) (hb : b ∈ l) :
    load a < load b ∨ load a = load b ∧ key a ≤ key b := by
  obtain ⟨l₁, l₂, rfl, hbefore, hafter⟩ := h
  rw [List.map_append, List.map_cons, List.pairwise_append, List.pairwise_cons] at hsorted
  rcases List.mem_append.1 hb with hb | hb
  · exact .inl (hbefore b hb)
  · rcases List.mem_cons.1 hb with rfl | hb
    · exact .inr ⟨rfl, le_rfl⟩
    · have hkey : key a < key b := hsorted.2.1.1 _ (List.mem_map_of_mem hb)
      rcases (hafter b hb).lt_or_eq with hlt | heq
      · exact .inl hlt
      · exact .inr ⟨heq, hkey.le⟩

variable (cap load) in
/-- The loop, from whatever it has kept so far: either it keeps that, and no element is
lighter, or it ends with the first of the lightest elements. -/
theorem foldl_lighter (best : Option A) (l : List A) :
    (l.foldl (lighter cap load) best = best ∧ ∀ b ∈ l, (best.map load).getD cap ≤ load b) ∨
      ∃ a, l.foldl (lighter cap load) best = some a ∧ FirstLightest load l a ∧
        load a < (best.map load).getD cap := by
  induction l generalizing best with
  | nil => exact .inl ⟨rfl, List.forall_mem_nil _⟩
  | cons a l ih =>
      rw [List.foldl_cons]
      by_cases ha : load a < (best.map load).getD cap
      · -- `a` replaces what has been kept
        have hround : lighter cap load best a = some a := if_pos ha
        rw [hround]
        right
        rcases ih (some a) with ⟨hkeep, hall⟩ | ⟨b, hb, ⟨l₁, l₂, rfl, hbefore, hafter⟩, hlt⟩
        · exact ⟨a, hkeep, ⟨[], l, rfl, List.forall_mem_nil _, hall⟩, ha⟩
        · refine ⟨b, hb, ⟨a :: l₁, l₂, rfl, ?_, hafter⟩, hlt.trans ha⟩
          exact List.forall_mem_cons.2 ⟨hlt, hbefore⟩
      · have hround : lighter cap load best a = best := if_neg ha
        have hle : (best.map load).getD cap ≤ load a := not_lt.1 ha
        rw [hround]
        rcases ih best with ⟨hkeep, hall⟩ | ⟨b, hb, ⟨l₁, l₂, rfl, hbefore, hafter⟩, hlt⟩
        · exact .inl ⟨hkeep, List.forall_mem_cons.2 ⟨hle, hall⟩⟩
        · refine .inr ⟨b, hb, ⟨a :: l₁, l₂, rfl, ?_, hafter⟩, hlt⟩
          exact List.forall_mem_cons.2 ⟨hlt.trans_le hle, hbefore⟩

/-- The loop ends without an element if there is none below the sentinel. -/
theorem lightest_eq_none : lightest cap load l = none ↔ ∀ b ∈ l, cap ≤ load b := by
  constructor
  · intro hnone
    rcases foldl_lighter load cap none l with ⟨-, hall⟩ | ⟨a, ha, -, -⟩
    · exact hall
    · exact absurd (ha.symm.trans hnone) (Option.some_ne_none a)
  · intro hall
    rcases foldl_lighter load cap none l with ⟨hkeep, -⟩ | ⟨a, -, hfirst, hlt⟩
    · exact hkeep
    · exact absurd hlt (not_lt.2 (hall a hfirst.mem))

/-- What the loop ends with is the first of the lightest elements, and below the sentinel. -/
theorem lightest_eq_some (ha : lightest cap load l = some a) :
    FirstLightest load l a ∧ load a < cap := by
  rcases foldl_lighter load cap none l with ⟨hkeep, -⟩ | ⟨b, hb, hfirst, hlt⟩
  · exact absurd (ha.symm.trans hkeep) (Option.some_ne_none a)
  · obtain rfl : b = a := Option.some.inj (hb.symm.trans ha)
    exact ⟨hfirst, hlt⟩

end Datapath.Lib
