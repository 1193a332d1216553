import Datapath.Lib.Run

/-!
# Forward simulation

One system is simulated by another if each of its steps is matched by a run of the other
one that takes the labels which the step emits.  A step that emits nothing is matched by
no step at all.  Then a whole run is matched by a run that takes all that it emits
(`Simulation.run`), and what holds of the labels of every run of the other system holds of
what is emitted.

The steps that are matched are those that meet a condition, so that a system which refines
its specification only as long as it is used well can be simulated nevertheless.
-/

namespace Datapath.Lib

variable {S L A K : Type*} {step : S → L → Option S} {stepA : A → K → Option A}

/-- There is a run from `s` to `s'` that takes these labels. -/
def Steps (step : S → L → Option S) (s : S) (ls : List L) (s' : S) : Prop :=
  ∃ ts, Run step s ts s' ∧ ts.map Transition.label = ls

namespace Steps

variable {s s' s'' : S} {ls ls' : List L}

theorem nil (s : S) : Steps step s [] s := ⟨[], .nil s, rfl⟩

theorem cons {l : L} (hs : step s l = some s') (h : Steps step s' ls s'') :
    Steps step s (l :: ls) s'' := by
  obtain ⟨ts, hrun, rfl⟩ := h
  exact ⟨⟨s, l, s'⟩ :: ts, .cons hs hrun, rfl⟩

theorem single {l : L} (hs : step s l = some s') : Steps step s [l] s' := .cons hs (.nil s')

theorem append (h : Steps step s ls s') (h' : Steps step s' ls' s'') : Steps step s (ls ++ ls') s'' := by
  obtain ⟨ts, hrun, rfl⟩ := h
  obtain ⟨ts', hrun', rfl⟩ := h'
  exact ⟨ts ++ ts', hrun.append hrun', List.map_append⟩

end Steps

/-- Related by `R`, the steps that meet `H` are matched by runs that take what they `emit`. -/
structure Simulation (step : S → L → Option S) (stepA : A → K → Option A)
    (emit : Transition S L → List K) (H : Transition S L → Prop) (R : S → A → Prop) : Prop where
  matched : ∀ (t : Transition S L) (a : A), step t.src t.label = some t.dst → H t → R t.src a →
    ∃ a', Steps stepA a (emit t) a' ∧ R t.dst a'

namespace Simulation

variable {emit : Transition S L → List K} {H : Transition S L → Prop} {R : S → A → Prop}
variable {s s' : S} {ts : List (Transition S L)} {a : A}

/-- **A simulation of steps is one of runs.** -/
theorem run (sim : Simulation step stepA emit H R) (h : Run step s ts s') (h₀ : R s a)
    (hH : ∀ t ∈ ts, H t) : ∃ a', Steps stepA a (ts.flatMap emit) a' ∧ R s' a' := by
  induction h generalizing a with
  | nil => exact ⟨a, .nil a, h₀⟩
  | @cons s₀ s₁ s₂ l ts hs _ ih =>
      obtain ⟨hfirst, hrest⟩ := List.forall_mem_cons.1 hH
      obtain ⟨a₁, hsteps, h₁⟩ := sim.matched ⟨s₀, l, s₁⟩ a hs hfirst h₀
      obtain ⟨a₂, hsteps', h₂⟩ := ih h₁ hrest
      exact ⟨a₂, hsteps.append hsteps', h₂⟩

end Simulation

end Datapath.Lib
