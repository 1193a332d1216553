import Mathlib.Data.List.Basic

/-!
# Runs of a partial step function

A system is given by a step function `step : S → L → Option S`: the label `l` is
enabled in `s` when `step s l` is defined.  `Run step s ts s'` is a finite run
from `s` to `s'` that remembers its transitions, so that a property of a whole
run can speak about every step it took and every state it passed.

Seven rules carry most of the work.

* `Run.invariant` is the induction rule: what every admissible step preserves
  holds all along a run of admissible steps.
* `Run.forall_of_before` is the rule of *one step after another*: all steps are admissible
  when each is that comes after admissible ones only.
* `Run.forall_iff` is the *first failure* rule.  If, under an invariant, a step
  is correct exactly when it meets a condition, and a step that meets the
  condition keeps the invariant, then a run is correct throughout exactly when
  every one of its steps meets the condition.  Nothing is claimed about what the
  system does after its first incorrect step, and nothing has to be.  `Run.forall_iff_not`
  is the same where one lemma has both cases of a step.
* `Run.pairwise_iff` is the rule of *two modes*.  In the first one every step is
  correct, and some steps trip the system into the second one, where a step is correct
  as long as it is not of a certain kind.  Then a run is correct throughout exactly when
  no step of that kind comes after a step that trips it.
* `Run.queue` is the *queue* rule: a first-in first-out discipline that every step
  respects is respected by the run.
* `Run.length_le` is the rule of *termination*: where every step lowers a measure, a run has
  no more steps than the measure allows.
* `Run.grows` is the rule of *what only grows*: where every step goes up in a preorder, the
  end of a run is above all states that the run passes.
-/

namespace Datapath.Lib

variable {S L : Type*}

/-- One step of a run: the state it starts in, its label, the state it ends in. -/
structure Transition (S L : Type*) where
  src : S
  label : L
  dst : S

/-- `Run step s ts s'`: taking the transitions `ts` one after the other leads
from `s` to `s'`. -/
inductive Run (step : S → L → Option S) : S → List (Transition S L) → S → Prop
  /-- The run that takes no step. -/
  | nil (s : S) : Run step s [] s
  /-- A first step, and a run from where it leads. -/
  | cons {s s' s'' : S} {l : L} {ts : List (Transition S L)} :
      step s l = some s' → Run step s' ts s'' → Run step s (⟨s, l, s'⟩ :: ts) s''

namespace Run

variable {step : S → L → Option S} {s s' : S} {ts : List (Transition S L)}

/-- Every transition of a run is a step of the system. -/
theorem step_of_mem (h : Run step s ts s') {t : Transition S L} (ht : t ∈ ts) :
    step t.src t.label = some t.dst := by
  induction h with
  | nil => exact absurd ht List.not_mem_nil
  | cons hs _ ih =>
      rcases List.mem_cons.1 ht with rfl | ht
      · exact hs
      · exact ih ht

/-- A run that takes one list of transitions after another is one run after another. -/
theorem split {ts' : List (Transition S L)} (h : Run step s (ts ++ ts') s') :
    ∃ m, Run step s ts m ∧ Run step m ts' s' := by
  induction ts generalizing s with
  | nil => exact ⟨s, .nil s, h⟩
  | cons t ts ih =>
      cases h with
      | cons hs hrest =>
          obtain ⟨m, hfirst, hlast⟩ := ih hrest
          exact ⟨m, .cons hs hfirst, hlast⟩

/-- One run after another is a run. -/
theorem append {ts' : List (Transition S L)} {s'' : S} (h : Run step s ts s')
    (h' : Run step s' ts' s'') : Run step s (ts ++ ts') s'' := by
  induction h with
  | nil => exact h'
  | cons hs _ ih => exact .cons hs (ih h')

/-- The first transition of a run starts where the run starts. -/
theorem src_eq {t : Transition S L} (h : Run step s (t :: ts) s') : t.src = s := by
  cases h
  rfl

/-- The last transition of a run ends where the run ends. -/
theorem dst_eq {t : Transition S L} (h : Run step s (ts ++ [t]) s') : t.dst = s' := by
  obtain ⟨m, -, hlast⟩ := h.split
  cases hlast with
  | cons _ hnil =>
      cases hnil
      rfl

/-- **Induction along a run.**  If every step that meets `C` preserves `I`, then
`I` holds in every state of a run all of whose steps meet `C`. -/
theorem invariant {I : S → Prop} {C : Transition S L → Prop}
    (hI : ∀ t : Transition S L, step t.src t.label = some t.dst → C t → I t.src → I t.dst)
    (h : Run step s ts s') (h₀ : I s) (hC : ∀ t ∈ ts, C t) :
    I s' ∧ ∀ t ∈ ts, I t.src ∧ I t.dst := by
  induction h with
  | nil => exact ⟨h₀, fun _ ht ↦ absurd ht List.not_mem_nil⟩
  | @cons s₀ s₁ s₂ l ts hs _ ih =>
      have h₁ : I s₁ := hI ⟨s₀, l, s₁⟩ hs (hC _ List.mem_cons_self) h₀
      obtain ⟨hlast, hall⟩ := ih h₁ fun t ht ↦ hC t (List.mem_cons_of_mem _ ht)
      refine ⟨hlast, fun t ht ↦ ?_⟩
      rcases List.mem_cons.1 ht with rfl | ht
      · exact ⟨h₀, h₁⟩
      · exact hall t ht

/-- **Step after step.**  If steps that meet `C` preserve `I`, and a step meets `C` when `I`
holds before it, as it does when all steps before meet `C`, then all steps meet `C`. -/
theorem forall_of_before {I : S → Prop} {C : Transition S L → Prop}
    (hI : ∀ t : Transition S L, step t.src t.label = some t.dst → C t → I t.src → I t.dst)
    (h : Run step s ts s') (h₀ : I s)
    (hC : ∀ ts₁ t, ts₁ ++ [t] <+: ts → Run step s ts₁ t.src → I t.src → C t) : ∀ t ∈ ts, C t := by
  induction h with
  | nil => exact List.forall_mem_nil _
  | @cons s₀ s₁ s₂ l ts hs _ ih =>
      have hfirst : C ⟨s₀, l, s₁⟩ :=
        hC [] ⟨s₀, l, s₁⟩ (List.prefix_append [_] ts) (.nil s₀) h₀
      refine List.forall_mem_cons.2 ⟨hfirst, ih (hI ⟨s₀, l, s₁⟩ hs hfirst h₀) fun ts₁ t hp hrun ↦ ?_⟩
      exact hC (⟨s₀, l, s₁⟩ :: ts₁) t (List.cons_prefix_cons.2 ⟨rfl, hp⟩) (.cons hs hrun)

/-- **First failure.**  Under an invariant `I`, and for steps of which `H` holds, let
a step be correct (`Q`) exactly when it meets `C`, and let the steps that meet `C`
preserve `I`.  Then a run is correct in every step exactly when every step meets
`C`. -/
theorem forall_iff {I : S → Prop} {H C Q : Transition S L → Prop}
    (hI : ∀ t : Transition S L, step t.src t.label = some t.dst → H t → C t → I t.src → I t.dst)
    (hQ : ∀ t : Transition S L, step t.src t.label = some t.dst → H t → I t.src → (Q t ↔ C t))
    (h : Run step s ts s') (h₀ : I s) (hH : ∀ t ∈ ts, H t) : (∀ t ∈ ts, Q t) ↔ ∀ t ∈ ts, C t := by
  induction h with
  | nil => simp
  | @cons s₀ s₁ s₂ l ts hs _ ih =>
      rw [List.forall_mem_cons] at hH
      rw [List.forall_mem_cons, List.forall_mem_cons, hQ ⟨s₀, l, s₁⟩ hs hH.1 h₀]
      exact and_congr_right fun hC ↦ ih (hI ⟨s₀, l, s₁⟩ hs hH.1 hC h₀) hH.2

/-- **First failure, with the cases of a step.**  If every step either fails, and is not
correct, or does not fail, is correct and keeps the invariant, then a run is correct in
every step exactly when none fails. -/
theorem forall_iff_not {I : S → Prop} {F Q : Transition S L → Prop}
    (hstep : ∀ t : Transition S L, step t.src t.label = some t.dst → I t.src →
      (F t ∧ ¬ Q t) ∨ (¬ F t ∧ Q t ∧ I t.dst))
    (h : Run step s ts s') (h₀ : I s) : (∀ t ∈ ts, Q t) ↔ ∀ t ∈ ts, ¬ F t := by
  refine h.forall_iff (I := I) (H := fun _ ↦ True) (fun t hs _ hnot hI ↦ ?_) (fun t hs _ hI ↦ ?_) h₀
    fun _ _ ↦ trivial
  · rcases hstep t hs hI with ⟨hF, -⟩ | ⟨-, -, hdst⟩
    · exact absurd hF hnot
    · exact hdst
  · rcases hstep t hs hI with ⟨hF, hQ⟩ | ⟨hF, hQ, -⟩
    · exact iff_of_false hQ (not_not.2 hF)
    · exact iff_of_true hQ hF

/-- **Two modes.**  In the mode `A` steps are correct, and lead to the mode `B` when they
trip; in the mode `B` steps are correct unless they relapse, and stay there. -/
theorem pairwise_iff {A B : S → Prop} {H Q trips relapses : Transition S L → Prop}
    (hA : ∀ t : Transition S L, step t.src t.label = some t.dst → H t → A t.src →
      Q t ∧ ((¬ trips t ∧ A t.dst) ∨ (trips t ∧ B t.dst)))
    (hB : ∀ t : Transition S L, step t.src t.label = some t.dst → H t → B t.src →
      (Q t ↔ ¬ relapses t) ∧ (¬ relapses t → B t.dst))
    (h : Run step s ts s') (h₀ : A s) (hH : ∀ t ∈ ts, H t) :
    (∀ t ∈ ts, Q t) ↔ ts.Pairwise fun a b ↦ trips a → ¬ relapses b := by
  induction h with
  | nil => simp
  | @cons s₀ s₁ s₂ l ts hs hrest ih =>
      rw [List.forall_mem_cons] at hH ⊢
      rw [List.pairwise_cons]
      obtain ⟨hq, ⟨hstay, hA₁⟩ | ⟨htrip, hB₁⟩⟩ := hA ⟨s₀, l, s₁⟩ hs hH.1 h₀
      · rw [ih hA₁ hH.2]
        exact ⟨fun hall ↦ ⟨fun _ _ htrip ↦ absurd htrip hstay, hall.2⟩, fun hall ↦ ⟨hq, hall.2⟩⟩
      · have hlater : (∀ t ∈ ts, Q t) ↔ ∀ t ∈ ts, ¬ relapses t :=
          hrest.forall_iff (I := B) (fun t ht hH hC hI ↦ (hB t ht hH hI).2 hC)
            (fun t ht hH hI ↦ (hB t ht hH hI).1) hB₁ hH.2
        rw [hlater]
        constructor
        · rintro ⟨-, hnone⟩
          refine ⟨fun t ht _ ↦ hnone t ht, ?_⟩
          exact List.pairwise_of_forall_mem_list fun _ _ t ht _ ↦ hnone t ht
        · rintro ⟨hnone, -⟩
          exact ⟨hq, fun t ht ↦ hnone t ht htrip⟩

/-- **A queue along a run.**  If in every step what was in the queue and what enters it
is what leaves it and what is in it afterwards, then so it is for the run. -/
theorem queue {A : Type*} (q : S → List A) (enters leaves : Transition S L → List A)
    (h : Run step s ts s') (hstep : ∀ t ∈ ts, q t.src ++ enters t = leaves t ++ q t.dst) :
    q s ++ ts.flatMap enters = ts.flatMap leaves ++ q s' := by
  induction h with
  | nil => simp
  | @cons s₀ s₁ s₂ l ts _ _ ih =>
      obtain ⟨hfirst, hrest⟩ := List.forall_mem_cons.1 hstep
      rw [List.flatMap_cons, List.flatMap_cons, ← List.append_assoc, hfirst, List.append_assoc,
        ih hrest, List.append_assoc]

/-- **Termination.**  Steps that lower a measure come to an end. -/
theorem length_le (μ : S → ℕ) (h : Run step s ts s') (hstep : ∀ t ∈ ts, μ t.dst < μ t.src) :
    ts.length + μ s' ≤ μ s := by
  induction h with
  | nil => exact Nat.le_of_eq (Nat.zero_add _)
  | @cons s₀ s₁ s₂ l ts _ _ ih =>
      obtain ⟨hfirst, hrest⟩ := List.forall_mem_cons.1 hstep
      have hlt : μ s₁ < μ s₀ := hfirst
      have hle := ih hrest
      rw [List.length_cons]
      omega

/-- **What only grows.**  A run ends above where it starts, and above every state that it
passes. -/
theorem grows {r : S → S → Prop} (hrefl : ∀ s, r s s) (htrans : ∀ a b c, r a b → r b c → r a c)
    (hstep : ∀ s l s', step s l = some s' → r s s') (h : Run step s ts s') :
    r s s' ∧ ∀ t ∈ ts, r t.src s' ∧ r t.dst s' := by
  induction h with
  | nil s => exact ⟨hrefl s, List.forall_mem_nil _⟩
  | @cons s₀ s₁ s₂ l ts hs _ ih =>
      have hfirst : r s₀ s₂ := htrans _ _ _ (hstep _ _ _ hs) ih.1
      exact ⟨hfirst, List.forall_mem_cons.2 ⟨⟨hfirst, ih.1⟩, ih.2⟩⟩

end Run

/-- Evaluate a list of labels from a state, keeping the transitions taken. -/
def trace (step : S → L → Option S) : S → List L → Option (List (Transition S L) × S)
  | s, [] => some ([], s)
  | s, l :: ls =>
      (step s l).bind fun s' ↦ (trace step s' ls).map fun r ↦ (⟨s, l, s'⟩ :: r.1, r.2)

/-- What `trace` evaluates is a run. -/
theorem Run.of_trace {step : S → L → Option S} :
    ∀ {s : S} {ls : List L} {r : List (Transition S L) × S},
      trace step s ls = some r → Run step s r.1 r.2
  | s, [], r, h => by
      cases h
      exact .nil s
  | s, l :: ls, r, h => by
      rw [trace, Option.bind_eq_some_iff] at h
      obtain ⟨s', hs, h⟩ := h
      rw [Option.map_eq_some_iff] at h
      obtain ⟨r', hr, rfl⟩ := h
      exact .cons hs (Run.of_trace hr)

/-- A property of the state that an evaluation ends in is a property of the end of
a run. -/
theorem Run.exists_of_trace (step : S → L → Option S) (s : S) (ls : List L)
    (P : List (Transition S L) → S → Prop) (h : ∃ r, trace step s ls = some r ∧ P r.1 r.2) :
    ∃ ts s', Run step s ts s' ∧ P ts s' := by
  obtain ⟨r, hr, hp⟩ := h
  exact ⟨r.1, r.2, Run.of_trace hr, hp⟩

/-- An evaluation takes the labels it was given. -/
theorem map_label_trace {step : S → L → Option S} :
    ∀ {s : S} {ls : List L} {r : List (Transition S L) × S},
      trace step s ls = some r → r.1.map Transition.label = ls
  | s, [], r, h => by
      cases h
      rfl
  | s, l :: ls, r, h => by
      rw [trace, Option.bind_eq_some_iff] at h
      obtain ⟨s', -, h⟩ := h
      rw [Option.map_eq_some_iff] at h
      obtain ⟨r', hr, rfl⟩ := h
      exact congrArg (l :: ·) (map_label_trace hr)

/-- A property of all labels of an evaluation is one of all labels of a run. -/
theorem Run.exists_of_labels (step : S → L → Option S) (s : S) (ls : List L) (Q : L → Prop)
    (P : List (Transition S L) → S → Prop) (hQ : ∀ l ∈ ls, Q l)
    (h : ∃ r, trace step s ls = some r ∧ P r.1 r.2) :
    ∃ ts s', Run step s ts s' ∧ (∀ t ∈ ts, Q t.label) ∧ P ts s' := by
  obtain ⟨r, hr, hp⟩ := h
  refine ⟨r.1, r.2, Run.of_trace hr, fun t ht ↦ hQ _ ?_, hp⟩
  rw [← map_label_trace hr]
  exact List.mem_map_of_mem ht

end Datapath.Lib
