import Mathlib.Data.List.Perm.Basic
import Mathlib.Data.List.Nodup

/-!
# Ledgers

A list is a *ledger* of a resource when it has exactly the live items, each once.
Bookkeeping that spreads the items over several lists is correct when the lists,
one after the other, are a ledger; moving an item from one list to another is then
a permutation.

`foldl_rule` is the rule for a `for` loop over a list: its invariant speaks about the
items still to come.
-/

namespace Datapath.Lib

variable {A S : Type*}

/-- `l` has exactly the live items, each once. -/
structure Ledger (live : A → Prop) (l : List A) : Prop where
  nodup : l.Nodup
  live_iff : ∀ a, live a ↔ a ∈ l

namespace Ledger

variable {live live' : A → Prop} {l l' : List A} {a : A}

/-- The order of a ledger does not matter. -/
theorem perm (h : Ledger live l) (hp : l.Perm l') : Ledger live l' where
  nodup := hp.nodup_iff.1 h.nodup
  live_iff a := (h.live_iff a).trans hp.mem_iff

theorem congr (h : Ledger live l) (hlive : ∀ a, live' a ↔ live a) : Ledger live' l where
  nodup := h.nodup
  live_iff a := (hlive a).trans (h.live_iff a)

/-- A new item is added. -/
theorem alloc (h : Ledger live l) (hnew : ¬ live a) (hlive : ∀ b, live' b ↔ b = a ∨ live b) :
    Ledger live' (a :: l) where
  nodup := List.nodup_cons.2 ⟨fun ha ↦ hnew ((h.live_iff a).2 ha), h.nodup⟩
  live_iff b := by rw [hlive b, List.mem_cons, h.live_iff b]

/-- An item is released. -/
theorem free (h : Ledger live (a :: l)) (hlive : ∀ b, live' b ↔ b ≠ a ∧ live b) :
    Ledger live' l where
  nodup := (List.nodup_cons.1 h.nodup).2
  live_iff b := by
    rw [hlive b, h.live_iff b, List.mem_cons]
    constructor
    · rintro ⟨hne, rfl | hb⟩
      · exact absurd rfl hne
      · exact hb
    · intro hb
      exact ⟨fun hba ↦ (List.nodup_cons.1 h.nodup).1 (hba ▸ hb), .inr hb⟩

end Ledger

/-- **The rule of a loop over a list.**  `I rest s` is the invariant when `rest` is
still to be visited. -/
theorem foldl_rule {f : S → A → S} {I : List A → S → Prop}
    (hstep : ∀ a rest s, I (a :: rest) s → I rest (f s a)) :
    ∀ {l : List A} {s : S}, I l s → I [] (l.foldl f s) := by
  intro l
  induction l with
  | nil =>
      intro s h
      exact h
  | cons a rest ih =>
      intro s h
      exact ih (hstep a rest s h)

/-- What no round of a loop changes is not changed by the loop. -/
theorem foldl_keeps {B : Type*} (g : S → B) {f : S → A → S} (hstep : ∀ s a, g (f s a) = g s)
    (l : List A) (s : S) : g (l.foldl f s) = g s :=
  foldl_rule (I := fun _ s' ↦ g s' = g s) (fun a _ s' hs' ↦ (hstep s' a).trans hs') rfl

end Datapath.Lib
