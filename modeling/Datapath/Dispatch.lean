import Datapath.Interface
import Datapath.Lib.Growing

/-!
# Calling the listeners of an event

`event::operator()` loops over the list of listeners itself.  A listener that is called may
add others to the event, and these are behind the iterator then, and are called by the same
loop.  So all listeners that are there in the beginning are called first, once each and in
order, and the loop ends exactly if the listeners do not go on adding listeners for ever
(`dispatch_spec`).
-/

namespace Datapath

open Datapath.Lib

/-- `event::operator()` under way. -/
structure Dispatch (F U : Type*) where
  event : Event F
  /-- How many listeners the iterator has passed. -/
  itr : ℕ
  /-- Whatever the listeners change. -/
  state : U
  /-- The listeners that have been called. -/
  calls : List F
deriving DecidableEq, Repr

namespace Dispatch

variable {F U : Type*} (act : F → U → U × List F)

/-- One round of the loop.  `act` is what a listener does when it is called: it changes the
state, and adds some listeners to the event.  What `on_add` does to them, if it is set, is
part of it. -/
def round (d : Dispatch F U) : Option (Dispatch F U) :=
  match d.event.listeners[d.itr]? with
  | none => none
  | some l =>
      let (state, added) := act l d.state
      some {
        event := added.foldl Event.add d.event
        itr := d.itr + 1
        state
        calls := d.calls ++ [l] }

/-- So many rounds, if the loop does not end before. -/
def rounds : ℕ → Dispatch F U → Dispatch F U
  | 0, d => d
  | n + 1, d =>
      match d.round act with
      | none => d
      | some d' => rounds n d'

/-- The iterator is at the end of the list. -/
def Ended (d : Dispatch F U) : Prop := d.event.listeners.length ≤ d.itr

/-- The loop as one over a list that grows. -/
def visit (d : Dispatch F U) : Visit F U := ⟨d.event.listeners, d.itr, d.state⟩

/-- The listeners that the iterator has passed are those that have been called. -/
structure Tracks (d : Dispatch F U) : Prop where
  calls : d.calls = d.event.listeners.take d.itr
  itr : d.itr ≤ d.event.listeners.length

end Dispatch

/-- `event::operator()` after so many rounds of its loop. -/
def Event.dispatch {F U : Type*} (act : F → U → U × List F) (e : Event F) (u : U) (n : ℕ) :
    Dispatch F U :=
  Dispatch.rounds act n ⟨e, 0, u, []⟩

namespace Dispatch

variable {F U : Type*} {act : F → U → U × List F} {d d' : Dispatch F U}

theorem listeners_foldl_add (added : List F) : ∀ e : Event F,
    (added.foldl Event.add e).listeners = e.listeners ++ added := by
  induction added with
  | nil =>
      intro e
      exact (List.append_nil _).symm
  | cons f added ih =>
      intro e
      rw [List.foldl_cons, ih, Event.add, List.append_assoc, List.singleton_append]

/-- What a round does. -/
theorem round_cases (act : F → U → U × List F) (d : Dispatch F U) :
    (d.round act = none ∧ d.visit.next act = none) ∨
      ∃ d', d.round act = some d' ∧ d.visit.next act = some d'.visit ∧ (d.Tracks → d'.Tracks) := by
  unfold round
  cases hl : d.event.listeners[d.itr]? with
  | none => exact .inl ⟨rfl, congrArg _ hl⟩
  | some l =>
      refine .inr ⟨_, rfl, ?_, ?_⟩
      · rw [Visit.next, visit, hl, Option.map_some, visit, listeners_foldl_add]
      · rintro ⟨hcalls, -⟩
        obtain ⟨hlt, hget⟩ := List.getElem?_eq_some_iff.1 hl
        refine ⟨?_, ?_⟩
        · rw [listeners_foldl_add, List.take_append_of_le_length hlt, hcalls,
            List.take_add_one, hl]
          rfl
        · rw [listeners_foldl_add, List.length_append]
          exact Nat.le_trans hlt (Nat.le_add_right _ _)

theorem rounds_visit (act : F → U → U × List F) (n : ℕ) : ∀ d : Dispatch F U,
    (d.rounds act n).visit = d.visit.after act n ∧ (d.Tracks → (d.rounds act n).Tracks) := by
  induction n with
  | zero =>
      intro d
      exact ⟨rfl, id⟩
  | succ n ih =>
      intro d
      rcases round_cases act d with ⟨hround, hnext⟩ | ⟨d', hround, hnext, htracks⟩
      · rw [rounds, hround, Visit.after_of_ended (Visit.next_eq_none.1 hnext)]
        exact ⟨rfl, id⟩
      · rw [rounds, hround, Visit.after_succ hnext]
        exact ⟨(ih d').1, fun h ↦ (ih d').2 (htracks h)⟩

/-- Where listeners add themselves, there is always another one behind the iterator. -/
theorem rounds_of_self_adding (n : ℕ) : ∀ d : Dispatch F U, d.event.listeners.length = d.itr + 1 →
    ¬ (d.rounds (fun f u ↦ (u, [f])) n).Ended := by
  induction n with
  | zero =>
      intro d hd hended
      have hle : d.event.listeners.length ≤ d.itr := hended
      omega
  | succ n ih =>
      intro d hd
      have hlt : d.itr < d.event.listeners.length := by omega
      have hround : d.round (fun f u ↦ (u, [f])) = some {
          event := d.event.add d.event.listeners[d.itr], itr := d.itr + 1, state := d.state
          calls := d.calls ++ [d.event.listeners[d.itr]] } := by
        rw [round, List.getElem?_eq_getElem hlt]
        rfl
      rw [rounds, hround]
      apply ih
      show (d.event.listeners ++ [_]).length = d.itr + 1 + 1
      rw [List.length_append, List.length_singleton, hd]

end Dispatch

namespace Event

variable {F U : Type*}

theorem dispatch_visit (act : F → U → U × List F) (e : Event F) (u : U) (n : ℕ) :
    (e.dispatch act u n).visit = Visit.after act n ⟨e.listeners, 0, u⟩ ∧
      (e.dispatch act u n).Tracks := by
  obtain ⟨hvisit, htracks⟩ := Dispatch.rounds_visit act n (⟨e, 0, u, []⟩ : Dispatch F U)
  exact ⟨hvisit, htracks ⟨rfl, Nat.zero_le _⟩⟩

/-- **Calling the listeners of an event.**  The listeners that are there in the beginning are
called first, in order; what is called is always the beginning of the list, which only
grows at its end; the loop ends exactly if the list stays below some length; and when it has
ended, every listener that has been registered has been called once. -/
theorem dispatch_spec (act : F → U → U × List F) (e : Event F) (u : U) :
    (∀ n ≤ e.listeners.length, (e.dispatch act u n).calls = e.listeners.take n) ∧
    (∀ n, e.listeners <+: (e.dispatch act u n).event.listeners ∧
      (e.dispatch act u n).calls <+: (e.dispatch act u n).event.listeners) ∧
    ((∃ n, (e.dispatch act u n).Ended) ↔
      ∃ b, ∀ n, (e.dispatch act u n).event.listeners.length ≤ b) ∧
    ∀ n, (e.dispatch act u n).Ended →
      (e.dispatch act u n).calls = (e.dispatch act u n).event.listeners := by
  have hlisteners : ∀ n, (e.dispatch act u n).event.listeners =
      (Visit.after act n ⟨e.listeners, 0, u⟩).items := fun n ↦
    congrArg Visit.items (dispatch_visit act e u n).1
  have hitr : ∀ n, (e.dispatch act u n).itr = (Visit.after act n ⟨e.listeners, 0, u⟩).pos := fun n ↦
    congrArg Visit.pos (dispatch_visit act e u n).1
  have hgrows : ∀ n, e.listeners <+: (e.dispatch act u n).event.listeners := by
    intro n
    rw [hlisteners]
    exact Visit.after_items n ⟨e.listeners, 0, u⟩
  refine ⟨fun n hn ↦ ?_, fun n ↦ ⟨hgrows n, ?_⟩, ?_, fun n hended ↦ ?_⟩
  · have hpos : (e.dispatch act u n).itr = n := by
      rw [hitr, Visit.after_pos_eq (by rw [Nat.zero_add]; exact hn), Nat.zero_add]
    obtain ⟨rest, hrest⟩ := hgrows n
    rw [(dispatch_visit act e u n).2.calls, hpos, ← hrest, List.take_append_of_le_length hn]
  · rw [(dispatch_visit act e u n).2.calls]
    exact List.take_prefix _ _
  · have hends := Visit.ends_iff act (v := ⟨e.listeners, 0, u⟩) (Nat.zero_le _)
    simp only [Dispatch.Ended, hlisteners, hitr]
    exact hends
  · rw [(dispatch_visit act e u n).2.calls]
    exact List.take_of_length_le hended

/-- A listener that adds itself is called again and again. -/
theorem self_adding_never_ends :
    ¬ ∃ n, (dispatch (fun f (u : Unit) ↦ (u, [f])) ⟨[()]⟩ () n).Ended := by
  rintro ⟨n, hended⟩
  exact Dispatch.rounds_of_self_adding n _ rfl hended

end Event

end Datapath
