import Datapath.Threadpool.Push

/-!
# Balance

A pool whose tasks are pushed and accepted, one call at a time, while its workers take
steps of their own.  As long as no queue gets shorter, two workers that every task is
for, or neither of them, have queues of nearly the same length: whichever of them gets a
task has the shorter queue, however the other workers are loaded.
-/

namespace Datapath.Threadpool

open Datapath.Lib

/-- What happens between two states of the pool. -/
inductive Event where
  /-- `pool::push` is called with a task, and returns true. -/
  | push (task : Task)
  /-- A step of a worker. -/
  | worker (idx : ℕ) (l : Label)
deriving DecidableEq, Repr

namespace Pool

variable {p p' : Pool} {ts : List (Transition Pool Event)} {idx i j : ℕ} {w w' : Worker}

/-- The pool after an event. -/
def after (p : Pool) : Event → Option Pool
  | .push task =>
      match p.push (some task) with
      | (.ok true, p') => some p'
      | _ => none
  | .worker idx l => p.step (.worker idx l)

/-- What can happen to a pool: the least loaded worker gets a task, or a worker takes a step. -/
inductive After (p : Pool) : Event → Pool → Prop
  | push {task : Task} {idx : ℕ} {w : Worker} (hleast : p.LeastLoaded task.mask idx w) :
      After p (.push task) (p.setWorker idx (w.append task))
  | worker {idx : ℕ} {l : Label} {w w' : Worker} (hw : p.workers.lookup idx = some w)
      (hs : w.step l = some w') : After p (.worker idx l) (p.setWorker idx w')

theorem after_cases (hsorted : p.Sorted) {e : Event} (hs : p.after e = some p') : p.After e p' := by
  cases e with
  | push task =>
      simp only [after] at hs
      split at hs
      case h_2 => cases hs
      case h_1 q hpush =>
        cases hs
        have hcases := push_cases hsorted (some task)
        rw [hpush] at hcases
        cases hcases with
        | accepted _ hleast _ => exact .push hleast
  | worker idx l =>
      have hown : ((p.workers.lookup idx).bind fun w ↦
          (w.step l).map fun w' ↦ p.setWorker idx w') = some p' := by
        cases l with
        | push | notify => cases hs
        | clear | stop | stopNotify | runner | spurious => exact hs
      obtain ⟨w, hw, hstep⟩ := Option.bind_eq_some_iff.1 hown
      obtain ⟨w', hw', rfl⟩ := Option.map_eq_some_iff.1 hstep
      exact .worker hw hw'

/-! ## What stays -/

/-- The affinity of a worker. -/
def affinity (p : Pool) (idx : ℕ) : Option Affinity := (p.workers.lookup idx).map Worker.affinity

/-- The queue of a worker. -/
def queue (p : Pool) (idx : ℕ) : Option (List Entry) := (p.workers.lookup idx).map Worker.queue

theorem Sorted.setWorker (h : p.Sorted) (idx : ℕ) (w : Worker) : (p.setWorker idx w).Sorted := by
  have hkeys : OrderedMap.keys (p.setWorker idx w).workers = OrderedMap.keys p.workers :=
    OrderedMap.keys_set idx w p.workers
  unfold Sorted
  rw [hkeys]
  exact h

theorem affinity_setWorker (hw : p.workers.lookup idx = some w) (haffinity : w'.affinity = w.affinity) :
    (p.setWorker idx w').affinity = p.affinity := by
  funext i
  unfold affinity setWorker
  by_cases hi : i = idx
  · subst hi
    rw [OrderedMap.lookup_set_self hw, hw, Option.map_some, Option.map_some, haffinity]
  · rw [OrderedMap.lookup_set_of_ne _ hi]

/-- The workers of a pool, and their affinities, are there for good. -/
theorem After.affinity {e : Event} (h : p.After e p') : p'.affinity = p.affinity := by
  cases h with
  | push hleast => exact affinity_setWorker hleast.lookup rfl
  | worker hw hs => exact affinity_setWorker hw (Worker.step_affinity hs)

theorem After.sorted {e : Event} (h : p.After e p') (hsorted : p.Sorted) : p'.Sorted := by
  cases h with
  | push | worker => exact hsorted.setWorker _ _

/-- No worker retires or clears a task in this step. -/
def Retains (t : Transition Pool Event) : Prop :=
  ∀ idx l, t.label = .worker idx l → t.dst.queue = t.src.queue

/-- A pushed task is for both workers or for neither. -/
def ForBoth (i j : ℕ) (t : Transition Pool Event) : Prop :=
  ∀ task, t.label = .push task → ∀ a ∈ t.src.affinity i, ∀ b ∈ t.src.affinity j,
    (a &&& task.mask ≠ 0 ↔ b &&& task.mask ≠ 0)

/-- The queues of two workers differ by at most one task. -/
def Balanced (i j : ℕ) (p : Pool) : Prop :=
  ∀ q ∈ p.queue i, ∀ q' ∈ p.queue j, q.length ≤ q'.length + 1 ∧ q'.length ≤ q.length + 1

theorem Balanced.symm (h : p.Balanced i j) : p.Balanced j i :=
  fun q hq q' hq' ↦ (h q' hq' q hq).symm

theorem Balanced.of_empty (hempty : ∀ idx w, p.workers.lookup idx = some w → w.queue = []) :
    p.Balanced i j := by
  intro q hq q' hq'
  obtain ⟨w, hw, rfl⟩ := Option.map_eq_some_iff.1 hq
  obtain ⟨w', hw', rfl⟩ := Option.map_eq_some_iff.1 hq'
  rw [hempty i w hw, hempty j w' hw']
  exact ⟨Nat.zero_le _, Nat.zero_le _⟩

theorem queue_setWorker_self (hw : p.workers.lookup idx = some w) :
    (p.setWorker idx w').queue idx = some w'.queue := by
  unfold queue setWorker
  rw [OrderedMap.lookup_set_self hw, Option.map_some]

theorem queue_setWorker_of_ne (p : Pool) (w : Worker) (hi : i ≠ idx) :
    (p.setWorker idx w).queue i = p.queue i := by
  unfold queue setWorker
  rw [OrderedMap.lookup_set_of_ne _ hi]

/-- A task goes to one of two workers that it is for: that one had the shorter queue. -/
theorem Balanced.append (h : p.Balanced i j) (hne : j ≠ i) {task : Task}
    (hleast : p.LeastLoaded task.mask i w)
    (hmeets : ∀ w', p.workers.lookup j = some w' → w'.affinity &&& task.mask ≠ 0) :
    (p.setWorker i (w.append task)).Balanced i j := by
  intro q hq q' hq'
  rw [queue_setWorker_self hleast.lookup] at hq
  rw [queue_setWorker_of_ne _ _ hne] at hq'
  cases hq
  have hold := h w.queue (Option.map_eq_some_iff.2 ⟨w, hleast.lookup, rfl⟩) q' hq'
  obtain ⟨w', hw', rfl⟩ := Option.map_eq_some_iff.1 hq'
  have hle : w.queue.length ≤ w'.queue.length := hleast.le hw' (hmeets w' hw')
  have hlength : (w.append task).queue.length = w.queue.length + 1 := List.length_append
  rw [hlength]
  exact ⟨Nat.succ_le_succ hle, hold.2.trans (Nat.le_succ _)⟩

/-- **What an event leaves balanced.** -/
theorem Balanced.after {t : Transition Pool Event} (hs : t.src.After t.label t.dst)
    (hretains : Retains t) (hboth : ForBoth i j t) (h : t.src.Balanced i j) : t.dst.Balanced i j := by
  obtain ⟨p, e, p'⟩ := t
  by_cases hij : j = i
  · subst hij
    intro q hq q' hq'
    cases hq.symm.trans hq'
    exact ⟨Nat.le_succ _, Nat.le_succ _⟩
  have hstep : p.After e p' := hs
  cases hstep with
  | worker hw hs =>
      have hqueue := hretains _ _ rfl
      unfold Balanced
      rw [hqueue]
      exact h
  | @push task idx w hleast =>
      have hidx : w.affinity ∈ p.affinity idx := Option.map_eq_some_iff.2 ⟨w, hleast.lookup, rfl⟩
      by_cases hi : i = idx
      · subst hi
        refine h.append hij hleast fun w' hw' ↦ ?_
        exact (hboth task rfl _ hidx _ (Option.map_eq_some_iff.2 ⟨w', hw', rfl⟩)).1 hleast.meets
      by_cases hj : j = idx
      · subst hj
        refine (h.symm.append (Ne.symm hij) hleast fun w' hw' ↦ ?_).symm
        exact (hboth task rfl _ (Option.map_eq_some_iff.2 ⟨w', hw', rfl⟩) _ hidx).2 hleast.meets
      · -- a third worker gets it
        intro q hq q' hq'
        rw [queue_setWorker_of_ne _ _ hi] at hq
        rw [queue_setWorker_of_ne _ _ hj] at hq'
        exact h q hq q' hq'

/-- **Pushes stay balanced.**  Start with empty queues, and let tasks be pushed and
accepted while no task is retired or cleared.  Two workers such that the mask of every
task meets the affinities of both or of neither have queues that differ by at most one. -/
theorem pushes_balanced (hsorted : p.Sorted)
    (hempty : ∀ idx w, p.workers.lookup idx = some w → w.queue = []) (hrun : Run after p ts p')
    (hretains : ∀ t ∈ ts, Retains t) (hi : p'.workers.lookup i = some w)
    (hj : p'.workers.lookup j = some w')
    (hboth : ∀ t ∈ ts, ∀ task, t.label = .push task →
      (w.affinity &&& task.mask ≠ 0 ↔ w'.affinity &&& task.mask ≠ 0)) :
    w.queue.length ≤ w'.queue.length + 1 ∧ w'.queue.length ≤ w.queue.length + 1 := by
  obtain ⟨hlast, hall⟩ := hrun.invariant (I := fun q ↦ q.Sorted ∧ q.affinity = p.affinity)
    (C := fun _ ↦ True) (fun t hs _ h ↦
      ⟨(after_cases h.1 hs).sorted h.1, (after_cases h.1 hs).affinity.trans h.2⟩)
    ⟨hsorted, rfl⟩ fun _ _ ↦ trivial
  have hforBoth : ∀ t ∈ ts, ForBoth i j t := by
    intro t ht task htask a ha b hb
    have hconst : t.src.affinity = p'.affinity := (hall t ht).1.2.trans hlast.2.symm
    rw [hconst] at ha hb
    obtain ⟨v, hv, rfl⟩ := Option.map_eq_some_iff.1 ha
    obtain ⟨v', hv', rfl⟩ := Option.map_eq_some_iff.1 hb
    cases hi.symm.trans hv
    cases hj.symm.trans hv'
    exact hboth t ht task htask
  have hbalanced : p'.Sorted ∧ p'.Balanced i j :=
    (hrun.invariant (I := fun q ↦ q.Sorted ∧ q.Balanced i j)
      (C := fun t ↦ Retains t ∧ ForBoth i j t) (fun t hs hc h ↦
        ⟨(after_cases h.1 hs).sorted h.1, h.2.after (after_cases h.1 hs) hc.1 hc.2⟩)
      ⟨hsorted, .of_empty hempty⟩ fun t ht ↦ ⟨hretains t ht, hforBoth t ht⟩).1
  exact hbalanced.2 _ (Option.map_eq_some_iff.2 ⟨w, hi, rfl⟩) _ (Option.map_eq_some_iff.2 ⟨w', hj, rfl⟩)

/-- Three tasks for both of two workers. -/
theorem pushes_balanced_two : ∃ ts p w w', Run after (start 2) ts p ∧
    p.workers.lookup 0 = some w ∧ p.workers.lookup 1 = some w' ∧ w.queue.length = 2 ∧
    w.queue.length ≤ w'.queue.length + 1 ∧ w'.queue.length ≤ w.queue.length + 1 := by
  obtain ⟨ts, p, hrun, hlabels, w, w', hw, hw', haffinity, haffinity', hlength⟩ :=
    Run.exists_of_labels after (start 2)
      [.push ⟨some 0, 3⟩, .push ⟨some 0, 3⟩, .push ⟨some 0, 3⟩] (· = .push ⟨some 0, 3⟩)
      (fun _ p ↦ ∃ w w', p.workers.lookup 0 = some w ∧ p.workers.lookup 1 = some w' ∧
        w.affinity = 1 ∧ w'.affinity = 2 ∧ w.queue.length = 2)
      (by decide) ⟨_, rfl, _, _, rfl, rfl, rfl, rfl, rfl⟩
  refine ⟨ts, p, w, w', hrun, hw, hw', hlength, ?_⟩
  refine pushes_balanced (start_sorted 2) (fun _ _ ↦ start_queue) hrun ?_ hw hw' ?_
  · intro t ht idx l hl
    cases (hlabels t ht).symm.trans hl
  · intro t ht task htask
    cases (hlabels t ht).symm.trans htask
    rw [haffinity, haffinity']
    decide

end Pool

end Datapath.Threadpool
