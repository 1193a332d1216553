import Datapath.Lib.Ledger
import Datapath.Lib.Run

/-!
# The pool of overlapped objects

`overlapped_queue` keeps the objects it has made in the queue `free_objs` and the list
`used_objs`.  `alloc` takes the front of the queue, or a new object, and `free` gives an
object back.

As long as every object that is given back is in use, the two together are a ledger of all
objects that have been made.  `free` looks for the object in `used_objs`, but puts it into
the queue also if it has not found it, so that an object that is given back twice is in the
queue twice (`never_shared_iff`).
-/

namespace Datapath.Windows

open Datapath.Lib

/-- A pool.  Objects are numbered in the order in which they are made. -/
structure OverlappedQueue where
  freeObjs : List ℕ
  usedObjs : List ℕ
  /-- How many objects have been made. -/
  made : ℕ
  /-- What `alloc` has returned. -/
  returned : List ℕ
  /-- What `alloc` has returned and has not been given back since. -/
  held : List ℕ
deriving DecidableEq, Repr

namespace OverlappedQueue

/-- The constructor. -/
def start (backlog : ℕ) : OverlappedQueue := ⟨List.range backlog, [], backlog, [], []⟩

/-- `alloc`. -/
def alloc (q : OverlappedQueue) : ℕ × OverlappedQueue :=
  match q.freeObjs with
  | obj :: rest => (obj, { q with
      freeObjs := rest
      usedObjs := q.usedObjs ++ [obj]
      returned := q.returned ++ [obj]
      held := q.held ++ [obj] })
  | [] => (q.made, { q with
      usedObjs := q.usedObjs ++ [q.made]
      made := q.made + 1
      returned := q.returned ++ [q.made]
      held := q.held ++ [q.made] })

/-- `free`. -/
def free (q : OverlappedQueue) (overlapped : ℕ) : OverlappedQueue :=
  { q with
    -- The loop erases the first entry that it finds, if there is one.
    usedObjs := q.usedObjs.erase overlapped
    freeObjs := q.freeObjs ++ [overlapped]
    held := q.held.filter (· ≠ overlapped) }

/-- What a user of the pool can do. -/
inductive Label where
  | alloc
  | free (overlapped : ℕ)
deriving DecidableEq, Repr

/-- One call.  Only what `alloc` has returned is given back. -/
def step (q : OverlappedQueue) : Label → Option OverlappedQueue
  | .alloc => some q.alloc.2
  | .free o => if o ∈ q.returned then some (q.free o) else none

/-- `alloc` has not returned an object that someone holds, and no object is in the pool
twice. -/
structure Unshared (t : Transition OverlappedQueue Label) : Prop where
  fresh : t.label = .alloc → t.src.alloc.1 ∉ t.src.held
  disjoint : t.dst.freeObjs.Disjoint t.dst.usedObjs
  freeNodup : t.dst.freeObjs.Nodup
  usedNodup : t.dst.usedObjs.Nodup

/-- An object is given back that no one holds. -/
def FreesAgain (t : Transition OverlappedQueue Label) : Prop :=
  match t.label with
  | .alloc => False
  | .free o => o ∉ t.src.held

instance : DecidablePred FreesAgain
  | ⟨_, .alloc, _⟩ => .isFalse id
  | ⟨q, .free o, _⟩ => inferInstanceAs (Decidable (o ∉ q.held))

/-! ## The books of the pool -/

/-- The objects that have been made are in the queue or the list, each once, and those in
the list are held. -/
structure Inv (q : OverlappedQueue) : Prop where
  ledger : Ledger (· < q.made) (q.freeObjs ++ q.usedObjs)
  held : ∀ o, o ∈ q.held ↔ o ∈ q.usedObjs
  returned : ∀ o ∈ q.returned, o < q.made

variable {q : OverlappedQueue}

theorem Inv.start (backlog : ℕ) : (start backlog).Inv where
  ledger := by
    refine ⟨?_, fun o ↦ ?_⟩
    · exact (List.append_nil (List.range backlog)).symm ▸ List.nodup_range
    · show o < backlog ↔ o ∈ List.range backlog ++ []
      rw [List.append_nil, List.mem_range]
  held _ := .rfl
  returned := List.forall_mem_nil _

theorem Inv.nodup (h : q.Inv) :
    q.freeObjs.Disjoint q.usedObjs ∧ q.freeObjs.Nodup ∧ q.usedObjs.Nodup := by
  obtain ⟨hfree, hused, hdisjoint⟩ := List.nodup_append'.1 h.ledger.nodup
  exact ⟨hdisjoint, hfree, hused⟩

/-- `alloc` moves an object, or makes one, and no one holds it. -/
theorem Inv.alloc (h : q.Inv) : q.alloc.2.Inv ∧ q.alloc.1 ∉ q.held := by
  have hheld : ∀ obj o, o ∈ q.held ++ [obj] ↔ o ∈ q.usedObjs ++ [obj] := by
    intro obj o
    rw [List.mem_append, List.mem_append, h.held]
  have hledger := h.ledger
  unfold OverlappedQueue.alloc
  cases hfree : q.freeObjs with
  | nil =>
      rw [hfree, List.nil_append] at hledger
      refine ⟨⟨?_, hheld q.made, ?_⟩, ?_⟩
      · refine (hledger.alloc (Nat.lt_irrefl q.made) fun o ↦ ?_).perm
          (List.perm_append_singleton _ _).symm
        rw [Nat.lt_succ_iff_lt_or_eq, or_comm]
      · intro o ho
        rcases List.mem_append.1 ho with ho | ho
        · exact Nat.lt_succ_of_lt (h.returned o ho)
        · exact (List.mem_singleton.1 ho) ▸ Nat.lt_succ_self q.made
      · intro hmem
        exact Nat.lt_irrefl q.made ((hledger.live_iff _).2 ((h.held _).1 hmem))
  | cons obj rest =>
      rw [hfree] at hledger
      have hmove : (obj :: (rest ++ q.usedObjs)).Perm (rest ++ (q.usedObjs ++ [obj])) := by
        rw [← List.append_assoc]
        exact (List.perm_append_singleton obj _).symm
      refine ⟨⟨hledger.perm hmove, hheld obj, ?_⟩, ?_⟩
      · intro o ho
        rcases List.mem_append.1 ho with ho | ho
        · exact h.returned o ho
        · rw [List.mem_singleton.1 ho]
          exact (hledger.live_iff obj).2 List.mem_cons_self
      · intro hmem
        exact (List.nodup_cons.1 hledger.nodup).1 (List.mem_append_right _ ((h.held obj).1 hmem))

/-- Giving back an object that is held moves it to the queue. -/
theorem Inv.free (h : q.Inv) {o : ℕ} (ho : o ∈ q.held) : (q.free o).Inv where
  ledger := by
    refine h.ledger.perm ?_
    show List.Perm _ (q.freeObjs ++ [o] ++ q.usedObjs.erase o)
    rw [List.append_assoc]
    exact .append_left _ (List.perm_cons_erase ((h.held o).1 ho))
  held o' := by
    show o' ∈ q.held.filter (· ≠ o) ↔ o' ∈ q.usedObjs.erase o
    rw [List.mem_filter, h.held, h.nodup.2.2.mem_erase_iff, decide_eq_true_iff]
    exact and_comm
  returned := h.returned

/-- Giving back another one puts it into the queue a second time. -/
theorem Inv.free_again (h : q.Inv) {o : ℕ} (hreturned : o ∈ q.returned) (ho : o ∉ q.held) :
    ¬ (q.free o).freeObjs.Nodup := by
  have hmem : o ∈ q.freeObjs := by
    rcases List.mem_append.1 ((h.ledger.live_iff o).1 (h.returned o hreturned)) with hfree | hused
    · exact hfree
    · exact absurd ((h.held o).2 hused) ho
  intro hnodup
  exact List.disjoint_of_nodup_append hnodup hmem (List.mem_singleton.2 rfl)

/-- **One call** gives back an object that no one holds, and the pool has it twice then,
or is as it should be. -/
theorem Inv.step_cases {t : Transition OverlappedQueue Label} (hs : t.src.step t.label = some t.dst)
    (h : t.src.Inv) : (FreesAgain t ∧ ¬ Unshared t) ∨ (¬ FreesAgain t ∧ Unshared t ∧ t.dst.Inv) := by
  obtain ⟨q, l, q'⟩ := t
  cases l with
  | alloc =>
      have hdst : q.alloc.2 = q' := Option.some.inj hs
      subst hdst
      obtain ⟨hinv, hfresh⟩ := h.alloc
      obtain ⟨hdisjoint, hfree, hused⟩ := hinv.nodup
      exact .inr ⟨id, ⟨fun _ ↦ hfresh, hdisjoint, hfree, hused⟩, hinv⟩
  | free o =>
      have hstep : q.step (.free o) = some q' := hs
      obtain ⟨hreturned, hdst⟩ := Option.ite_none_right_eq_some.1 hstep
      cases hdst
      by_cases ho : o ∈ q.held
      · have hinv := h.free ho
        obtain ⟨hdisjoint, hfree, hused⟩ := hinv.nodup
        exact .inr ⟨not_not.2 ho, ⟨nofun, hdisjoint, hfree, hused⟩, hinv⟩
      · exact .inl ⟨ho, fun hunshared ↦ h.free_again hreturned ho hunshared.freeNodup⟩

/-- **No object has two users**, and the pool has none twice, as long as no object is given
back that no one holds. -/
theorem never_shared_iff {backlog : ℕ} {ts : List (Transition OverlappedQueue Label)}
    (hrun : Run step (start backlog) ts q) : (∀ t ∈ ts, Unshared t) ↔ ∀ t ∈ ts, ¬ FreesAgain t :=
  hrun.forall_iff_not (fun _ hs h ↦ h.step_cases hs) (Inv.start backlog)

/-- Three objects from a pool for two, one of them twice. -/
theorem never_shared_three : ∃ ts q, Run step (start 2) ts q ∧ q.held = [1, 2, 0] ∧
    ∀ t ∈ ts, Unshared t := by
  obtain ⟨ts, q, hrun, hheld, hfrees⟩ := Run.exists_of_trace step (start 2)
    [.alloc, .alloc, .alloc, .free 0, .alloc]
    (fun ts q ↦ q.held = [1, 2, 0] ∧ ∀ t ∈ ts, ¬ FreesAgain t) ⟨_, rfl, by decide⟩
  exact ⟨ts, q, hrun, hheld, (never_shared_iff hrun).2 hfrees⟩

/-- An object that is given back twice is handed out twice. -/
theorem freed_twice : ∃ ts q, Run step (start 1) ts q ∧ q.held = [0, 0] ∧ ¬ ∀ t ∈ ts, Unshared t := by
  obtain ⟨ts, q, hrun, hheld, t, ht, hlabel, hmem⟩ := Run.exists_of_trace step (start 1)
    [.alloc, .free 0, .free 0, .alloc, .alloc]
    (fun ts q ↦ q.held = [0, 0] ∧ ∃ t ∈ ts, t.label = .alloc ∧ t.src.alloc.1 ∈ t.src.held)
    ⟨_, rfl, by decide⟩
  exact ⟨ts, q, hrun, hheld, fun hall ↦ (hall t ht).fresh hlabel hmem⟩

/-! ## How many objects are made -/

/-- The most objects that have been in use after any of these calls. -/
def peak (ts : List (Transition OverlappedQueue Label)) : ℕ :=
  (ts.map fun t ↦ t.dst.usedObjs.length).foldr max 0

/-- All objects that have been made are there. -/
theorem Inv.perm_range (h : q.Inv) : (q.freeObjs ++ q.usedObjs).Perm (List.range q.made) := by
  refine (List.perm_ext_iff_of_nodup h.ledger.nodup List.nodup_range).2 fun o ↦ ?_
  rw [List.mem_range]
  exact (h.ledger.live_iff o).symm

theorem Inv.length_add (h : q.Inv) : q.freeObjs.length + q.usedObjs.length = q.made := by
  rw [← List.length_append, h.perm_range.length_eq, List.length_range]

/-- A call makes an object only if there are more in use after it than there had been made. -/
theorem Inv.made_step {l : Label} {q' : OverlappedQueue} (h : q.Inv) (hs : q.step l = some q') :
    q'.made = max q.made q'.usedObjs.length := by
  have hlength := h.length_add
  cases l with
  | alloc =>
      obtain rfl := Option.some.inj hs
      unfold OverlappedQueue.alloc
      cases hfree : q.freeObjs with
      | nil =>
          rw [hfree, List.length_nil] at hlength
          simp only [List.length_append, List.length_singleton]
          omega
      | cons obj rest =>
          rw [hfree, List.length_cons] at hlength
          simp only [List.length_append, List.length_singleton]
          omega
  | free o =>
      obtain ⟨-, heq⟩ := Option.ite_none_right_eq_some.1 hs
      cases heq
      have herase : (q.usedObjs.erase o).length ≤ q.usedObjs.length := List.length_erase_le
      simp only [OverlappedQueue.free]
      omega

/-- From any state with its books in order, objects are made up to the peak. -/
theorem Inv.made_run {q' : OverlappedQueue} {ts : List (Transition OverlappedQueue Label)}
    (hrun : Run OverlappedQueue.step q ts q') (h : q.Inv) (hfrees : ∀ t ∈ ts, ¬ FreesAgain t) :
    q'.made = max q.made (peak ts) ∧ q'.Inv := by
  induction hrun with
  | nil q => exact ⟨(Nat.max_zero _).symm, h⟩
  | @cons q₀ q₁ q₂ l ts hs _ ih =>
      obtain ⟨hfirst, hrest⟩ := List.forall_mem_cons.1 hfrees
      have hinv : q₁.Inv := by
        rcases h.step_cases (t := ⟨q₀, l, q₁⟩) hs with ⟨hagain, -⟩ | ⟨-, -, hinv⟩
        · exact absurd hagain hfirst
        · exact hinv
      obtain ⟨hmade, hlast⟩ := ih hinv hrest
      refine ⟨?_, hlast⟩
      rw [hmade, h.made_step hs, Nat.max_assoc]
      rfl

/-- **No object is made that is not needed, and none is lost.**  As long as no object is given
back that no one holds, there are as many as the pool was made with, or as many as have been
in use at one time if that is more; and each of them is in use or can be had again, and is
there once. -/
theorem made_eq_peak {backlog : ℕ} {ts : List (Transition OverlappedQueue Label)}
    (hrun : Run step (start backlog) ts q) (hfrees : ∀ t ∈ ts, ¬ FreesAgain t) :
    q.made = max backlog (peak ts) ∧ (q.freeObjs ++ q.usedObjs).Perm (List.range q.made) := by
  obtain ⟨hmade, hinv⟩ := (Inv.start backlog).made_run hrun hfrees
  exact ⟨hmade, hinv.perm_range⟩

/-- A pool for two objects, of which three have been in use at one time, and then fewer. -/
theorem made_eq_peak_three : ∃ ts q, Run step (start 2) ts q ∧ q.usedObjs = [1, 0] ∧ q.made = 3 ∧
    q.made = max 2 (peak ts) ∧ (q.freeObjs ++ q.usedObjs).Perm [0, 1, 2] := by
  obtain ⟨ts, q, hrun, hused, hmade, hfrees⟩ := Run.exists_of_trace step (start 2)
    [.alloc, .alloc, .alloc, .free 2, .free 0, .alloc, .free 2, .alloc]
    (fun ts q ↦ q.usedObjs = [1, 0] ∧ q.made = 3 ∧ ∀ t ∈ ts, ¬ FreesAgain t) ⟨_, rfl, by decide⟩
  obtain ⟨hpeak, hperm⟩ := made_eq_peak hrun hfrees
  rw [hmade] at hperm
  exact ⟨ts, q, hrun, hused, hmade, hpeak, hperm⟩

end OverlappedQueue

end Datapath.Windows
