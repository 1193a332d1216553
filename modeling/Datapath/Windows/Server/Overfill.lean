import Datapath.Windows.Server.Backlog

/-!
# The backlog never overfills

In the loop of the accept phase the waiting and the pending handles together may be
more than `WIN_BACKLOG_NUM`: a client that is refused is waiting again, and an
instance may have been opened, before the handles that were offered leave
`pending_sockets`.  What stays within the bound is their number without those in
`to_kill`, and these are gone when the lock is released (`backlog_within`).
-/

namespace Datapath.Windows

open Datapath.Lib

namespace Server

variable {W : Type*} {s : Server W}

/-- A server whose backlog is within `WIN_BACKLOG_NUM`. -/
structure Stocked (s : Server W) : Prop where
  ovmap : s.ovmap = []
  within : s.backlog ≤ winBacklogNum

/-! ## The loops -/

/-- `rest` are the pending handles that are not in `to_kill` yet. -/
structure Offering (rest : List HANDLE) (s : Server W) : Prop where
  pending : rest.length ≤ s.pendingSockets.length
  within : s.waitingSockets.length + rest.length ≤ winBacklogNum

/-- Restocking has room for the instance that it opens. -/
theorem Offering.restock {rest : List HANDLE} (h : Offering rest s) (reply : Option HANDLE) :
    Offering rest (restock reply s) := by
  by_cases hroom : s.waitingSockets.length + s.pendingSockets.length < winBacklogNum
  · rcases restock_cases reply s with ⟨hr, -⟩ | hr | ⟨a, -, -, -, hr⟩
    · rw [hr]
      exact h
    · rw [hr]
      exact ⟨h.pending, h.within⟩
    · rw [hr]
      refine ⟨h.pending, ?_⟩
      show (s.waitingSockets ++ [a]).length + rest.length ≤ winBacklogNum
      rw [List.length_append, List.length_singleton]
      have hpending := h.pending
      omega
  · have hr : Server.restock reply s = s := if_neg hroom
    rw [hr]
    exact h

/-- A client that is refused goes back to the waiting ones, and its handle to
`to_kill`. -/
theorem Offering.settle {a : HANDLE} {rest : List HANDLE} (h : Offering (a :: rest) s)
    (offer : Offer W) : Offering rest (s.settle offer a) := by
  obtain ⟨hpending, hwithin⟩ := h
  rw [List.length_cons] at hpending hwithin
  unfold Server.settle
  split
  case isTrue =>
    apply Offering.restock
    exact ⟨Nat.le_of_succ_le hpending, Nat.le_of_succ_le hwithin⟩
  case isFalse =>
    refine ⟨Nat.le_of_succ_le hpending, ?_⟩
    show (s.waitingSockets ++ [a]).length + rest.length ≤ winBacklogNum
    rw [List.length_append, List.length_singleton]
    omega

theorem settleAll_within {offer : HANDLE → Offer W} (h : s.backlog ≤ winBacklogNum) :
    (s.settleAll offer s.pendingSockets).waitingSockets.length ≤ winBacklogNum := by
  have hall : Offering [] (s.settleAll offer s.pendingSockets) :=
    foldl_rule (I := Offering) (fun a _ _ ho ↦ ho.settle (offer a)) ⟨Nat.le_refl _, h⟩
  exact hall.within

theorem acceptPhase_within (onAccept : Bool) (offer : HANDLE → Offer W)
    (h : s.backlog ≤ winBacklogNum) : (s.acceptPhase onAccept offer).backlog ≤ winBacklogNum := by
  cases onAccept with
  | false => exact h
  | true =>
      rw [acceptPhase_eq]
      exact settleAll_within h

/-- A dead connection is recycled only if there is room for it. -/
theorem retire_within (a : HANDLE) (toKill : List HANDLE) (h : s.backlog ≤ winBacklogNum) :
    (retire a s toKill).1.backlog ≤ winBacklogNum := by
  rcases retire_cases a s toKill with ⟨hroom, hr⟩ | ⟨-, hr⟩
  · rw [hr]
    simp only [backlog, List.length_append, List.length_singleton]
    omega
  · rw [hr]
    exact h

theorem verifyPhase_within (expired good : W → Bool) (h : s.backlog ≤ winBacklogNum) :
    (s.verifyPhase expired good).backlog ≤ winBacklogNum := by
  apply foldl_rule (f := verifyOne expired good)
    (I := fun _ (st : Server W × List HANDLE) ↦ st.1.backlog ≤ winBacklogNum) ?_ h
  rintro e - ⟨s', toKill⟩ hs'
  rw [verifyOne_eq]
  split
  · exact retire_within e.1 toKill hs'
  · exact hs'

/-- The loop of `create` with `n` instances to go has room for them. -/
theorem spawn_within (replies : ℕ → Option HANDLE) : ∀ (n : ℕ) {s : Server W},
    s.backlog + n ≤ winBacklogNum → (spawn replies n s).2.backlog ≤ winBacklogNum ∧
      ∀ r ∈ spawnReleases replies n s, r.backlog ≤ winBacklogNum := by
  intro n
  induction n with
  | zero =>
      intro s h
      exact ⟨h, List.forall_mem_nil _⟩
  | succ n ih =>
      intro s h
      rcases s.createSocket_cases (replies n) with hc | ⟨a, hne, -, hc⟩
      · rw [spawn, spawnReleases, hc]
        exact ⟨Nat.zero_le _, List.forall_mem_nil _⟩
      · rw [spawn, spawnReleases, hc]
        simp only [hne, if_false]
        have hroom : (s.opened a).backlog + n ≤ winBacklogNum := by
          simp only [opened, backlog, enlist, List.length_append, List.length_singleton] at h ⊢
          omega
        obtain ⟨hlast, hall⟩ := ih hroom
        exact ⟨hlast, List.forall_mem_cons.2 ⟨Nat.le_of_add_right_le hroom, hall⟩⟩

/-! ## Runs -/

theorem Stocked.connected {i : PassInput W} (h : s.Stocked) (hzero : i.ConnectsReturnZero) :
    (s.connected i).Stocked where
  ovmap := (connected_advances hzero h.ovmap).ovmap.trans h.ovmap
  within := (connected_backlog hzero h.ovmap).trans_le h.within

theorem Stocked.offered {i : PassInput W} (h : s.Stocked) (hzero : i.ConnectsReturnZero) :
    (s.offered i).Stocked where
  ovmap := (offered_advances hzero h.ovmap).ovmap.trans h.ovmap
  within := acceptPhase_within i.onAccept i.offer (h.connected hzero).within

theorem Stocked.verified {i : PassInput W} (h : s.Stocked) (hzero : i.ConnectsReturnZero) :
    (s.verified i).Stocked where
  ovmap := (verified_advances hzero h.ovmap).ovmap.trans h.ovmap
  within := verifyPhase_within i.expired i.good (h.offered hzero).within

theorem Stocked.close (s : Server W) : s.close.Stocked := ⟨rfl, Nat.zero_le _⟩

/-- `create` opens no more instances than the backlog has room for. -/
theorem create_within (path : List Char) (maxClients : ℕ) (replies : ℕ → Option HANDLE)
    (s : Server W) : (s.create path maxClients replies).2.backlog ≤ winBacklogNum ∧
      ∀ r ∈ spawnReleases replies winBacklogNum (s.prepare path maxClients),
        r.backlog ≤ winBacklogNum := by
  obtain ⟨hlast, hall⟩ := spawn_within replies winBacklogNum (s := s.prepare path maxClients)
    (Nat.le_of_eq (Nat.zero_add _))
  refine ⟨?_, hall⟩
  rcases s.create_cases path maxClients replies with ⟨s', hspawn, hcreate⟩ | hcreate
  · rw [hspawn] at hlast
    rw [hcreate]
    exact hlast
  · rw [hcreate]
    exact hlast

/-- `create` ends without watched handles. -/
theorem create_ovmap (path : List Char) (maxClients : ℕ) (replies : ℕ → Option HANDLE)
    (s : Server W) : (s.create path maxClients replies).2.ovmap = [] :=
  (create_rule (P := fun s : Server W ↦ s.ovmap = []) path maxClients replies (fun _ _ ↦ rfl)
    (fun _ _ hs _ _ ↦ hs) (fun _ hs ↦ hs) rfl).1

/-- A step keeps the backlog within its bound, also while it runs. -/
theorem Stocked.step {t : Transition (Server W) (Label W)} (hs : t.src.step t.label = some t.dst)
    (hzero : t.label.ConnectsReturnZero) (h : t.src.Stocked) :
    t.dst.Stocked ∧ ∀ r ∈ t.src.releases t.label, r.backlog ≤ winBacklogNum := by
  obtain ⟨s, l, s'⟩ := t
  have hstep : s.step l = some s' := hs
  rcases step_cases hstep h.ovmap with
    ⟨path, maxClients, replies, rfl, rfl⟩ | ⟨i, rfl, -, rfl⟩ | ⟨rfl, rfl⟩
  · obtain ⟨hlast, hall⟩ := create_within path maxClients replies s
    exact ⟨⟨create_ovmap path maxClients replies s, hlast⟩,
      forall_releases_create.2 ⟨(Stocked.close s).within, hall, hlast⟩⟩
  · exact ⟨h.verified hzero, forall_releases_pass.2
      ⟨(h.connected hzero).within, (h.offered hzero).within, (h.verified hzero).within⟩⟩
  · exact ⟨Stocked.close s, List.forall_mem_singleton.2 (Stocked.close s).within⟩

/-- **The backlog never overfills.**  Whenever the lock of a server is released, in any
run, its waiting and its pending handles together are at most `WIN_BACKLOG_NUM`. -/
theorem backlog_within {ts : List (Transition (Server W) (Label W))}
    (hrun : Run step start ts s) (hzero : ∀ t ∈ ts, t.label.ConnectsReturnZero) :
    ∀ t ∈ ts, ∀ r ∈ t.src.releases t.label,
      r.waitingSockets.length + r.pendingSockets.length ≤ winBacklogNum := by
  obtain ⟨-, hall⟩ := hrun.invariant (fun _ hs hz h ↦ (Stocked.step hs hz h).1)
    ⟨rfl, Nat.zero_le _⟩ hzero
  intro t ht
  exact (Stocked.step (hrun.step_of_mem ht) (hzero t ht) (hall t ht).1).2

/-- Two clients are accepted one after the other, six others are refused at once, and
the two leave: there is room for one of their instances only. -/
theorem backlog_within_refused : ∃ ts s, Run step (start : Server Unit) ts s ∧
    s.waitingSockets = [9, 3, 4, 5, 6, 7, 8, 1] ∧ s.kernel.closed = [2] ∧
      ∀ t ∈ ts, ∀ r ∈ t.src.releases t.label,
        r.waitingSockets.length + r.pendingSockets.length ≤ winBacklogNum := by
  obtain ⟨ts, s, hrun, hzero, hwaiting, hclosed⟩ := Run.exists_of_labels step start
    [createEight 8, acceptAll [1] 9 true, acceptAll [2] 9 true, refuseAll [3, 4, 5, 6, 7, 8],
      acceptAll [] 10 false]
    Label.ConnectsReturnZero
    (fun _ s ↦ s.waitingSockets = [9, 3, 4, 5, 6, 7, 8, 1] ∧ s.kernel.closed = [2])
    (by simp) ⟨_, rfl, by decide⟩
  exact ⟨ts, s, hrun, hwaiting, hclosed, backlog_within hrun hzero⟩

end Server

end Datapath.Windows
