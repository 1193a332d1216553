import Datapath.Windows.Server.Backlog

/-!
# How many clients a server can have

A server opens an instance only while `sockets` has no more entries than `max_clients`, and
takes none out of `sockets` before it is closed.  This does not keep the clients within
`max_clients` (`Backlog`).  What it does is bound the instances, and so the clients, by the
backlog that `create` opens, or by one more than `max_clients` if that is more; and an
instance that the verify phase closes keeps its place in `sockets`
(`clients_within_capacity`).
-/

namespace Datapath.Windows

open Datapath.Lib

namespace Server

variable {W : Type*} {s : Server W}

/-- The instances that a server can open before it is closed. -/
def capacity (s : Server W) : ℕ := max winBacklogNum (s.maxClients + 1)

/-- A server that has not opened more. -/
def Bounded (s : Server W) : Prop := s.sockets.length ≤ s.capacity

/-! ## Opening instances -/

theorem Bounded.restock (h : s.Bounded) (reply : Option HANDLE) : (restock reply s).Bounded := by
  rcases restock_cases reply s with ⟨hr, -⟩ | hr | ⟨a, -, -, hlimit, hr⟩
  · rw [hr]
    exact h
  · rw [hr]
    exact h
  · rw [hr]
    show (s.sockets ++ [a]).length ≤ max winBacklogNum (s.maxClients + 1)
    rw [List.length_append, List.length_singleton]
    exact Nat.le_trans (Nat.succ_le_succ hlimit) (Nat.le_max_right _ _)

theorem Bounded.settle (h : s.Bounded) (offer : Offer W) (a : HANDLE) : (s.settle offer a).Bounded := by
  unfold Server.settle
  split
  · apply Bounded.restock
    exact h
  · exact h

theorem Bounded.acceptPhase (h : s.Bounded) (onAccept : Bool) (offer : HANDLE → Offer W) :
    (s.acceptPhase onAccept offer).Bounded := by
  cases onAccept with
  | false => exact h
  | true =>
      rw [acceptPhase_eq]
      have hall : (s.settleAll offer s.pendingSockets).Bounded :=
        foldl_rule (I := fun _ (s : Server W) ↦ s.Bounded) (fun a _ _ hb ↦ hb.settle (offer a) a) h
      exact hall

/-- The loop of `create` with `n` instances to go opens no more than these. -/
theorem spawn_bounded (replies : ℕ → Option HANDLE) : ∀ (n : ℕ) {s : Server W},
    s.sockets.length + n ≤ winBacklogNum → (spawn replies n s).2.Bounded := by
  intro n
  induction n with
  | zero =>
      intro s h
      exact Nat.le_trans h (Nat.le_max_left _ _)
  | succ n ih =>
      intro s h
      rcases s.createSocket_cases (replies n) with hc | ⟨a, hne, -, hc⟩
      · rw [spawn, hc]
        exact Nat.zero_le _
      · rw [spawn, hc]
        simp only [hne, if_false]
        have hroom : (s.opened a).sockets.length + n ≤ winBacklogNum := by
          simp only [opened, enlist, List.length_append, List.length_singleton]
          omega
        exact ih hroom

/-! ## Runs -/

theorem Bounded.connected {i : PassInput W} (h : s.Bounded) (hzero : i.ConnectsReturnZero)
    (hov : s.ovmap = []) : (s.connected i).Bounded := by
  unfold Bounded capacity
  rw [(connected_sockets hzero hov).1, (connected_advances hzero hov).maxClients]
  exact h

theorem Bounded.offered {i : PassInput W} (h : s.Bounded) (hzero : i.ConnectsReturnZero)
    (hov : s.ovmap = []) : (s.offered i).Bounded :=
  Bounded.acceptPhase (h.connected hzero hov) i.onAccept i.offer

/-- The verify phase takes no handle out of `sockets`. -/
theorem Bounded.verified {i : PassInput W} (h : (s.offered i).Bounded) : (s.verified i).Bounded := by
  have hmax : (s.verified i).maxClients = (s.offered i).maxClients :=
    (verifyPhase_advances i.expired i.good (s.offered i)).maxClients
  unfold Bounded capacity
  rw [(verified_lists i s).1, hmax]
  exact h

theorem create_bounded (path : List Char) (maxClients : ℕ) (replies : ℕ → Option HANDLE)
    (s : Server W) : (s.create path maxClients replies).2.Bounded := by
  have hlast := spawn_bounded replies winBacklogNum (s := s.prepare path maxClients)
    (Nat.le_of_eq (Nat.zero_add _))
  rcases s.create_cases path maxClients replies with ⟨s', hspawn, hcreate⟩ | hcreate
  · rw [hspawn] at hlast
    rw [hcreate]
    exact hlast
  · rw [hcreate]
    exact hlast

/-! ## How many are left -/

/-- Of the handles of the server `n` had been closed before `create`: the instances it
has opened since are those it still has and those it has closed. -/
def Counted (n : ℕ) (s : Server W) (pending : List HANDLE) : Prop :=
  s.waitingSockets.length + pending.length + s.activeSockets.length + s.kernel.closed.length =
    s.sockets.length + n

variable {n : ℕ} {rest : List HANDLE}

theorem Counted.opened (h : s.Counted n rest) (a : HANDLE) : (s.opened a).Counted n rest := by
  unfold Counted at h ⊢
  simp only [Server.opened, enlist, List.length_append, List.length_singleton]
  omega

theorem Counted.restock (h : s.Counted n rest) (reply : Option HANDLE) :
    (restock reply s).Counted n rest := by
  rcases restock_cases reply s with ⟨hr, -⟩ | hr | ⟨a, -, -, -, hr⟩
  · rw [hr]
    exact h
  · rw [hr]
    exact h
  · rw [hr]
    exact h.opened a

theorem Counted.settle {a : HANDLE} (hbooks : s.Books (a :: rest)) (h : s.Counted n (a :: rest))
    (offer : Offer W) : (s.settle offer a).Counted n rest := by
  unfold Counted at h
  rw [List.length_cons] at h
  unfold Server.settle
  split
  case isTrue =>
    apply Counted.restock
    have hone := (OrderedMap.insert_perm (v := offer.sock) hbooks.not_active).length_eq
    rw [List.length_cons] at hone
    simp only [Counted]
    omega
  case isFalse =>
    simp only [Counted, List.length_append, List.length_singleton,
      Kernel.closed_disconnectNamedPipe]
    omega

theorem Counted.acceptPhase (hbooks : s.Partitioned) (h : s.Counted n s.pendingSockets)
    (onAccept : Bool) (offer : HANDLE → Offer W) :
    (s.acceptPhase onAccept offer).Counted n (s.acceptPhase onAccept offer).pendingSockets := by
  cases onAccept with
  | false => exact h
  | true =>
      rw [acceptPhase_eq]
      have hall : (s.settleAll offer s.pendingSockets).Counted n [] :=
        (foldl_rule (I := fun rest (s : Server W) ↦ s.Books rest ∧ s.Counted n rest)
          (fun a _ _ hb ↦ ⟨hb.1.settle (offer a), hb.2.settle hb.1 (offer a)⟩) ⟨hbooks, h⟩).2
      exact hall

theorem Counted.connected {i : PassInput W} (h : s.Counted n s.pendingSockets)
    (hzero : i.ConnectsReturnZero) (hov : s.ovmap = []) :
    (s.connected i).Counted n (s.connected i).pendingSockets := by
  have hbacklog := connected_backlog hzero hov
  obtain ⟨hsockets, hactive⟩ := connected_sockets hzero hov
  have hclosed : (s.connected i).kernel.closed = s.kernel.closed := by
    obtain ⟨captured, heq⟩ := connectPhase_eq hzero hov
    unfold Server.connected
    rw [heq]
    exact closed_foldl_connectNamedPipe
  unfold Counted at h ⊢
  unfold backlog at hbacklog
  rw [hbacklog, hsockets, hactive, hclosed]
  exact h

/-- A dead connection takes one from the active sockets, for one more waiting or one
more closed. -/
theorem Counted.retire {a : HANDLE} (h : s.Counted n s.pendingSockets)
    (hnodup : (OrderedMap.keys s.activeSockets).Nodup)
    (ha : a ∈ OrderedMap.keys s.activeSockets) (toKill : List HANDLE) :
    (retire a s toKill).1.Counted n (retire a s toKill).1.pendingSockets := by
  have hone := (OrderedMap.keys_erase_perm hnodup ha).length_eq
  simp only [OrderedMap.keys, List.length_cons, List.length_map] at hone
  unfold Counted at h
  rcases retire_cases a s toKill with ⟨-, hr⟩ | ⟨-, hr⟩
  · rw [hr]
    simp only [Counted, List.length_append, List.length_singleton]
    omega
  · rw [hr]
    simp only [Counted, closed_kill, List.length_append, List.length_singleton]
    omega

theorem Counted.verifyPhase (hbooks : s.Partitioned) (h : s.Counted n s.pendingSockets)
    (expired good : W → Bool) :
    (s.verifyPhase expired good).Counted n (s.verifyPhase expired good).pendingSockets := by
  obtain ⟨⟨-, -, -, hkilled⟩, hcount⟩ := foldl_rule (f := verifyOne expired good)
    (I := fun entries (st : Server W × List HANDLE) ↦
      Verifying entries st ∧ st.1.Counted n st.1.pendingSockets)
    (fun e entries st hv ↦ ⟨hv.1.step expired good, by
      obtain ⟨s', toKill⟩ := st
      rw [verifyOne_eq]
      split
      · exact hv.2.retire (List.nodup_append.1 hv.1.books.ledger.nodup).2.1
          (hv.1.active e List.mem_cons_self) toKill
      · exact hv.2⟩)
    (l := s.activeSockets) (s := (s, []))
    ⟨⟨hbooks, fun e he ↦ List.mem_map_of_mem he, (List.nodup_append.1 hbooks.ledger.nodup).2.1,
      List.forall_mem_nil _⟩, h⟩
  have hall : (s.activeSockets.foldl (verifyOne expired good) (s, [])).1.activeSockets.filter
      (·.1 ∉ (s.activeSockets.foldl (verifyOne expired good) (s, [])).2) =
      (s.activeSockets.foldl (verifyOne expired good) (s, [])).1.activeSockets := by
    apply List.filter_eq_self.2
    intro e he
    simp only [decide_eq_true_eq]
    intro hkill
    exact hkilled e.1 hkill (List.mem_map_of_mem he)
  simp only [Server.verifyPhase, hall]
  exact hcount

/-- What a pass keeps of a server that was created for `m` clients, when `n` handles had
been closed before. -/
structure Holding (m n : ℕ) (s : Server W) : Prop where
  inv : s.Inv
  maxClients : s.maxClients = m
  bounded : s.Bounded
  counted : s.Counted n s.pendingSockets

/-- A step that is a pass, in which `ConnectNamedPipe` returns zero. -/
def Label.IsPass : Label W → Prop
  | .pass i => i.ConnectsReturnZero
  | .create .. | .close => False

/-- A pass keeps it, also while it runs. -/
theorem Holding.step {m : ℕ} {t : Transition (Server W) (Label W)}
    (hs : t.src.step t.label = some t.dst) (hpass : t.label.IsPass) (h : t.src.Holding m n) :
    t.dst.Holding m n ∧ ∀ r ∈ t.src.releases t.label, r.Holding m n := by
  obtain ⟨s, l, s'⟩ := t
  have hstep : s.step l = some s' := hs
  have hsrc : s.Holding m n := h
  obtain ⟨hinv, hmax, hbounded, hcounted⟩ := hsrc
  cases l with
  | create path maxClients replies => exact hpass.elim
  | close => exact hpass.elim
  | pass i =>
      have hzero : i.ConnectsReturnZero := hpass
      obtain ⟨-, rfl⟩ := (pass_eq_some_iff hinv.ovmap).1 hstep
      have hoffered := hbounded.offered hzero hinv.ovmap
      have hconnect := Counted.connected hcounted hzero hinv.ovmap
      have hoffer := Counted.acceptPhase (hinv.connected hzero).partitioned hconnect i.onAccept i.offer
      have hlast : (s.verified i).Holding m n :=
        ⟨hinv.verified hzero, (verified_advances hzero hinv.ovmap).maxClients.trans hmax,
          hoffered.verified,
          Counted.verifyPhase (hinv.offered hzero).partitioned hoffer i.expired i.good⟩
      refine ⟨hlast, forall_releases_pass.2 ⟨?_, ?_, hlast⟩⟩
      · exact ⟨hinv.connected hzero, (connected_advances hzero hinv.ovmap).maxClients.trans hmax,
          hbounded.connected hzero hinv.ovmap, hconnect⟩
      · exact ⟨hinv.offered hzero, (offered_advances hzero hinv.ovmap).maxClients.trans hmax,
          hoffered, hoffer⟩

/-- A server that `create` has opened or failed to open. -/
theorem Holding.create (h : s.Inv) (path : List Char) (maxClients : ℕ)
    (replies : ℕ → Option HANDLE) : (s.create path maxClients replies).2.Holding maxClients
      (s.create path maxClients replies).2.kernel.closed.length := by
  obtain ⟨hmax, hlists⟩ := (create_rule (P := fun s : Server W ↦ s.maxClients = maxClients ∧
      s.pendingSockets = [] ∧ s.activeSockets = [] ∧ s.waitingSockets = s.sockets)
    path maxClients replies (fun _ hs ↦ ⟨hs.1, rfl, rfl, rfl⟩)
    (fun s a hs _ _ ↦ ⟨hs.1, hs.2.1, hs.2.2.1, congrArg (· ++ [a]) hs.2.2.2⟩) (fun _ hs ↦ hs)
    ⟨rfl, rfl, rfl, rfl⟩).1
  obtain ⟨hpending, hactive, hwaiting⟩ := hlists
  refine ⟨(h.create path maxClients replies).1, hmax,
    create_bounded path maxClients replies s, ?_⟩
  unfold Counted
  rw [hpending, hactive, hwaiting]
  rfl

/-- **How many clients a server can have.**  Once a server has been created, whenever
its lock is released in a pass: the instances it has opened since are those that are
waiting, pending or active, and those that have been closed as a surplus; and they are at
most `WIN_BACKLOG_NUM` or one more than `max_clients`, whichever is more.  So a server
has one client less, for good, with every surplus instance that it closes at its limit. -/
theorem clients_within_capacity {path : List Char} {m : ℕ} {replies : ℕ → Option HANDLE}
    {s' : Server W} {ts us : List (Transition (Server W) (Label W))}
    (hrun : Run step start ts s) (hzero : ∀ t ∈ ts, t.label.ConnectsReturnZero)
    (hcreated : Run step (s.create path m replies).2 us s')
    (hpasses : ∀ t ∈ us, t.label.IsPass) :
    ∀ t ∈ us, ∀ r ∈ t.src.releases t.label,
      r.waitingSockets.length + r.pendingSockets.length + r.activeSockets.length +
          r.kernel.closed.length =
        r.sockets.length + (s.create path m replies).2.kernel.closed.length ∧
      r.sockets.length ≤ max winBacklogNum (m + 1) := by
  have hinv : s.Inv := (hrun.invariant (fun _ hs hz h ↦ (Inv.step hs hz h).1) Inv.start hzero).1
  obtain ⟨-, hall⟩ := hcreated.invariant (fun _ hs hp h ↦ (Holding.step hs hp h).1)
    (Holding.create hinv path m replies) hpasses
  intro t ht r hr
  obtain ⟨-, hmax, hbounded, hcounted⟩ :=
    (Holding.step (hcreated.step_of_mem ht) (hpasses t ht) (hall t ht).1).2 r hr
  exact ⟨hcounted, hmax ▸ hbounded⟩

/-- A client is accepted, two others are refused, and one more is accepted. -/
theorem clients_within_capacity_two : ∃ us s,
    Run step ((start : Server Unit).create ['p'] 8 fun n ↦ some (8 - n)).2 us s ∧
    s.waitingSockets = [5, 6, 7, 8, 2, 3, 10] ∧ s.activeSockets = [(1, ()), (4, ())] ∧
    s.sockets.length = 9 ∧ ∀ t ∈ us, ∀ r ∈ t.src.releases t.label,
      r.waitingSockets.length + r.pendingSockets.length + r.activeSockets.length +
        r.kernel.closed.length = r.sockets.length ∧ r.sockets.length ≤ 9 := by
  obtain ⟨us, s, hrun, hpasses, hwaiting, hactive, hlength⟩ := Run.exists_of_labels step
    ((start : Server Unit).create ['p'] 8 fun n ↦ some (8 - n)).2
    [acceptAll [1] 9 true, refuseAll [2, 3], acceptAll [4] 10 true] Label.IsPass
    (fun _ s ↦ s.waitingSockets = [5, 6, 7, 8, 2, 3, 10] ∧ s.activeSockets = [(1, ()), (4, ())] ∧
      s.sockets.length = 9)
    (by
      simp only [List.mem_cons, List.not_mem_nil, or_false, forall_eq_or_imp, forall_eq]
      exact ⟨fun _ ↦ rfl, fun _ ↦ rfl, fun _ ↦ rfl⟩)
    ⟨_, rfl, by decide⟩
  exact ⟨us, s, hrun, hwaiting, hactive, hlength,
    clients_within_capacity (.nil start) (List.forall_mem_nil _) hrun hpasses⟩

end Server

end Datapath.Windows
