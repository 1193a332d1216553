import Datapath.Windows.Server.Handles

/-!
# What a server closes

`sockets` is there for `close`, which disconnects and closes every handle in it, and
for the limit on new instances.  The verify phase also closes handles, the dead
connections for which the backlog has no room, and leaves them in `sockets`.
-/

namespace Datapath.Windows

open Datapath.Lib

namespace Server

variable {W : Type*} {s : Server W}

/-- `sockets` lists exactly the open handles, and every handle that `_create_socket`
has returned is in it or has been closed once. -/
structure Tidy (s : Server W) : Prop where
  ledger : Ledger s.kernel.Open s.sockets
  closed : (s.created.filter (· ≠ invalidHandleValue)).Perm (s.kernel.closed ++ s.sockets)

theorem Tidy.congr {s' : Server W} (h : s.Tidy) (hs : s'.sockets = s.sockets)
    (hk : ∀ b, s'.kernel.Open b ↔ s.kernel.Open b) (hcl : s'.kernel.closed = s.kernel.closed)
    (hcr : s'.created.filter (· ≠ invalidHandleValue) =
      s.created.filter (· ≠ invalidHandleValue)) : s'.Tidy where
  ledger := by rw [hs]; exact h.ledger.congr hk
  closed := by rw [hcr, hs, hcl]; exact h.closed

/-! ## What keeps the list tidy -/

theorem Tidy.failed (h : s.Tidy) : Tidy { s with created := s.created ++ [invalidHandleValue] } :=
  h.congr rfl (fun _ ↦ .rfl) rfl (by simp)

theorem Tidy.opened (h : s.Tidy) {a : HANDLE} (hne : a ≠ invalidHandleValue)
    (hnew : ¬ s.kernel.Open a) : (s.opened a).Tidy where
  ledger := (h.ledger.alloc hnew fun _ ↦ open_opened).perm (List.perm_append_singleton a _).symm
  closed := by
    show ((s.created ++ [a]).filter _).Perm (s.kernel.closed ++ (s.sockets ++ [a]))
    rw [List.filter_append, List.filter_cons_of_pos (by simpa using hne), List.filter_nil,
      ← List.append_assoc]
    exact h.closed.append_right [a]

theorem Tidy.restock (h : s.Tidy) (reply : Option HANDLE) : (restock reply s).Tidy := by
  rcases restock_cases reply s with ⟨hr, -⟩ | hr | ⟨a, hne, hnew, -, hr⟩
  · rw [hr]
    exact h
  · rw [hr]
    exact h.failed
  · rw [hr]
    exact h.opened hne hnew

theorem Tidy.settle (h : s.Tidy) (offer : Offer W) (a : HANDLE) : (s.settle offer a).Tidy := by
  unfold Server.settle
  split
  · apply Tidy.restock
    exact h.congr rfl (fun _ ↦ .rfl) rfl rfl
  · exact h.congr rfl (fun _ ↦ Kernel.open_disconnectNamedPipe) Kernel.closed_disconnectNamedPipe rfl

theorem Tidy.acceptPhase (h : s.Tidy) (onAccept : Bool) (offer : HANDLE → Offer W) :
    (s.acceptPhase onAccept offer).Tidy := by
  cases onAccept with
  | false => exact h
  | true =>
      rw [acceptPhase_eq]
      have hall : (s.settleAll offer s.pendingSockets).Tidy :=
        foldl_rule (I := fun _ (s : Server W) ↦ s.Tidy) (fun a _ _ ht ↦ ht.settle (offer a) a) h
      exact hall.congr rfl (fun _ ↦ .rfl) rfl rfl

theorem Tidy.connectPhase (h : s.Tidy) {connect : HANDLE → ConnectReply}
    (hzero : ∀ h, (connect h).suc = false) (hov : s.ovmap = []) : (s.connectPhase connect).Tidy := by
  obtain ⟨captured, heq⟩ := connectPhase_eq hzero hov
  rw [heq]
  exact h.congr rfl (fun _ ↦ open_foldl_connectNamedPipe) closed_foldl_connectNamedPipe rfl

/-- `close` closes what is listed. -/
theorem Tidy.close (h : s.Tidy) : s.close.Tidy where
  ledger := by
    refine ⟨List.nodup_nil, fun b ↦ ⟨fun hb ↦ ?_, nofun⟩⟩
    obtain ⟨hout, hopen⟩ := open_foldl_kill.1 hb
    exact absurd ((h.ledger.live_iff b).1 hopen) hout
  closed := by
    show List.Perm _ ((s.sockets.foldl kill s.kernel).closed ++ [])
    rw [closed_foldl_kill, List.append_nil]
    exact h.closed

/-! ## The verify phase -/

/-- The dead connections that the verify phase of a pass finds. -/
def deadCount (i : PassInput W) (s : Server W) : ℕ :=
  (s.offered i).activeSockets.countP (Dead i.expired i.good)

/-- In the verify phase of this step the backlog has room for all dead connections. -/
def RoomForDead (s : Server W) : Label W → Prop
  | .pass i => s.deadCount i ≤
      winBacklogNum - ((s.offered i).waitingSockets.length + (s.offered i).pendingSockets.length)
  | .create .. | .close => True

instance (s : Server W) : (l : Label W) → Decidable (s.RoomForDead l)
  | .pass i => inferInstanceAs (Decidable (s.deadCount i ≤
      winBacklogNum - ((s.offered i).waitingSockets.length + (s.offered i).pendingSockets.length)))
  | .create .. | .close => .isTrue trivial

variable {expired good : W → Bool}

/-- As long as there is room, no instance is closed. -/
theorem verify_room {entries : OrderedMap HANDLE W} :
    ∀ (s : Server W) (toKill : List HANDLE), entries.countP (Dead expired good) ≤
        winBacklogNum - (s.waitingSockets.length + s.pendingSockets.length) →
      (entries.foldl (verifyOne expired good) (s, toKill)).1.kernel = s.kernel := by
  induction entries with
  | nil =>
      intro s toKill _
      rfl
  | cons e rest ih =>
      intro s toKill hroom
      rw [List.foldl_cons, verifyOne_eq]
      by_cases hdead : Dead expired good e = true
      · rw [List.countP_cons_of_pos hdead] at hroom
        rw [if_pos hdead]
        rcases retire_cases e.1 s toKill with ⟨-, hr⟩ | ⟨hfull, -⟩
        · rw [hr, ih _ toKill]
          simp only [List.length_append, List.length_singleton]
          omega
        · omega
      · rw [List.countP_cons_of_neg hdead] at hroom
        rw [if_neg hdead, ih s toKill hroom]

/-- The verify phase opens nothing. -/
theorem verify_open {entries : OrderedMap HANDLE W} {b : HANDLE} :
    ∀ {s : Server W} {toKill : List HANDLE},
      (entries.foldl (verifyOne expired good) (s, toKill)).1.kernel.Open b → s.kernel.Open b := by
  induction entries with
  | nil =>
      intro s toKill h
      exact h
  | cons e rest ih =>
      intro s toKill h
      rw [List.foldl_cons, verifyOne_eq] at h
      by_cases hdead : Dead expired good e = true
      · rw [if_pos hdead] at h
        rcases retire_cases e.1 s toKill with ⟨-, hr⟩ | ⟨-, hr⟩
        · rw [hr] at h
          have hopen := ih h
          exact hopen
        · rw [hr] at h
          exact (open_kill.1 (ih h)).2
      · rw [if_neg hdead] at h
        exact ih h

/-- Without room for all dead connections, one of them is closed. -/
theorem verify_no_room {entries : OrderedMap HANDLE W} :
    ∀ (s : Server W) (toKill : List HANDLE),
      winBacklogNum - (s.waitingSockets.length + s.pendingSockets.length) <
        entries.countP (Dead expired good) →
      ∃ e ∈ entries, ¬ (entries.foldl (verifyOne expired good) (s, toKill)).1.kernel.Open e.1 := by
  induction entries with
  | nil =>
      intro s toKill h
      exact absurd h (Nat.not_lt_zero _)
  | cons e rest ih =>
      intro s toKill h
      rw [List.foldl_cons, verifyOne_eq]
      by_cases hdead : Dead expired good e = true
      · rw [List.countP_cons_of_pos hdead] at h
        rw [if_pos hdead]
        rcases retire_cases e.1 s toKill with ⟨hroom, hr⟩ | ⟨-, hr⟩
        · rw [hr]
          obtain ⟨e', he', hclosed⟩ := ih { s with
            waitingSockets := s.waitingSockets ++ [e.1]
            activeSockets := OrderedMap.erase e.1 s.activeSockets } toKill (by
              simp only [List.length_append, List.length_singleton]
              omega)
          exact ⟨e', List.mem_cons_of_mem _ he', hclosed⟩
        · rw [hr]
          refine ⟨e, List.mem_cons_self, fun hopen ↦ ?_⟩
          exact (open_kill.1 (verify_open hopen)).1 rfl
      · rw [List.countP_cons_of_neg hdead] at h
        rw [if_neg hdead]
        obtain ⟨e', he', hclosed⟩ := ih s toKill h
        exact ⟨e', List.mem_cons_of_mem _ he', hclosed⟩

/-- **The verify phase** leaves `sockets` tidy exactly when it has room for all dead
connections. -/
theorem Tidy.verifyPhase_iff (h : s.Tidy) (hbooks : s.Partitioned) (expired good : W → Bool) :
    (s.verifyPhase expired good).Tidy ↔ s.activeSockets.countP (Dead expired good) ≤
      winBacklogNum - (s.waitingSockets.length + s.pendingSockets.length) := by
  obtain ⟨hsockets, hcreated⟩ := verify_lists expired good s.activeSockets s []
  constructor
  · intro htidy
    by_contra hfull
    obtain ⟨e, he, hclosed⟩ := verify_no_room s [] (Nat.lt_of_not_le hfull)
    have hlisted : e.1 ∈ s.sockets := by
      apply hbooks.listed
      apply (hbooks.ledger.live_iff e.1).2
      exact List.mem_append_right _ (List.mem_map_of_mem he)
    apply hclosed
    apply (htidy.ledger.live_iff e.1).2
    show e.1 ∈ (s.activeSockets.foldl (verifyOne expired good) (s, [])).1.sockets
    rw [hsockets]
    exact hlisted
  · intro hroom
    have hkernel := verify_room s [] hroom
    refine h.congr hsockets (fun b ↦ ?_) ?_ ?_
    · exact iff_of_eq (congrArg (Kernel.Open · b) hkernel)
    · exact congrArg Kernel.closed hkernel
    · exact congrArg (List.filter (· ≠ invalidHandleValue)) hcreated

/-! ## Runs -/

theorem Tidy.create (h : s.Tidy) (path : List Char) (maxClients : ℕ) (replies : ℕ → Option HANDLE) :
    (s.create path maxClients replies).2.Tidy ∧
      ∀ r ∈ spawnReleases replies winBacklogNum (s.prepare path maxClients), r.Tidy := by
  have hclose : (s.prepare path maxClients).Tidy :=
    h.close.congr rfl (fun _ ↦ .rfl) rfl rfl
  exact create_rule path maxClients replies (fun _ hs ↦ hs.failed.close)
    (fun _ _ hs hne hnew ↦ hs.opened hne hnew) (fun _ hs ↦ hs.congr rfl (fun _ ↦ .rfl) rfl rfl) hclose

/-- A step releases the lock in tidy states only exactly when it has room for the
dead connections it finds. -/
theorem Tidy.step_iff {t : Transition (Server W) (Label W)}
    (hs : t.src.step t.label = some t.dst) (hzero : t.label.ConnectsReturnZero)
    (hinv : t.src.Inv) (h : t.src.Tidy) :
    ((∀ r ∈ t.src.releases t.label, r.Tidy) ↔ t.src.RoomForDead t.label) ∧
      (t.src.RoomForDead t.label → t.dst.Tidy) := by
  obtain ⟨s, l, s'⟩ := t
  have hstep : s.step l = some s' := hs
  rcases step_cases hstep hinv.ovmap with
    ⟨path, maxClients, replies, rfl, rfl⟩ | ⟨i, rfl, -, rfl⟩ | ⟨rfl, rfl⟩
  · obtain ⟨hlast, hall⟩ := h.create path maxClients replies
    exact ⟨iff_of_true (forall_releases_create.2 ⟨h.close, hall, hlast⟩) trivial, fun _ ↦ hlast⟩
  · have hoffered : (s.offered i).Tidy := (h.connectPhase hzero hinv.ovmap).acceptPhase _ _
    have hiff := hoffered.verifyPhase_iff (hinv.offered hzero).partitioned i.expired i.good
    rw [forall_releases_pass]
    refine ⟨⟨fun hall ↦ hiff.1 hall.2.2, fun hroom ↦ ?_⟩, fun hroom ↦ hiff.2 hroom⟩
    exact ⟨h.connectPhase hzero hinv.ovmap, hoffered, hiff.2 hroom⟩
  · exact ⟨iff_of_true (List.forall_mem_singleton.2 h.close) trivial, fun _ ↦ h.close⟩

theorem Tidy.start : (start : Server W).Tidy where
  ledger := ⟨List.nodup_nil, fun _ ↦ ⟨nofun, nofun⟩⟩
  closed := .refl _

/-- **What a server closes.**  In a run, `sockets` lists exactly the open handles
whenever the lock is released, and each handle that was created is listed or has been
closed once, exactly when in every pass the backlog has room for all the connections
found dead. -/
theorem handles_closed_once {ts : List (Transition (Server W) (Label W))}
    (hrun : Run step start ts s) (hzero : ∀ t ∈ ts, t.label.ConnectsReturnZero) :
    (∀ t ∈ ts, ∀ r ∈ t.src.releases t.label, r.Tidy) ↔ ∀ t ∈ ts, t.src.RoomForDead t.label :=
  hrun.forall_iff (I := fun s ↦ s.Inv ∧ s.Tidy)
    (fun _ hs hz hc h ↦ ⟨(h.1.step hs hz).1, (h.2.step_iff hs hz h.1).2 hc⟩)
    (fun _ hs hz h ↦ (h.2.step_iff hs hz h.1).1) ⟨Inv.start, Tidy.start⟩ hzero

/-- One client comes and leaves before the server is closed. -/
theorem handles_closed_once_one : ∃ ts s, Run step (start : Server Unit) ts s ∧
    s.kernel.closed = [1, 2, 3, 4, 5, 6, 7, 8] ∧
      ∀ t ∈ ts, ∀ r ∈ t.src.releases t.label, r.Tidy := by
  obtain ⟨ts, s, hrun, hzero, hroom, hclosed⟩ := Run.exists_of_labels step start
    [createEight 8, acceptAll [1] 9 true, acceptAll [] 9 false, .close] Label.ConnectsReturnZero
    (fun ts s ↦ (∀ t ∈ ts, t.src.RoomForDead t.label) ∧
      s.kernel.closed = [1, 2, 3, 4, 5, 6, 7, 8])
    (by simp) ⟨_, rfl, by decide⟩
  exact ⟨ts, s, hrun, hclosed, (handles_closed_once hrun hzero).2 hroom⟩

/-- Two clients come one after the other and leave together: the instance of the
second is closed at once, stays in `sockets`, and is closed again by `close`. -/
theorem surplus_closed_twice : ∃ ts s, Run step (start : Server Unit) ts s ∧
    (∀ t ∈ ts, t.label.ConnectsReturnZero) ∧
    (∃ t ∈ ts, ∃ r ∈ t.src.releases t.label, 2 ∈ r.sockets ∧ ¬ r.kernel.Open 2) ∧
    s.created.count 2 = 1 ∧ s.kernel.closed.count 2 = 2 :=
  Run.exists_of_labels step start
    [createEight 8, acceptAll [1] 9 true, acceptAll [2] 9 true, acceptAll [] 9 false, .close]
    Label.ConnectsReturnZero
    (fun ts s ↦ (∃ t ∈ ts, ∃ r ∈ t.src.releases t.label, 2 ∈ r.sockets ∧ ¬ r.kernel.Open 2) ∧
      s.created.count 2 = 1 ∧ s.kernel.closed.count 2 = 2)
    (by simp) ⟨_, rfl, by decide⟩

end Server

end Datapath.Windows
